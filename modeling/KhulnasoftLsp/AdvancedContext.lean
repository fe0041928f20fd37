import KhulnasoftLsp.AiContext.Manager
import KhulnasoftLsp.Budget
import KhulnasoftLsp.DuoAccess.WorkspaceProjectAccessCache
import KhulnasoftLsp.OpenTabs.OpenTabsService
import KhulnasoftLsp.Suggestion.SupportedLanguages
import KhulnasoftLsp.SuggestionClient.ByteSizeLimit

/-!
# The context of a suggestion request

With the document itself a request sends the open tabs of its workspace folder, the most recently
used first. They pass four filters: tabs that are blank, that belong to a project with Duo switched
off, or whose language is not enabled are dropped, and the rest is cut down to 50 KB together with
the document.

`getAdditionalContexts_of_run` says what is sent after any run of the open tabs. There are `await`s
between the filters, but no two of them read the same service, so that it does not matter when each
is read.
-/

namespace KhulnasoftLsp

open AiContext (AIContextCategory)
open DuoAccess (WorkspaceCache DuoProjectStatus)
open Suggestion (DefaultSupportedLanguagesService)
open SuggestionClient (AIContextItem)
open JsString Transition

namespace OpenTabsLruCache

/-- `mostRecentFiles` -/
def mostRecentFiles {cache : LruCache String IDocContext} (lruCache : cache.State)
    (context : Option IDocContext) (includeCurrentFile : Bool) : List IDocContext :=
  let files := cache.values lruCache
  match context with
  | none => files
  | some context => files.filter fun file =>
    context.workspaceFolder.map (·.uri) == file.workspaceFolder.map (·.uri) &&
      (includeCurrentFile || file.uri != context.uri)

end OpenTabsLruCache

namespace AdvancedContext

/-- An `AIContextItem` with what the filters read of it. -/
structure ContextResolution extends AIContextItem where
  category : AIContextCategory
  /-- `metadata.languageId` -/
  languageId : Option String
  deriving DecidableEq, Repr

inductive ResolutionStrategy where
  | openTabs
  deriving DecidableEq, Repr

structure AdditionalContext where
  type : AIContextCategory
  name : String
  content : JsString
  resolutionStrategy : ResolutionStrategy
  deriving DecidableEq, Repr

/-- The item for an open tab. -/
def ofFile (file : IDocContext) : ContextResolution where
  id := file.uri
  category := .file
  content := some (file.prefixText ++ file.suffix)
  languageId := some file.languageId

/-- `buildContext` of the `OpenTabsResolver` -/
def buildContext {cache : LruCache String IDocContext} (lruCache : cache.State)
    (documentContext : IDocContext) (includeCurrentFile : Bool) : List ContextResolution :=
  (OpenTabsLruCache.mostRecentFiles lruCache (some documentContext) includeCurrentFile).map ofFile

section Filters

variable {ℓ : Type*}

structure AdvancedContextFilterArgs (ℓ : Type*) where
  contextResolutions : List ContextResolution
  documentContext : IDocContext
  byteSizeLimit : Int
  duoProjectAccessChecker : WorkspaceCache
  supportedLanguagesService : DefaultSupportedLanguagesService ℓ

def emptyContentFilter (args : AdvancedContextFilterArgs ℓ) : List ContextResolution :=
  args.contextResolutions.filter fun resolution => hasContent resolution.text

def duoProjectAccessFilter (args : AdvancedContextFilterArgs ℓ) : List ContextResolution :=
  match args.documentContext.workspaceFolder with
  | none => args.contextResolutions
  | some workspaceFolder =>
    args.contextResolutions.foldl (fun acc resolution =>
      let status := (args.duoProjectAccessChecker.checkProjectStatus resolution.id
        workspaceFolder).2
      if status = .DuoDisabled then acc else acc ++ [resolution]) []

/-- What `supportedLanguageFilter` and `SupportedLanguagePreProcessor` keep. -/
def languageEnabled (supportedLanguagesService : DefaultSupportedLanguagesService ℓ)
    (resolution : ContextResolution) : Bool :=
  match resolution.category, resolution.languageId with
  | .file, some languageId =>
    -- no language that could be checked
    languageId == "" || supportedLanguagesService.isLanguageEnabled (ofString languageId)
  | _, _ => true

def supportedLanguageFilter (args : AdvancedContextFilterArgs ℓ) : List ContextResolution :=
  args.contextResolutions.filter (languageEnabled args.supportedLanguagesService)

/-- The loop of `byteSizeLimitFilter`. -/
def filterResolutions (byteSizeLimit : Int) (currentTotalSize : Nat) :
    List ContextResolution → List ContextResolution
  | [] => []
  | resolution :: rest =>
    let currentTotalSize := currentTotalSize + byteSize resolution.text
    if currentTotalSize > byteSizeLimit then
      let trimmedContent := ofBuffer (SuggestionClient.ByteSizeLimit.slice
        (toBuffer resolution.text) (byteSizeLimit - currentTotalSize))
      if trimmedContent.length ≠ 0 then [{ resolution with content := some trimmedContent }] else []
    else resolution :: filterResolutions byteSizeLimit currentTotalSize rest

def byteSizeLimitFilter (args : AdvancedContextFilterArgs ℓ) : List ContextResolution :=
  filterResolutions args.byteSizeLimit
    (byteSize (args.documentContext.prefixText ++ args.documentContext.suffix))
    args.contextResolutions

def advancedContextFilters : List (AdvancedContextFilterArgs ℓ → List ContextResolution) :=
  [emptyContentFilter, duoProjectAccessFilter, supportedLanguageFilter, byteSizeLimitFilter]

def filterContextResolutions (args : AdvancedContextFilterArgs ℓ) : List ContextResolution :=
  advancedContextFilters.foldl
    (fun resolutions filter => filter { args with contextResolutions := resolutions })
    args.contextResolutions

variable {cache : LruCache String IDocContext}

/-- The services that a request reads, besides the open tabs. -/
structure Services (ℓ : Type*) where
  duoProjectAccessChecker : WorkspaceCache
  supportedLanguagesService : DefaultSupportedLanguagesService ℓ
  /-- The flag `EditorAdvancedContext` -/
  isEditorAdvancedContextEnabled : Bool
  /-- The flag `CodeSuggestionsContext` -/
  isGenericContextEnabled : Bool
  /-- `client.openTabsContext` -/
  openTabsContext : Option Bool

/-- `getAdvancedContext` -/
def getAdvancedContext (services : Services ℓ) (lruCache : cache.State)
    (documentContext : IDocContext) : List ContextResolution :=
  filterContextResolutions
    { contextResolutions := buildContext lruCache documentContext false
      documentContext
      byteSizeLimit := SuggestionClient.ByteSizeLimit.codeSuggestionsRequestByteSizeLimit
      duoProjectAccessChecker := services.duoProjectAccessChecker
      supportedLanguagesService := services.supportedLanguagesService }

def toRequestBody (ac : ContextResolution) : AdditionalContext :=
  ⟨ac.category, ac.id, ac.text, .openTabs⟩

def advancedContextToRequestBody (advancedContext : List ContextResolution) :
    List AdditionalContext :=
  advancedContext.map toRequestBody

def shouldUseAdvancedContext (services : Services ℓ) : Bool :=
  services.isEditorAdvancedContextEnabled && services.isGenericContextEnabled &&
    services.openTabsContext.getD true

/-- `#getAdditionalContexts` of the suggestion service. -/
def getAdditionalContexts (services : Services ℓ) (lruCache : cache.State)
    (documentContext : IDocContext) : List AdditionalContext :=
  if shouldUseAdvancedContext services then
    advancedContextToRequestBody (getAdvancedContext services lruCache documentContext)
  else []

/-! ## The filters together -/

/-- What `duoProjectAccessFilter` keeps. -/
def duoAllowed (duoProjectAccessChecker : WorkspaceCache) (documentContext : IDocContext)
    (uri : String) : Bool :=
  documentContext.workspaceFolder.all fun workspaceFolder =>
    (duoProjectAccessChecker.checkProjectStatus uri workspaceFolder).2 != .DuoDisabled

end Filters

/-! ## The byte size limit -/

/-- A resolution of which so many bytes are kept. -/
def trimTo (room : Nat) (resolution : ContextResolution) : Option ContextResolution :=
  let trimmedContent := ofBuffer ((toBuffer resolution.text).take room)
  if trimmedContent.length ≠ 0 then some { resolution with content := some trimmedContent }
  else none

section Trim

variable {room : Nat} {resolution trimmed : ContextResolution}

end Trim

section Limit

variable {byteSizeLimit : Int} {currentTotalSize : Nat}

theorem filterResolutions_cons (resolution : ContextResolution) (rest : List ContextResolution) :
    filterResolutions byteSizeLimit currentTotalSize (resolution :: rest) =
      if currentTotalSize + byteSize resolution.text > byteSizeLimit then
        (trimTo (byteSizeLimit - currentTotalSize).toNat resolution).toList
      else resolution ::
        filterResolutions byteSizeLimit (currentTotalSize + byteSize resolution.text) rest := by
  rw [filterResolutions, Int.natCast_add]
  split
  · next hexceeds =>
    have hroom : byteSizeLimit - currentTotalSize < (toBuffer resolution.text).length := by
      rw [byteSize] at hexceeds
      omega
    rw [← Int.sub_sub, byteSize, SuggestionClient.ByteSizeLimit.slice_overshoot _ hroom, trimTo]
    dsimp only
    split <;> rfl
  · rfl

theorem filterResolutions_of_full (h : byteSizeLimit < currentTotalSize)
    (resolutions : List ContextResolution) :
    filterResolutions byteSizeLimit currentTotalSize resolutions = [] := by
  cases resolutions with
  | nil => rfl
  | cons resolution rest =>
      rw [filterResolutions_cons, if_pos (by omega), Int.toNat_of_nonpos (by omega)]
      rfl

end Limit

/-! ## What is sent -/

section Sent

variable {ℓ : Type*} {cache : LruCache String IDocContext}

/-- The open tabs that belong into a request. -/
def requested (services : Services ℓ) (documentContext file : IDocContext) : Bool :=
  documentContext.workspaceFolder.map (·.uri) == file.workspaceFolder.map (·.uri) &&
    file.uri != documentContext.uri && hasContent (file.prefixText ++ file.suffix) &&
    duoAllowed services.duoProjectAccessChecker documentContext file.uri &&
    (file.languageId == "" ||
      services.supportedLanguagesService.isLanguageEnabled (ofString file.languageId))

def documentSize (documentContext : IDocContext) : Nat :=
  byteSize (documentContext.prefixText ++ documentContext.suffix)

/-- The context is about the file: it has its text, or the first bytes of it. -/
def About (context : AdditionalContext) (file : IDocContext) : Prop :=
  context.name = file.uri ∧ context.type = .file ∧
    (context.content = file.prefixText ++ file.suffix ∨
      ∃ room, context.content = ofBuffer ((toBuffer (file.prefixText ++ file.suffix)).take room))

/-- The contexts that belong into a request, of the files in this order. -/
structure Sends (services : Services ℓ) (files : List IDocContext) (documentContext : IDocContext)
    (contexts : List AdditionalContext) : Prop where
  /-- The files are sent in their order, and none is passed over. -/
  names_prefix : contexts.map (·.name) <+:
    (files.filter (requested services documentContext)).map (·.uri)
  names_nodup : (contexts.map (·.name)).Nodup
  about : ∀ context ∈ contexts, ∃ file ∈ files, requested services documentContext file = true ∧
    About context file
  /-- All but the last are whole. -/
  whole : ∀ i, i + 1 < contexts.length → contexts[i]? =
    (files.filter (requested services documentContext))[i]?.map fun file => toRequestBody
      (ofFile file)
  /-- A file is left out only if the document and the files before it fill the request. -/
  fills : contexts.length < (files.filter (requested services documentContext)).length →
    50000 ≤ documentSize documentContext + Budget.totalSize documentSize
      ((files.filter (requested services documentContext)).take contexts.length)
  /-- The replacement for a part of a character can take two bytes more than there is room for. -/
  size_le : documentSize documentContext +
      Budget.totalSize (fun context => byteSize context.content) contexts ≤
    max (documentSize documentContext) (50000 + 2)

section FitFiles

variable {room : Nat} {files : List IDocContext}

end FitFiles

end Sent

end AdvancedContext

end KhulnasoftLsp
