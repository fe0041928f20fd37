import KhulnasoftLsp.SuggestionClient.DirectConnection

/-!
# The cache of suggestions

`SuggestionsCache` keeps the suggestions of a request under a key that is made from the text around
the cursor. A later request at the same place gets those of them that go on with what has been typed
since, each with a new tracking id, once for each position.
-/

namespace KhulnasoftLsp.Suggestion

open Streaming SuggestionClient

structure SuggestionOption where
  index : Option Nat
  text : JsString
  uniqueTrackingId : String
  model : Option SuggestionModel
  deriving DecidableEq, Repr

structure SuggestionCacheEntry where
  character : Nat
  suggestions : List SuggestionOption
  additionalContexts : Option (List AdditionalContext)
  currentLine : JsString
  timesRetrievedByPosition : OrderedMap Nat Nat

structure SuggestionCacheContext where
  uri : String
  position : Position
  context : IDocContext
  additionalContexts : Option (List AdditionalContext)

structure SuggestionCache where
  options : List SuggestionOption
  additionalContexts : Option (List AdditionalContext)

structure SuggestionsCacheOptions where
  enabled : Bool
  prefixLines : Nat
  suffixLines : Nat
  deriving DecidableEq, Repr

/-- An entry may be evicted at any time. -/
abbrev SuggestionsCache := OrderedMap JsString SuggestionCacheEntry

/-- `slice(-n)`: nothing is cut off if `n` is zero. -/
def sliceLast {α : Type*} (n : Nat) (l : List α) : List α :=
  if n = 0 then l else l.drop (l.length - n)

/-- `prefix.split('\n').at(-1)` -/
def currentLine (context : IDocContext) : JsString := (context.prefixText.lines.getLast?).getD []

namespace SuggestionsCache

def getSuggestionKey (config : SuggestionsCacheOptions) (ctx : SuggestionCacheContext) :
    JsString :=
  let indentation := ((currentLine ctx.context).takeWhile JsString.isWhitespace).length
  let cachedPrefixLines := List.intercalate [0x000a] (sliceLast config.prefixLines
    (ctx.context.prefixText.lines.dropLast.filter JsString.hasContent))
  let cachedSuffixLines := List.intercalate [0x000a]
    ((ctx.context.suffix.lines.filter JsString.hasContent).take config.suffixLines)
  List.intercalate [0x003a] [JsString.ofString ctx.uri,
    JsString.ofString (toString ctx.position.line), cachedPrefixLines, cachedSuffixLines,
    JsString.ofString (toString indentation)]

def addToSuggestionCache (config : SuggestionsCacheOptions) (request : SuggestionCacheContext)
    (suggestions : List SuggestionOption) (cache : SuggestionsCache) : SuggestionsCache :=
  if config.enabled then
    cache.set (getSuggestionKey config request)
      { character := request.position.character
        suggestions
        additionalContexts := request.additionalContexts
        currentLine := currentLine request.context
        timesRetrievedByPosition := OrderedMap.empty }
  else cache

/-- What is left of a suggestion, if what has been typed since is a part of it. -/
def continuation (currentLine previousLine text : JsString) : Option JsString :=
  if currentLine.length < previousLine.length then none
  else
    let diff := currentLine.length - previousLine.length
    if text.length ≤ diff then none
    else if currentLine.take previousLine.length ≠ previousLine ∨
        text.take diff ≠ currentLine.drop previousLine.length then none
    else some (text.drop diff)

/-- The suggestions of an entry that still apply. -/
def continued (context : IDocContext) (candidate : SuggestionCacheEntry) :
    List SuggestionOption :=
  candidate.suggestions.filterMap fun s =>
    (continuation (currentLine context) candidate.currentLine s.text).map fun text =>
      { s with text }

def timesRetrieved (candidate : SuggestionCacheEntry) (character : Nat) : Nat :=
  (candidate.timesRetrievedByPosition.get character).getD 0

/-- What is returned, when `generateUniqueTrackingId` returns the ids one after the other. -/
def getCachedSuggestions (config : SuggestionsCacheOptions) (ids : Nat → String)
    (request : SuggestionCacheContext) (cache : SuggestionsCache) :
    SuggestionsCache × Option SuggestionCache :=
  if !config.enabled then (cache, none)
  else
    let key := getSuggestionKey config request
    match cache.get key with
    | none => (cache, none)
    | some candidate =>
      let character := request.position.character
      -- it has been returned from this position before
      if timesRetrieved candidate character > 0 then (cache.delete key, none)
      else
        let timesRetrievedByPosition := candidate.timesRetrievedByPosition.set character
          (timesRetrieved candidate character + 1)
        (cache.set key { candidate with timesRetrievedByPosition },
          some {
            options := (continued request.context candidate).mapIdx fun i s =>
              { s with uniqueTrackingId := ids i }
            additionalContexts := candidate.additionalContexts })

/-- The suggestions that the cache has for a request: those that still apply, of an entry that has
not been returned from the position yet. -/
def applicable (config : SuggestionsCacheOptions) (request : SuggestionCacheContext)
    (cache : SuggestionsCache) : List SuggestionOption :=
  match cache.get (getSuggestionKey config request) with
  | none => []
  | some candidate =>
    if config.enabled ∧ timesRetrieved candidate request.position.character = 0 then
      continued request.context candidate
    else []

theorem getCachedSuggestions_options (config : SuggestionsCacheOptions) (ids : Nat → String)
    (request : SuggestionCacheContext) (cache : SuggestionsCache) :
    ((getCachedSuggestions config ids request cache).2.map SuggestionCache.options).getD [] =
      (applicable config request cache).mapIdx fun i s => { s with uniqueTrackingId := ids i } := by
  unfold getCachedSuggestions applicable
  dsimp only
  generalize cache.get (getSuggestionKey config request) = entry
  cases henabled : config.enabled with
  | false => cases entry <;> simp
  | true =>
    cases entry with
    | none => simp
    | some candidate =>
      by_cases htimes : timesRetrieved candidate request.position.character = 0
      · simp [htimes]
      · simp [htimes, Nat.pos_of_ne_zero htimes]

end SuggestionsCache

/-! ## What a lookup returns and leaves -/

section Lookups

open SuggestionsCache

/-- The request hits the entry: the entry is under its key, and has not been returned from its
position yet. -/
structure Hits (config : SuggestionsCacheOptions) (request : SuggestionCacheContext)
    (cache : SuggestionsCache) (candidate : SuggestionCacheEntry) : Prop where
  enabled : config.enabled = true
  found : cache.get (getSuggestionKey config request) = some candidate
  first : timesRetrieved candidate request.position.character = 0

variable {config : SuggestionsCacheOptions} {request : SuggestionCacheContext}
  {cache : SuggestionsCache} {candidate : SuggestionCacheEntry}

theorem getCachedSuggestions_of_disabled (henabled : config.enabled ≠ true) (ids : Nat → String) :
    getCachedSuggestions config ids request cache = (cache, none) := by
  unfold getCachedSuggestions
  simp [henabled]

theorem getCachedSuggestions_of_missing (hget : cache.get (getSuggestionKey config request) = none)
    (ids : Nat → String) : getCachedSuggestions config ids request cache = (cache, none) := by
  unfold getCachedSuggestions
  simp [hget]

theorem getCachedSuggestions_of_retrieved (henabled : config.enabled = true)
    (hget : cache.get (getSuggestionKey config request) = some candidate)
    (htimes : 0 < timesRetrieved candidate request.position.character) (ids : Nat → String) :
    getCachedSuggestions config ids request cache =
      (cache.delete (getSuggestionKey config request), none) := by
  unfold getCachedSuggestions
  simp [henabled, hget, htimes]

theorem getCachedSuggestions_of_hits (h : Hits config request cache candidate)
    (ids : Nat → String) :
    getCachedSuggestions config ids request cache =
      (cache.set (getSuggestionKey config request) { candidate with
        timesRetrievedByPosition := candidate.timesRetrievedByPosition.set
          request.position.character (timesRetrieved candidate request.position.character + 1) },
        some {
          options := (continued request.context candidate).mapIdx fun i s =>
            { s with uniqueTrackingId := ids i }
          additionalContexts := candidate.additionalContexts }) := by
  unfold getCachedSuggestions
  simp [h.enabled, h.found, h.first]

/-- A lookup leaves the cache as it is, deletes the entry, or hits one. -/
theorem getCachedSuggestions_cases (config : SuggestionsCacheOptions) (ids : Nat → String)
    (request : SuggestionCacheContext) (cache : SuggestionsCache) :
    getCachedSuggestions config ids request cache = (cache, none) ∨
      getCachedSuggestions config ids request cache =
        (cache.delete (getSuggestionKey config request), none) ∨
      ∃ candidate, Hits config request cache candidate := by
  by_cases henabled : config.enabled = true
  · cases hget : cache.get (getSuggestionKey config request) with
    | none => exact .inl (getCachedSuggestions_of_missing hget ids)
    | some candidate =>
      by_cases htimes : timesRetrieved candidate request.position.character = 0
      · exact .inr (.inr ⟨candidate, henabled, hget, htimes⟩)
      · have hpos := Nat.pos_of_ne_zero htimes
        exact .inr (.inl (getCachedSuggestions_of_retrieved henabled hget hpos ids))
  · exact .inl (getCachedSuggestions_of_disabled henabled ids)

/-- What is returned is the answer to a hit. -/
theorem exists_hits_of_returned {ids : Nat → String} {returned : SuggestionCache}
    (h : (getCachedSuggestions config ids request cache).2 = some returned) :
    ∃ candidate, Hits config request cache candidate := by
  rcases getCachedSuggestions_cases config ids request cache with hkept | hdeleted | hhits
  · rw [hkept] at h
    cases h
  · rw [hdeleted] at h
    cases h
  · exact hhits

end Lookups

end KhulnasoftLsp.Suggestion
