import KhulnasoftLsp.Suggestion.Cache
import KhulnasoftLsp.Tracking.Trackers

/-!
# Requests that are not streamed

`#getSuggestionOptions` answers a request with the options of the cache, with those of the API, or
with both of them if the user has invoked it. The options of the API share one tracking id, those of
the cache have one each, and only the first of these is tracked as loaded. Merged options keep the
indices that they had before.
-/

namespace KhulnasoftLsp.Suggestion

open Streaming SuggestionClient Tracking

inductive InlineCompletionTriggerKind where
  | invoked
  | automatic
  deriving DecidableEq, Repr

structure CompletionRequest where
  uri : String
  position : Position
  /-- The trigger kind of the `inlineCompletionContext`, if there is one. -/
  triggerKind : Option InlineCompletionTriggerKind

/-- What the cache is asked with. -/
def CompletionRequest.cacheContext (request : CompletionRequest) (context : IDocContext)
    (additionalContexts : Option (List AdditionalContext)) : SuggestionCacheContext where
  uri := request.uri
  position := request.position
  context
  additionalContexts

/-- What the service finds out while it handles a request. -/
structure Answers where
  /-- What `getContext` returns. -/
  suggestionContext : Option IDocContext
  suggestionsCache : SuggestionsCacheOptions
  /-- The events that the client tracks. -/
  actions : List TrackingEvent
  token : Option String
  /-- The request is cancelled when the debounce interval is over. -/
  isCancelledInDebounce : Bool
  /-- `shouldRejectCompletionWithSelectedCompletionTextMismatch` -/
  hasSelectedTextMismatch : Bool
  additionalContexts : List AdditionalContext
  /-- Streaming is enabled and the intent is a generation. -/
  isGeneration : Bool
  isCircuitBreakerOpen : Bool
  response : Except RequestError (Option SuggestionResponse)
  /-- What the processor for JSON or for YAML makes of a text. -/
  getSanitizedCompletion : IDocContext → JsString → Except RequestError JsString
  /-- The cache, when the response is there. -/
  cacheOnResponse : SuggestionsCache
  /-- The request is cancelled when the response is there. -/
  isCancellationRequested : Bool

/-- The text up to the first line break. -/
def lineSuffix (suffix : JsString) : JsString :=
  let line := suffix.takeWhile (· ≠ 0x000a)
  if line.length < suffix.length ∧ line.getLast? = some 0x000d then line.dropLast else line

/-- Only closing brackets and quotes follow on the line, and at most one separator after them. -/
def isAtOrNearEndOfLine (suffix : JsString) : Bool :=
  let rest := (lineSuffix suffix).dropWhile JsString.isWhitespace
  let rest := rest.dropWhile ([0x0029, 0x007d, 0x005d, 0x0022, 0x0027, 0x0060].contains ·)
  let rest := rest.dropWhile JsString.isWhitespace
  let rest := match rest with
    | [] => []
    | u :: us => if [0x003a, 0x007b, 0x003b, 0x002c].contains u then us else u :: us
  rest.all JsString.isWhitespace

/-- `processCompletion` of the `UrlSanitizationPostProcessor`. -/
def processCompletion
    (getSanitizedCompletion : IDocContext → JsString → Except RequestError JsString)
    (context : IDocContext) (input : List SuggestionOption) : List SuggestionOption :=
  if ["json", "yaml"].contains context.languageId then
    match input.mapM fun option =>
        (getSanitizedCompletion context option.text).map fun text => { option with text } with
    | .ok options => options
    | .error _ => input.map fun suggestion => { suggestion with text := [] }
  else input

/-- The calls of a function to the tracker, the cache that it leaves, and what it returns. -/
structure Outcome (α : Type) where
  calls : List TrackerCall
  cache : SuggestionsCache
  result : α

namespace Answers

def trackShowIfNeeded (a : Answers) (id : String) : List TrackerCall :=
  if canClientTrackEvent a.actions .shown then [] else [.trackEvent .shown id]

def getSuggestions (a : Answers) (request : CompletionRequest) (id : String)
    (context : IDocContext) (additionalContexts : Option (List AdditionalContext))
    (cache : SuggestionsCache) : Outcome (Except RequestError (List SuggestionOption)) :=
  if a.isCircuitBreakerOpen then ⟨[], cache, .ok []⟩
  else if a.token.getD "" = "" then ⟨[], cache, .ok []⟩
  else if context.prefixText.length + context.suffix.length < 10 then ⟨[], cache, .ok []⟩
  else if !isAtOrNearEndOfLine context.suffix then ⟨[], cache, .ok []⟩
  else
    match a.response with
    | .error e => ⟨[.setTrackingContext id none], a.cacheOnResponse, .error e⟩
    | .ok response =>
      let calls := [.setTrackingContext id none, .setTrackingContext id none]
      if (response.bind (·.error)).getD "" ≠ "" then ⟨calls, a.cacheOnResponse, .error .other⟩
      else
        let calls := calls ++ [.trackEvent .loaded id]
        let choices := (response.bind (·.choices)).getD []
        let suggestionOptions := choices.mapIdx fun index text =>
          { index := some index, text, uniqueTrackingId := id, model := response.bind (·.model) }
        let processedChoices := processCompletion a.getSanitizedCompletion context suggestionOptions
        let cache := SuggestionsCache.addToSuggestionCache a.suggestionsCache
          (request.cacheContext context additionalContexts) processedChoices a.cacheOnResponse
        if a.isCancellationRequested then
          ⟨calls ++ [.trackEvent .cancelled id], cache, .ok []⟩
        else if choices.all (·.isEmpty) then
          ⟨calls ++ [.trackEvent .notProvided id], cache, .ok []⟩
        else
          ⟨calls ++ .setTrackingContext id none :: a.trackShowIfNeeded id, cache,
            .ok processedChoices⟩

def handleNonStreamingCompletion (a : Answers) (request : CompletionRequest) (id : String)
    (context : IDocContext) (additionalContexts : Option (List AdditionalContext))
    (cache : SuggestionsCache) : Outcome (List SuggestionOption) :=
  let ⟨calls, cache, result⟩ := a.getSuggestions request id context additionalContexts cache
  match result with
  | .ok options => ⟨calls, cache, options⟩
  | .error e =>
    let status := match e with
      | .fetchError _ => [.setTrackingContext id none]
      | .other => []
    ⟨calls ++ status ++ [.trackEvent .errored id], cache, []⟩

def useAndTrackCachedSuggestions (a : Answers) (request : CompletionRequest) (ids : Nat → String)
    (context : IDocContext) (cache : SuggestionsCache) :
    Outcome (Option (List SuggestionOption)) :=
  let (cache, suggestionsCache) := SuggestionsCache.getCachedSuggestions a.suggestionsCache ids
    (request.cacheContext context none) cache
  match (suggestionsCache.map SuggestionCache.options).getD [] with
  | [] => ⟨[], cache, none⟩
  | first :: rest =>
    -- the ids of the other options are not tracked
    let id := first.uniqueTrackingId
    ⟨.setTrackingContext id none :: .trackEvent .loaded id :: a.trackShowIfNeeded id, cache,
      some ((first :: rest).mapIdx fun index option => { option with index := some index })⟩

/-- `generateUniqueTrackingId` returns the ids one after the other. Nothing is returned if the
request is answered with a stream. The cache is returned as the call of the API has left it: options
of the cache that are put in front may be added to its entry too, which holds the same array. -/
def getSuggestionOptions (a : Answers) (request : CompletionRequest) (ids : Nat → String)
    (cache : SuggestionsCache) : Outcome (Option (List SuggestionOption)) :=
  match a.suggestionContext with
  | none => ⟨[], cache, some []⟩
  | some context =>
    let ⟨calls, cache, cachedSuggestions⟩ :=
      a.useAndTrackCachedSuggestions request ids context cache
    let id := ids (cachedSuggestions.getD []).length
    if request.triggerKind = some .invoked then
      let api := a.handleNonStreamingCompletion request id context none cache
      -- the options keep the indices that they had in their own lists
      ⟨calls ++ api.calls ++ (cachedSuggestions.getD []).map fun cs =>
          .setTrackingContext cs.uniqueTrackingId none,
        api.cache, some (cachedSuggestions.getD [] ++ api.result)⟩
    else
      match cachedSuggestions with
      | some options => ⟨calls, cache, some options⟩
      | none =>
        if a.isCancelledInDebounce then ⟨calls, cache, some []⟩
        else if request.triggerKind.isSome && a.hasSelectedTextMismatch then
          ⟨calls, cache, some []⟩
        else if request.triggerKind.isSome && a.isGeneration then ⟨calls, cache, none⟩
        else
          let api := a.handleNonStreamingCompletion request id context (some a.additionalContexts)
            cache
          ⟨calls ++ api.calls, api.cache, some api.result⟩

/-! ## What the parts of the service contribute -/

/-- The options have the indices of their positions, and the ids given for these. -/
def Placed (ids : Nat → String) (options : List SuggestionOption) : Prop :=
  ∀ i option, options[i]? = some option →
    option.index = some i ∧ option.uniqueTrackingId = ids i

/-- The API gives suggestions, and the request is not cancelled before it does. -/
structure Provides (a : Answers) (context : IDocContext) : Prop where
  isClosed : a.isCircuitBreakerOpen = false
  token : a.token.getD "" ≠ ""
  content : 10 ≤ context.prefixText.length + context.suffix.length
  endOfLine : isAtOrNearEndOfLine context.suffix = true
  response : ∃ response, a.response = .ok response ∧ (response.bind (·.error)).getD "" = "" ∧
    ∃ text ∈ (response.bind (·.choices)).getD [], text ≠ []
  proceeds : a.isCancellationRequested = false

/-- A processor changes nothing but texts. -/
theorem processCompletion_map {α : Type*} {f : SuggestionOption → α}
    (hf : ∀ option text, f { option with text } = f option)
    (getSanitizedCompletion : IDocContext → JsString → Except RequestError JsString)
    (context : IDocContext) (input : List SuggestionOption) :
    (processCompletion getSanitizedCompletion context input).map f = input.map f := by
  unfold processCompletion
  split
  · split
    · next options hoptions =>
      induction input generalizing options with
      | nil =>
        obtain rfl := Except.ok.inj hoptions
        rfl
      | cons option input ih =>
        rw [List.mapM_cons] at hoptions
        cases htext : getSanitizedCompletion context option.text with
        | error e =>
          rw [htext] at hoptions
          nomatch hoptions
        | ok text =>
          rw [htext] at hoptions
          cases hrest : input.mapM fun option =>
              (getSanitizedCompletion context option.text).map fun text => { option with text } with
          | error e =>
            rw [hrest] at hoptions
            nomatch hoptions
          | ok rest =>
            rw [hrest] at hoptions
            obtain rfl := Except.ok.inj hoptions
            rw [List.map_cons, List.map_cons, hf, ih rest hrest]
    · rw [List.map_map]
      exact List.map_congr_left fun option _ => hf option []
  · rfl

theorem placed_processCompletion {ids : Nat → String} {input : List SuggestionOption}
    (h : Placed ids input)
    (getSanitizedCompletion : IDocContext → JsString → Except RequestError JsString)
    (context : IDocContext) :
    Placed ids (processCompletion getSanitizedCompletion context input) := by
  intro i option hoption
  have hmap := processCompletion_map (f := fun option => (option.index, option.uniqueTrackingId))
    (fun _ _ => rfl) getSanitizedCompletion context input
  have hi := congrArg (·[i]?) hmap
  simp only [List.getElem?_map, hoption, Option.map_some] at hi
  obtain ⟨option', hoption', heq⟩ := Option.map_eq_some_iff.mp hi.symm
  obtain ⟨hindex, hid⟩ := Prod.mk.inj heq
  rw [← hindex, ← hid]
  exact h i option' hoption'

variable {a : Answers} {request : CompletionRequest} {context : IDocContext} {id : String}
  {additionalContexts : Option (List AdditionalContext)} {cache : SuggestionsCache}

theorem id_of_mem_trackShowIfNeeded {c : TrackerCall} (h : c ∈ a.trackShowIfNeeded id) :
    c.id = id := by
  unfold trackShowIfNeeded at h
  split at h
  · nomatch h
  · obtain rfl := List.mem_singleton.mp h
    rfl

theorem id_of_mem_getSuggestions {c : TrackerCall}
    (h : c ∈ (a.getSuggestions request id context additionalContexts cache).calls) : c.id = id := by
  have hshow : ∀ c ∈ a.trackShowIfNeeded id, c.id = id := fun _ => id_of_mem_trackShowIfNeeded
  unfold getSuggestions at h
  repeat' split at h
  all_goals grind [TrackerCall.id]

theorem id_of_mem_handleNonStreamingCompletion {c : TrackerCall}
    (h : c ∈ (a.handleNonStreamingCompletion request id context additionalContexts cache).calls) :
    c.id = id := by
  unfold handleNonStreamingCompletion at h
  dsimp only at h
  split at h
  · exact id_of_mem_getSuggestions h
  · simp only [List.mem_append, List.mem_singleton] at h
    rcases h with (h | h) | rfl
    · exact id_of_mem_getSuggestions h
    · split at h
      · obtain rfl := List.mem_singleton.mp h
        rfl
      · nomatch h
    · rfl

variable (request id additionalContexts cache) in
theorem getSuggestions_of_not_provides (h : ¬a.Provides context) :
    (a.getSuggestions request id context additionalContexts cache).result = .ok [] ∨
      ∃ e, (a.getSuggestions request id context additionalContexts cache).result = .error e := by
  unfold getSuggestions
  split
  · exact Or.inl rfl
  next hclosed =>
  split
  · exact Or.inl rfl
  next htoken =>
  split
  · exact Or.inl rfl
  next hcontent =>
  split
  · exact Or.inl rfl
  next hend =>
  split
  · exact Or.inr ⟨_, rfl⟩
  next response hresponse =>
  dsimp only
  split
  · exact Or.inr ⟨_, rfl⟩
  next herror =>
  split
  · exact Or.inl rfl
  next hproceeds =>
  split
  · exact Or.inl rfl
  next hchoices =>
  refine absurd ⟨by simpa using hclosed, htoken, by omega, by simpa using hend,
    ⟨response, hresponse, by simpa using herror, ?_⟩, by simpa using hproceeds⟩ h
  simpa using hchoices

variable (request id additionalContexts cache) in
theorem handleNonStreamingCompletion_of_not_provides (h : ¬a.Provides context) :
    (a.handleNonStreamingCompletion request id context additionalContexts cache).result = [] := by
  unfold handleNonStreamingCompletion
  dsimp only
  rcases getSuggestions_of_not_provides request id additionalContexts cache h with
    hresult | ⟨e, hresult⟩
  · rw [hresult]
  · rw [hresult]

variable (request id additionalContexts cache) in
theorem handleNonStreamingCompletion_of_provides (h : a.Provides context) :
    (a.handleNonStreamingCompletion request id context additionalContexts cache).calls =
        .setTrackingContext id none :: .setTrackingContext id none :: .trackEvent .loaded id ::
          .setTrackingContext id none :: a.trackShowIfNeeded id ∧
      (a.handleNonStreamingCompletion request id context additionalContexts cache).result ≠ [] ∧
      Placed (fun _ => id)
        (a.handleNonStreamingCompletion request id context additionalContexts cache).result := by
  obtain ⟨hclosed, htoken, hcontent, hend, ⟨response, hresponse, herror, text, htext, hne⟩,
    hproceeds⟩ := h
  have hchoices : ((response.bind (·.choices)).getD []).all (·.isEmpty) = false := by
    simpa using ⟨text, htext, hne⟩
  unfold handleNonStreamingCompletion getSuggestions
  simp only [hclosed, htoken, hend, hresponse, herror, hproceeds, hchoices, Bool.false_eq_true,
    if_false, Bool.not_true, Nat.not_lt.mpr hcontent, ne_eq, not_true]
  refine ⟨rfl, ?_, ?_⟩
  · intro hnil
    have hmap := processCompletion_map (f := fun _ => ()) (fun _ _ => rfl)
      a.getSanitizedCompletion context (((response.bind (·.choices)).getD []).mapIdx
        fun index text => SuggestionOption.mk (some index) text id (response.bind (·.model)))
    rw [hnil, List.map_nil] at hmap
    have hempty := List.mapIdx_eq_nil_iff.mp (List.map_eq_nil_iff.mp hmap.symm)
    rw [hempty] at htext
    nomatch htext
  · apply placed_processCompletion
    intro i option hoption
    rw [List.getElem?_mapIdx] at hoption
    obtain ⟨choice, -, rfl⟩ := Option.map_eq_some_iff.mp hoption
    exact ⟨rfl, rfl⟩

/-- The suggestions of the cache that apply to the request. -/
def cached (a : Answers) (request : CompletionRequest) (context : IDocContext)
    (cache : SuggestionsCache) : List SuggestionOption :=
  SuggestionsCache.applicable a.suggestionsCache (request.cacheContext context none) cache

theorem useAndTrackCachedSuggestions_of_nil (ids : Nat → String)
    (h : a.cached request context cache = []) :
    (a.useAndTrackCachedSuggestions request ids context cache).calls = [] ∧
      (a.useAndTrackCachedSuggestions request ids context cache).result = none := by
  have hoptions := SuggestionsCache.getCachedSuggestions_options a.suggestionsCache ids
    (request.cacheContext context none) cache
  unfold cached at h
  rw [h, List.mapIdx_nil] at hoptions
  unfold useAndTrackCachedSuggestions
  simp [hoptions]

theorem useAndTrackCachedSuggestions_of_ne_nil (ids : Nat → String)
    (h : a.cached request context cache ≠ []) :
    (a.useAndTrackCachedSuggestions request ids context cache).calls =
        .setTrackingContext (ids 0) none :: .trackEvent .loaded (ids 0) ::
          a.trackShowIfNeeded (ids 0) ∧
      ∃ options,
        (a.useAndTrackCachedSuggestions request ids context cache).result = some options ∧
          options.length = (a.cached request context cache).length ∧ Placed ids options := by
  have hoptions := SuggestionsCache.getCachedSuggestions_options a.suggestionsCache ids
    (request.cacheContext context none) cache
  have hlength := congrArg List.length hoptions
  rw [List.length_mapIdx] at hlength
  have hids : ∀ i option, (((SuggestionsCache.getCachedSuggestions a.suggestionsCache ids
      (request.cacheContext context none) cache).2.map SuggestionCache.options).getD [])[i]? =
        some option → option.uniqueTrackingId = ids i := by
    intro i option hoption
    rw [hoptions, List.getElem?_mapIdx] at hoption
    obtain ⟨s, -, rfl⟩ := Option.map_eq_some_iff.mp hoption
    rfl
  unfold useAndTrackCachedSuggestions
  dsimp only
  split
  · next hnil =>
    rw [hnil] at hlength
    exact absurd (List.length_eq_zero_iff.mp hlength.symm) h
  · next first rest hcons =>
    rw [hcons] at hlength hids
    refine ⟨?_, _, rfl, ?_, ?_⟩
    · rw [hids 0 first rfl]
    · rw [List.length_mapIdx]
      exact hlength
    · intro i option hoption
      rw [List.getElem?_mapIdx] at hoption
      obtain ⟨s, hs, rfl⟩ := Option.map_eq_some_iff.mp hoption
      exact ⟨rfl, hids i s hs⟩

/-! ## What is tracked of the options -/

/-- The options have the indices of their positions, and are tracked as loaded. -/
def AllTracked (t : Tracker) (options : List SuggestionOption) : Prop :=
  ∀ (i : Nat) option, options[i]? = some option →
    option.index = some i ∧ t.Loaded option.uniqueTrackingId

/-- The cache has no suggestions for the request, or it has one, and that is not merged with
suggestions of the API. -/
def OneSource (a : Answers) (request : CompletionRequest) (cache : SuggestionsCache) : Prop :=
  ∀ context, a.suggestionContext = some context →
    a.cached request context cache = [] ∨
      ((a.cached request context cache).length = 1 ∧
        (request.triggerKind = some .invoked → ¬a.Provides context))

/-- The API is asked, if the cache has nothing for the request. -/
def Asks (a : Answers) (request : CompletionRequest) : Prop :=
  request.triggerKind = some .invoked ∨ (a.isCancelledInDebounce = false ∧
    (request.triggerKind.isSome && a.hasSelectedTextMismatch) = false)

/-- There are options for the request. -/
def Serves (a : Answers) (request : CompletionRequest) (cache : SuggestionsCache) : Prop :=
  ∃ context, a.suggestionContext = some context ∧
    (a.cached request context cache ≠ [] ∨ (a.Asks request ∧ a.Provides context))

variable {t : Tracker} {ids : Nat → String} {calls cs : List TrackerCall}

theorem isPlain_of_mem_trackShowIfNeeded {c : TrackerCall} (h : c ∈ a.trackShowIfNeeded id) :
    Tracker.IsPlain c := by
  unfold trackShowIfNeeded at h
  split at h
  · nomatch h
  · obtain rfl := List.mem_singleton.mp h
    exact Or.inr rfl

/-- The options of the API are all tracked, as long as their timer does not fire. -/
theorem allTracked_iff_of_api (ht : t.Unknown id)
    (hcs : cs.filter (·.isFor id) =
      (a.handleNonStreamingCompletion request id context additionalContexts cache).calls.filter
        (·.isFor id)) :
    AllTracked (cs.foldl Tracker.call t)
        (a.handleNonStreamingCompletion request id context additionalContexts cache).result ↔
      (a.Provides context → Stage.Renewed id cs) := by
  by_cases hprovides : a.Provides context
  · obtain ⟨hcalls, hne, hplaced⟩ :=
      handleNonStreamingCompletion_of_provides request id additionalContexts cache hprovides
    have hloaded : (cs.foldl Tracker.call t).Loaded id ↔ Stage.Renewed id cs := by
      rw [Tracker.loaded_calls_iff ht hcs]
      · apply and_iff_right
        rw [hcalls]
        exact List.Sublist.cons_cons _ (List.singleton_sublist.mpr (by simp))
      · intro c hc _
        rw [hcalls] at hc
        have hshow : c ∈ a.trackShowIfNeeded id → Tracker.IsPlain c :=
          isPlain_of_mem_trackShowIfNeeded
        grind [Tracker.IsPlain]
    constructor
    · intro h _
      obtain ⟨first, rest, hfirst⟩ := List.exists_cons_of_ne_nil hne
      rw [hfirst] at h hplaced
      have htracked := (h 0 first rfl).2
      rw [(hplaced 0 first rfl).2] at htracked
      exact hloaded.mp htracked
    · intro h i option hoption
      obtain ⟨hindex, hid⟩ := hplaced i option hoption
      rw [hid, hloaded]
      exact ⟨hindex, h hprovides⟩
  · rw [handleNonStreamingCompletion_of_not_provides request id _ _ hprovides]
    refine iff_of_true ?_ fun h => absurd h hprovides
    intro i option hoption
    nomatch hoption

/-- Of the options of the cache, the first one is tracked as loaded. The calls that follow are for
another id, or they only set a context. -/
theorem loaded_cached_iff {n : Nat} {tail : List TrackerCall} (hids : ids.Injective)
    (ht : ∀ i, t.Unknown (ids i))
    (hcs : ∀ i, cs.filter (·.isFor (ids i)) = calls.filter (·.isFor (ids i)))
    (hcalls : calls = .setTrackingContext (ids 0) none :: .trackEvent .loaded (ids 0) ::
      (a.trackShowIfNeeded (ids 0) ++ tail))
    (htail : ∀ c ∈ tail, c.id = ids n ∨ ∃ j, c = .setTrackingContext j none)
    {i : Nat} (hi : i < n) :
    (cs.foldl Tracker.call t).Loaded (ids i) ↔ i = 0 ∧ Stage.Renewed (ids 0) cs := by
  have hne : ids i ≠ ids n := by
    intro h
    exact hi.ne (hids h)
  have hloads : Stage.unknown.Loads (ids i) calls ↔ i = 0 := by
    constructor
    · intro hsublist
      have hmem : TrackerCall.trackEvent .loaded (ids i) ∈ calls :=
        hsublist.subset (List.mem_cons_of_mem _ List.mem_cons_self)
      rw [hcalls] at hmem
      -- it is the event of the first option
      apply hids
      rcases List.mem_cons.mp hmem with h | hmem
      · nomatch h
      rcases List.mem_cons.mp hmem with h | hmem
      · exact (TrackerCall.trackEvent.inj h).2
      rcases List.mem_append.mp hmem with h | h
      · exact id_of_mem_trackShowIfNeeded h
      · rcases htail _ h with h | ⟨j, h⟩
        · exact absurd h hne
        · nomatch h
    · intro hzero
      rw [hzero, hcalls]
      exact List.Sublist.cons_cons _ (List.singleton_sublist.mpr List.mem_cons_self)
  rw [Tracker.loaded_calls_iff (ht i) (hcs i), hloads]
  · constructor
    · rintro ⟨rfl, hrenewed⟩
      exact ⟨rfl, hrenewed⟩
    · rintro ⟨rfl, hrenewed⟩
      exact ⟨rfl, hrenewed⟩
  · intro c hc hfor
    rw [hcalls] at hc
    have hshow : c ∈ a.trackShowIfNeeded (ids 0) → Tracker.IsPlain c :=
      isPlain_of_mem_trackShowIfNeeded
    have hid : c.id = ids i := by
      cases c with
      | setTrackingContext _ _ => exact of_decide_eq_true hfor
      | trackEvent _ _ => exact of_decide_eq_true hfor
      | collect _ => nomatch hfor
    grind [Tracker.IsPlain]

theorem allTracked_iff_of_placed {options : List SuggestionOption} {p : Prop}
    (hplaced : Placed ids options) (hne : options ≠ [])
    (hloaded : ∀ i < options.length, t.Loaded (ids i) ↔ i = 0 ∧ p) :
    AllTracked t options ↔ options.length = 1 ∧ p := by
  have hpos : 0 < options.length := List.length_pos_iff.mpr hne
  constructor
  · intro h
    have htracked : ∀ i < options.length, i = 0 ∧ p := by
      intro i hi
      have hoption := List.getElem?_eq_getElem hi
      rw [← hloaded i hi, ← (hplaced i _ hoption).2]
      exact (h i _ hoption).2
    refine ⟨?_, (htracked 0 hpos).2⟩
    by_contra hlength
    exact Nat.one_ne_zero (htracked 1 (by omega)).1
  · rintro ⟨hlength, hp⟩ i option hoption
    obtain ⟨hindex, hid⟩ := hplaced i option hoption
    obtain ⟨hi, -⟩ := List.getElem?_eq_some_iff.mp hoption
    rw [hid, hloaded i hi]
    exact ⟨hindex, by omega, hp⟩

/-- Options of the API have the wrong indices after others. -/
theorem allTracked_append_iff {options others : List SuggestionOption} {ids' : Nat → String}
    (hne : options ≠ []) (hothers : Placed ids' others) :
    AllTracked t (options ++ others) ↔ AllTracked t options ∧ others = [] := by
  constructor
  · intro h
    constructor
    · intro i option hoption
      apply h i option
      rw [List.getElem?_append_left (List.getElem?_eq_some_iff.mp hoption).1]
      exact hoption
    · by_contra hsome
      obtain ⟨first, rest, rfl⟩ := List.exists_cons_of_ne_nil hsome
      have hindex := (h options.length first (by simp)).1
      rw [(hothers 0 first rfl).1] at hindex
      exact hne (List.length_eq_zero_iff.mp (Option.some.inj hindex).symm)
  · rintro ⟨h, rfl⟩
    rw [List.append_nil]
    exact h

theorem handleNonStreamingCompletion_placed :
    Placed (fun _ => id)
      (a.handleNonStreamingCompletion request id context additionalContexts cache).result := by
  by_cases hprovides : a.Provides context
  · exact (handleNonStreamingCompletion_of_provides request id _ _ hprovides).2.2
  · rw [handleNonStreamingCompletion_of_not_provides request id _ _ hprovides]
    intro i option hoption
    nomatch hoption

theorem handleNonStreamingCompletion_eq_nil_iff :
    (a.handleNonStreamingCompletion request id context additionalContexts cache).result = [] ↔
      ¬a.Provides context := by
  constructor
  · intro h hprovides
    exact (handleNonStreamingCompletion_of_provides request id _ _ hprovides).2.1 h
  · exact handleNonStreamingCompletion_of_not_provides request id _ _

/-- Without suggestions of the cache, what is returned is the answer of the API, or nothing. -/
theorem getSuggestionOptions_of_uncached (hcontext : a.suggestionContext = some context)
    (hcached : a.cached request context cache = []) {options : List SuggestionOption}
    (h : (a.getSuggestionOptions request ids cache).result = some options) :
    (¬a.Asks request ∧ options = []) ∨ (a.Asks request ∧ ∃ additionalContexts cache',
      options = (a.handleNonStreamingCompletion request (ids 0) context additionalContexts
        cache').result ∧
      (a.getSuggestionOptions request ids cache).calls =
        (a.handleNonStreamingCompletion request (ids 0) context additionalContexts
          cache').calls) := by
  obtain ⟨hcalls, hresult⟩ := useAndTrackCachedSuggestions_of_nil ids hcached
  revert h
  unfold getSuggestionOptions Asks
  simp only [hcontext, hcalls, hresult, Option.getD_none, List.length_nil, List.nil_append,
    List.map_nil, List.append_nil]
  split
  · next hinvoked =>
    intro h
    exact Or.inr ⟨Or.inl hinvoked, _, _, (Option.some.inj h).symm, rfl⟩
  next hautomatic =>
  split
  · next hcancelled =>
    intro h
    exact Or.inl ⟨by simp [hautomatic, hcancelled], (Option.some.inj h).symm⟩
  next hcancelled =>
  split
  · next hmismatch =>
    intro h
    exact Or.inl ⟨by simp [hautomatic, hmismatch], (Option.some.inj h).symm⟩
  next hmismatch =>
  split
  · intro h
    nomatch h
  · intro h
    exact Or.inr ⟨Or.inr ⟨Bool.eq_false_iff.mpr hcancelled, Bool.eq_false_iff.mpr hmismatch⟩,
      _, _, (Option.some.inj h).symm, rfl⟩

/-- With suggestions of the cache, all depends on what comes after the first one. -/
theorem allTracked_iff_of_cached (hids : ids.Injective) (ht : ∀ i, t.Unknown (ids i))
    (hcontext : a.suggestionContext = some context)
    (hcached : a.cached request context cache ≠ []) {options : List SuggestionOption}
    (h : (a.getSuggestionOptions request ids cache).result = some options)
    (hcs : ∀ i, cs.filter (·.isFor (ids i)) =
      (a.getSuggestionOptions request ids cache).calls.filter (·.isFor (ids i))) :
    AllTracked (cs.foldl Tracker.call t) options ↔
      ((a.cached request context cache).length = 1 ∧
        (request.triggerKind = some .invoked → ¬a.Provides context)) ∧
          Stage.Renewed (ids 0) cs := by
  obtain ⟨hcalls, found, hresult, hlength, hplaced⟩ :=
    useAndTrackCachedSuggestions_of_ne_nil ids hcached
  have hfound : found ≠ [] := by
    rw [← List.length_pos_iff, hlength]
    exact List.length_pos_iff.mpr hcached
  unfold getSuggestionOptions at h hcs
  simp only [hcontext, hcalls, hresult, Option.getD_some] at h hcs
  rw [← hlength]
  by_cases hinvoked : request.triggerKind = some .invoked
  · simp only [if_pos hinvoked, Option.some.injEq] at h hcs
    subst h
    rw [allTracked_append_iff hfound handleNonStreamingCompletion_placed,
      handleNonStreamingCompletion_eq_nil_iff, allTracked_iff_of_placed hplaced hfound]
    · constructor
      · rintro ⟨⟨hone, hrenewed⟩, hprovides⟩
        exact ⟨⟨hone, fun _ => hprovides⟩, hrenewed⟩
      · rintro ⟨⟨hone, hprovides⟩, hrenewed⟩
        exact ⟨⟨hone, hrenewed⟩, hprovides hinvoked⟩
    · intro i hi
      apply loaded_cached_iff hids ht hcs (List.append_assoc _ _ _) _ hi
      intro c hc
      rcases List.mem_append.mp hc with hc | hc
      · exact Or.inl (id_of_mem_handleNonStreamingCompletion hc)
      · obtain ⟨cs, -, rfl⟩ := List.mem_map.mp hc
        exact Or.inr ⟨_, rfl⟩
  · simp only [if_neg hinvoked, Option.some.injEq] at h hcs
    subst h
    rw [and_iff_left (a := found.length = 1) fun h => absurd h hinvoked]
    apply allTracked_iff_of_placed hplaced hfound
    intro i hi
    refine loaded_cached_iff (a := a) hids ht hcs ?_ (List.forall_mem_nil _) hi
    rw [List.append_nil]

/-- **The options of a request are all tracked, and at their positions, exactly if they come from
one source**, are not several of the cache, and are not forgotten meanwhile, whatever other calls
the tracker gets. -/
theorem allTracked_iff_oneSource (hids : ids.Injective) (ht : ∀ i, t.Unknown (ids i))
    {options : List SuggestionOption}
    (h : (a.getSuggestionOptions request ids cache).result = some options)
    (hcs : ∀ i, cs.filter (·.isFor (ids i)) =
      (a.getSuggestionOptions request ids cache).calls.filter (·.isFor (ids i))) :
    AllTracked (cs.foldl Tracker.call t) options ↔
      a.OneSource request cache ∧ (a.Serves request cache → Stage.Renewed (ids 0) cs) := by
  unfold OneSource Serves
  cases hcontext : a.suggestionContext with
  | none =>
    obtain rfl : [] = options := by
      unfold getSuggestionOptions at h
      rw [hcontext] at h
      exact Option.some.inj h
    refine iff_of_true ?_ ⟨?_, ?_⟩
    · intro i option hoption
      nomatch hoption
    · intro context hsome
      nomatch hsome
    · rintro ⟨context, hsome, -⟩
      nomatch hsome
  | some context =>
    simp only [Option.some.injEq, forall_eq', exists_eq_left']
    by_cases hcached : a.cached request context cache = []
    · -- the options of the API, or none
      rw [and_iff_right (Or.inl hcached), or_iff_right (not_not.mpr hcached)]
      rcases getSuggestionOptions_of_uncached hcontext hcached h with
        ⟨hasks, rfl⟩ | ⟨hasks, additionalContexts, cache', rfl, hcalls⟩
      · refine iff_of_true ?_ fun h => absurd h.1 hasks
        intro i option hoption
        nomatch hoption
      · rw [and_iff_right hasks, allTracked_iff_of_api (ht 0)]
        rw [hcs 0, hcalls]
    · rw [or_iff_right hcached, allTracked_iff_of_cached hids ht hcontext hcached h hcs,
        forall_prop_of_true (Or.inl hcached)]

/-! ## Samples -/

/-- The cursor is at the end of a line. -/
def sampleDocument : IDocContext where
  prefixText := JsString.ofString "const answer = "
  suffix := []
  fileRelativePath := "a.ts"
  position := ⟨0, 15⟩
  uri := "file:///a.ts"
  languageId := "typescript"
  workspaceFolder := none

def sampleRequest (triggerKind : InlineCompletionTriggerKind) : CompletionRequest where
  uri := "file:///a.ts"
  position := ⟨0, 15⟩
  triggerKind := some triggerKind

/-- The API gives one suggestion. -/
def sample : Answers where
  suggestionContext := some sampleDocument
  suggestionsCache := ⟨true, 1, 1⟩
  actions := []
  token := some "token"
  isCancelledInDebounce := false
  hasSelectedTextMismatch := false
  additionalContexts := []
  isGeneration := false
  isCircuitBreakerOpen := false
  response := .ok (some ⟨some [JsString.ofString "42;"], none, 200, none, none⟩)
  getSanitizedCompletion := fun _ text => .ok text
  cacheOnResponse := OrderedMap.empty
  isCancellationRequested := false

/-- The cache after a request at the same place that was answered with the texts. -/
def sampleCache (texts : List String) : SuggestionsCache :=
  SuggestionsCache.addToSuggestionCache sample.suggestionsCache
    ((sampleRequest .automatic).cacheContext sampleDocument none)
    (texts.map fun text => ⟨none, JsString.ofString text, "", none⟩) OrderedMap.empty

def sampleId (i : Nat) : String := String.ofList (List.replicate i 'x')

theorem sampleId_injective : sampleId.Injective := by
  intro i j h
  have hlength := congrArg (fun s => s.toList.length) h
  simpa [sampleId] using hlength

theorem unknown_new (ignoresStreams : Bool) (actions : List TrackingEvent) (id : String) :
    (Tracker.new ignoresStreams actions).Unknown id := ⟨rfl, rfl⟩

/-- The option of the cache is tracked, if it is the only one. -/
theorem allTracked_iff_oneSource_of_cached :
    ∃ options, (sample.getSuggestionOptions (sampleRequest .automatic) sampleId
        (sampleCache ["42;"])).result = some options ∧ options.length = 1 ∧
      AllTracked ((sample.getSuggestionOptions (sampleRequest .automatic) sampleId
        (sampleCache ["42;"])).calls.foldl Tracker.call (Tracker.new true [])) options := by
  obtain ⟨options, h⟩ : ∃ options, (sample.getSuggestionOptions (sampleRequest .automatic) sampleId
      (sampleCache ["42;"])).result = some options :=
    Option.isSome_iff_exists.mp (by decide +kernel)
  have hlength : ∀ options ∈ (sample.getSuggestionOptions (sampleRequest .automatic) sampleId
      (sampleCache ["42;"])).result, options.length = 1 := by decide +kernel
  have hsource : sample.OneSource (sampleRequest .automatic) (sampleCache ["42;"]) := by
    intro context hcontext
    obtain rfl := Option.some.inj hcontext
    exact Or.inr ⟨by decide +kernel, fun hinvoked => nomatch hinvoked⟩
  have hrenewed : Stage.Renewed (sampleId 0) (sample.getSuggestionOptions
      (sampleRequest .automatic) sampleId (sampleCache ["42;"])).calls :=
    Stage.renewed_of_not_mem (by decide +kernel)
  exact ⟨options, h, hlength options h,
    (allTracked_iff_oneSource sampleId_injective (fun i => unknown_new true [] (sampleId i)) h
      fun _ => rfl).mpr ⟨hsource, fun _ => hrenewed⟩⟩

/-- Of two options of the cache, the second one is not tracked. An option of the API that comes
after one of the cache has the index zero. -/
theorem not_allTracked_of_merge :
    (∃ options, (sample.getSuggestionOptions (sampleRequest .automatic) sampleId
        (sampleCache ["42;", "43;"])).result = some options ∧
      ¬AllTracked ((sample.getSuggestionOptions (sampleRequest .automatic) sampleId
        (sampleCache ["42;", "43;"])).calls.foldl Tracker.call (Tracker.new true [])) options) ∧
    ∃ options, (sample.getSuggestionOptions (sampleRequest .invoked) sampleId
        (sampleCache ["43;"])).result = some options ∧
      ¬AllTracked ((sample.getSuggestionOptions (sampleRequest .invoked) sampleId
        (sampleCache ["43;"])).calls.foldl Tracker.call (Tracker.new true [])) options := by
  constructor
  · obtain ⟨options, h⟩ : ∃ options, (sample.getSuggestionOptions (sampleRequest .automatic)
        sampleId (sampleCache ["42;", "43;"])).result = some options :=
      Option.isSome_iff_exists.mp (by decide +kernel)
    have hsecond : ((sample.getSuggestionOptions (sampleRequest .automatic) sampleId
        (sampleCache ["42;", "43;"])).result.bind (·[1]?)).map (fun option =>
          ((sample.getSuggestionOptions (sampleRequest .automatic) sampleId
            (sampleCache ["42;", "43;"])).calls.foldl Tracker.call (Tracker.new true [])).tracked
              option.uniqueTrackingId) = some [] := by decide +kernel
    refine ⟨options, h, ?_⟩
    intro htracked
    rw [h] at hsecond
    obtain ⟨option, hoption, hnone⟩ := Option.map_eq_some_iff.mp hsecond
    have hloaded := (htracked 1 option hoption).2.loaded
    rw [hnone] at hloaded
    nomatch hloaded
  · obtain ⟨options, h⟩ : ∃ options, (sample.getSuggestionOptions (sampleRequest .invoked)
        sampleId (sampleCache ["43;"])).result = some options :=
      Option.isSome_iff_exists.mp (by decide +kernel)
    have hsecond : ((sample.getSuggestionOptions (sampleRequest .invoked) sampleId
        (sampleCache ["43;"])).result.bind (·[1]?)).map SuggestionOption.index = some (some 0) := by
      decide +kernel
    refine ⟨options, h, ?_⟩
    intro htracked
    rw [h] at hsecond
    obtain ⟨option, hoption, hzero⟩ := Option.map_eq_some_iff.mp hsecond
    have hindex := (htracked 1 option hoption).1
    rw [hzero] at hindex
    nomatch hindex

end Answers
end KhulnasoftLsp.Suggestion
