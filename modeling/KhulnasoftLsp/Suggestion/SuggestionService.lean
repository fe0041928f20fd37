import KhulnasoftLsp.Async
import KhulnasoftLsp.Suggestion.InlineCompletion
import KhulnasoftLsp.Suggestion.Options

/-!
# The requests of the suggestion service

`#getSuggestionOptions` answers a request of the editor from the cache, with a stream, or with what
the model suggests. It waits for the debounce interval, for the contexts of the request, for the
intent and for the model, and other requests go on in the meantime: they share the circuit breaker,
the cache and the tracker, and the configuration may change.

`handled_of_run` is the account of each request in any interleaving. It begins with a look-up in the
cache, and what is tracked of the options that are found is known from then on. It goes to the model
at most once, only if the service may send it then, and what it reports to the breaker and to the
tracker fits what it returns.
-/

namespace KhulnasoftLsp.Suggestion.DefaultSuggestionService

open Async Async.Program Streaming SuggestionClient Tracking

/-! ## What the service works with -/

/-- What the service reads from the configuration and the feature flags. -/
structure Settings where
  suggestionsCache : SuggestionsCacheOptions
  /-- The events that the client tracks. -/
  actions : List TrackingEvent
  token : Option String
  projectPath : Option String
  streamCodeGenerations : Bool
  deriving DecidableEq, Repr

structure State where
  /-- The circuit breaker, and the streams. -/
  service : Service
  tracker : Tracker
  cache : SuggestionsCache
  settings : Settings
  /-- How many tracking ids there are. -/
  generated : Nat

inductive ServiceCall where
  | tracker (c : TrackerCall)
  | success
  | error
  | getCachedSuggestions (request : SuggestionCacheContext)
  | addToSuggestionCache (request : SuggestionCacheContext) (suggestions : List SuggestionOption)
  | generateUniqueTrackingId
  | handleStreamingInlineCompletion (r : StreamingRequest)
  | handleError (message : String)

/-- What `#getIntent` resolves to, and the project that is looked up for a stream. -/
structure IntentResolution where
  intent : Option Intent
  commentContent : Option JsString
  generationType : Option GenerationType
  namespaceWithPath : Option String

/-- What is found when the debounce interval is over. -/
structure Debounced where
  isCancellationRequested : Bool
  /-- `shouldRejectCompletionWithSelectedCompletionTextMismatch` -/
  hasSelectedTextMismatch : Bool

/-- What the post-processors return, and whether the request is cancelled then. -/
structure Processed where
  result : Except RequestError (List SuggestionOption)
  isCancellationRequested : Bool

inductive ServiceRequest where
  | debounce
  | getAdditionalContexts (document : IDocContext)
  | getIntent (document : IDocContext)
  /-- `getSuggestions` of the pipeline. -/
  | getSuggestions (context : SuggestionContext)
  | postProcess (document : IDocContext) (input : List SuggestionOption)

def ServiceRequest.Answer : ServiceRequest → Type
  | debounce => Debounced
  | getAdditionalContexts _ => List AdditionalContext
  | getIntent _ => Option IntentResolution
  | getSuggestions _ => Except RequestError (Option SuggestionResponse)
  | postProcess _ _ => Processed

section

-- what `generateUniqueTrackingId` returns, one after the other
variable (ids : Nat → String)

/-- The cache, and what it returns. -/
def cached (request : SuggestionCacheContext) (s : State) :
    SuggestionsCache × Option SuggestionCache :=
  SuggestionsCache.getCachedSuggestions s.settings.suggestionsCache
    (fun i => ids (s.generated + i)) request s.cache

def effect : ServiceCall → State → State
  | .tracker c, s => { s with tracker := s.tracker.call c }
  | .success, s =>
    { s with service := { s.service with circuitBreaker := s.service.circuitBreaker.success } }
  | .error, s =>
    { s with service := { s.service with circuitBreaker := s.service.circuitBreaker.error } }
  | .getCachedSuggestions request, s =>
    let found := cached ids request s
    { s with
      cache := found.1
      generated := s.generated + ((found.2.map SuggestionCache.options).getD []).length }
  | .addToSuggestionCache request suggestions, s =>
    { s with
      cache := SuggestionsCache.addToSuggestionCache s.settings.suggestionsCache request
        suggestions s.cache }
  | .generateUniqueTrackingId, s => { s with generated := s.generated + 1 }
  | .handleStreamingInlineCompletion r, s =>
    { s with
      service := (s.service.handleStreamingInlineCompletion r).1
      -- an id is only generated if the stream is started
      generated := s.generated + (s.service.handleStreamingInlineCompletion r).2.length }
  | .handleError _, s => s

def serviceSignature : Signature where
  State := State
  Call := ServiceCall
  effect := effect ids
  Request := ServiceRequest
  Answer := ServiceRequest.Answer
  Error := RequestError

/-! ## The request for suggestions -/

/-- `MANUAL_REQUEST_OPTIONS_COUNT` -/
def manualRequestOptionsCount : Nat := 4

def suggestionContext (request : CompletionRequest) (document : IDocContext)
    (additionalContexts : Option (List AdditionalContext)) (settings : Settings) :
    SuggestionContext where
  document
  intent := none
  projectPath := settings.projectPath
  optionsCount :=
    some (if request.triggerKind = some .invoked then manualRequestOptionsCount else 1)
  additionalContexts

/-- The choices of a response, with their positions and the id of the request. -/
def suggestionOptions (id : String) (response : Option SuggestionResponse) :
    List SuggestionOption :=
  ((response.bind (·.choices)).getD []).mapIdx fun index text =>
    { index := some index, text, uniqueTrackingId := id, model := response.bind (·.model) }

/-- `#trackShowIfNeeded` -/
def trackShowIfNeeded (id : String) : Program (serviceSignature ids) Unit := do
  let s : State ← get (S := serviceSignature ids)
  if canClientTrackEvent s.settings.actions .shown then return ()
  else perform (S := serviceSignature ids) (.tracker (.trackEvent .shown id))

/-- The end of `#getSuggestions`, when the post-processors have returned. -/
def finish (request : CompletionRequest) (id : String) (document : IDocContext)
    (additionalContexts : Option (List AdditionalContext)) (areSuggestionsNotProvided : Bool)
    (processed : Processed) : Program (serviceSignature ids) (List SuggestionOption) :=
  match processed.result with
  | .error e => throw e
  | .ok processedChoices => do
    perform (S := serviceSignature ids)
      (.addToSuggestionCache (request.cacheContext document additionalContexts) processedChoices)
    if processed.isCancellationRequested then do
      perform (S := serviceSignature ids) (.tracker (.trackEvent .cancelled id))
      return []
    else if areSuggestionsNotProvided then do
      perform (S := serviceSignature ids) (.tracker (.trackEvent .notProvided id))
      return []
    else do
      perform (S := serviceSignature ids) (.tracker (.setTrackingContext id none))
      trackShowIfNeeded ids id
      return processedChoices

/-- `#getSuggestions`, when the pipeline has returned. -/
def processResponse (request : CompletionRequest) (id : String) (document : IDocContext)
    (additionalContexts : Option (List AdditionalContext)) (response : Option SuggestionResponse) :
    Program (serviceSignature ids) (List SuggestionOption) := do
  perform (S := serviceSignature ids) (.tracker (.setTrackingContext id none))
  if (response.bind (·.error)).getD "" ≠ "" then throw (S := serviceSignature ids) .other
  else do
    perform (S := serviceSignature ids) (.tracker (.trackEvent .loaded id))
    perform (S := serviceSignature ids) .success
    let processed ← ask (S := serviceSignature ids)
      (.postProcess document (suggestionOptions id response))
    finish ids request id document additionalContexts
      (((response.bind (·.choices)).getD []).all (·.isEmpty)) processed

def getSuggestions (request : CompletionRequest) (id : String) (document : IDocContext)
    (additionalContexts : Option (List AdditionalContext)) :
    Program (serviceSignature ids) (List SuggestionOption) := do
  let s : State ← get (S := serviceSignature ids)
  if s.service.circuitBreaker.isOpen then return []
  else if s.settings.token.getD "" = "" then return []
  else if document.prefixText.length + document.suffix.length < 10 then return []
  else if !isAtOrNearEndOfLine document.suffix then return []
  else do
    perform (S := serviceSignature ids) (.tracker (.setTrackingContext id none))
    match ← ask (S := serviceSignature ids)
      (.getSuggestions (suggestionContext request document additionalContexts s.settings)) with
    | .error e => throw e
    | .ok response => processResponse ids request id document additionalContexts response

/-- What is called for an error that is caught. -/
def handlerCalls (id : String) (e : RequestError) : List ServiceCall :=
  (match e with
    | .fetchError _ => [.tracker (.setTrackingContext id none)]
    | .other => []) ++
  [.tracker (.trackEvent .errored id), .error, .handleError "Failed to get code suggestions!"]

def handleNonStreamingCompletion (request : CompletionRequest) (document : IDocContext)
    (additionalContexts : Option (List AdditionalContext)) :
    Program (serviceSignature ids) (List SuggestionOption) := do
  let s : State ← get (S := serviceSignature ids)
  let id := ids s.generated
  perform (S := serviceSignature ids) .generateUniqueTrackingId
  (getSuggestions ids request id document additionalContexts).tryCatch fun e => do
    performAll (S := serviceSignature ids) (handlerCalls id e)
    return []

/-! ## The answer to a request of the editor -/

/-- `#handleStreamingInlineCompletion` -/
def handleStreamingInlineCompletion (document : IDocContext) (resolution : IntentResolution)
    (additionalContexts : List AdditionalContext) :
    Program (serviceSignature ids) (List SuggestionOptionOrStream) := do
  let s : State ← get (S := serviceSignature ids)
  let r : StreamingRequest :=
    { context := document
      userInstruction := resolution.commentContent
      generationType := resolution.generationType
      additionalContexts := some additionalContexts
      namespaceWithPath := resolution.namespaceWithPath
      uniqueTrackingId := ids s.generated }
  perform (S := serviceSignature ids) (.handleStreamingInlineCompletion r)
  return (s.service.handleStreamingInlineCompletion r).2.map .stream

/-- `#useAndTrackCachedSuggestions` -/
def useAndTrackCachedSuggestions (request : CompletionRequest) (document : IDocContext) :
    Program (serviceSignature ids) (Option (List SuggestionOption)) := do
  let s : State ← get (S := serviceSignature ids)
  let cacheContext := request.cacheContext document none
  perform (S := serviceSignature ids) (.getCachedSuggestions cacheContext)
  match ((cached ids cacheContext s).2.map SuggestionCache.options).getD [] with
  | [] => return none
  | first :: rest => do
    let id := first.uniqueTrackingId
    perform (S := serviceSignature ids) (.tracker (.setTrackingContext id none))
    perform (S := serviceSignature ids) (.tracker (.trackEvent .loaded id))
    trackShowIfNeeded ids id
    return some ((first :: rest).mapIdx fun index option => { option with index := some index })

/-- The request was not invoked, and nothing is cached for it. -/
def requestSuggestions (request : CompletionRequest) (document : IDocContext) :
    Program (serviceSignature ids) (List SuggestionOptionOrStream) := do
  let debounced : Debounced ← ask (S := serviceSignature ids) .debounce
  if debounced.isCancellationRequested then return []
  else if request.triggerKind.isSome && debounced.hasSelectedTextMismatch then return []
  else do
    let additionalContexts : List AdditionalContext ←
      ask (S := serviceSignature ids) (.getAdditionalContexts document)
    let s : State ← get (S := serviceSignature ids)
    if request.triggerKind.isSome && s.settings.streamCodeGenerations then do
      let resolution : Option IntentResolution ←
        ask (S := serviceSignature ids) (.getIntent document)
      match resolution.filter (·.intent = some .generation) with
      | some resolution =>
        handleStreamingInlineCompletion ids document resolution additionalContexts
      | none => do
        let options ← handleNonStreamingCompletion ids request document (some additionalContexts)
        return options.map .option
    else do
      let options ← handleNonStreamingCompletion ids request document (some additionalContexts)
      return options.map .option

/-- The options of the cache get the context of the request that they are returned for. -/
def trackingContexts (cachedSuggestions : List SuggestionOption) : List ServiceCall :=
  cachedSuggestions.map fun cs => .tracker (.setTrackingContext cs.uniqueTrackingId none)

/-- `#getSuggestionOptions`, given what `getContext` returns. The options of the model may be the
very array that the cache holds, and then `unshift` adds to the cache too. That is not in the
program: it is one of the other changes of the state that a run may have. -/
def getSuggestionOptions (request : CompletionRequest) (suggestionContext : Option IDocContext) :
    Program (serviceSignature ids) (List SuggestionOptionOrStream) :=
  match suggestionContext with
  | none => return []
  | some document => do
    let cachedSuggestions ← useAndTrackCachedSuggestions ids request document
    if request.triggerKind = some .invoked then do
      let options ← handleNonStreamingCompletion ids request document none
      performAll (S := serviceSignature ids) (trackingContexts (cachedSuggestions.getD []))
      return (cachedSuggestions.getD [] ++ options).map .option
    else
      match cachedSuggestions with
      | some options => return options.map .option
      | none => requestSuggestions ids request document

end

/-! ## The account of a request -/

/-- What is asked of the pipeline. -/
def ServiceRequest.modelRequest : ServiceRequest → Option SuggestionContext
  | .getSuggestions context => some context
  | _ => none

/-- The event that a call tracks. -/
def ServiceCall.event : ServiceCall → Option (String × TrackingEvent)
  | .tracker (.trackEvent event id) => some (id, event)
  | _ => none

/-- What a call reports to the circuit breaker: a success or not. -/
def ServiceCall.report : ServiceCall → Option Bool
  | .success => some true
  | .error => some false
  | _ => none

section

variable {ids : Nat → String}

abbrev Log (ids : Nat → String) := List (Entry (serviceSignature ids))

/-- The requests to the model, with the states that they were made in. -/
def modelRequests (log : Log ids) : List (State × SuggestionContext) :=
  log.filterMap fun
    | .asked s q => (ServiceRequest.modelRequest q).map fun context => (s, context)
    | _ => none

def events (log : Log ids) : List (String × TrackingEvent) :=
  log.filterMap fun
    | .called _ c => ServiceCall.event c
    | _ => none

def reports (log : Log ids) : List Bool :=
  log.filterMap fun
    | .called _ c => ServiceCall.report c
    | _ => none

/-- The service may send a request to the model, and this is the request. -/
structure MayRequest (request : CompletionRequest) (document : IDocContext)
    (additionalContexts : Option (List AdditionalContext)) (s : State)
    (context : SuggestionContext) : Prop where
  isClosed : s.service.circuitBreaker.isOpen = false
  token : s.settings.token.getD "" ≠ ""
  content : 10 ≤ document.prefixText.length + document.suffix.length
  endOfLine : isAtOrNearEndOfLine document.suffix = true
  context : context = suggestionContext request document additionalContexts s.settings

/-- What the post-processors have made of the suggestions of the model. -/
def Processes (document : IDocContext) (id : String) (log : Log ids)
    (options : List SuggestionOption) : Prop :=
  ∃ (context : SuggestionContext) (response : Option SuggestionResponse) (processed : Processed),
    Entry.answered (S := serviceSignature ids) (.getSuggestions context) (.ok response) ∈ log ∧
      Entry.answered (S := serviceSignature ids)
        (.postProcess document (suggestionOptions id response)) processed ∈ log ∧
      processed.result = .ok options

-- the states that allow a request, and the options that may be returned
variable (R : State → SuggestionContext → Prop) (P : List SuggestionOption → Prop) (id : String)

/-- The requests to the model, the events and the reports of `#getSuggestions`, and what it
returns. -/
inductive Gets : List (State × SuggestionContext) → List (String × TrackingEvent) → List Bool →
    Option (Except RequestError (List SuggestionOption)) → Prop
  | refused : Gets [] [] [] (some (.ok []))
  | waits {s : State} {context : SuggestionContext} (h : R s context) :
    Gets [(s, context)] [] [] none
  | fails {s : State} {context : SuggestionContext} (h : R s context) (e : RequestError) :
    Gets [(s, context)] [] [] (some (.error e))
  | processes {s : State} {context : SuggestionContext} (h : R s context) :
    Gets [(s, context)] [(id, .loaded)] [true] none
  | throws {s : State} {context : SuggestionContext} (h : R s context) (e : RequestError) :
    Gets [(s, context)] [(id, .loaded)] [true] (some (.error e))
  | dismissed {s : State} {context : SuggestionContext} (h : R s context) {event : TrackingEvent}
    (hevent : event = .cancelled ∨ event = .notProvided) :
    Gets [(s, context)] [(id, .loaded), (id, event)] [true] (some (.ok []))
  | provides {s : State} {context : SuggestionContext} (h : R s context)
    {shown : List (String × TrackingEvent)} (hshown : shown = [] ∨ shown = [(id, .shown)])
    {options : List SuggestionOption} (hoptions : P options) :
    Gets [(s, context)] ((id, .loaded) :: shown) [true] (some (.ok options))

/-- The account of `#handleNonStreamingCompletion`. An error is reported once, and after a success
if the post-processors have failed. -/
inductive Accounts : List (State × SuggestionContext) → List (String × TrackingEvent) →
    List Bool → Option (List SuggestionOption) → Prop
  | refused : Accounts [] [] [] (some [])
  | waits {s : State} {context : SuggestionContext} (h : R s context) :
    Accounts [(s, context)] [] [] none
  | fails {s : State} {context : SuggestionContext} (h : R s context) :
    Accounts [(s, context)] [(id, .errored)] [false] (some [])
  | processes {s : State} {context : SuggestionContext} (h : R s context) :
    Accounts [(s, context)] [(id, .loaded)] [true] none
  | throws {s : State} {context : SuggestionContext} (h : R s context) :
    Accounts [(s, context)] [(id, .loaded), (id, .errored)] [true, false] (some [])
  | dismissed {s : State} {context : SuggestionContext} (h : R s context) {event : TrackingEvent}
    (hevent : event = .cancelled ∨ event = .notProvided) :
    Accounts [(s, context)] [(id, .loaded), (id, event)] [true] (some [])
  | provides {s : State} {context : SuggestionContext} (h : R s context)
    {shown : List (String × TrackingEvent)} (hshown : shown = [] ∨ shown = [(id, .shown)])
    {options : List SuggestionOption} (hoptions : P options) :
    Accounts [(s, context)] ((id, .loaded) :: shown) [true] (some options)

end

/-! ### The requests to the model -/

section

variable {ids : Nat → String} {R : State → SuggestionContext → Prop}
  {P : List SuggestionOption → Prop} {id : String}

/-- Nothing is asked of the state. -/
def anyState (_ : State) : Prop := True

variable (request : CompletionRequest) (document : IDocContext)
  (additionalContexts : Option (List AdditionalContext))

theorem modelRequests_append (log rest : Log ids) :
    modelRequests (log ++ rest) = modelRequests log ++ modelRequests rest :=
  List.filterMap_append

theorem events_append (log rest : Log ids) : events (log ++ rest) = events log ++ events rest :=
  List.filterMap_append

theorem reports_append (log rest : Log ids) :
    reports (log ++ rest) = reports log ++ reports rest :=
  List.filterMap_append

theorem meets_trackShowIfNeeded (t : State) :
    (trackShowIfNeeded ids id).Meets anyState t fun log result =>
      result = some (.ok ()) ∧ modelRequests log = [] ∧ reports log = [] ∧
        events log =
          if canClientTrackEvent t.settings.actions .shown then [] else [(id, .shown)] := by
  refine meets_get_bind.mpr ?_
  split_ifs
  · exact ⟨rfl, rfl, rfl, rfl⟩
  · exact ⟨trivial, rfl, rfl, rfl, rfl⟩

section

variable {requests : List (State × SuggestionContext)} {tracked : List (String × TrackingEvent)}
  {reported : List Bool}

theorem Gets.mono {Q : List SuggestionOption → Prop}
    {result : Option (Except RequestError (List SuggestionOption))}
    (h : Gets R P id requests tracked reported result) (hPQ : ∀ options, P options → Q options) :
    Gets R Q id requests tracked reported result := by
  cases h with
  | refused => exact .refused
  | waits h => exact .waits h
  | fails h e => exact .fails h e
  | processes h => exact .processes h
  | throws h e => exact .throws h e
  | dismissed h hevent => exact .dismissed h hevent
  | provides h hshown hoptions => exact .provides h hshown (hPQ _ hoptions)

theorem Gets.running (h : Gets R P id requests tracked reported none) :
    Accounts R P id requests tracked reported none := by
  cases h with
  | waits h => exact .waits h
  | processes h => exact .processes h

theorem Gets.returned {options : List SuggestionOption}
    (h : Gets R P id requests tracked reported (some (.ok options))) :
    Accounts R P id requests tracked reported (some options) := by
  cases h with
  | refused => exact .refused
  | dismissed h hevent => exact .dismissed h hevent
  | provides h hshown hoptions => exact .provides h hshown hoptions

/-- An error that is caught is tracked and reported. -/
theorem Gets.caught {e : RequestError}
    (h : Gets R P id requests tracked reported (some (.error e))) :
    Accounts R P id requests (tracked ++ [(id, .errored)]) (reported ++ [false]) (some []) := by
  cases h with
  | fails h => exact .fails h
  | throws h => exact .throws h

end

/-- The account of a program that goes on after the response was loaded. -/
theorem meets_finish {s : State} {context : SuggestionContext} (h : R s context)
    (areSuggestionsNotProvided : Bool) (processed : Processed) (t : State) :
    (finish ids request id document additionalContexts areSuggestionsNotProvided processed).Meets
      anyState t fun log result =>
        modelRequests log = [] ∧ reports log = [] ∧
          Gets R (processed.result = .ok ·) id [(s, context)] ((id, .loaded) :: events log) [true]
            result := by
  rw [finish]
  cases hresult : processed.result with
  | error e => exact ⟨rfl, rfl, .throws h e⟩
  | ok processedChoices =>
    refine meets_perform_bind.mpr ⟨trivial, ?_⟩
    split_ifs with hcancelled hnone
    · exact ⟨trivial, rfl, rfl, .dismissed h (.inl rfl)⟩
    · exact ⟨trivial, rfl, rfl, .dismissed h (.inr rfl)⟩
    · refine meets_perform_bind.mpr ⟨trivial, ?_⟩
      apply Meets.bind trivial (meets_trackShowIfNeeded _)
      · intro log hlog
        cases hlog.1
      · intro log e hlog
        cases hlog.1
      · intro log _ u _ hlog
        obtain ⟨-, hrequests, hreports, hevents⟩ := hlog
        show modelRequests (log ++ []) = [] ∧ reports (log ++ []) = [] ∧
          Gets R _ id [(s, context)] ((id, .loaded) :: events (log ++ [])) [true] _
        rw [List.append_nil]
        have hshown : events log = [] ∨ events log = [(id, .shown)] := by
          rw [hevents]
          split_ifs
          · exact .inl rfl
          · exact .inr rfl
        exact ⟨hrequests, hreports, .provides h hshown rfl⟩

theorem meets_processResponse {s : State} {context : SuggestionContext} (h : R s context)
    (response : Option SuggestionResponse) (t : State) :
    (processResponse ids request id document additionalContexts response).Meets anyState t
      fun log result => modelRequests log = [] ∧
        Gets R (fun options => ∃ processed : Processed,
          Entry.answered (S := serviceSignature ids)
            (.postProcess document (suggestionOptions id response)) processed ∈ log ∧
          processed.result = .ok options) id [(s, context)] (events log) (reports log) result := by
  rw [processResponse]
  refine meets_perform_bind.mpr ⟨trivial, ?_⟩
  split_ifs
  · exact ⟨rfl, .fails h .other⟩
  · refine meets_perform_bind.mpr ⟨trivial, meets_perform_bind.mpr ⟨trivial, ?_⟩⟩
    refine meets_ask_bind.mpr ⟨⟨rfl, .processes h⟩, ?_⟩
    intro processed u _
    refine (meets_finish request document additionalContexts h _ processed u).mono ?_
    intro log result hlog
    obtain ⟨hrequests, hreports, hgets⟩ := hlog
    refine ⟨hrequests, ?_⟩
    show Gets R _ id [(s, context)] ((id, .loaded) :: events log) (true :: reports log) result
    rw [hreports]
    apply hgets.mono
    intro options hoptions
    exact ⟨processed, by simp, hoptions⟩

theorem meets_getSuggestions (s : State) :
    (getSuggestions ids request id document additionalContexts).Meets anyState s
      fun log result => Gets (MayRequest request document additionalContexts)
        (Processes document id log) id (modelRequests log) (events log) (reports log) result := by
  rw [getSuggestions]
  refine meets_get_bind.mpr ?_
  split_ifs with hopen htoken hcontent hendOfLine
  · exact .refused
  · exact .refused
  · exact .refused
  · exact .refused
  · rw [Bool.not_eq_true] at hopen
    rw [Bool.not_eq_true', Bool.not_eq_false] at hendOfLine
    have hmay : MayRequest request document additionalContexts
        { s with tracker := s.tracker.call (.setTrackingContext id none) }
        (suggestionContext request document additionalContexts s.settings) :=
      ⟨hopen, htoken, Nat.le_of_not_lt hcontent, hendOfLine, rfl⟩
    refine meets_perform_bind.mpr ⟨trivial, meets_ask_bind.mpr ⟨.waits hmay, ?_⟩⟩
    intro response t _
    cases response with
    | error e => exact .fails hmay e
    | ok response =>
      refine (meets_processResponse request document additionalContexts hmay response t).mono ?_
      intro log result hlog
      obtain ⟨hrequests, hgets⟩ := hlog
      show Gets (MayRequest request document additionalContexts) _ id (_ :: modelRequests log)
        (events log) (reports log) result
      rw [hrequests]
      apply hgets.mono
      intro options hoptions
      obtain ⟨processed, hprocessed, hresult⟩ := hoptions
      refine ⟨suggestionContext request document additionalContexts s.settings, response, processed,
        ?_, List.mem_append_right [_, _, _] hprocessed, hresult⟩
      exact List.mem_cons_of_mem _ (List.mem_cons_of_mem _ List.mem_cons_self)

/-- The calls of the error handler. -/
theorem features_handler {cs : List ServiceCall} {log : Log ids}
    (h : List.Forall₂ (fun c entry => ∃ t, entry = Entry.called t c) cs log) :
    modelRequests log = [] ∧ events log = cs.filterMap ServiceCall.event ∧
      reports log = cs.filterMap ServiceCall.report := by
  induction h with
  | nil => exact ⟨rfl, rfl, rfl⟩
  | @cons c entry cs log hentry _ ih =>
    obtain ⟨t, rfl⟩ := hentry
    obtain ⟨hrequests, hevents, hreports⟩ := ih
    refine ⟨hrequests, ?_, ?_⟩
    · rw [List.filterMap_cons, ← hevents]
      rfl
    · rw [List.filterMap_cons, ← hreports]
      rfl

variable {document} in
theorem Processes.mono {log log' : Log ids} {options : List SuggestionOption}
    (h : Processes document id log options) (hlog : log ⊆ log') :
    Processes document id log' options := by
  obtain ⟨context, response, processed, hresponse, hprocessed, hresult⟩ := h
  exact ⟨context, response, processed, hlog hresponse, hlog hprocessed, hresult⟩

theorem meets_handler (e : RequestError) (t : State) :
    (performAll (S := serviceSignature ids) (handlerCalls id e) >>= fun _ =>
      (pure [] : Program (serviceSignature ids) (List SuggestionOption))).Meets anyState t
        fun log result => result = some (.ok []) ∧ modelRequests log = [] ∧
          events log = [(id, .errored)] ∧ reports log = [false] := by
  have hcalls := meets_performAll (S := serviceSignature ids) (I := anyState) (s := t)
    (fun _ _ _ => trivial) (handlerCalls id e) trivial
  apply Meets.bind trivial hcalls
  · intro log hlog
    cases hlog.1
  · intro log e hlog
    cases hlog.1
  · intro log _ u _ hlog
    obtain ⟨hrequests, hevents, hreports⟩ := features_handler hlog.2
    show some _ = some _ ∧ modelRequests (log ++ []) = [] ∧
      events (log ++ []) = [(id, .errored)] ∧ reports (log ++ []) = [false]
    rw [List.append_nil, hevents, hreports]
    refine ⟨rfl, hrequests, ?_⟩
    cases e <;> exact ⟨rfl, rfl⟩

theorem meets_handleNonStreamingCompletion (s : State) :
    (handleNonStreamingCompletion ids request document additionalContexts).Meets anyState s
      fun log result => log.head? = some (.called s .generateUniqueTrackingId) ∧
        ∃ r, result = r.map .ok ∧
          Accounts (MayRequest request document additionalContexts)
            (Processes document (ids s.generated) log) (ids s.generated) (modelRequests log)
            (events log) (reports log) r := by
  rw [handleNonStreamingCompletion]
  refine meets_get_bind.mpr (meets_perform_bind.mpr ⟨trivial, ?_⟩)
  apply Meets.tryCatch trivial (meets_getSuggestions request document additionalContexts _)
  · intro log hlog
    refine ⟨rfl, none, rfl, (hlog.mono ?_).running⟩
    intro _ hoptions
    exact hoptions.mono (List.subset_cons_self _ log)
  · intro log options hlog
    refine ⟨rfl, some options, rfl, (hlog.mono ?_).returned⟩
    intro _ hoptions
    exact hoptions.mono (List.subset_cons_self _ log)
  · intro log e t _ hlog
    refine (meets_handler e t).mono ?_
    intro rest result hrest
    obtain ⟨rfl, hrequests, hevents, hreports⟩ := hrest
    refine ⟨rfl, some [], rfl, ?_⟩
    show Accounts _ _ _ (modelRequests (log ++ rest)) (events (log ++ rest))
      (reports (log ++ rest)) _
    rw [modelRequests_append, events_append, reports_append, hrequests, hevents, hreports,
      List.append_nil]
    refine (hlog.mono ?_).caught
    intro _ hoptions
    exact hoptions.mono (List.subset_cons_of_subset _ (List.subset_append_left log rest))

/-! ### The answer to the editor -/

/-- Nothing is asked of the model, nothing is tracked, and nothing is reported to the breaker. -/
structure Quiet (log : Log ids) : Prop where
  modelRequests : modelRequests log = []
  events : events log = []
  reports : reports log = []

/-- The options that the cache has for a request, with their positions and ids of their own. -/
def cachedOptions (ids : Nat → String) (s : State) : List SuggestionOption :=
  (SuggestionsCache.applicable s.settings.suggestionsCache (request.cacheContext document none)
    s.cache).mapIdx fun index option =>
      { option with index := some index, uniqueTrackingId := ids (s.generated + index) }

/-- What is tracked of the options of the cache: the first of them is loaded, and shown unless the
client says so itself. -/
def cachedEvents (s : State) : List SuggestionOption → List (String × TrackingEvent)
  | [] => []
  | first :: _ => (first.uniqueTrackingId, .loaded) ::
      if canClientTrackEvent s.settings.actions .shown then []
      else [(first.uniqueTrackingId, .shown)]

/-- The look-up in the cache with which a request begins, and what it finds. -/
structure LooksUp (log : Log ids) (s : State) (found : List SuggestionOption) : Prop where
  begins : log.head? =
    some (.called s (.getCachedSuggestions (request.cacheContext document none)))
  options : found = cachedOptions request document ids s
  modelRequests : modelRequests log = []
  events : events log = cachedEvents s found
  reports : reports log = []

/-- The contexts of a request: none if the user has invoked it. If not, then nothing was cached. -/
def Contexts (found : List SuggestionOption) (more : Log ids)
    (contexts : Option (List AdditionalContext)) : Prop :=
  (request.triggerKind = some .invoked ∧ contexts = none) ∨
    (request.triggerKind ≠ some .invoked ∧ found = [] ∧ ∃ given : List AdditionalContext,
      contexts = some given ∧
        Entry.answered (S := serviceSignature ids) (.getAdditionalContexts document) given ∈ more)

/-- The account of the part of a request that asks the model. -/
structure Asks (contexts : Option (List AdditionalContext)) (back : Log ids) (t : State)
    (r : Option (List SuggestionOption)) : Prop where
  begins : back.head? = some (.called t .generateUniqueTrackingId)
  account : Accounts (MayRequest request document contexts)
    (Processes document (ids t.generated) back) (ids t.generated) (modelRequests back)
    (events back) (reports back) r

/-- How a request of the editor is handled. It returns an error in no case. -/
inductive Handled : Log ids → Option (Except RequestError (List SuggestionOptionOrStream)) → Prop
  /-- What was cached is returned alone, unless the user has invoked the request. -/
  | cached {log : Log ids} {s : State} {found : List SuggestionOption}
    (hfound : LooksUp request document log s found) (hne : found ≠ [])
    (hinvoked : request.triggerKind ≠ some .invoked) :
    Handled log (some (.ok (found.map .option)))
  /-- Nothing was cached, and the request waits for something else than the model. -/
  | pauses {front more : Log ids} {s : State} (hfound : LooksUp request document front s [])
    (hinvoked : request.triggerKind ≠ some .invoked) (hmore : Quiet more) :
    Handled (front ++ more) none
  /-- It is given up when the debounce interval is over. -/
  | givesUp {front more : Log ids} {s : State} {debounced : Debounced}
    (hfound : LooksUp request document front s [])
    (hinvoked : request.triggerKind ≠ some .invoked) (hmore : Quiet more)
    (hdebounced : more.getLast? =
      some (Entry.answered (S := serviceSignature ids) .debounce debounced))
    (hgivesUp : debounced.isCancellationRequested = true ∨
      (request.triggerKind.isSome = true ∧ debounced.hasSelectedTextMismatch = true)) :
    Handled (front ++ more) (some (.ok []))
  /-- A stream is returned for a generation, if the service starts one. -/
  | streams {front more : Log ids} {s t : State} {resolution : IntentResolution}
    {r : StreamingRequest} (hfound : LooksUp request document front s [])
    (hinvoked : request.triggerKind ≠ some .invoked) (hmore : Quiet more)
    (hresolution : Entry.answered (S := serviceSignature ids) (.getIntent document)
      (some resolution) ∈ more)
    (hintent : resolution.intent = some .generation)
    (hcall : more.getLast? = some (.called t (.handleStreamingInlineCompletion r))) :
    Handled (front ++ more)
      (some (.ok ((t.service.handleStreamingInlineCompletion r).2.map .stream)))
  | waits {front more back : Log ids} {s t : State} {found : List SuggestionOption}
    {contexts : Option (List AdditionalContext)} (hfound : LooksUp request document front s found)
    (hmore : Quiet more) (hcontexts : Contexts request document found more contexts)
    (h : Asks request document contexts back t none) :
    Handled (front ++ more ++ back) none
  /-- What was cached is returned too, if there is any and the user has invoked the request. -/
  | returns {front more back rest : Log ids} {s t : State} {found options : List SuggestionOption}
    {contexts : Option (List AdditionalContext)} (hfound : LooksUp request document front s found)
    (hmore : Quiet more) (hcontexts : Contexts request document found more contexts)
    (h : Asks request document contexts back t (some options)) (hrest : Quiet rest) :
    Handled (front ++ more ++ back ++ rest) (some (.ok ((found ++ options).map .option)))

theorem options_cached (ids : Nat → String) (s : State) :
    (((cached ids (request.cacheContext document none) s).2.map
      SuggestionCache.options).getD []).mapIdx (fun index option =>
        { option with index := some index }) = cachedOptions request document ids s := by
  rw [cached, SuggestionsCache.getCachedSuggestions_options, List.mapIdx_mapIdx]
  rfl

theorem meets_useAndTrackCachedSuggestions (s : State) :
    (useAndTrackCachedSuggestions ids request document).Meets anyState s fun log result =>
      LooksUp request document log s (cachedOptions request document ids s) ∧
        result = some (.ok (if cachedOptions request document ids s = [] then none
          else some (cachedOptions request document ids s))) := by
  rw [useAndTrackCachedSuggestions]
  refine meets_get_bind.mpr (meets_perform_bind.mpr ⟨trivial, ?_⟩)
  have hoptions := options_cached request document ids s
  split
  · next hnone =>
    have hnil : cachedOptions request document ids s = [] := by
      rw [← hoptions, hnone]
      rfl
    rw [hnil]
    exact ⟨⟨rfl, hnil.symm, rfl, rfl, rfl⟩, rfl⟩
  · next first rest hsome =>
    rw [hsome] at hoptions
    refine meets_perform_bind.mpr ⟨trivial, meets_perform_bind.mpr ⟨trivial, ?_⟩⟩
    apply Meets.bind trivial (meets_trackShowIfNeeded _)
    · intro log hlog
      cases hlog.1
    · intro log e hlog
      cases hlog.1
    · intro log _ t _ hlog
      obtain ⟨-, hrequests, hreports, hevents⟩ := hlog
      rw [← hoptions]
      have hne : (first :: rest).mapIdx (fun index option =>
          { option with index := some index }) ≠ [] :=
        List.mapIdx_ne_nil_iff.mpr (List.cons_ne_nil first rest)
      rw [if_neg hne]
      refine ⟨⟨rfl, hoptions, ?_, ?_, ?_⟩, rfl⟩
      · show modelRequests (log ++ []) = []
        rw [List.append_nil, hrequests]
      · show (first.uniqueTrackingId, .loaded) :: events (log ++ []) = _
        rw [List.append_nil, hevents, List.mapIdx_cons]
        rfl
      · show reports (log ++ []) = []
        rw [List.append_nil, hreports]

section

variable {request document} {front : Log ids} {s : State} {found : List SuggestionOption}

/-- The model is asked after what is in the log so far, and no more is done. -/
theorem meets_asking (more : Log ids) (hfound : LooksUp request document front s [])
    (hmore : Quiet more) {contexts : Option (List AdditionalContext)}
    (hcontexts : Contexts request document [] more contexts) (t : State) :
    (handleNonStreamingCompletion ids request document contexts >>= fun options =>
      (pure (options.map .option) : Program (serviceSignature ids)
        (List SuggestionOptionOrStream))).Meets anyState t
          fun back result => Handled request document (front ++ (more ++ back)) result := by
  apply Meets.bind trivial (meets_handleNonStreamingCompletion request document contexts t)
  · intro log hlog
    obtain ⟨hbegins, r, hr, haccounts⟩ := hlog
    cases r with
    | none =>
      rw [← List.append_assoc]
      exact .waits hfound hmore hcontexts ⟨hbegins, haccounts⟩
    | some options => cases hr
  · intro log e hlog
    obtain ⟨-, r, hr, -⟩ := hlog
    cases r <;> cases hr
  · intro log options u _ hlog
    obtain ⟨hbegins, r, hr, haccounts⟩ := hlog
    cases r with
    | none => cases hr
    | some r =>
      cases hr
      have hempty : Quiet ([] : Log ids) := ⟨rfl, rfl, rfl⟩
      have hreturns : Handled request document (front ++ more ++ log ++ [])
          (some (.ok (([] ++ options).map .option))) :=
        .returns hfound hmore hcontexts ⟨hbegins, haccounts⟩ hempty
      show Handled request document (front ++ (more ++ (log ++ []))) _
      rw [← List.append_assoc, ← List.append_assoc]
      exact hreturns

theorem meets_requestSuggestions (hfound : LooksUp request document front s [])
    (hinvoked : request.triggerKind ≠ some .invoked) (t : State) :
    (requestSuggestions ids request document).Meets anyState t
      fun rest result => Handled request document (front ++ rest) result := by
  rw [requestSuggestions]
  refine meets_ask_bind.mpr ⟨.pauses hfound hinvoked ⟨rfl, rfl, rfl⟩, ?_⟩
  intro debounced u _
  split_ifs with hcancelled hmismatch
  · exact .givesUp hfound hinvoked ⟨rfl, rfl, rfl⟩ rfl (.inl hcancelled)
  · rw [Bool.and_eq_true] at hmismatch
    exact .givesUp hfound hinvoked ⟨rfl, rfl, rfl⟩ rfl (.inr hmismatch)
  · refine meets_ask_bind.mpr ⟨.pauses hfound hinvoked ⟨rfl, rfl, rfl⟩, ?_⟩
    intro additionalContexts v _
    refine meets_get_bind.mpr ?_
    split_ifs
    · refine meets_ask_bind.mpr ⟨.pauses hfound hinvoked ⟨rfl, rfl, rfl⟩, ?_⟩
      intro resolution w _
      split
      · next generation hgeneration =>
        obtain ⟨hresolution, hintent⟩ := Option.filter_eq_some_iff.mp hgeneration
        subst hresolution
        exact ⟨trivial, .streams hfound hinvoked ⟨rfl, rfl, rfl⟩ (by simp)
          (of_decide_eq_true hintent) rfl⟩
      · apply meets_asking
          [.asked t .debounce, .answered .debounce debounced,
            .asked u (.getAdditionalContexts document),
            .answered (.getAdditionalContexts document) additionalContexts,
            .asked v (.getIntent document), .answered (.getIntent document) resolution] hfound
        · exact ⟨rfl, rfl, rfl⟩
        · exact .inr ⟨hinvoked, rfl, additionalContexts, rfl, by simp⟩
    · apply meets_asking
        [.asked t .debounce, .answered .debounce debounced,
          .asked u (.getAdditionalContexts document),
          .answered (.getAdditionalContexts document) additionalContexts] hfound
      · exact ⟨rfl, rfl, rfl⟩
      · exact .inr ⟨hinvoked, rfl, additionalContexts, rfl, by simp⟩

/-- The calls for the options of the cache track no event, and report nothing. -/
theorem features_trackingContexts (cachedSuggestions : List SuggestionOption) :
    (trackingContexts cachedSuggestions).filterMap ServiceCall.event = [] ∧
      (trackingContexts cachedSuggestions).filterMap ServiceCall.report = [] := by
  rw [trackingContexts, List.filterMap_map, List.filterMap_map]
  constructor
  · exact List.filterMap_eq_nil_iff.mpr fun _ _ => rfl
  · exact List.filterMap_eq_nil_iff.mpr fun _ _ => rfl

/-- The user has invoked the request, and what was cached is returned too. -/
theorem meets_invoked (hfound : LooksUp request document front s found)
    (hinvoked : request.triggerKind = some .invoked) (t : State) :
    (handleNonStreamingCompletion ids request document none >>= fun options =>
      performAll (S := serviceSignature ids) (trackingContexts found) >>= fun _ =>
      (pure ((found ++ options).map .option) : Program (serviceSignature ids)
        (List SuggestionOptionOrStream))).Meets anyState t
          fun rest result => Handled request document (front ++ rest) result := by
  have hmore : Quiet ([] : Log ids) := ⟨rfl, rfl, rfl⟩
  have hcontexts : Contexts request document found ([] : Log ids) none := .inl ⟨hinvoked, rfl⟩
  apply Meets.bind trivial (meets_handleNonStreamingCompletion request document none t)
  · intro log hlog
    obtain ⟨hbegins, r, hr, haccounts⟩ := hlog
    cases r with
    | none =>
      have hwaits : Handled request document (front ++ [] ++ log) none :=
        .waits hfound hmore hcontexts ⟨hbegins, haccounts⟩
      rw [List.append_nil] at hwaits
      exact hwaits
    | some options => cases hr
  · intro log e hlog
    obtain ⟨-, r, hr, -⟩ := hlog
    cases r <;> cases hr
  · intro log options u _ hlog
    obtain ⟨hbegins, r, hr, haccounts⟩ := hlog
    cases r with
    | none => cases hr
    | some r =>
      cases hr
      have hcalls := meets_performAll (S := serviceSignature ids) (I := anyState) (s := u)
        (fun _ _ _ => trivial) (trackingContexts found) trivial
      apply Meets.bind trivial hcalls
      · intro rest hrest
        cases hrest.1
      · intro rest e hrest
        cases hrest.1
      · intro rest _ v _ hrest
        obtain ⟨hrequests, hevents, hreports⟩ := features_handler hrest.2
        obtain ⟨hnoEvents, hnoReports⟩ := features_trackingContexts found
        have hquiet : Quiet rest :=
          ⟨hrequests, hevents.trans hnoEvents, hreports.trans hnoReports⟩
        have hreturns : Handled request document (front ++ [] ++ log ++ rest)
            (some (.ok ((found ++ options).map .option))) :=
          .returns hfound hmore hcontexts ⟨hbegins, haccounts⟩ hquiet
        rw [List.append_nil, List.append_assoc] at hreturns
        show Handled request document (front ++ (log ++ (rest ++ []))) _
        rw [List.append_nil]
        exact hreturns

end

theorem meets_getSuggestionOptions (document : IDocContext) (s : State) :
    (getSuggestionOptions ids request (some document)).Meets anyState s
      (Handled request document) := by
  rw [getSuggestionOptions]
  apply Meets.bind trivial (meets_useAndTrackCachedSuggestions request document s)
  · intro log hlog
    cases hlog.2
  · intro log e hlog
    cases hlog.2
  · intro log cachedSuggestions t _ hlog
    obtain ⟨hfound, hresult⟩ := hlog
    cases hresult
    split_ifs with hinvoked hnil hnil
    · rw [hnil] at hfound
      exact meets_invoked hfound hinvoked t
    · exact meets_invoked hfound hinvoked t
    · rw [hnil] at hfound
      exact meets_requestSuggestions hfound hinvoked t
    · show Handled request document (log ++ []) _
      rw [List.append_nil]
      exact .cached hfound hnil hinvoked

end

/-- A request of the editor, and what `getContext` has returned for it. -/
structure Input where
  request : CompletionRequest
  suggestionContext : Option IDocContext

/-- The account of a request; it is at an end at once if there is no document. -/
def HandledOf {ids : Nat → String} (input : Input) (log : Log ids)
    (result : Option (Except RequestError (List SuggestionOptionOrStream))) : Prop :=
  match input.suggestionContext with
  | none => log = [] ∧ result = some (.ok [])
  | some document => Handled input.request document log result

/-- **Requests of the editor in any interleaving**, also with anything else that changes the state.
Each of them looks for options in the cache, and tracks the first that is found. It asks the model
at most once, and only in a state that allows it; what it reports to the circuit breaker and what it
tracks agree with each other and with what it returns, which is what the cache had, a stream, or
what the post-processors have made of the suggestions of the model. -/
theorem handled_of_run {ids : Nat → String} {ξ : Type} {event : ξ → State → Option State}
    {s : State} {as : List (Async.Action (serviceSignature ids) Input ξ)}
    {t : Async.System (serviceSignature ids) Input (List SuggestionOptionOrStream)}
    (h : Transition.run
      (Async.System.step
        (fun input : Input => getSuggestionOptions ids input.request input.suggestionContext)
        event) ⟨s, []⟩ as = some t) :
    ∀ task ∈ t.tasks, HandledOf task.input task.log task.program.result := by
  have hprogram : ∀ (input : Input) (s : State), anyState s →
      (getSuggestionOptions ids input.request input.suggestionContext).Meets anyState s
        (HandledOf input) := by
    intro input s _
    obtain ⟨request, suggestionContext⟩ := input
    cases suggestionContext with
    | none => exact ⟨rfl, rfl⟩
    | some document => exact meets_getSuggestionOptions request document s
  exact (Async.System.meets_of_run hprogram (fun _ _ _ _ _ => trivial) trivial h).2

/-- A service with a token, and nothing cached. -/
def sampleState : State where
  service := .new 0
  tracker := .new false []
  cache := OrderedMap.empty
  settings :=
    { suggestionsCache := ⟨true, 1, 1⟩
      actions := []
      token := some "token"
      projectPath := none
      streamCodeGenerations := true }
  generated := 0

/-- Ten spaces in front of the cursor. -/
def sampleInput (triggerKind : InlineCompletionTriggerKind) : Input where
  request := ⟨"file:///a.ts", ⟨0, 10⟩, some triggerKind⟩
  suggestionContext := some
    { prefixText := List.replicate 10 0x20, suffix := [], fileRelativePath := "a.ts"
      position := ⟨0, 10⟩, uri := "file:///a.ts", languageId := "typescript"
      workspaceFolder := none }

/-- The model suggests `x`, and the post-processors leave it as it is. -/
def suggests : (q : ServiceRequest) → q.Answer
  | .debounce => ⟨false, false⟩
  | .getAdditionalContexts _ => []
  | .getIntent _ => none
  | .getSuggestions _ => .ok (some ⟨some [[0x78]], none, 200, none, none⟩)
  | .postProcess _ input => ⟨.ok input, false⟩

/-- An automatic request waits for the debounce interval while the user invokes another, and its
suggestion is found in the cache by a third. -/
theorem handled_of_cached : ∃ t,
    Transition.run
      (Async.System.step
        (fun input : Input =>
          getSuggestionOptions toString input.request input.suggestionContext)
        fun _ : Empty => some)
      ⟨sampleState, []⟩
      [.start (sampleInput .automatic), .start (sampleInput .invoked), .answer 1 suggests,
        .answer 1 suggests, .start (sampleInput .automatic)] = some t ∧
    (t.tasks.map fun task => events task.log) =
      [[], [("0", .loaded), ("0", .shown)], [("1", .loaded), ("1", .shown)]] ∧
    ∀ task ∈ t.tasks, HandledOf task.input task.log task.program.result := by
  obtain ⟨t, ht, hevents⟩ : ∃ t, Transition.run
      (Async.System.step
        (fun input : Input =>
          getSuggestionOptions toString input.request input.suggestionContext)
        fun _ : Empty => some)
      ⟨sampleState, []⟩
      [.start (sampleInput .automatic), .start (sampleInput .invoked), .answer 1 suggests,
        .answer 1 suggests, .start (sampleInput .automatic)] = some t ∧
      (t.tasks.map fun task => events task.log) =
        [[], [("0", .loaded), ("0", .shown)], [("1", .loaded), ("1", .shown)]] := ⟨_, rfl, rfl⟩
  exact ⟨t, ht, hevents, handled_of_run ht⟩

end KhulnasoftLsp.Suggestion.DefaultSuggestionService
