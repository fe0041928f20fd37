import KhulnasoftLsp.CircuitBreaker.ExponentialBackoff
import KhulnasoftLsp.Streaming.Handler

/-!
# Suggestions through a direct connection

`DirectConnectionClient` sends completion requests straight to the cloud connector. It needs
*connection details*, which it requests in the background when it has none or they have expired;
a circuit breaker with exponential back-off stands in front of each of its two requests.

Requests for details run detached from each other, and each of them overwrites the stored details
when it ends (`storesDetails_of_onDetails`). So a response that was requested before a
reconfiguration of the API survives it, and a failure clears what a newer request obtained.
`getSuggestions` also never reports a success to its breaker, so that old failures still count.
-/

namespace KhulnasoftLsp.SuggestionClient

open CircuitBreaker Streaming Transition

inductive Intent where
  | generation
  | completion
  deriving DecidableEq, Repr

structure SuggestionContext where
  document : IDocContext
  intent : Option Intent
  projectPath : Option String
  optionsCount : Option Nat
  additionalContexts : Option (List AdditionalContext)
  deriving DecidableEq, Repr

structure SuggestionModel where
  lang : Option String
  engine : Option String
  name : Option String
  deriving DecidableEq, Repr

structure SuggestionResponse where
  choices : Option (List JsString)
  model : Option SuggestionModel
  status : Nat
  error : Option String
  isDirectConnection : Option Bool
  deriving DecidableEq, Repr

structure IDirectConnectionDetailsHeaders where
  globalUserId : String
  instanceId : String
  hostName : String
  saasDuoProNamespaceIds : String
  deriving DecidableEq, Repr

structure IDirectConnectionModelDetails where
  modelProvider : String
  modelName : String
  deriving DecidableEq, Repr

structure IDirectConnectionDetails where
  baseUrl : String
  token : String
  /-- In seconds. -/
  expiresAt : Int
  headers : IDirectConnectionDetailsHeaders
  modelDetails : IDirectConnectionModelDetails
  deriving DecidableEq, Repr

/-- `CodeSuggestionRequest`, as far as a direct request sets it. -/
structure CodeSuggestionRequest where
  promptVersion : Nat
  projectPath : String
  projectId : Int
  contentAboveCursor : JsString
  contentBelowCursor : JsString
  fileName : String
  choicesCount : Option Nat
  intent : Option Intent
  context : Option (List AdditionalContext)
  modelDetails : Option IDirectConnectionModelDetails
  deriving DecidableEq, Repr

def createV2Request (suggestionContext : SuggestionContext)
    (modelDetails : Option IDirectConnectionModelDetails) : CodeSuggestionRequest where
  promptVersion := 1
  projectPath := suggestionContext.projectPath.getD ""
  projectId := -1
  contentAboveCursor := suggestionContext.document.prefixText
  contentBelowCursor := suggestionContext.document.suffix
  fileName := suggestionContext.document.fileRelativePath
  choicesCount := suggestionContext.optionsCount
  intent := suggestionContext.intent
  context := suggestionContext.additionalContexts.filter (· ≠ [])
  modelDetails := modelDetails

/-- What a request fails with. Only a fetch error has a status. -/
inductive RequestError where
  | fetchError (status : Nat)
  | other
  deriving DecidableEq, Repr

def second : Nat := 1000
def minute : Nat := 60 * second
def hour : Nat := 60 * minute

def smallGraceDurationJustToBeSure : Nat := 40 * second

/-- `areExpired`, when `Date.now()` is `now` -/
def areExpired (now : Nat) (dcd : IDirectConnectionDetails) : Bool :=
  dcd.expiresAt * second - smallGraceDurationJustToBeSure < (now : Int)

structure DirectConnectionClient where
  connectionDetails : Option IDirectConnectionDetails
  isValidApi : Bool
  connectionDetailsCircuitBreaker : ExponentialBackoffCircuitBreaker
  directConnectionCircuitBreaker : ExponentialBackoffCircuitBreaker
  deriving DecidableEq, Repr

/-- The request that `#fetchUsingDirectConnection` sends. -/
structure DirectRequest where
  endpoint : String
  headers : IDirectConnectionDetailsHeaders
  token : String
  body : CodeSuggestionRequest
  deriving DecidableEq, Repr

/-- What a call of `getSuggestions` does before it awaits anything. -/
inductive Call where
  | returnsUndefined
  /-- It starts `#fetchDirectConnectionDetails`, and returns `undefined` too. -/
  | fetchesDetails
  | sends (request : DirectRequest)
  deriving DecidableEq, Repr

namespace DirectConnectionClient

def new (now : Nat) : DirectConnectionClient where
  connectionDetails := none
  isValidApi := true
  connectionDetailsCircuitBreaker := .new now second hour 3
  directConnectionCircuitBreaker := .new now second (10 * minute) 5

/-- `Date.now()` -/
def now (c : DirectConnectionClient) : Nat := c.directConnectionCircuitBreaker.timers.now

/-- The listener that the constructor registers with `onApiReconfigured`. -/
def onApiReconfigured (isInValidState : Bool) (c : DirectConnectionClient) :
    DirectConnectionClient :=
  { c with
    connectionDetails := none
    isValidApi := isInValidState
    directConnectionCircuitBreaker := c.directConnectionCircuitBreaker.success }

/-- `#fetchDirectConnectionDetails` sends its request unless its breaker is open. -/
def requestsDetails (c : DirectConnectionClient) : Bool :=
  !c.connectionDetailsCircuitBreaker.isOpen

/-- The end of `#fetchDirectConnectionDetails`, once its request has succeeded or failed. -/
def onDetails (result : Except RequestError IDirectConnectionDetails)
    (c : DirectConnectionClient) : DirectConnectionClient :=
  match result with
  | .ok details => { c with connectionDetails := some details }
  | .error e =>
    -- `details` is still undefined, and is stored all the same
    { c with
      connectionDetails := none
      connectionDetailsCircuitBreaker :=
        if e = .fetchError 401 then c.connectionDetailsCircuitBreaker.megaError
        else c.connectionDetailsCircuitBreaker.error }

/-- `#fetchUsingDirectConnection`, up to its request. -/
def directRequest (details : IDirectConnectionDetails) (context : SuggestionContext) :
    DirectRequest where
  endpoint := details.baseUrl ++ "/v2/completions"
  headers := details.headers
  token := details.token
  body := createV2Request context (some details.modelDetails)

/-- `getSuggestions`, up to its first `await`. -/
def getSuggestions (context : SuggestionContext) (c : DirectConnectionClient) : Call :=
  if context.intent = some .generation then .returnsUndefined
  else if !c.isValidApi then .returnsUndefined
  else if c.directConnectionCircuitBreaker.isOpen then .returnsUndefined
  else match c.connectionDetails with
    | none => .fetchesDetails
    | some details =>
      if areExpired c.now details then .fetchesDetails else .sends (directRequest details context)

/-- The end of a `getSuggestions` that sent a request, and what it returns. Its success is not
reported to the breaker. -/
def onSuggestions (result : Except RequestError (Option SuggestionResponse))
    (c : DirectConnectionClient) : DirectConnectionClient × Option SuggestionResponse :=
  match result with
  | .ok response => (c, response.map fun r => { r with isDirectConnection := some true })
  | .error _ =>
    ({ c with directConnectionCircuitBreaker := c.directConnectionCircuitBreaker.error }, none)

/-- The runtime's clock has moved on to `t`. -/
def wait (t : Nat) (c : DirectConnectionClient) : Option DirectConnectionClient :=
  match c.connectionDetailsCircuitBreaker.wait t, c.directConnectionCircuitBreaker.wait t with
  | some d, some b =>
    some { c with connectionDetailsCircuitBreaker := d, directConnectionCircuitBreaker := b }
  | _, _ => none

end DirectConnectionClient

/-- Details that expire after an hour, with the given token. -/
def sampleDetails (token : String) : IDirectConnectionDetails where
  baseUrl := "https://cloud.example"
  token := token
  expiresAt := 3600
  headers := ⟨"user", "instance", "host", "1"⟩
  modelDetails := ⟨"provider", "model"⟩

/-- A completion in an empty document. -/
def sampleContext : SuggestionContext where
  document :=
    { prefixText := [], suffix := [], fileRelativePath := "a.ts", position := ⟨0, 0⟩
      uri := "file:///a.ts", languageId := "typescript", workspaceFolder := none }
  intent := some .completion
  projectPath := none
  optionsCount := some 1
  additionalContexts := none

/-! ## The client and its requests in flight -/

/-- A request for connection details: its number, and how many reconfigurations there had been
when it was sent. -/
structure DetailsRequest where
  id : Nat
  reconfigurations : Nat
  deriving DecidableEq, Repr

/-- A suggestion request that was sent, the request that had obtained the details it was sent
with, and how many reconfigurations there had been. -/
structure SentSuggestion where
  request : DirectRequest
  detailsFrom : Option DetailsRequest
  reconfigurations : Nat
  deriving DecidableEq, Repr

/-- The client, what it has in flight, and a record of where its details come from. -/
structure System where
  client : DirectConnectionClient
  reconfigurations : Nat
  /-- The number of requests for details sent so far. -/
  detailsRequests : Nat
  detailsInFlight : List DetailsRequest
  /-- The request that obtained the stored details. -/
  detailsFrom : Option DetailsRequest
  /-- The suggestion requests sent so far. The number of one is its position. -/
  sent : List SentSuggestion
  suggestionsInFlight : List Nat
  /-- What the calls that sent a request have returned. -/
  returned : List (Nat × Option SuggestionResponse)
  deriving DecidableEq, Repr

inductive Action where
  | getSuggestions (context : SuggestionContext)
  /-- The request `id` for details ends. -/
  | details (id : Nat) (result : Except RequestError IDirectConnectionDetails)
  /-- The suggestion request `id` ends. -/
  | suggestions (id : Nat) (result : Except RequestError (Option SuggestionResponse))
  | apiReconfigured (isInValidState : Bool)
  | wait (t : Nat)
  /-- A timer of the breaker of the details fires. -/
  | detailsExpire (id : Nat)
  /-- A timer of the breaker of the suggestions fires. -/
  | directExpire (id : Nat)

namespace System

def new (now : Nat) : System where
  client := .new now
  reconfigurations := 0
  detailsRequests := 0
  detailsInFlight := []
  detailsFrom := none
  sent := []
  suggestionsInFlight := []
  returned := []

def getSuggestions (context : SuggestionContext) (s : System) : System :=
  match s.client.getSuggestions context with
  | .returnsUndefined => s
  | .fetchesDetails =>
    if s.client.requestsDetails then
      { s with
        detailsRequests := s.detailsRequests + 1
        detailsInFlight := s.detailsInFlight ++
          [{ id := s.detailsRequests, reconfigurations := s.reconfigurations }] }
    else s
  | .sends request =>
    { s with
      sent := s.sent ++
        [{ request, detailsFrom := s.detailsFrom, reconfigurations := s.reconfigurations }]
      suggestionsInFlight := s.suggestionsInFlight ++ [s.sent.length] }

/-- The request `r` for details ends. -/
def onDetails (r : DetailsRequest) (result : Except RequestError IDirectConnectionDetails)
    (s : System) : System :=
  { s with
    client := s.client.onDetails result
    detailsInFlight := s.detailsInFlight.filter (· ≠ r)
    detailsFrom := match result with
      | .ok _ => some r
      | .error _ => none }

def onSuggestions (id : Nat) (result : Except RequestError (Option SuggestionResponse))
    (s : System) : System :=
  let (client, response) := s.client.onSuggestions result
  { s with
    client := client
    suggestionsInFlight := s.suggestionsInFlight.filter (· ≠ id)
    returned := s.returned ++ [(id, response)] }

def onApiReconfigured (isInValidState : Bool) (s : System) : System :=
  { s with
    client := s.client.onApiReconfigured isInValidState
    reconfigurations := s.reconfigurations + 1
    detailsFrom := none }

def step (s : System) : Action → Option System
  | .getSuggestions context => some (s.getSuggestions context)
  | .details id result =>
    (s.detailsInFlight.find? (·.id = id)).map fun r => s.onDetails r result
  | .suggestions id result =>
    if id ∈ s.suggestionsInFlight then some (s.onSuggestions id result) else none
  | .apiReconfigured isInValidState => some (s.onApiReconfigured isInValidState)
  | .wait t => (s.client.wait t).map fun c => { s with client := c }
  | .detailsExpire id =>
    (s.client.connectionDetailsCircuitBreaker.expire id).map fun b =>
      { s with client := { s.client with connectionDetailsCircuitBreaker := b } }
  | .directExpire id =>
    (s.client.directConnectionCircuitBreaker.expire id).map fun b =>
      { s with client := { s.client with directConnectionCircuitBreaker := b } }

@[simp] theorem client_getSuggestions (context : SuggestionContext) (s : System) :
    (s.getSuggestions context).client = s.client := by
  unfold getSuggestions
  split
  · rfl
  · split <;> rfl
  · rfl

/-! ## Where the details come from -/

theorem getSuggestions_sends {c : DirectConnectionClient} {context : SuggestionContext}
    {request : DirectRequest} (h : c.getSuggestions context = .sends request) :
    ∃ details, c.connectionDetails = some details ∧
      request = DirectConnectionClient.directRequest details context := by
  unfold DirectConnectionClient.getSuggestions at h
  split at h
  · cases h
  split at h
  · cases h
  split at h
  · cases h
  cases hd : c.connectionDetails with
  | none => simp [hd] at h
  | some details =>
      simp only [hd] at h
      split at h
      · cases h
      · cases h
        exact ⟨details, rfl, rfl⟩

/-- The stored details were obtained by a request sent since the latest reconfiguration. -/
def StoredFresh (s : System) : Prop :=
  (s.client.connectionDetails.isSome → s.detailsFrom.isSome) ∧
    ∀ r, s.detailsFrom = some r → r.reconfigurations = s.reconfigurations

/-- Every suggestion request was sent with details requested since the reconfiguration that was
the latest at that moment. -/
def SentFresh (s : System) : Prop :=
  ∀ x ∈ s.sent, ∃ r, x.detailsFrom = some r ∧ r.reconfigurations = x.reconfigurations

/-- Whenever a request for details fails in the run, details that a younger request obtained
stay stored. -/
def KeepsNewer (now : Nat) (as : List Action) : Prop :=
  ∀ before id e after, as = before ++ .details id (.error e) :: after →
    ∀ s t, run step (new now) before = some s → step s (.details id (.error e)) = some t →
      ∀ r, s.detailsFrom = some r → id < r.id →
        t.client.connectionDetails = s.client.connectionDetails

/-- What a reader expects of the connection details along a run. -/
structure DetailsContract (now : Nat) (as : List Action) : Prop where
  sentFresh : ∀ s, run step (new now) as = some s → SentFresh s
  keepsNewer : KeepsNewer now as

/-- No response arrives that was requested before the latest reconfiguration, and no request
fails while the details of a younger one are stored. -/
def Timely (s : System) : Action → Prop
  | .details id (.ok _) =>
    ∀ r ∈ s.detailsInFlight, r.id = id → r.reconfigurations = s.reconfigurations
  | .details id (.error _) => ∀ r ∈ s.detailsFrom, r.id ≤ id
  | _ => True

instance : (s : System) → (a : Action) → Decidable (Timely s a)
  | s, .details id (.ok _) => inferInstanceAs (Decidable (∀ r ∈ s.detailsInFlight,
      r.id = id → r.reconfigurations = s.reconfigurations))
  | s, .details id (.error _) => inferInstanceAs (Decidable (∀ r ∈ s.detailsFrom, r.id ≤ id))
  | _, .getSuggestions _ => isTrue trivial
  | _, .suggestions _ _ => isTrue trivial
  | _, .apiReconfigured _ => isTrue trivial
  | _, .wait _ => isTrue trivial
  | _, .detailsExpire _ => isTrue trivial
  | _, .directExpire _ => isTrue trivial

/-- The end of a request for details, whatever is stored. -/
theorem step_details {s t : System} {id : Nat}
    {result : Except RequestError IDirectConnectionDetails}
    (h : step s (.details id result) = some t) :
    ∃ r ∈ s.detailsInFlight, r.id = id ∧ t = s.onDetails r result := by
  obtain ⟨r, hr, rfl⟩ := Option.map_eq_some_iff.mp h
  have hid : r.id = id := by simpa using List.find?_some hr
  exact ⟨r, List.mem_of_find?_eq_some hr, hid, rfl⟩

theorem step_suggestions {s t : System} {id : Nat}
    {result : Except RequestError (Option SuggestionResponse)}
    (h : step s (.suggestions id result) = some t) : t = s.onSuggestions id result := by
  rw [step] at h
  split at h
  · cases h
    rfl
  · cases h

/-- Time passes for both breakers. -/
theorem step_wait {s t : System} {n : Nat} (h : step s (.wait n) = some t) :
    ∃ details direct, s.client.connectionDetailsCircuitBreaker.wait n = some details ∧
      s.client.directConnectionCircuitBreaker.wait n = some direct ∧
      t = { s with client := { s.client with
        connectionDetailsCircuitBreaker := details
        directConnectionCircuitBreaker := direct } } := by
  obtain ⟨c, hc, rfl⟩ := Option.map_eq_some_iff.mp h
  unfold DirectConnectionClient.wait at hc
  split at hc
  · rename_i details direct hdetails hdirect
    cases hc
    exact ⟨details, direct, hdetails, hdirect, rfl⟩
  · cases hc

/-- A request that ends decides what is stored: its own details, or none. -/
theorem storesDetails_of_onDetails (s : System) (r : DetailsRequest)
    (result : Except RequestError IDirectConnectionDetails) :
    (s.onDetails r result).client.connectionDetails = result.toOption := by
  cases result <;> rfl

/-- Timely responses keep stale details out of the store, and so out of the requests. -/
theorem step_fresh {s t : System} {a : Action} (hs : StoredFresh s ∧ SentFresh s)
    (hok : Timely s a) (h : step s a = some t) : StoredFresh t ∧ SentFresh t := by
  obtain ⟨⟨hsome, hfresh⟩, hsent⟩ := hs
  cases a with
  | getSuggestions context =>
      cases h
      unfold getSuggestions
      split
      · exact ⟨⟨hsome, hfresh⟩, hsent⟩
      · split <;> exact ⟨⟨hsome, hfresh⟩, hsent⟩
      · rename_i request hcall
        refine ⟨⟨hsome, hfresh⟩, ?_⟩
        intro x hx
        rcases List.mem_append.mp hx with hx | hx
        · exact hsent x hx
        -- the request that is sent now uses the stored details
        · obtain ⟨details, hd, -⟩ := getSuggestions_sends hcall
          obtain ⟨r, hr⟩ := Option.isSome_iff_exists.mp (hsome (by simp [hd]))
          rw [List.mem_singleton] at hx
          subst hx
          exact ⟨r, hr, hfresh r hr⟩
  | details id result =>
      obtain ⟨r, hr, hid, rfl⟩ := step_details h
      cases result with
      | ok d =>
          refine ⟨⟨fun _ => rfl, ?_⟩, hsent⟩
          rintro r' ⟨⟩
          exact hok r hr hid
      | error e =>
          refine ⟨⟨fun hd => ?_, ?_⟩, hsent⟩
          · cases hd
          · rintro r' ⟨⟩
  | suggestions id result =>
      obtain rfl := step_suggestions h
      cases result <;> exact ⟨⟨hsome, hfresh⟩, hsent⟩
  | apiReconfigured isInValidState =>
      cases h
      refine ⟨⟨fun hd => ?_, ?_⟩, hsent⟩
      · cases hd
      · rintro r' ⟨⟩
  | wait n =>
      obtain ⟨details, direct, -, -, rfl⟩ := step_wait h
      exact ⟨⟨hsome, hfresh⟩, hsent⟩
  | detailsExpire id =>
      obtain ⟨b, -, rfl⟩ := Option.map_eq_some_iff.mp h
      exact ⟨⟨hsome, hfresh⟩, hsent⟩
  | directExpire id =>
      obtain ⟨b, -, rfl⟩ := Option.map_eq_some_iff.mp h
      exact ⟨⟨hsome, hfresh⟩, hsent⟩

/-- **What the store of details keeps of its contract.** In every run without untimely responses,
suggestion requests use details of the current configuration only, and a failure never clears
what a younger request obtained. -/
theorem detailsContract_of_timely (now : Nat) (as : List Action)
    (hg : Guarded step Timely (new now) as) : DetailsContract now as where
  sentFresh := by
    intro s hs
    have hnew : StoredFresh (new now) ∧ SentFresh (new now) := by
      refine ⟨⟨fun hd => ?_, ?_⟩, ?_⟩
      · cases hd
      · rintro r ⟨⟩
      · rintro x ⟨⟩
    exact (guarded_invariant (fun _ _ _ => step_fresh) hnew hg hs).2
  keepsNewer := by
    rintro before id e after rfl s t hs ht r hr hlt
    have hok := ((guarded_cons ht).mp ((guarded_append hs).mp hg).2).1
    have hle : r.id ≤ id := hok r hr
    omega

/-- The contract in a run with a reconfiguration between two requests for details. -/
theorem detailsContract_of_refetch :
    DetailsContract 0 [.getSuggestions sampleContext, .details 0 (.ok (sampleDetails "old")),
      .getSuggestions sampleContext, .apiReconfigured true, .getSuggestions sampleContext,
      .details 1 (.ok (sampleDetails "new")), .getSuggestions sampleContext] :=
  detailsContract_of_timely 0
    [.getSuggestions sampleContext, .details 0 (.ok (sampleDetails "old")),
      .getSuggestions sampleContext, .apiReconfigured true, .getSuggestions sampleContext,
      .details 1 (.ok (sampleDetails "new")), .getSuggestions sampleContext] (by decide)

/-- Details that arrive after a reconfiguration are stored, and the next suggestion request is
sent with them. And of two requests in flight, the older one clears on its failure what the
younger one has obtained. -/
theorem not_detailsContract_of_late_details :
    (¬ DetailsContract 0 [.getSuggestions sampleContext, .apiReconfigured true,
        .details 0 (.ok (sampleDetails "old")), .getSuggestions sampleContext]) ∧
      ¬ DetailsContract 0 [.getSuggestions sampleContext, .getSuggestions sampleContext,
        .details 1 (.ok (sampleDetails "new")), .details 0 (.error .other)] := by
  constructor
  · intro h
    obtain ⟨r, hr, hnow⟩ := h.sentFresh _ rfl _ List.mem_cons_self
    cases hr
    cases hnow
  · intro h
    have hkept := h.keepsNewer [.getSuggestions sampleContext, .getSuggestions sampleContext,
      .details 1 (.ok (sampleDetails "new"))] 0 .other [] rfl _ _ rfl rfl ⟨1, 0⟩ rfl (by decide)
    cases hkept

end System
end KhulnasoftLsp.SuggestionClient
