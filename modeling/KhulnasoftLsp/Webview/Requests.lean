import KhulnasoftLsp.Webview.Messages

/-!
# Requests between a plugin and a webview

The two directions are two protocols. `#handleRequestMessage` of the webview reads a field that no
message has, so that a request of the plugin never reaches a handler (`correlated_iff`). The bus of
the plugin does not wait for the promise of a handler, and the transport drops `success`, so that
a request of the webview always resolves, with what the socket makes of the return value
(`answered_iff`).
-/

namespace KhulnasoftLsp.Webview

open Rpc Rpc.System Transition

variable {α H : Type} (ser : Serialization α) (w : ConnectedWebview)

/-! ## From the plugin to the webview -/

/-- How the bus of the plugin reads a response of the webview. -/
def acceptResponse (m : SocketMessage α) : Option (String × Outcome (Option α) Thrown) :=
  ((SocketIOWebViewTransport.responseReceived w.address m).filter fun message =>
    WebviewInstanceMessageBus.eventFilter w.address message.toWebviewAddress).map fun message =>
      (message.requestId, WebviewInstanceMessageBus.settle message)

theorem id_of_response {r : Request String String (Option α)} {m : SocketMessage α} {id : String}
    {o : Outcome (Option α) Thrown} {v : Option α}
    (hm : (w.pluginRequest ser r).map (fun message => SocketIoMessageBus.response ser message v) =
      some m)
    (haccept : acceptResponse w m = some (id, o)) : id = r.id := by
  rw [w.pluginRequest_eq] at hm
  cases hm
  obtain ⟨message, hmessage, hid⟩ := Option.map_eq_some_iff.mp haccept
  obtain ⟨hreceived, -⟩ := Option.filter_eq_some_iff.mp hmessage
  cases hreceived
  cases hid
  rfl

def pluginToWebview : Protocol String String (Option α) Thrown (SocketMessage α) where
  route r := (w.pluginRequest ser r).bind SocketIoMessageBus.handleRequestMessage
  returned r
    | .value v => (w.pluginRequest ser r).map fun message =>
      SocketIoMessageBus.response ser message v
    | .threw _ => none
    | .promise => none
  settled r
    | .resolved v => (w.pluginRequest ser r).map fun message =>
      SocketIoMessageBus.response ser message v
    | .rejected _ => none
  accept := acceptResponse w
  accept_returned := by
    intro r x m id o hm haccept
    cases x with
    | value v => exact id_of_response ser w hm haccept
    | threw e => cases hm
    | promise => cases hm
  accept_settled := by
    intro r x m id o hm haccept
    cases x with
    | resolved v => exact id_of_response ser w hm haccept
    | rejected e => cases hm

/-- The message that the socket delivers has no `event`. -/
theorem route_pluginToWebview (r : Request String String (Option α)) :
    (pluginToWebview ser w).route r = none := by
  show (w.pluginRequest ser r).bind SocketIoMessageBus.handleRequestMessage = none
  rw [w.pluginRequest_eq]
  rfl

/-! ## From the webview to the plugin -/

def webviewToPlugin : Protocol String String (Option α) Thrown (SocketMessage α) where
  route r := (w.webviewRequest ser r).map fun message => (message.type, message.payload)
  returned := w.pluginResponse ser
  -- nothing waits for the promise
  settled _ _ := none
  accept m := (SocketIoMessageBus.handleResponseMessage m).map fun (requestId, payload) =>
    (requestId, .resolved payload)
  accept_returned := by
    intro r x m id o hm haccept
    rw [w.pluginResponse_eq] at hm
    obtain ⟨payload, -, rfl⟩ := Option.map_eq_some_iff.mp hm
    cases haccept
    rfl
  accept_settled := by
    rintro r x m id o ⟨⟩

/-! ## What the webview is asked -/

/-- The request that arrives finds no handler under its type. -/
def FindsNoHandler (s : System String String (Option α) Thrown (SocketMessage α) H) :
    Event String String (Option α) Thrown H → Prop
  | .deliverRequest i _ => ∀ r, s.requests[i]? = some r → s.handlers.get r.key = none
  | _ => True

variable {s t : System String String (Option α) Thrown (SocketMessage α) H}

/-- No handler of the webview is called. -/
theorem not_called (h : Valid (pluginToWebview ser w) s) {id : String}
    {d : Delivery String String (Option α) Thrown H} (hd : s.deliveries.get id = some d) :
    d.called = none := by
  cases hcalled : d.called with
  | none => rfl
  | some c =>
      obtain ⟨key, hroute, -⟩ := h.routed id d hd c hcalled
      rw [route_pluginToWebview] at hroute
      cases hroute

/-- So the calls do what they are for exactly as long as no handler was registered for any of
them. -/
theorem correlated_iff_of_valid (h : Valid (pluginToWebview ser w) s) (ha : s.Answered) :
    s.Correlated (pluginToWebview ser w) ↔
      ∀ id d, s.deliveries.get id = some d → d.registered = none := by
  constructor
  · intro hcorrelated id d hd
    have hreached := hcorrelated.reached id d hd
    rw [not_called ser w h hd] at hreached
    exact Option.map_eq_none_iff.mp hreached.symm
  · intro hnone
    constructor
    · intro id d hd
      rw [not_called ser w h hd, hnone id d hd]
      rfl
    · exact h.fresh
    · exact ha
    · intro id d c v hd hc
      rw [not_called ser w h hd] at hc
      cases hc
    · intro id c hc hnone
      exact (h.pending_iff id).mpr ⟨c, hc, hnone⟩

theorem answered_step {e : Event String String (Option α) Thrown H}
    (h : Valid (pluginToWebview ser w) s) (ha : s.Answered)
    (hstep : step (pluginToWebview ser w) s e = some t) : t.Answered := by
  apply (answered_step_iff h ha hstep).mpr
  match e with
  | .deliverResponse i =>
      intro m id o hm haccept
      obtain ⟨d, c, hd, hc, -⟩ := h.responded m (List.mem_of_getElem? hm) id o haccept
      rw [not_called ser w h hd] at hc
      cases hc
  | .register .. | .unregister .. | .send .. | .deliverRequest .. | .settle .. | .timeOut .. =>
      trivial

/-- No request has found a handler under its type. -/
def NoneRegistered (s : System String String (Option α) Thrown (SocketMessage α) H) : Prop :=
  ∀ id d, s.deliveries.get id = some d → d.registered = none

theorem noneRegistered_step_iff {e : Event String String (Option α) Thrown H}
    (h : Valid (pluginToWebview ser w) s) (hnone : NoneRegistered s)
    (hstep : step (pluginToWebview ser w) s e = some t) :
    NoneRegistered t ↔ FindsNoHandler s e := by
  cases step_cases hstep with
  | @deliverRequest i r returned hr =>
      constructor
      · intro ht r' hr'
        cases hr.symm.trans hr'
        exact ht r.id _ (OrderedMap.get_set_self _ _ _)
      · intro hfinds id d hd
        rw [receiveRequest, OrderedMap.get_set] at hd
        split at hd
        · cases hd
          exact hfinds r hr
        · exact hnone id d hd
  | settle hd => cases not_called ser w h hd
  | deliverResponse =>
      refine iff_of_true ?_ trivial
      unfold NoneRegistered
      rw [deliveries_receiveResponse]
      exact hnone
  | register => exact iff_of_true hnone trivial
  | unregister => exact iff_of_true hnone trivial
  | send => exact iff_of_true hnone trivial
  | timeOut => exact iff_of_true hnone trivial

/-- **Requests of the plugin.** In every run, the calls reach their handlers and get their answers
if and only if no request finds a handler under its type. -/
theorem correlated_iff {events : List (Event String String (Option α) Thrown H)}
    (hrun : run (step (pluginToWebview ser w)) System.new events = some t) :
    Always (step (pluginToWebview ser w)) (Correlated (pluginToWebview ser w)) System.new events ↔
      Guarded (step (pluginToWebview ser w)) FindsNoHandler System.new events := by
  have hnew : (System.new : System String String (Option α) Thrown (SocketMessage α) H).Correlated
      (pluginToWebview ser w) := by
    apply (correlated_iff_of_valid ser w (valid_new _) _).mpr
    · rintro id d ⟨⟩
    · rintro id o ⟨⟩
  apply always_iff_guarded (fun s e t h _ _ hstep => h.step hstep) _ (valid_new _) hnew hrun
  intro s e t h hcorrelated hstep
  have hnone := (correlated_iff_of_valid ser w h hcorrelated.answered).mp hcorrelated
  have hanswered := answered_step ser w h hcorrelated.answered hstep
  rw [correlated_iff_of_valid ser w (h.step hstep) hanswered]
  exact noneRegistered_step_iff ser w h hnone hstep

/-- The values of the samples, as a socket sends them: a promise arrives as an empty object. -/
inductive SampleValue where
  | number (n : Nat)
  | emptyObject
  deriving DecidableEq

def sampleSerialization : Serialization SampleValue where
  value := some
  promise := some .emptyObject

def sampleWebview : ConnectedWebview where
  address := { webviewId := "chat", webviewInstanceId := "1" }
  managedInstances := ["1"]
  connections := [buildConnectionId { webviewId := "chat", webviewInstanceId := "1" }]
  isManaged := List.mem_singleton.mpr rfl
  isConnected := List.mem_singleton.mpr rfl

abbrev SampleSystem :=
  System String String (Option SampleValue) Thrown (SocketMessage SampleValue) Nat

abbrev sampleSystem : SampleSystem := System.new

/-- A handler is registered, and a request of its type arrives. -/
def sampleRequest : List (Event String String (Option SampleValue) Thrown Nat) :=
  [.register "sum" 0, .send ⟨"r1", "sum", none⟩, .deliverRequest 0 (.value (some (.number 7)))]

/-- A request of a type that has no handler. -/
theorem correlated_iff_of_missing_handler :
    Always (step (pluginToWebview sampleSerialization sampleWebview))
        (Correlated (pluginToWebview sampleSerialization sampleWebview)) sampleSystem
        [.send ⟨"r1", "sum", none⟩, .deliverRequest 0 .promise, .timeOut "r1"] ↔
      Guarded (step (pluginToWebview sampleSerialization sampleWebview)) FindsNoHandler
        sampleSystem
        [.send ⟨"r1", "sum", none⟩, .deliverRequest 0 .promise, .timeOut "r1"] := by
  obtain ⟨t, ht⟩ : ∃ t, run (step (pluginToWebview sampleSerialization sampleWebview)) sampleSystem
      [.send ⟨"r1", "sum", none⟩, .deliverRequest 0 .promise, .timeOut "r1"] = some t :=
    Option.isSome_iff_exists.mp (by decide +kernel)
  exact correlated_iff sampleSerialization sampleWebview ht

/-- The handler is not called, and nothing is on its way to the call. -/
theorem not_correlated_of_registered_handler :
    ∃ t, run (step (pluginToWebview sampleSerialization sampleWebview)) sampleSystem
        sampleRequest = some t ∧
      t.pending = ["r1"] ∧ t.responses = [] ∧
      ¬ t.Correlated (pluginToWebview sampleSerialization sampleWebview) := by
  obtain ⟨t, ht⟩ : ∃ t, run (step (pluginToWebview sampleSerialization sampleWebview)) sampleSystem
      sampleRequest = some t := Option.isSome_iff_exists.mp (by decide +kernel)
  have hfacts : ∀ t ∈ run (step (pluginToWebview sampleSerialization sampleWebview)) sampleSystem
      sampleRequest, t.pending = ["r1"] ∧ t.responses = [] ∧
        t.deliveries.get "r1" = some ⟨⟨"r1", "sum", none⟩, some 0, none⟩ := by decide +kernel
  obtain ⟨hpending, hresponses, hdelivery⟩ := hfacts t ht
  refine ⟨t, ht, hpending, hresponses, ?_⟩
  intro hcorrelated
  cases hcorrelated.reached "r1" _ hdelivery

/-! ## What the webview asks -/

/-- What arrives of the return value of a handler is the value that it returned, or that its promise
has resolved to. -/
def Survives (h : HandlerCall (Option α) Thrown H) : Prop :=
  match h.returned with
  | .value v => ser.wire (.plain v) = v
  | .promise => h.settled = some (.resolved ser.promise)
  | .threw _ => False

/-- A response that arrives for a pending call is what its handler came out with. -/
def ArrivesAsMeant (s : System String String (Option α) Thrown (SocketMessage α) H) :
    Event String String (Option α) Thrown H → Prop
  | .deliverResponse i => ∀ m id d h, s.responses[i]? = some m → m.requestId = some id →
    id ∈ s.pending → s.deliveries.get id = some d → d.called = some h → Survives ser h
  | _ => True

theorem yields_arrival_iff {h : HandlerCall (Option α) Thrown H} {v : Option α}
    (harrival : ConnectedWebview.arrival ser h.returned = some v) :
    h.Yields (.resolved v) ↔ Survives ser h := by
  unfold HandlerCall.Yields Survives
  cases hreturned : h.returned with
  | value u =>
      rw [hreturned] at harrival
      cases harrival
      simp [eq_comm]
  | promise =>
      rw [hreturned] at harrival
      cases harrival
      simp
  | threw e => simp

theorem accept_webviewToPlugin_iff {m : SocketMessage α} {id : String}
    {o : Outcome (Option α) Thrown} :
    (webviewToPlugin ser w).accept m = some (id, o) ↔
      m.requestId = some id ∧ o = .resolved m.payload := by
  show (m.requestId.map fun requestId => (requestId, m.payload)).map (fun
      ((requestId, payload) : String × Option α) => (requestId, Outcome.resolved payload)) = _ ↔ _
  cases m.requestId <;> simp [eq_comm]

/-- Every response on its way comes from the handler that is registered for its call. -/
theorem arrival_of_response (h : Valid (webviewToPlugin ser w) s) {m : SocketMessage α}
    (hm : m ∈ s.responses) {id : String} (hid : m.requestId = some id) :
    ∃ d c, s.deliveries.get id = some d ∧ d.called = some c ∧ d.registered = some c.handler ∧
      ConnectedWebview.arrival ser c.returned = some m.payload := by
  obtain ⟨d, c, hd, hc, hsends⟩ := h.responded m hm id _
    ((accept_webviewToPlugin_iff ser w).mpr ⟨hid, rfl⟩)
  refine ⟨d, c, hd, hc, ?_, ?_⟩
  · obtain ⟨key, hroute, hregistered⟩ := h.routed id d hd c hc
    apply hregistered
    have hmap : (w.webviewRequest ser d.request).map (fun message => (message.type,
        message.payload)) = some (key, c.value) := hroute
    rw [w.webviewRequest_eq, Option.map_some, Option.some.injEq, Prod.mk.injEq] at hmap
    exact hmap.1.symm
  · rcases hsends with hreturned | ⟨o, -, ⟨⟩⟩
    have hresponse : w.pluginResponse ser d.request c.returned = some m := hreturned
    rw [w.pluginResponse_eq] at hresponse
    obtain ⟨payload, harrival, rfl⟩ := Option.map_eq_some_iff.mp hresponse
    exact harrival

theorem answersRight_iff {e : Event String String (Option α) Thrown H}
    (h : Valid (webviewToPlugin ser w) s) :
    AnswersRight (webviewToPlugin ser w) s e ↔ ArrivesAsMeant ser s e := by
  match e with
  | .deliverResponse i =>
      show (∀ m id o, s.responses[i]? = some m → (webviewToPlugin ser w).accept m = some (id, o) →
          id ∈ s.pending → s.HandlerYields id o) ↔
        ∀ m id d h, s.responses[i]? = some m → m.requestId = some id →
          id ∈ s.pending → s.deliveries.get id = some d → d.called = some h → Survives ser h
      constructor
      · intro hright m id d c hm hid hpending hd hc
        obtain ⟨d', c', hd', hc', -, harrival⟩ :=
          arrival_of_response ser w h (List.mem_of_getElem? hm) hid
        cases hd.symm.trans hd'
        cases hc.symm.trans hc'
        obtain ⟨d', c', hd', hc', -, hyields⟩ := hright m id _ hm
          ((accept_webviewToPlugin_iff ser w).mpr ⟨hid, rfl⟩) hpending
        cases hd.symm.trans hd'
        cases hc.symm.trans hc'
        exact (yields_arrival_iff ser harrival).mp hyields
      · intro hmeant m id o hm haccept hpending
        obtain ⟨hid, rfl⟩ := (accept_webviewToPlugin_iff ser w).mp haccept
        obtain ⟨d, c, hd, hc, hregistered, harrival⟩ :=
          arrival_of_response ser w h (List.mem_of_getElem? hm) hid
        exact ⟨d, c, hd, hc, hregistered, (yields_arrival_iff ser harrival).mpr
          (hmeant m id d c hm hid hpending hd hc)⟩
  | .register .. | .unregister .. | .send .. | .deliverRequest .. | .settle .. | .timeOut .. =>
      exact Iff.rfl

/-- **Requests of the webview.** In every run, each call that a response settles comes out like its
handler if and only if that arrives as it was meant. -/
theorem answered_iff {events : List (Event String String (Option α) Thrown H)}
    (hrun : run (step (webviewToPlugin ser w)) System.new events = some t) :
    Always (step (webviewToPlugin ser w)) Answered System.new events ↔
      Guarded (step (webviewToPlugin ser w)) (ArrivesAsMeant ser) System.new events := by
  have hnew :
      (System.new : System String String (Option α) Thrown (SocketMessage α) H).Answered := by
    rintro id o ⟨⟩
  apply always_iff_guarded (fun s e t h _ _ hstep => h.step hstep) _
    (valid_new (webviewToPlugin ser w)) hnew hrun
  intro s e t h hanswered hstep
  rw [answered_step_iff h hanswered hstep]
  exact answersRight_iff ser w h

/-- A handler that returns a number. -/
theorem answered_iff_of_synchronous_handler :
    Always (step (webviewToPlugin sampleSerialization sampleWebview)) Answered sampleSystem
        (sampleRequest ++ [.deliverResponse 0]) ↔
      Guarded (step (webviewToPlugin sampleSerialization sampleWebview))
        (ArrivesAsMeant sampleSerialization) sampleSystem
        (sampleRequest ++ [.deliverResponse 0]) := by
  obtain ⟨t, ht⟩ : ∃ t, run (step (webviewToPlugin sampleSerialization sampleWebview)) sampleSystem
      (sampleRequest ++ [.deliverResponse 0]) = some t :=
    Option.isSome_iff_exists.mp (by decide +kernel)
  exact answered_iff sampleSerialization sampleWebview ht

/-- A handler whose promise resolves to 7, and one that throws. -/
def sampleHandlers : List (Event String String (Option SampleValue) Thrown Nat) :=
  [.register "sum" 0, .register "div" 1,
    .send ⟨"r1", "sum", none⟩, .send ⟨"r2", "div", none⟩,
    .deliverRequest 0 .promise, .deliverRequest 0 (.threw (.error "division by zero")),
    .settle "r1" (.resolved (some (.number 7))), .deliverResponse 0, .deliverResponse 0]

/-- The first call resolves with an empty object, the second with `undefined`. -/
theorem not_answered_of_promise_and_error :
    ∃ t, run (step (webviewToPlugin sampleSerialization sampleWebview)) sampleSystem
        sampleHandlers = some t ∧
      t.settlement "r1" = some (.response (.resolved (some .emptyObject))) ∧
      t.settlement "r2" = some (.response (.resolved none)) ∧
      ¬ t.HandlerYields "r1" (.resolved (some .emptyObject)) ∧
      ¬ t.HandlerYields "r2" (.resolved none) ∧ ¬ t.Answered := by
  obtain ⟨t, ht⟩ : ∃ t, run (step (webviewToPlugin sampleSerialization sampleWebview)) sampleSystem
      sampleHandlers = some t := Option.isSome_iff_exists.mp (by decide +kernel)
  have hfacts : ∀ t ∈ run (step (webviewToPlugin sampleSerialization sampleWebview)) sampleSystem
      sampleHandlers,
      t.settlement "r1" = some (.response (.resolved (some .emptyObject))) ∧
      t.settlement "r2" = some (.response (.resolved none)) ∧
      (t.deliveries.get "r1").bind Delivery.called =
        some ⟨0, none, .promise, some (.resolved (some (.number 7)))⟩ ∧
      (t.deliveries.get "r2").bind Delivery.called =
        some ⟨1, none, .threw (.error "division by zero"), none⟩ := by decide +kernel
  obtain ⟨hr1, hr2, hcall1, hcall2⟩ := hfacts t ht
  have hnot1 : ¬ t.HandlerYields "r1" (.resolved (some .emptyObject)) := by
    rintro ⟨d, h, hd, hcalled, -, hyields⟩
    rw [hd, Option.bind_some, hcalled, Option.some.injEq] at hcall1
    subst hcall1
    simp [HandlerCall.Yields] at hyields
  have hnot2 : ¬ t.HandlerYields "r2" (.resolved none) := by
    rintro ⟨d, h, hd, hcalled, -, hyields⟩
    rw [hd, Option.bind_some, hcalled, Option.some.injEq] at hcall2
    subst hcall2
    simp [HandlerCall.Yields] at hyields
  exact ⟨t, ht, hr1, hr2, hnot1, hnot2, fun hanswered => hnot1 (hanswered "r1" _ hr1)⟩

end KhulnasoftLsp.Webview
