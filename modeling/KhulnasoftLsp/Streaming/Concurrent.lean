import KhulnasoftLsp.OrderedMap
import KhulnasoftLsp.Streaming.Completion

/-!
# Concurrent streams

One `DefaultStreamingHandler` runs any number of streams. They share its circuit breaker and the
map `#streamCancellations`, in which each has a listener under its id. `startStream` removes the
listener in the last lines of its two ways out, behind the `await` of `endStream`. So it does not
get there if `endStream` rejects; nor if the call of the API throws, which is in front of the `try`.
-/

namespace KhulnasoftLsp.Streaming

open Transition CircuitBreaker

/-- What the call of `getStreamingCodeSuggestions` does. -/
inductive ApiStart where
  | returnsStream
  | returnsUndefined
  | throws
  deriving DecidableEq, Repr

/-- The action is the end of `startStream` that calls `disposeStopStreaming.dispose()`. -/
def Action.disposes : Action → Bool
  | .endSent true => true
  | _ => false

/-- The action is an end of `startStream` that does not get to the `dispose()`. -/
def Action.failsToEnd : Action → Bool
  | .endSent false => true
  | _ => false

/-- The action is one of the stream itself. While events are being parsed nothing else runs. -/
def Action.mayRun (isFeeding : Bool) : Action → Bool
  | .onEvent => true
  | .cancel | .environment _ => false
  | _ => !isFeeding

def Control.isSettled : Control → Bool
  | .settled _ => true
  | _ => false

/-- `startStream`, up to its first `await`. -/
def Handler.begin (params : StartStreamParams) (api : ApiStart)
    (circuitBreaker : DefaultSuggestionApiErrorCheck) : Handler :=
  match api with
  | .returnsStream => .startStream params true circuitBreaker
  | .returnsUndefined => .startStream params false circuitBreaker
  -- the promise rejects, and that is all
  | .throws => (Handler.startStream params true circuitBreaker).setControl (.settled false)

structure DefaultStreamingHandler where
  circuitBreaker : DefaultSuggestionApiErrorCheck
  /-- A listener is the one that the stream with this number has registered. -/
  streamCancellations : OrderedMap String Nat
  /-- The streams that were started, in this order. -/
  streams : List Stream

namespace DefaultStreamingHandler

/-- What happens to the handler. -/
inductive Event where
  | startStream (params : StartStreamParams) (api : ApiStart)
  /-- A step of the stream with this number. -/
  | stream (i : Nat) (a : Action)
  /-- A cancel notification for this id. -/
  | cancel (streamId : String)
  /-- The rest of the server leaves the shared breaker in the state `c`. -/
  | environment (c : DefaultSuggestionApiErrorCheck)

def new (circuitBreaker : DefaultSuggestionApiErrorCheck) : DefaultStreamingHandler where
  circuitBreaker := circuitBreaker
  streamCancellations := .empty
  streams := []

def isFeeding (s : DefaultStreamingHandler) : Bool :=
  s.streams.any fun stream => (Handler.mk s.circuitBreaker stream).isFeeding

def startStream (params : StartStreamParams) (api : ApiStart) (s : DefaultStreamingHandler) :
    DefaultStreamingHandler :=
  let h := Handler.begin params api s.circuitBreaker
  { circuitBreaker := h.circuitBreaker
    streamCancellations := s.streamCancellations.set params.streamId s.streams.length
    streams := s.streams ++ [h.stream] }

/-- The stream with the number `i`, with the breaker that it shares. -/
def handler (i : Nat) (s : DefaultStreamingHandler) : Option Handler :=
  s.streams[i]?.map fun stream => ⟨s.circuitBreaker, stream⟩

/-- The stream with the number `i` has taken the step `a`, to the state `h`. -/
def update (i : Nat) (a : Action) (h : Handler) (s : DefaultStreamingHandler) :
    DefaultStreamingHandler where
  circuitBreaker := h.circuitBreaker
  streamCancellations :=
    if a.disposes then s.streamCancellations.delete h.stream.params.streamId
    else s.streamCancellations
  streams := s.streams.set i h.stream

/-- `notificationHandler`: without a listener, a warning is logged. -/
def notificationHandler (streamId : String) (s : DefaultStreamingHandler) :
    DefaultStreamingHandler :=
  match s.streamCancellations.get streamId with
  | none => s
  | some i => { s with streams := s.streams.modify i Stream.cancellationListener }

def step (s : DefaultStreamingHandler) : Event → Option DefaultStreamingHandler
  | .startStream params api => if s.isFeeding then none else some (s.startStream params api)
  | .stream i a =>
    if a.mayRun s.isFeeding then
      (s.handler i).bind fun h => (h.step a).map fun h' => s.update i a h'
    else none
  | .cancel streamId => if s.isFeeding then none else some (s.notificationHandler streamId)
  | .environment c => if s.isFeeding then none else some { s with circuitBreaker := c }

/-- What the steps do. -/
theorem step_cases {s s' : DefaultStreamingHandler} {e : Event} (hs : s.step e = some s') :
    (∃ params api, e = .startStream params api ∧ s' = s.startStream params api) ∨
      (∃ i a stream h', e = .stream i a ∧ s.streams[i]? = some stream ∧
        a.mayRun s.isFeeding = true ∧
        (Handler.mk s.circuitBreaker stream).step a = some h' ∧ s' = s.update i a h') ∨
      (∃ streamId, e = .cancel streamId ∧ s.isFeeding = false ∧
        s' = s.notificationHandler streamId) ∨
      ∃ c, e = .environment c ∧ s' = { s with circuitBreaker := c } := by
  cases e with
  | startStream params api =>
      obtain ⟨-, hs⟩ := Option.ite_none_left_eq_some.mp hs
      cases hs
      exact .inl ⟨params, api, rfl, rfl⟩
  | stream i a =>
      obtain ⟨hmay, hs⟩ := Option.ite_none_right_eq_some.mp hs
      obtain ⟨h, hh, hs⟩ := Option.bind_eq_some_iff.mp hs
      obtain ⟨stream, hstream, rfl⟩ := Option.map_eq_some_iff.mp hh
      obtain ⟨h', hh', rfl⟩ := Option.map_eq_some_iff.mp hs
      exact .inr (.inl ⟨i, a, stream, h', rfl, hstream, hmay, hh', rfl⟩)
  | cancel streamId =>
      obtain ⟨hf, hs⟩ := Option.ite_none_left_eq_some.mp hs
      cases hs
      exact .inr (.inr (.inl ⟨streamId, rfl, by simpa using hf, rfl⟩))
  | environment c =>
      obtain ⟨-, hs⟩ := Option.ite_none_left_eq_some.mp hs
      cases hs
      exact .inr (.inr (.inr ⟨c, rfl, rfl⟩))

/-- The listener of a stream is in the map until `startStream` has settled, and no longer. -/
def CleanedUp (s : DefaultStreamingHandler) : Prop :=
  ∀ (i : Nat) (stream : Stream), s.streams[i]? = some stream →
    s.streamCancellations.get stream.params.streamId =
      if stream.control.isSettled then none else some i

/-- A stream is started under an id that no other stream has. -/
def StartsFresh (s : DefaultStreamingHandler) : Event → Prop
  | .startStream params _ => params.streamId ∉ s.streams.map (·.params.streamId)
  | _ => True

/-- The call of the API does not throw, and `endStream` does not reject. -/
def EndsWithoutError (_ : DefaultStreamingHandler) : Event → Prop
  | .startStream _ api => api ≠ .throws
  | .stream _ a => a.failsToEnd = false
  | _ => True

instance (s : DefaultStreamingHandler) : DecidablePred (StartsFresh s)
  | .startStream _ _ => inferInstanceAs (Decidable (_ ∉ _))
  | .stream _ _ | .cancel _ | .environment _ => isTrue trivial

instance (s : DefaultStreamingHandler) : DecidablePred (EndsWithoutError s)
  | .startStream _ api => inferInstanceAs (Decidable (api ≠ _))
  | .stream _ a => inferInstanceAs (Decidable (a.failsToEnd = _))
  | .cancel _ | .environment _ => isTrue trivial

end DefaultStreamingHandler

/-! ## Where a step leaves `startStream` -/

/-- `startStream` settles when the final `endStream` does, and stays settled. -/
theorem Handler.settled_step_iff {h h' : Handler} {a : Action} (hs : h.step a = some h')
    (fulfilled : Bool) :
    h'.stream.control = .settled fulfilled ↔
      h.stream.control = .settled fulfilled ∨ a = .endSent fulfilled := by
  have hnotified : ∀ {c n}, h.notification c = some n → ∀ m,
      (h.setNotification c m).stream.control = .settled fulfilled ↔
        h.stream.control = .settled fulfilled := by
    intro c n hn m
    cases c with
    | legacy => simp [setNotification, setControl, mapStream, control_of_notification hn]
    | queue => rfl
  cases step_cases hs with
  | @onEvent e es hcontrol => cases es <;> simp [setControl, mapStream, afterEvents, hcontrol]
  | @item i hcontrol =>
      cases i with
      | legacy chunk => simp [item_legacy_eq, hcontrol]
      | sse events => cases events <;> simp [item, setControl, mapStream, afterEvents, hcontrol]
  | iteratorDone hcontrol | iteratorFails hcontrol | iteratorClosed hcontrol
  | onIdle hcontrol _ => simp [setControl, mapStream, hcontrol]
  | @postProcessed c _ result hf hn =>
      have hstream : ∀ m, (Handler.setNotification c m
          { h with stream := (h.stream.notificationProcessed result).1 }).stream.control =
            (h.setNotification c m).stream.control := by
        intro m
        cases c <;> simp [setNotification, setControl, mapStream, Stream.notificationProcessed_eq]
      simp [hstream, hnotified hn]
  | sent hf hn => simp [hnotified hn]
  | @notified c err hf hn =>
      cases c with
      | legacy =>
          cases err <;> simp [notified, setControl, mapStream, control_of_notification hn]
      | queue => simp [notified, taskSettled, queueChanged_eq]
  | endSent hcontrol => simp [setControl, mapStream, hcontrol, eq_comm]
  | endRejected hcontrol => simp [setControl, mapStream, hcontrol, eq_comm]
  | parserEndSent hf hp => simp [mapStream, Stream.endStreamSent_eq]
  | parserEndRejected hf hp => simp [mapStream]
  | cancel hf => simp [mapStream, Stream.notificationHandler_eq]
  | environment hf => simp

theorem Handler.Coherent.of_stream {c c' : DefaultSuggestionApiErrorCheck} {stream : Stream}
    (h : (Handler.mk c stream).Coherent) : (Handler.mk c' stream).Coherent :=
  ⟨h.notPaused, h.working, h.begun, h.control, h.drained, h.registered, h.cancelled,
    h.parserEnded, h.parserFlag⟩

theorem Handler.coherent_begin (params : StartStreamParams) (api : ApiStart)
    (c : DefaultSuggestionApiErrorCheck) : (Handler.begin params api c).Coherent := by
  cases api with
  | returnsStream | returnsUndefined => exact coherent_startStream params _ c
  | throws =>
      have h := coherent_startStream params true c
      exact ⟨h.notPaused, h.working, h.begun, trivial, fun _ => rfl, h.registered, h.cancelled,
        h.parserEnded, h.parserFlag⟩

theorem Handler.begin_stream (params : StartStreamParams) (api : ApiStart)
    (c : DefaultSuggestionApiErrorCheck) :
    (Handler.begin params api c).stream.params = params ∧
      (Handler.begin params api c).stream.isRegistered = true ∧
      ((Handler.begin params api c).stream.control = .settled false ↔ api = .throws) := by
  cases api <;> simp [Handler.begin, Handler.startStream, Handler.setControl, Handler.mapStream,
    Stream.endStream, Stream.sendStreamingResponse]

/-! ## The map of listeners -/

namespace DefaultStreamingHandler

/-- The map has the listeners of the streams that are registered, and no others. -/
structure Registered (s : DefaultStreamingHandler) : Prop where
  coherent : ∀ (i : Nat) (stream : Stream), s.streams[i]? = some stream →
    (Handler.mk s.circuitBreaker stream).Coherent
  listener : ∀ (i : Nat) (stream : Stream), s.streams[i]? = some stream →
    s.streamCancellations.get stream.params.streamId =
      if stream.isRegistered then some i else none
  owner : ∀ streamId i, s.streamCancellations.get streamId = some i →
    ∃ stream, s.streams[i]? = some stream ∧ stream.params.streamId = streamId
  distinct : (s.streams.map (·.params.streamId)).Nodup

theorem registered_new (c : DefaultSuggestionApiErrorCheck) : (new c).Registered where
  coherent := by simp [new]
  listener := by simp [new]
  owner := by simp [new]
  distinct := List.nodup_nil

variable {s s' : DefaultStreamingHandler}

/-- The id of a stream says which stream it is. -/
theorem Registered.eq_of_streamId (hr : s.Registered) {i j : Nat} {x y : Stream}
    (hx : s.streams[i]? = some x) (hy : s.streams[j]? = some y)
    (hid : x.params.streamId = y.params.streamId) : i = j := by
  have hlt : i < (s.streams.map (·.params.streamId)).length := by
    rw [List.length_map]
    exact (List.getElem?_eq_some_iff.mp hx).1
  apply ((List.getElem?_inj hlt hr.distinct).mp _)
  rw [List.getElem?_map, List.getElem?_map, hx, hy, Option.map_some, Option.map_some, hid]

theorem Registered.startStream (hr : s.Registered) {params : StartStreamParams}
    (hfresh : params.streamId ∉ s.streams.map (·.params.streamId)) (api : ApiStart) :
    (s.startStream params api).Registered := by
  obtain ⟨hparams, hregistered, -⟩ := Handler.begin_stream params api s.circuitBreaker
  -- the stream at a place is an old one, under an id of its own, or the new one
  have hcases : ∀ {i stream}, (s.startStream params api).streams[i]? = some stream →
      (s.streams[i]? = some stream ∧ stream.params.streamId ≠ params.streamId) ∨
        (i = s.streams.length ∧ stream = (Handler.begin params api s.circuitBreaker).stream) := by
    intro i stream hstream
    replace hstream : (s.streams ++ [(Handler.begin params api s.circuitBreaker).stream])[i]? =
        some stream := hstream
    rw [List.getElem?_append] at hstream
    split at hstream
    · rename_i h
      refine .inl ⟨hstream, ?_⟩
      intro hid
      exact hfresh (hid ▸ List.mem_map_of_mem (List.mem_of_getElem? hstream))
    · rename_i hle
      obtain ⟨hlt, hget⟩ := List.getElem?_eq_some_iff.mp hstream
      rw [List.length_singleton] at hlt
      exact .inr ⟨by omega, by simpa using hget.symm⟩
  constructor
  · intro i stream hstream
    rcases hcases hstream with ⟨h, -⟩ | ⟨-, rfl⟩
    · exact (hr.coherent i stream h).of_stream
    · exact Handler.coherent_begin params api s.circuitBreaker
  · intro i stream hstream
    show (s.streamCancellations.set params.streamId s.streams.length).get _ = _
    rcases hcases hstream with ⟨h, hne⟩ | ⟨rfl, rfl⟩
    · rw [OrderedMap.get_set_other _ _ hne, hr.listener i stream h]
    · rw [hparams, OrderedMap.get_set_self, hregistered]
      rfl
  · intro streamId i hget
    replace hget : (s.streamCancellations.set params.streamId s.streams.length).get streamId =
        some i := hget
    rw [OrderedMap.get_set] at hget
    split at hget
    · rename_i heq
      cases hget
      refine ⟨(Handler.begin params api s.circuitBreaker).stream, ?_, by rw [hparams, heq]⟩
      simp [DefaultStreamingHandler.startStream]
    · obtain ⟨stream, hstream, hid⟩ := hr.owner streamId i hget
      refine ⟨stream, ?_, hid⟩
      exact List.getElem?_append_left (List.getElem?_eq_some_iff.mp hstream).1 ▸ hstream
  · show ((s.streams ++ [_]).map _).Nodup
    rw [List.map_append, List.map_singleton, hparams]
    exact hr.distinct.concat hfresh |> fun h => by simpa using h

section Update

variable {i : Nat} {a : Action} {stream : Stream} {h' : Handler}

theorem getElem?_update (hlt : i < s.streams.length) (j : Nat) :
    (s.update i a h').streams[j]? = if i = j then some h'.stream else s.streams[j]? := by
  show (s.streams.set i h'.stream)[j]? = _
  rw [List.getElem?_set]
  split <;> simp_all

theorem get_update (streamId : String) :
    (s.update i a h').streamCancellations.get streamId =
      if a.disposes = true ∧ streamId = h'.stream.params.streamId then none
      else s.streamCancellations.get streamId := by
  show (if a.disposes then s.streamCancellations.delete h'.stream.params.streamId
    else s.streamCancellations).get streamId = _
  cases a.disposes <;> simp [OrderedMap.get_delete]

theorem streamIds_update (hstream : s.streams[i]? = some stream)
    (hparams : h'.stream.params = stream.params) :
    (s.update i a h').streams.map (·.params.streamId) =
      s.streams.map (·.params.streamId) := by
  apply List.ext_getElem?
  intro j
  rw [List.getElem?_map, List.getElem?_map,
    getElem?_update (List.getElem?_eq_some_iff.mp hstream).1]
  split
  · rename_i hij
    rw [← hij, hstream, Option.map_some, Option.map_some, hparams]
  · rfl

/-- The stream stays registered unless it disposes of its listener. -/
theorem isRegistered_step {h : Handler} (hc : h.Coherent) (hs : h.step a = some h') :
    h'.stream.isRegistered = (h.stream.isRegistered && !a.disposes) := by
  have hcontrol := Handler.settled_step_iff hs true
  have hdisposed : ∀ c : Control, c.isDisposed = true ↔ c = .settled true := by
    intro c
    cases c <;> simp [Control.isDisposed]
  have hdisposes : a.disposes = true ↔ a = .endSent true := by
    cases a with
    | endSent fulfilled => cases fulfilled <;> simp [Action.disposes]
    | _ => simp [Action.disposes]
  rw [(hc.step hs).registered, hc.registered, Bool.eq_iff_iff]
  simp [hdisposed, hdisposes, hcontrol, ← Bool.not_eq_true]

/-- A step of one stream leaves the listeners of the others alone. -/
theorem Registered.update (hr : s.Registered) (hstream : s.streams[i]? = some stream)
    (hs : (Handler.mk s.circuitBreaker stream).step a = some h') :
    (s.update i a h').Registered := by
  have hparams : h'.stream.params = stream.params := Handler.params_step hs
  have hlt := (List.getElem?_eq_some_iff.mp hstream).1
  constructor
  · intro j x hx
    rw [getElem?_update hlt] at hx
    split at hx
    · cases hx
      exact (hr.coherent i stream hstream).step hs
    · exact (hr.coherent j x hx).of_stream
  · intro j x hx
    rw [getElem?_update hlt] at hx
    rw [get_update, hparams]
    split at hx
    · rename_i hij
      cases hx
      rw [hparams, hr.listener i stream hstream,
        isRegistered_step (hr.coherent i stream hstream) hs, ← hij]
      cases a.disposes <;> simp
    · rename_i hij
      have hid : x.params.streamId ≠ stream.params.streamId :=
        fun hid => hij (hr.eq_of_streamId hstream hx hid.symm)
      rw [if_neg (fun h => hid h.2)]
      exact hr.listener j x hx
  · intro streamId j hj
    rw [get_update] at hj
    obtain ⟨-, hj⟩ := Option.ite_none_left_eq_some.mp hj
    obtain ⟨x, hx, hid⟩ := hr.owner streamId j hj
    rw [getElem?_update hlt]
    split
    · rename_i hij
      obtain rfl : stream = x := by
        rw [← hij, hstream] at hx
        exact Option.some.inj hx
      exact ⟨h'.stream, rfl, by rw [hparams, hid]⟩
    · exact ⟨x, hx, hid⟩
  · rw [streamIds_update hstream hparams]
    exact hr.distinct

end Update

/-- A cancel notification changes neither the id nor the control of a stream. -/
theorem getElem?_notificationHandler {streamId : String} {j : Nat} {x : Stream}
    (hx : (s.notificationHandler streamId).streams[j]? = some x) :
    ∃ y, s.streams[j]? = some y ∧ (x = y ∨ x = y.cancellationListener) := by
  unfold notificationHandler at hx
  split at hx
  · exact ⟨x, hx, .inl rfl⟩
  · rename_i i _
    replace hx : (s.streams.modify i Stream.cancellationListener)[j]? = some x := hx
    rw [List.getElem?_modify] at hx
    obtain ⟨y, hy, rfl⟩ := Option.map_eq_some_iff.mp hx
    refine ⟨y, hy, ?_⟩
    by_cases hij : i = j
    · exact .inr (if_pos hij)
    · exact .inl (if_neg hij)

theorem streamIds_notificationHandler (streamId : String) (s : DefaultStreamingHandler) :
    (s.notificationHandler streamId).streams.map (·.params.streamId) =
      s.streams.map (·.params.streamId) := by
  unfold notificationHandler
  split
  · rfl
  · rename_i i _
    show (s.streams.modify i Stream.cancellationListener).map (·.params.streamId) = _
    apply List.ext_getElem?
    intro j
    rw [List.getElem?_map, List.getElem?_map, List.getElem?_modify]
    cases s.streams[j]? with
    | none => rfl
    | some x =>
        by_cases hij : i = j
        · rw [Option.map_eq_map, Option.map_some, Option.map_some, if_pos hij]
          rfl
        · rw [Option.map_eq_map, Option.map_some, Option.map_some, if_neg hij]
          rfl

theorem Registered.notificationHandler (hr : s.Registered) (streamId : String) :
    (s.notificationHandler streamId).Registered := by
  have hmap : (s.notificationHandler streamId).streamCancellations = s.streamCancellations := by
    unfold DefaultStreamingHandler.notificationHandler
    split <;> rfl
  have hids := streamIds_notificationHandler streamId s
  constructor
  · intro j x hx
    obtain ⟨y, hy, rfl | rfl⟩ := getElem?_notificationHandler hx
    · exact (hr.coherent j x hy).of_stream
    · have h := hr.coherent j y hy
      exact ⟨h.notPaused, h.working, h.begun, h.control, h.drained, h.registered, fun _ => rfl,
        fun _ => rfl, h.parserFlag⟩
  · intro j x hx
    rw [hmap]
    obtain ⟨y, hy, rfl | rfl⟩ := getElem?_notificationHandler hx
    · exact hr.listener j x hy
    · exact hr.listener j y hy
  · intro id j hj
    rw [hmap] at hj
    obtain ⟨y, hy, hid⟩ := hr.owner id j hj
    have hget := congrArg (fun ids : List String => ids[j]?) hids
    rw [List.getElem?_map, List.getElem?_map, hy] at hget
    obtain ⟨x, hx, hxid⟩ := Option.map_eq_some_iff.mp hget
    exact ⟨x, hx, hxid.trans hid⟩
  · rw [hids]
    exact hr.distinct

/-- Every step keeps the streams and the map together. -/
theorem Registered.step {e : Event} (hr : s.Registered) (hfresh : s.StartsFresh e)
    (hs : s.step e = some s') : s'.Registered := by
  rcases step_cases hs with ⟨params, api, rfl, rfl⟩ |
    ⟨i, a, stream, h', rfl, hstream, -, hh, rfl⟩ | ⟨streamId, rfl, -, rfl⟩ | ⟨c, rfl, rfl⟩
  · exact hr.startStream hfresh api
  · exact hr.update hstream hh
  · exact hr.notificationHandler streamId
  · exact ⟨fun i stream h => (hr.coherent i stream h).of_stream, hr.listener, hr.owner, hr.distinct⟩

/-- What is left behind is the listener of a stream whose `startStream` has rejected. -/
theorem Registered.cleanedUp_iff (hr : s.Registered) :
    s.CleanedUp ↔ ∀ stream ∈ s.streams, stream.control ≠ .settled false := by
  have hone : ∀ (i : Nat) (stream : Stream), s.streams[i]? = some stream →
      (s.streamCancellations.get stream.params.streamId =
          (if stream.control.isSettled then none else some i) ↔
        stream.control ≠ .settled false) := by
    intro i stream hstream
    rw [hr.listener i stream hstream, (hr.coherent i stream hstream).registered]
    cases stream.control with
    | settled fulfilled => cases fulfilled <;> simp [Control.isDisposed, Control.isSettled]
    | _ => simp [Control.isDisposed, Control.isSettled]
  constructor
  · intro h stream hmem
    obtain ⟨i, hi⟩ := List.getElem?_of_mem hmem
    exact (hone i stream hi).mp (h i stream hi)
  · intro h i stream hi
    exact (hone i stream hi).mpr (h stream (List.mem_of_getElem? hi))

/-- Exactly the two failures of `EndsWithoutError` leave a listener behind. -/
theorem cleanedUp_step_iff {e : Event} (hr : s.Registered) (hclean : s.CleanedUp)
    (hfresh : s.StartsFresh e) (hs : s.step e = some s') :
    s'.CleanedUp ↔ s.EndsWithoutError e := by
  rw [hr.cleanedUp_iff] at hclean
  rw [(hr.step hfresh hs).cleanedUp_iff]
  rcases step_cases hs with ⟨params, api, rfl, rfl⟩ | ⟨i, a, stream, h', rfl, hstream, -, hh, rfl⟩ |
    ⟨streamId, rfl, -, rfl⟩ | ⟨c, rfl, rfl⟩
  · have hnew := (Handler.begin_stream params api s.circuitBreaker).2.2
    show (∀ x ∈ s.streams ++ [_], _) ↔ api ≠ .throws
    rw [List.forall_mem_append, List.forall_mem_singleton, ne_eq, hnew]
    exact and_iff_right hclean
  · have hcontrol := Handler.settled_step_iff hh false
    have hbefore := hclean stream (List.mem_of_getElem? hstream)
    have hfails : a.failsToEnd = false ↔ h'.stream.control ≠ .settled false := by
      rw [ne_eq, hcontrol]
      cases a with
      | endSent fulfilled => cases fulfilled <;> simp [Action.failsToEnd, hbefore]
      | _ => simp [Action.failsToEnd, hbefore]
    show (∀ x ∈ s.streams.set i h'.stream, _) ↔ a.failsToEnd = false
    rw [hfails]
    constructor
    · intro h
      exact h _ (List.mem_set (List.getElem?_eq_some_iff.mp hstream).1 _)
    · intro h x hx
      rcases List.mem_or_eq_of_mem_set hx with hx | rfl
      · exact hclean x hx
      · exact h
  · refine iff_of_true ?_ trivial
    intro x hx
    obtain ⟨j, hj⟩ := List.getElem?_of_mem hx
    obtain ⟨y, hy, rfl | rfl⟩ := getElem?_notificationHandler hj
    · exact hclean x (List.mem_of_getElem? hy)
    · exact hclean y (List.mem_of_getElem? hy)
  · exact iff_of_true hclean trivial

/-- **When listeners are cleaned up.** In a run of streams with distinct ids, every listener is
removed once its `startStream` has settled, and until then it stays, if and only if no call of the
API throws and no `endStream` rejects. -/
theorem listenersCleanedUp_iff (circuitBreaker : DefaultSuggestionApiErrorCheck) (es : List Event)
    (s : DefaultStreamingHandler) (hrun : run step (new circuitBreaker) es = some s)
    (hfresh : Guarded step StartsFresh (new circuitBreaker) es) :
    Always step CleanedUp (new circuitBreaker) es ↔
      Guarded step EndsWithoutError (new circuitBreaker) es := by
  have hnew : (new circuitBreaker).CleanedUp := by
    intro i stream h
    cases h
  apply always_iff_guarded_of_guarded (I := Registered) _ _ (registered_new _) hnew hfresh hrun
  · exact fun _ _ _ hr _ hgiven _ hs => hr.step hgiven hs
  · exact fun _ _ _ hr hclean hgiven hs => cleanedUp_step_iff hr hclean hgiven hs

/-- Two streams at the same time: the one is cancelled, the other has no API. -/
def sampleEvents : List Event :=
  [.startStream sampleParams .returnsStream,
    .startStream { sampleParams with streamId := "code-suggestion-stream-2" } .returnsUndefined,
    .cancel "code-suggestion-stream-1", .stream 1 (.endSent true), .stream 0 .iteratorDone,
    .stream 0 .onIdle, .stream 0 (.endSent true)]

theorem cleanedUp_of_sampleEvents : ∃ s, run step (new (.new 0)) sampleEvents = some s ∧
    Always step CleanedUp (new (.new 0)) sampleEvents := by
  refine ⟨?s, ?run, (listenersCleanedUp_iff (.new 0) sampleEvents ?s ?run ?_).mpr ?_⟩
  case run => rfl
  · decide +kernel
  · decide +kernel

/-- The client is gone when the end of a stream is to be sent. -/
theorem not_cleanedUp_of_failed_send : ∃ s, run step (new (.new 0))
    [.startStream sampleParams .returnsStream, .stream 0 .iteratorDone, .stream 0 .onIdle,
      .stream 0 (.endSent false)] = some s ∧
    (∀ stream ∈ s.streams, stream.control.isSettled = true) ∧ ¬ s.CleanedUp := by
  refine ⟨_, rfl, by decide +kernel, ?_⟩
  intro h
  exact absurd (h 0 _ rfl) (by decide +kernel)

end DefaultStreamingHandler
end KhulnasoftLsp.Streaming
