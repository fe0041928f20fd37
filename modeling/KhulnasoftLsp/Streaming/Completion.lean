import KhulnasoftLsp.Streaming.Invariants

/-!
# The message that ends a stream

A client waits for one message with `done: true`, and takes it as the last one of its stream.

`startStream` sends that message in its `finally` block, once the queue of notifications is idle.
The event parser sends it too, for every event whose data is not valid JSON, and the stream goes
on after that. So `endsOnce_iff_validJson` is the whole truth: a stream that has settled was ended
by exactly one last message if and only if all events the API sent were valid JSON.
-/

namespace KhulnasoftLsp.Streaming

open CircuitBreaker Transition

/-- One message says that the stream `id` is done, and none is sent for that stream after it. -/
def EndsOnce (id : String) (messages : List StreamingCompletionResponse) : Prop :=
  ∃ before final after, messages = before ++ final :: after ∧
    final.id = id ∧ final.done = true ∧
    (∀ m ∈ before, m.id = id → m.done = false) ∧ ∀ m ∈ after, m.id ≠ id

/-- No message says that the stream `id` is done. -/
def NotEnded (id : String) (messages : List StreamingCompletionResponse) : Prop :=
  ∀ m ∈ messages, m.id = id → m.done = false

/-- How many messages say that the stream `id` is done. -/
def doneCount (id : String) (messages : List StreamingCompletionResponse) : Nat :=
  messages.countP fun m => m.id == id && m.done

/-- How many of the events have data that is not valid JSON. -/
def malformed (events : List EventSourceMessage) : Nat := events.countP (·.data.isNone)

/-! ## Counting the final messages -/

theorem doneCount_append (id : String) (ms ns : List StreamingCompletionResponse) :
    doneCount id (ms ++ ns) = doneCount id ms + doneCount id ns :=
  List.countP_append

theorem doneCount_eq_zero {id : String} {ms : List StreamingCompletionResponse} :
    doneCount id ms = 0 ↔ NotEnded id ms := by
  simp [doneCount, NotEnded]

theorem EndsOnce.doneCount {id : String} {ms : List StreamingCompletionResponse}
    (h : EndsOnce id ms) : doneCount id ms = 1 := by
  obtain ⟨before, final, after, rfl, hid, hdone, hbefore, hafter⟩ := h
  have hb : Streaming.doneCount id before = 0 := doneCount_eq_zero.mpr hbefore
  have ha : Streaming.doneCount id after = 0 :=
    doneCount_eq_zero.mpr fun m hm hmid => absurd hmid (hafter m hm)
  rw [doneCount_append, hb, ← List.singleton_append, doneCount_append, ha]
  simp [Streaming.doneCount, hid, hdone]

/-- A final message after messages of which none is final. -/
theorem NotEnded.endsOnce {id : String} {ms : List StreamingCompletionResponse}
    {m : StreamingCompletionResponse} (h : NotEnded id ms) (hid : m.id = id)
    (hdone : m.done = true) : EndsOnce id (ms ++ [m]) :=
  ⟨ms, m, [], rfl, hid, hdone, h, by simp⟩

theorem malformed_append (es fs : List EventSourceMessage) :
    malformed (es ++ fs) = malformed es + malformed fs :=
  List.countP_append

theorem malformed_eq_zero {es : List EventSourceMessage} :
    malformed es = 0 ↔ ∀ e ∈ es, e.data ≠ none := by
  simp [malformed]

namespace Handler

/-- The events that the parser has still to handle. -/
def pending (h : Handler) : List EventSourceMessage :=
  match h.stream.control with
  | .feeding es => es
  | _ => []

/-! ## One step -/

theorem doneCount_sendsOnEvent (e : EventSourceMessage) (h : Handler) :
    doneCount h.stream.params.streamId (h.sendsOnEvent e) = malformed [e] := by
  cases hd : e.data <;> simp [sendsOnEvent, malformed, doneCount, Stream.doneMessage, hd]

theorem params_step {h h' : Handler} {a : Action} (hs : h.step a = some h') :
    h'.stream.params = h.stream.params := by
  cases step_cases hs with
  | @onEvent e es hcontrol =>
      rcases h.onEvent_cases e with hd | ⟨-, -, he⟩ | ⟨event, -, -, he⟩
      · simp [setControl, mapStream, onEvent_malformed hd]
      · simp [setControl, mapStream, he]
      · simp [setControl, mapStream, he, addTask, queueChanged_eq, Stream.onParsedEvent_eq]
  | @item i hcontrol =>
      cases i with
      | legacy chunk => rw [item_legacy_eq]
      | sse events => rfl
  | iteratorFails hcontrol => simp [setControl, mapStream, handleError_eq]
  | iteratorClosed hcontrol => simp [setControl, mapStream, handleError_eq]
  | @postProcessed c _ _ hf hn =>
      cases c <;> simp [setNotification, setControl, mapStream, Stream.notificationProcessed_eq]
  | @sent c _ hf hn => cases c <;> rfl
  | @notified c err hf hn =>
      cases c with
      | legacy => cases err <;> simp [notified, setControl, mapStream, Stream.legacyNotified_eq]
      | queue => simp [notified, taskSettled, queueChanged_eq]
  | endSent hcontrol =>
      simp [setControl, mapStream, Stream.endStreamSent_eq, Stream.disposeStopStreaming]
  | parserEndSent hf hp => simp [mapStream, Stream.endStreamSent_eq]
  | cancel hf => simp [mapStream, Stream.notificationHandler_eq]
  | iteratorDone | onIdle | endRejected | parserEndRejected | environment => rfl

theorem pending_of_not_feeding {h : Handler} (hf : h.isFeeding = false) : h.pending = [] := by
  revert hf
  unfold isFeeding pending
  cases h.stream.control <;> simp

/-- What a step does to the events that are still to be handled, and to the end of the stream. -/
theorem pending_step {h h' : Handler} {a : Action} (hs : h.step a = some h') :
    (∃ e, a = .onEvent ∧ h.sends a = h.sendsOnEvent e ∧ h.pending = e :: h'.pending ∧
      h.stream.control.isEnding = false ∧ h'.stream.control.isEnding = false) ∨
    (a = .onIdle ∧ h.pending = [] ∧ h'.pending = [] ∧
      h.stream.control.isEnding = false ∧ h'.stream.control.isEnding = true) ∨
    (a ≠ .onEvent ∧ a ≠ .onIdle ∧ h.pending = [] ∧ h'.pending = a.events ∧
      h'.stream.control.isEnding = h.stream.control.isEnding) := by
  cases step_cases hs with
  | @onEvent e es hcontrol =>
      refine .inl ⟨e, rfl, by simp [sends, hcontrol], ?_, by simp [hcontrol, Control.isEnding], ?_⟩
      · cases es <;> simp [pending, hcontrol, afterEvents, setControl, mapStream]
      · cases es <;> simp [afterEvents, setControl, mapStream, Control.isEnding]
  | onIdle hcontrol hidle =>
      exact .inr (.inl ⟨rfl, by simp [pending, hcontrol], rfl, by simp [hcontrol, Control.isEnding],
        rfl⟩)
  | @item i hcontrol =>
      refine .inr (.inr ⟨by simp, by simp, by simp [pending, hcontrol], ?_⟩)
      cases i with
      | legacy chunk => simp [item_legacy_eq, pending, Action.events, hcontrol, Control.isEnding]
      | sse events =>
          cases events <;> simp [item, pending, Action.events, hcontrol, Control.isEnding,
            setControl, mapStream, afterEvents]
  | iteratorDone hcontrol | iteratorFails hcontrol | iteratorClosed hcontrol | endSent hcontrol
  | endRejected hcontrol =>
      refine .inr (.inr ⟨by simp, by simp, by simp [pending, hcontrol], ?_⟩)
      simp [pending, hcontrol, setControl, mapStream, Action.events, Control.isEnding]
  | @postProcessed c _ result hf hn =>
      refine .inr (.inr ⟨by simp, by simp, pending_of_not_feeding hf, ?_⟩)
      cases c with
      | legacy =>
          simp [control_of_notification hn, setNotification, setControl, mapStream, pending,
            Action.events, Control.isEnding]
      | queue =>
          simpa [setNotification, mapStream, pending, Stream.notificationProcessed_eq,
            Action.events] using pending_of_not_feeding hf
  | @sent c _ hf hn =>
      refine .inr (.inr ⟨by simp, by simp, pending_of_not_feeding hf, ?_⟩)
      cases c with
      | legacy =>
          simp [control_of_notification hn, setNotification, setControl, mapStream, pending,
            Action.events, Control.isEnding]
      | queue => exact ⟨pending_of_not_feeding hf, rfl⟩
  | @notified c err hf hn =>
      refine .inr (.inr ⟨by simp, by simp, pending_of_not_feeding hf, ?_⟩)
      cases c with
      | legacy =>
          cases err <;> simp [control_of_notification hn, notified, setControl, mapStream, pending,
            Action.events, Control.isEnding]
      | queue =>
          simpa [notified, taskSettled, queueChanged_eq, pending, Action.events] using
            pending_of_not_feeding hf
  | parserEndSent hf hp | cancel hf =>
      refine .inr (.inr ⟨by simp, by simp, pending_of_not_feeding hf, ?_⟩)
      simpa [mapStream, Stream.endStreamSent_eq, Stream.notificationHandler_eq, pending,
        Action.events] using pending_of_not_feeding hf
  | parserEndRejected hf hp | environment hf =>
      exact .inr (.inr
        ⟨by simp, by simp, pending_of_not_feeding hf, pending_of_not_feeding hf, rfl⟩)

/-- Only the parser's `catch` block and the `finally` block send a final message. -/
theorem doneCount_sends_eq_zero {h : Handler} {a : Action} (hevent : a ≠ .onEvent)
    (hidle : a ≠ .onIdle) (id : String) : doneCount id (h.sends a) = 0 := by
  cases a with
  | onEvent => exact absurd rfl hevent
  | onIdle => exact absurd rfl hidle
  | postProcessed c result =>
      cases result <;> simp [sends, doneCount, Stream.processedMessages, Stream.contentMessage]
  | _ => rfl

/-- Each step sends one final message for each malformed event that it handles, and one when it
calls `endStream()`. -/
theorem doneCount_sends {h h' : Handler} {a : Action} (hs : h.step a = some h') :
    doneCount h.stream.params.streamId (h.sends a) + malformed h'.pending +
        h.stream.control.isEnding.toNat =
      malformed h.pending + malformed a.events + h'.stream.control.isEnding.toNat := by
  rcases pending_step hs with ⟨e, rfl, hsends, hp, he, he'⟩ | ⟨rfl, hp, hp', he, he'⟩ |
    ⟨hevent, hidle, hp, hp', he⟩
  -- an event leaves the pending ones, and is answered by a final message if it is malformed
  · have hcons : malformed (e :: h'.pending) = malformed [e] + malformed h'.pending :=
      malformed_append [e] _
    have hevents : malformed Action.onEvent.events = 0 := rfl
    rw [hsends, doneCount_sendsOnEvent, hp, hcons, hevents, he, he']
    omega
  · have hdone : doneCount h.stream.params.streamId [h.stream.doneMessage] = 1 := by
      simp [doneCount, Stream.doneMessage]
    rw [hp, hp', he, he', sends, hdone]
    simp [Action.events, malformed]
  · rw [doneCount_sends_eq_zero hevent hidle, hp, hp', he]
    simp [malformed]

/-- Once `endStream()` was called at the end, nothing is sent any more. -/
theorem sends_of_isEnding {h h' : Handler} {a : Action} (hc : h.Coherent)
    (hs : h.step a = some h') (he : h.stream.control.isEnding = true) : h.sends a = [] := by
  cases step_cases hs with
  | onEvent hcontrol | onIdle hcontrol _ =>
      rw [hcontrol] at he
      cases he
  | @postProcessed c _ _ hf hn =>
      cases c with
      | legacy =>
          rw [control_of_notification hn] at he
          cases he
      | queue =>
          rw [hc.not_ending_of_running hn] at he
          cases he
  | _ => rfl

/-! ## Runs -/

section Runs

variable {params : StartStreamParams} {b : Bool} {c : DefaultSuggestionApiErrorCheck}
  {as : List Action} {h : Handler}

theorem params_of_run (hrun : run step (startStream params b c) as = some h) :
    h.stream.params = params := by
  refine run_invariant (I := fun h => h.stream.params = params) ?_ ?_ hrun
  -- no step changes the parameters
  · intro h a h' hp hs
    rw [params_step hs, hp]
  · cases b <;> rfl

/-- **The final messages of a run**: one for each malformed event that the parser has handled,
and one more once the stream has come to its end. -/
theorem doneCount_of_run (hrun : run step (startStream params b c) as = some h) :
    doneCount params.streamId h.stream.messages + malformed h.pending =
      malformed (delivered as) + h.stream.control.isEnding.toNat := by
  suffices hinv : h.stream.params = params ∧
      doneCount params.streamId h.stream.messages + malformed h.pending =
        malformed (delivered as) + h.stream.control.isEnding.toNat from hinv.2
  refine run_trace (I := fun as h => h.stream.params = params ∧
    doneCount params.streamId h.stream.messages + malformed h.pending =
      malformed (delivered as) + h.stream.control.isEnding.toNat) ?_ ?_ hrun
  · cases b with
    | true => exact ⟨rfl, rfl⟩
    | false =>
        refine ⟨rfl, ?_⟩
        simp [startStream, Stream.endStream, Stream.sendStreamingResponse, Stream.doneMessage,
          doneCount, malformed, pending, delivered, Control.isEnding]
  -- the events of an item are delivered when it comes, and pending until they are handled
  · rintro as h a h' ⟨hp, hcount⟩ hs
    have hsent := doneCount_sends hs
    have hdelivered : malformed (delivered (as ++ [a])) =
        malformed (delivered as) + malformed a.events := by
      simp [delivered, malformed_append]
    refine ⟨by rw [params_step hs, hp], ?_⟩
    rw [messages_step hs, doneCount_append, hdelivered]
    rw [hp] at hsent
    omega

/-- A stream of valid events has no final message until its end, and exactly one from then on. -/
theorem endsOnce_of_validJson (hrun : run step (startStream params b c) as = some h)
    (hvalid : malformed (delivered as) = 0) :
    (h.stream.control.isEnding = false → NotEnded params.streamId h.stream.messages) ∧
      (h.stream.control.isEnding = true → EndsOnce params.streamId h.stream.messages) := by
  induction as using List.reverseRecOn generalizing h with
  | nil =>
      cases hrun
      cases b with
      | true => exact ⟨fun _ => by simp [startStream, NotEnded], fun he => Bool.noConfusion he⟩
      | false =>
          refine ⟨fun he => Bool.noConfusion he, fun _ => ?_⟩
          have hnone : NotEnded params.streamId [] := by simp [NotEnded]
          exact hnone.endsOnce rfl rfl
  | append_singleton as a ih =>
      obtain ⟨g, hg, hs⟩ := run_concat_eq_some.mp hrun
      have hcount := doneCount_of_run hrun
      have hvalid' : malformed (delivered as) = 0 := by
        rw [delivered, List.flatMap_append, malformed_append] at hvalid
        exact (Nat.add_eq_zero_iff.mp hvalid).1
      obtain ⟨ihnot, ihonce⟩ := ih hg hvalid'
      constructor
      -- the count alone tells that there was no final message before the end ...
      · intro he
        rw [hvalid, he] at hcount
        exact doneCount_eq_zero.mp (Nat.add_eq_zero_iff.mp hcount).1
      -- ... and the last step where it is, and that it stays the last message
      · intro he
        rw [messages_step hs]
        cases hge : g.stream.control.isEnding with
        | true =>
            rw [sends_of_isEnding (coherent_of_run hg) hs hge, List.append_nil]
            exact ihonce hge
        | false =>
            -- the step that comes to the end is `onIdle`
            rcases pending_step hs with ⟨e, -, -, -, -, he'⟩ | ⟨rfl, -⟩ | ⟨-, -, -, -, he'⟩
            · rw [he'] at he
              cases he
            · refine (ihnot hge).endsOnce ?_ rfl
              rw [← params_of_run hg]
              rfl
            · rw [he', hge] at he
              cases he

end Runs

end Handler

/-! ## Every stream can come to its end

A rank that some step decreases, from every state before the end. -/

/-- How many steps a notification has before it. -/
def Notification.rank : Notification → Nat
  | .queued => 4
  | .postProcessing _ => 3
  | .sending => 2
  | .settled _ => 1

/-- How many steps the notifications of the queue have before them, at most. -/
def queueRank (q : SerialQueue Notification) : Nat :=
  q.running.elim 0 Notification.rank + 4 * q.waiting.length

/-- How many steps `startStream` has before it, at most, if the API sends nothing more. -/
def Control.rank : Control → Nat
  | .feeding es => 5 * es.length + 10
  | .notifying n => n.rank + 10
  | .iterating => 9
  | .closingIterator _ => 4
  | .idling => 3
  | .ending => 1
  | .settled _ => 0

namespace Handler

def rank (h : Handler) : Nat := h.stream.control.rank + queueRank h.stream.queue

/-- A task that starts is no longer counted as one that waits. -/
theorem rank_queueChanged (q : SerialQueue Notification) (h : Handler) :
    (h.queueChanged q.startNext).rank ≤ h.stream.control.rank + queueRank q := by
  have hbegun : h.begun.rank ≤ 3 := by
    unfold begun
    split <;> simp [Notification.rank]
  rw [queueChanged_eq, rank]
  rcases q.startNext_cases with ⟨t, ts, hr, hw, -, hs⟩ | ⟨hs, -⟩
  · simp only [hs, Option.isSome_some, if_true, queueRank, SerialQueue.running_update,
      SerialQueue.waiting_update, Option.elim_some, hr, Option.elim_none, hw, List.length_cons]
    omega
  · simp [hs]

/-- Handling an event adds at most one task. -/
theorem rank_onEvent (e : EventSourceMessage) (h : Handler) : (h.onEvent e).rank ≤ h.rank + 4 := by
  rcases h.onEvent_cases e with hd | ⟨-, -, he⟩ | ⟨event, -, -, he⟩
  · rw [onEvent_malformed hd]
    exact Nat.le_add_right _ _
  · rw [he]
    exact Nat.le_add_right _ _
  · rw [he]
    apply Nat.le_trans (rank_queueChanged _ _)
    simp [mapStream, Stream.onParsedEvent_eq, rank, queueRank]
    omega

theorem rank_setControl (c : Control) (h : Handler) :
    (h.setControl c).rank = c.rank + queueRank h.stream.queue := rfl

theorem rank_of_control {h : Handler} {c : Control} (hcontrol : h.stream.control = c) :
    h.rank = c.rank + queueRank h.stream.queue := by
  rw [rank, hcontrol]

/-- The steps by which the stream itself goes on once the API has nothing more to say. -/
def IsProgress (a : Action) : Prop := ∀ i c, a ≠ .item i ∧ a ≠ .cancel ∧ a ≠ .environment c

theorem rank_setNotification {h : Handler} {c : Caller} {n m : Notification}
    (hn : h.notification c = some n) (hlt : m.rank < n.rank) :
    (h.setNotification c m).rank < h.rank := by
  cases c with
  | legacy =>
      have hcontrol := control_of_notification hn
      simp only [setNotification, rank_setControl, rank_of_control hcontrol, Control.rank]
      omega
  | queue =>
      have hrunning : h.stream.queue.running = some n := hn
      simp only [setNotification, mapStream, rank, queueRank, hrunning, SerialQueue.running_update,
        SerialQueue.waiting_update, Option.elim_some]
      omega

theorem rank_notified {h : Handler} {c : Caller} {err : Option StreamError}
    (hn : h.notification c = some (.settled err)) : (h.notified c err).rank < h.rank := by
  cases c with
  | legacy =>
      have hcontrol := control_of_notification hn
      cases err with
      | none =>
          simp [notified, rank_setControl, mapStream, Stream.legacyNotified_eq,
            rank_of_control hcontrol, Control.rank, Notification.rank]
      | some e =>
          simp [notified, rank_setControl, rank_of_control hcontrol, Control.rank,
            Notification.rank]
  | queue =>
      have hrunning : h.stream.queue.running = some (.settled err) := hn
      apply Nat.lt_of_le_of_lt (rank_queueChanged _ _)
      simp [rank, queueRank, hrunning, Notification.rank]

/-- A notification that is awaited makes progress. -/
theorem exists_notification_step {h : Handler} {c : Caller} {n : Notification}
    (hf : h.isFeeding = false) (hn : h.notification c = some n) (hq : n ≠ .queued) :
    ∃ a h', IsProgress a ∧ h.step a = some h' ∧ h'.rank < h.rank := by
  cases n with
  | queued => exact absurd rfl hq
  | postProcessing buffer =>
      refine ⟨.postProcessed c (.ok buffer), _, by simp [IsProgress],
        by simp only [step, hf, hn]; rfl, ?_⟩
      have hsent : (h.mapStream fun s => (s.notificationProcessed (.ok buffer)).1).rank =
          h.rank := rfl
      rw [← hsent]
      apply rank_setNotification (n := .postProcessing buffer)
      · cases c <;> exact hn
      · simp [Stream.notificationProcessed, Notification.rank]
  | sending =>
      refine ⟨.sent c (.ok ()), _, by simp [IsProgress], by simp only [step, hf, hn]; rfl, ?_⟩
      exact rank_setNotification hn (by simp [Stream.notificationSent, Notification.rank])
  | settled err =>
      exact ⟨.notified c, _, by simp [IsProgress], by simp only [step, hf, hn], rank_notified hn⟩

/-- Unless the stream has settled, some step of its own decreases the rank. -/
theorem exists_step {h : Handler} (hc : h.Coherent)
    (hne : ∀ fulfilled, h.stream.control ≠ .settled fulfilled) :
    ∃ a h', IsProgress a ∧ h.step a = some h' ∧ h'.rank < h.rank := by
  cases hcontrol : h.stream.control with
  | iterating =>
      refine ⟨.iteratorDone, _, by simp [IsProgress], by simp only [step, hcontrol]; rfl, ?_⟩
      simp [rank_setControl, rank_of_control hcontrol, Control.rank]
  | feeding es =>
      cases es with
      | nil =>
          have hwf := hc.control
          rw [hcontrol] at hwf
          exact absurd rfl hwf
      | cons e es =>
          refine ⟨.onEvent, _, by simp [IsProgress], by simp only [step, hcontrol]; rfl, ?_⟩
          have hle : queueRank (h.onEvent e).stream.queue ≤ queueRank h.stream.queue + 4 := by
            have hle := h.rank_onEvent e
            rw [rank, control_onEvent, rank] at hle
            omega
          have hafter : (afterEvents es).rank ≤ 5 * es.length + 10 := by
            cases es <;> simp [afterEvents, Control.rank]
          have hfeeding : (Control.feeding (e :: es)).rank = 5 * (es.length + 1) + 10 := rfl
          rw [rank_setControl, rank_of_control hcontrol, hfeeding]
          omega
  | notifying n =>
      have hwf := hc.control
      rw [hcontrol] at hwf
      exact exists_notification_step (c := .legacy) (by simp [isFeeding, hcontrol])
        (by simp [notification, hcontrol]) hwf
  | closingIterator err =>
      refine ⟨.iteratorClosed, _, by simp [IsProgress], by simp only [step, hcontrol]; rfl, ?_⟩
      simp [rank_setControl, rank_of_control hcontrol, Control.rank, handleError_eq]
  | idling =>
      cases hr : h.stream.queue.running with
      -- the queue works as long as something waits, so if nothing runs it is idle
      | none =>
          have hidle := SerialQueue.isIdle_iff.mpr ⟨hr, hc.working hr⟩
          refine ⟨.onIdle, _, by simp [IsProgress], by simp only [step, hcontrol, hidle]; rfl, ?_⟩
          simp [rank_setControl, rank_of_control hcontrol, Control.rank, mapStream,
            Stream.endStream, Stream.sendStreamingResponse]
      | some n =>
          have hq : n ≠ .queued := by
            rintro rfl
            exact hc.begun hr
          exact exists_notification_step (c := .queue) (by simp [isFeeding, hcontrol]) hr hq
  | ending =>
      refine ⟨.endSent true, (h.mapStream fun s => s.endStreamSent.disposeStopStreaming).setControl
        (.settled true), by simp [IsProgress], by simp only [step, hcontrol], ?_⟩
      simp [rank_setControl, rank_of_control hcontrol, Control.rank, mapStream,
        Stream.disposeStopStreaming, Stream.endStreamSent_eq]
  | settled fulfilled => exact absurd hcontrol (hne fulfilled)

/-- **Every stream can come to its end**: whatever happened before, it does so if the API's stream
is over and everything that is awaited settles. -/
theorem exists_settled {h : Handler} (hc : h.Coherent) :
    ∃ as h' fulfilled, (∀ a ∈ as, IsProgress a) ∧ run step h as = some h' ∧
      h'.stream.control = .settled fulfilled := by
  -- on the rank: some step of the stream decreases it
  induction hr : h.rank using Nat.strongRecOn generalizing h with
  | _ r ih =>
      by_cases hsettled : ∃ fulfilled, h.stream.control = .settled fulfilled
      · obtain ⟨fulfilled, hcontrol⟩ := hsettled
        exact ⟨[], h, fulfilled, by simp, rfl, hcontrol⟩
      · obtain ⟨a, m, ha, hs, hlt⟩ := exists_step hc fun f hf => hsettled ⟨f, hf⟩
        obtain ⟨as, h', fulfilled, has, hrun, hcontrol⟩ := ih m.rank (hr ▸ hlt) (hc.step hs) rfl
        refine ⟨a :: as, h', fulfilled, ?_, ?_, hcontrol⟩
        · simpa [ha] using has
        · rw [run_cons, hs]
          exact hrun

/-! ## The contract -/

/-- **A stream is ended exactly once, if its events are valid JSON.** For every run of
`startStream`:
* once it has settled, one message said so and none followed it exactly when all events that the
  API sent were valid JSON;
* if they were, no moment of the run shows more than that one message, or anything after it;
* and the run can always go on until it settles. -/
theorem endsOnce_iff_validJson (params : StartStreamParams) (b : Bool)
    (c : DefaultSuggestionApiErrorCheck) (as : List Action) (h : Handler)
    (hrun : run step (startStream params b c) as = some h) :
    (∀ fulfilled, h.stream.control = .settled fulfilled →
      (EndsOnce params.streamId h.stream.messages ↔ ∀ e ∈ delivered as, e.data ≠ none)) ∧
    ((∀ e ∈ delivered as, e.data ≠ none) →
      NotEnded params.streamId h.stream.messages ∨ EndsOnce params.streamId h.stream.messages) ∧
    ∃ bs h' fulfilled, (∀ a ∈ bs, IsProgress a) ∧ run step h bs = some h' ∧
      h'.stream.control = .settled fulfilled := by
  refine ⟨?_, ?_, exists_settled (coherent_of_run hrun)⟩
  · intro fulfilled hsettled
    have hending : h.stream.control.isEnding = true := by rw [hsettled]; rfl
    have hpending : malformed h.pending = 0 := by simp [pending, hsettled, malformed]
    rw [← malformed_eq_zero]
    constructor
    · intro honce
      have hcount := doneCount_of_run hrun
      rw [honce.doneCount, hpending, hending, Bool.toNat_true] at hcount
      omega
    · intro hvalid
      exact (endsOnce_of_validJson hrun hvalid).2 hending
  · intro hvalid
    obtain ⟨hnot, honce⟩ := endsOnce_of_validJson hrun (malformed_eq_zero.mpr hvalid)
    cases hending : h.stream.control.isEnding with
    | false => exact .inl (hnot hending)
    | true => exact .inr (honce hending)

/-- A run that delivers the text in one event, between the events that start and end a stream. -/
def eventRun (text : JsString) : List Action :=
  [.item (.sse [streamStartMessage, contentChunkMessage text, streamEndMessage]),
    .onEvent, .onEvent, .onEvent, .iteratorDone,
    .postProcessed .queue (.ok []), .sent .queue (.ok ()), .notified .queue,
    .postProcessed .queue (.ok text), .sent .queue (.ok ()), .notified .queue,
    .postProcessed .queue (.ok text), .sent .queue (.ok ()), .notified .queue,
    .onIdle, .endSent true]

/-- The contract at a stream of three valid events. -/
theorem endsOnce_of_eventRun : ∃ h,
    run step (startStream sampleParams true (.new 0)) (eventRun sampleText) = some h ∧
      EndsOnce sampleParams.streamId h.stream.messages := by
  refine ⟨_, rfl, ?_⟩
  have hcontract := endsOnce_iff_validJson sampleParams true (.new 0) (eventRun sampleText) _ rfl
  apply (hcontract.1 true rfl).mpr
  simp [delivered, eventRun, Action.events, streamStartMessage, contentChunkMessage,
    streamEndMessage]

/-- One event that is not valid JSON, and the stream is ended twice. -/
theorem not_endsOnce_of_malformed_event : ∃ h,
    run step (startStream sampleParams true (.new 0))
      [.item (.sse [⟨some "content_chunk", none⟩]), .onEvent, .parserEndSent true, .iteratorDone,
        .onIdle, .endSent true] = some h ∧
      h.stream.control = .settled true ∧ ¬ EndsOnce sampleParams.streamId h.stream.messages := by
  refine ⟨_, rfl, rfl, fun honce => ?_⟩
  exact absurd honce.doneCount (by decide)

end Handler
end KhulnasoftLsp.Streaming
