import KhulnasoftLsp.Streaming.Completion

/-!
# What a stream sends after it was cancelled

A notification looks at the cancellation token once, before it awaits the post-processors, and
the parser looks at a flag that it was given by value when it was created. So a cancel
notification does not silence what is being post-processed at that moment, nor the first text
that the parser meets after it. `quiet_iff` shows that these are the only two leaks.
-/

namespace KhulnasoftLsp.Streaming

open CircuitBreaker Tracking Transition

namespace Handler

/-- The messages sent since the moment `g`. -/
def messagesSince (g h : Handler) : List StreamingCompletionResponse :=
  h.stream.messages.drop g.stream.messages.length

/-- The events tracked since the moment `g`. -/
def trackedSince (g h : Handler) : List TrackingEvent :=
  h.stream.tracked.drop g.stream.tracked.length

/-- Since the moment `g` no message with content was sent and `SHOWN` was not tracked. -/
def Quiet (g h : Handler) : Prop :=
  (∀ m ∈ messagesSince g h, m.done = true) ∧ .shown ∉ trackedSince g h

instance (g h : Handler) : Decidable (Quiet g h) := inferInstanceAs (Decidable (_ ∧ _))

/-- The stream was cancelled, or it has come to its end. -/
def Stopped (h : Handler) : Prop :=
  h.stream.isCancellationRequested = true ∨ h.stream.control.isEnding = true

/-- The parser does not meet the first text of the stream. -/
def ShowsNothingNew (h : Handler) : Action → Prop
  | .onEvent =>
    match h.stream.control with
    | .feeding (e :: _) => ∀ event, e.parsed = some event →
        h.stream.parsedShows event = true → h.stream.streamShown = true
    | _ => True
  | _ => True

/-- The action is not the fulfilment of a notification's post-processors. -/
def PostProcessesNothing (a : Action) : Prop :=
  ∀ c completion, a ≠ .postProcessed c (.ok completion)

/-! ## One step of a stopped stream -/

section

variable {h h' : Handler} {a : Action}

/-- A cancellation token stays cancelled. -/
theorem isCancellationRequested_step (hr : h.stream.isCancellationRequested = true)
    (hs : h.step a = some h') : h'.stream.isCancellationRequested = true := by
  cases step_cases hs with
  | @onEvent e es hcontrol =>
      rcases h.onEvent_cases e with hd | ⟨-, -, he⟩ | ⟨event, -, -, he⟩
      · simpa [setControl, mapStream, onEvent_malformed hd] using hr
      · simpa [setControl, mapStream, he] using hr
      · simpa [setControl, mapStream, he, addTask, queueChanged_eq, Stream.onParsedEvent_eq]
          using hr
  | @item i hcontrol =>
      cases i with
      | legacy chunk => simpa [item_legacy_eq] using hr
      | sse events => exact hr
  | iteratorFails hcontrol => simpa [setControl, mapStream, handleError_eq] using hr
  | iteratorClosed hcontrol => simpa [setControl, mapStream, handleError_eq] using hr
  | @postProcessed c _ _ hf hn =>
      cases c <;>
        simpa [setNotification, setControl, mapStream, Stream.notificationProcessed_eq] using hr
  | @sent c _ hf hn => cases c <;> exact hr
  | @notified c err hf hn =>
      cases c with
      | legacy =>
          cases err <;>
            simpa [notified, setControl, mapStream, Stream.legacyNotified_eq] using hr
      | queue => simpa [notified, taskSettled, queueChanged_eq] using hr
  | endSent hcontrol =>
      simpa [setControl, mapStream, Stream.endStreamSent_eq, Stream.disposeStopStreaming] using hr
  | parserEndSent hf hp => simpa [mapStream, Stream.endStreamSent_eq] using hr
  | cancel hf => simp [mapStream, Stream.notificationHandler_eq, hr]
  | iteratorDone | onIdle | endRejected | parserEndRejected | environment => exact hr

theorem Stopped.step (hst : h.Stopped) (hs : h.step a = some h') : h'.Stopped := by
  rcases hst with hr | hending
  · exact .inl (isCancellationRequested_step hr hs)
  -- a stream that has come to its end stays there
  · apply Or.inr
    rcases pending_step hs with ⟨e, -, -, -, he, -⟩ | ⟨-, -, -, he, -⟩ | ⟨-, -, -, -, he⟩
    · rw [he] at hending
      cases hending
    · rw [he] at hending
      cases hending
    · rw [he, hending]

/-- Before its end, a stopped stream lets no notification through. -/
theorem Stopped.not_notifies (hst : h.Stopped) (hne : h.stream.control.isEnding = false) :
    h.notifies = false := by
  rcases hst with hr | hending
  · simp [notifies, Stream.notifies, hr]
  · rw [hne] at hending
    cases hending

/-- A change of the queue of a stopped stream starts to post-process nothing. -/
theorem running_queueChanged (hno : h.notifies = false) {q : SerialQueue Notification}
    {buffer : JsString}
    (hn : (h.queueChanged q.startNext).stream.queue.running = some (.postProcessing buffer)) :
    q.running = some (.postProcessing buffer) := by
  rw [queueChanged_eq] at hn
  rcases q.startNext_cases with ⟨t, ts, -, -, -, hq⟩ | ⟨hq, -⟩
  · simp [hq, begun, hno] at hn
  · simpa [hq] using hn

/-- A stopped stream starts to post-process nothing in its loop. -/
theorem Stopped.legacy_postProcessing (hst : h.Stopped) (hs : h.step a = some h')
    {buffer : JsString} (hn' : h'.stream.control = .notifying (.postProcessing buffer)) :
    h.stream.control = .notifying (.postProcessing buffer) := by
  cases step_cases hs with
  | @onEvent e es hcontrol => cases es <;> cases hn'
  | @item i hcontrol =>
      have hno := hst.not_notifies (by rw [hcontrol]; rfl)
      cases i with
      | legacy chunk =>
          rw [item_legacy_eq] at hn'
          simp [hno] at hn'
      | sse events => cases events <;> cases hn'
  | iteratorDone | iteratorFails | iteratorClosed | onIdle | endSent | endRejected => cases hn'
  | @postProcessed c _ result hf hn =>
      cases c with
      | legacy => cases result <;> cases hn'
      | queue => simpa [setNotification, mapStream, Stream.notificationProcessed_eq] using hn'
  | @sent c result hf hn =>
      cases c with
      | legacy => cases result <;> cases hn'
      | queue => exact hn'
  | @notified c err hf hn =>
      cases c with
      | legacy => cases err <;> cases hn'
      | queue => simpa [notified, taskSettled, queueChanged_eq] using hn'
  | parserEndSent | cancel =>
      simpa [mapStream, Stream.endStreamSent_eq, Stream.notificationHandler_eq] using hn'
  | parserEndRejected | environment => exact hn'

/-- A stopped stream starts to post-process nothing in its queue. -/
theorem Stopped.queue_postProcessing (hst : h.Stopped) (hc : h.Coherent)
    (hs : h.step a = some h') {buffer : JsString}
    (hn' : h'.stream.queue.running = some (.postProcessing buffer)) :
    h.stream.queue.running = some (.postProcessing buffer) := by
  cases step_cases hs with
  | @onEvent e es hcontrol =>
      have hno := hst.not_notifies (by rw [hcontrol]; rfl)
      have hn : (h.onEvent e).stream.queue.running = some (.postProcessing buffer) := hn'
      rcases h.onEvent_cases e with hd | ⟨-, -, he⟩ | ⟨event, -, -, he⟩
      · rw [onEvent_malformed hd] at hn
        exact hn
      · rw [he] at hn
        exact hn
      · have hno' : (h.mapStream (·.onParsedEvent event)).notifies = false := by
          simpa [notifies, Stream.notifies, mapStream, Stream.onParsedEvent_eq] using hno
        rw [he] at hn
        simpa [mapStream, Stream.onParsedEvent_eq] using running_queueChanged hno' hn
  | @item i hcontrol =>
      cases i with
      | legacy chunk => simpa [item_legacy_eq] using hn'
      | sse events => exact hn'
  | iteratorFails | iteratorClosed => simpa [setControl, mapStream, handleError_eq] using hn'
  | @postProcessed c _ result hf hn =>
      cases c with
      | legacy => cases result <;> exact hn'
      | queue => cases result <;> cases hn'
  | @sent c result hf hn =>
      cases c with
      | legacy => exact hn'
      | queue => cases result <;> cases hn'
  | @notified c err hf hn =>
      cases c with
      | legacy =>
          cases err with
          | none => simpa [notified, setControl, mapStream, Stream.legacyNotified_eq] using hn'
          | some e => exact hn'
      | queue =>
          have hno := hst.not_notifies (hc.not_ending_of_running hn)
          -- the task has just settled, so that a task under way would be a new one
          cases running_queueChanged hno hn'
  | endSent =>
      simpa [setControl, mapStream, Stream.endStreamSent_eq, Stream.disposeStopStreaming] using hn'
  | parserEndSent | cancel =>
      simpa [mapStream, Stream.endStreamSent_eq, Stream.notificationHandler_eq] using hn'
  | iteratorDone | onIdle | endRejected | parserEndRejected | environment => exact hn'

theorem Stopped.postProcessing (hst : h.Stopped) (hc : h.Coherent) (hs : h.step a = some h')
    {c : Caller} {buffer : JsString} (hn : h'.notification c = some (.postProcessing buffer)) :
    h.notification c = some (.postProcessing buffer) := by
  cases c with
  | legacy =>
      have hcontrol := hst.legacy_postProcessing hs (control_of_notification hn)
      simp [notification, hcontrol]
  | queue => exact hst.queue_postProcessing hc hs hn

/-- What a step sends is all final exactly if it fulfils no post-processing. -/
theorem done_of_sends_iff (h : Handler) (a : Action) :
    (∀ m ∈ h.sends a, m.done = true) ↔ PostProcessesNothing a := by
  unfold PostProcessesNothing
  cases a with
  | postProcessed c result =>
      cases result <;> simp [sends, Stream.processedMessages, Stream.contentMessage]
  | onEvent =>
      simp only [sends, sendsOnEvent]
      split <;> simp [Stream.doneMessage]
  | _ => simp [sends, Stream.doneMessage]

/-- A stopped stream shows nothing but what the parser meets. -/
theorem Stopped.shown_iff (hst : h.Stopped) (hc : h.Coherent) (hs : h.step a = some h') :
    .shown ∉ h.tracks a ↔ h.ShowsNothingNew a := by
  have hstarted : ∀ b, TrackingEvent.shown ∉ h.stream.startedEvents b :=
    fun b hx => absurd (Stream.eq_of_mem_startedEvents hx) (by simp)
  have hend : TrackingEvent.shown ∉ h.stream.endEvents :=
    fun hx => absurd (Stream.eq_of_mem_endEvents hx) (by simp)
  cases step_cases hs with
  | @onEvent e es hcontrol =>
      simp only [tracks, ShowsNothingNew, hcontrol, tracksOnEvent]
      cases hd : e.data with
      | none => simp [EventSourceMessage.parsed, hd]
      | some json =>
          cases hp : e.parsed with
          | none => simp
          | some event =>
              simp only [List.mem_append, hstarted, or_false, Option.some.injEq, forall_eq']
              unfold Stream.shownEvents
              cases h.stream.parsedShows event <;> cases h.stream.streamShown <;> simp
  | @item i hcontrol => cases i <;> simp [tracks, ShowsNothingNew, hstarted]
  | @notified c err hf hn =>
      cases c with
      | legacy =>
          have hcontrol := control_of_notification hn
          -- the loop reads the variable itself, which the cancellation has set
          have hflag : h.stream.streamCancelledOrErrored = true := by
            rcases hst with hr | hending
            · exact hc.cancelled hr
            · rw [hcontrol] at hending
              cases hending
          have hnone : h.stream.shownEvents h.stream.legacyShows = [] := by
            simp [Stream.shownEvents, Stream.legacyShows, hflag]
          cases err <;> simp [tracks, ShowsNothingNew, hcontrol, hnone]
      | queue => simp [tracks, ShowsNothingNew, hstarted]
  | endSent => simp [tracks, ShowsNothingNew, hend]
  | parserEndSent => simp [tracks, ShowsNothingNew, hend]
  | cancel hf =>
      simp only [tracks, ShowsNothingNew]
      cases h.stream.isRegistered <;> cases h.stream.streamShown <;> simp
  | iteratorDone | iteratorFails | iteratorClosed | postProcessed | sent | onIdle | endRejected
  | parserEndRejected | environment => simp [tracks, ShowsNothingNew]

/-- The cancel notification stops a stream that is not stopped yet. -/
theorem stopped_of_cancel (hc : h.Coherent) (hs : h.step .cancel = some h') : h'.Stopped := by
  cases step_cases hs with
  | cancel hf =>
      have hreg := hc.registered
      cases hd : h.stream.control.isDisposed with
      | false =>
          rw [hd] at hreg
          exact .inl (by simp [mapStream, Stream.notificationHandler_eq, hreg])
      -- without a listener the notification does nothing, but then the stream has come to its end
      | true =>
          apply Or.inr
          have hcontrol : h.stream.control.isEnding = true := by
            revert hd
            cases h.stream.control <;> simp [Control.isDisposed, Control.isEnding]
          simpa [mapStream, Stream.notificationHandler_eq] using hcontrol

/-- The cancel notification leaves what is being post-processed alone. -/
theorem notification_of_cancel (hs : h.step .cancel = some h') (c : Caller) :
    h'.notification c = h.notification c := by
  cases step_cases hs with
  | cancel hf => cases c <;> simp [notification, mapStream, Stream.notificationHandler_eq]

end

/-! ## Runs after a cancel notification -/

section Runs

variable {g h : Handler} {as : List Action}

/-- What a stopped stream is post-processing has been post-processed since it was stopped. -/
theorem Stopped.notification_of_run (hst : g.Stopped) (hc : g.Coherent)
    (hrun : run Handler.step g as = some h) {c : Caller} {buffer : JsString}
    (hn : h.notification c = some (.postProcessing buffer)) :
    g.notification c = some (.postProcessing buffer) := by
  suffices hinv : h.Coherent ∧ h.Stopped ∧ (h.notification c = some (.postProcessing buffer) →
      g.notification c = some (.postProcessing buffer)) from hinv.2.2 hn
  refine run_invariant (I := fun h => h.Coherent ∧ h.Stopped ∧
    (h.notification c = some (.postProcessing buffer) →
      g.notification c = some (.postProcessing buffer))) ?_ ⟨hc, hst, id⟩ hrun
  rintro h a h' ⟨hc, hst, hi⟩ hs
  exact ⟨hc.step hs, hst.step hs, fun hn' => hi (hst.postProcessing hc hs hn')⟩

/-- A stopped stream fulfils only post-processing that was under way when it was stopped. -/
theorem Stopped.postProcessesNothing_iff (hst : g.Stopped) (hc : g.Coherent)
    (hrun : run Handler.step g as = some h) :
    (∀ a ∈ as, PostProcessesNothing a) ↔
      ∀ c buffer, g.notification c = some (.postProcessing buffer) →
        ∀ completion, .postProcessed c (.ok completion) ∉ as := by
  constructor
  · intro hall c buffer _ completion hmem
    exact hall _ hmem c completion rfl
  · rintro hnone a hmem c completion rfl
    -- stop the run where the post-processing fulfils: it is under way there, hence at the start
    obtain ⟨before, after, rfl⟩ := List.append_of_mem hmem
    obtain ⟨m, hm, hrest⟩ := run_append_eq_some.mp hrun
    rw [run_cons, Option.bind_eq_some_iff] at hrest
    obtain ⟨m', hs, -⟩ := hrest
    cases step_cases hs with
    | @postProcessed _ buffer _ hf hn =>
        exact hnone c buffer (hst.notification_of_run hc hm hn) completion hmem

/-- A stopped stream stays quiet exactly if no step breaks the quiet. -/
theorem Stopped.quiet_iff_guarded (hst : g.Stopped) (hc : g.Coherent)
    (hrun : run Handler.step g as = some h) :
    Quiet g h ↔ Guarded Handler.step ShowsNothingNew g as ∧ ∀ a ∈ as, PostProcessesNothing a := by
  rw [← guarded_and_forall hrun]
  -- the lengths only grow, so what was sent and tracked since `g` grows by what a step adds
  refine guarded_iff (I := fun h => (h.Coherent ∧ h.Stopped) ∧
    g.stream.messages.length ≤ h.stream.messages.length ∧
      g.stream.tracked.length ≤ h.stream.tracked.length) (P := Quiet g) ?_ ?_ ?_
    ⟨⟨hc, hst⟩, Nat.le_refl _, Nat.le_refl _⟩ ?_ hrun
  · rintro h a h' ⟨⟨hc, hst⟩, hm, ht⟩ - - hs
    refine ⟨⟨hc.step hs, hst.step hs⟩, ?_, ?_⟩
    · rw [messages_step hs, List.length_append]
      omega
    · rw [tracked_step hs, List.length_append]
      omega
  · rintro h a h' ⟨⟨hc, hst⟩, hm, ht⟩ ⟨hdone, hshown⟩ hs
    have hmessages : messagesSince g h' = messagesSince g h ++ h.sends a := by
      rw [messagesSince, messages_step hs, List.drop_append_of_le_length hm]
      rfl
    have htracked : trackedSince g h' = trackedSince g h ++ h.tracks a := by
      rw [trackedSince, tracked_step hs, List.drop_append_of_le_length ht]
      rfl
    rw [Quiet, hmessages, htracked, List.forall_mem_append, List.mem_append,
      ← hst.shown_iff hc hs, ← h.done_of_sends_iff a]
    constructor
    · rintro ⟨⟨-, hsends⟩, htracks⟩
      exact ⟨fun hmem => htracks (.inr hmem), hsends⟩
    · rintro ⟨htracks, hsends⟩
      exact ⟨⟨hdone, hsends⟩, by simp [hshown, htracks]⟩
  · rintro h a h' hs ⟨hdone, hshown⟩
    constructor
    · intro m hm
      apply hdone m
      rw [messagesSince, messages_step hs, List.drop_append]
      exact List.mem_append_left _ hm
    · intro hmem
      apply hshown
      rw [trackedSince, tracked_step hs, List.drop_append]
      exact List.mem_append_left _ hmem
  · simp [Quiet, messagesSince, trackedSince]

end Runs

/-- **What may be heard after a cancel notification.** After a cancel notification was handled, a
stream sends no message with content and does not track `SHOWN` exactly when
* whatever was being post-processed at that moment does not fulfil any more, and
* no event that the parser handles afterwards brings the first text of the stream. -/
theorem quiet_iff (params : StartStreamParams) (b : Bool) (c : DefaultSuggestionApiErrorCheck)
    (before after : List Action) (h g h' : Handler)
    (hbefore : run step (startStream params b c) before = some h)
    (hcancel : h.step .cancel = some g) (hafter : run step g after = some h') :
    Quiet g h' ↔
      (∀ c buffer, h.notification c = some (.postProcessing buffer) →
        ∀ completion, .postProcessed c (.ok completion) ∉ after) ∧
      Guarded step ShowsNothingNew g after := by
  have hc := coherent_of_run hbefore
  have hst := stopped_of_cancel hc hcancel
  have hcg := hc.step hcancel
  rw [hst.quiet_iff_guarded hcg hafter, hst.postProcessesNothing_iff hcg hafter, and_comm]
  simp only [notification_of_cancel hcancel]

/-- A cancel notification between two items finds nothing under way. -/
theorem quiet_of_cancel_between_items : ∃ h g h',
    run step (startStream sampleParams true (.new 0))
      [.item (.legacy sampleText), .postProcessed .legacy (.ok sampleText), .sent .legacy (.ok ()),
        .notified .legacy] = some h ∧
      h.step .cancel = some g ∧
      run step g [.item (.legacy sampleText), .notified .legacy, .iteratorDone, .onIdle,
        .endSent true] = some h' ∧
      Quiet g h' := by
  refine ⟨?h, ?g, ?k, ?before, ?cancel, ?after,
    (quiet_iff sampleParams true (.new 0) _ _ _ _ _ ?before ?cancel ?after).mpr ⟨?_, ?_⟩⟩
  case before => rfl
  case cancel => rfl
  case after => rfl
  · intro c buffer _ completion
    simp
  · exact ⟨trivial, trivial, trivial, trivial, trivial, trivial⟩

/-- A cancel notification that arrives while a chunk is being post-processed does not stop the
message with its content. -/
theorem not_quiet_of_cancel_while_postProcessing : ∃ h g h',
    run step (startStream sampleParams true (.new 0)) [.item (.legacy sampleText)] = some h ∧
      h.step .cancel = some g ∧
      run step g [.postProcessed .legacy (.ok sampleText)] = some h' ∧ ¬ Quiet g h' :=
  ⟨_, _, _, rfl, rfl, rfl, by decide⟩

end Handler
end KhulnasoftLsp.Streaming
