import KhulnasoftLsp.Streaming.Handler

/-!
# What a step does, and what holds at any moment

* `messages_step` and `tracked_step` — the messages that a step sends and the events that it
  tracks, as functions of the state before it;
* `Coherent` — the facts about a stream's flags and its queue that every run keeps.

The results about the messages of a stream, about its telemetry and about its cancellation all
start from these.
-/

namespace KhulnasoftLsp.Streaming

open CircuitBreaker Tracking Transition

namespace Stream

theorem eq_of_mem_shownEvents {shows : Bool} {s : Stream} {x : TrackingEvent}
    (hx : x ∈ s.shownEvents shows) : x = .shown := by
  unfold shownEvents at hx
  split at hx
  · exact List.mem_singleton.mp hx
  · cases hx

theorem eq_of_mem_startedEvents {notifies : Bool} {s : Stream} {x : TrackingEvent}
    (hx : x ∈ s.startedEvents notifies) : x = .streamStarted := by
  unfold startedEvents at hx
  split at hx
  · exact List.mem_singleton.mp hx
  · cases hx

theorem eq_of_mem_endEvents {s : Stream} {x : TrackingEvent} (hx : x ∈ s.endEvents) :
    x = .streamCompleted ∨ x = .notProvided := by
  unfold endEvents at hx
  split at hx
  · cases hx
  · rcases List.mem_cons.mp hx with hx | hx
    · exact .inl hx
    · split at hx
      · cases hx
      · exact .inr (List.mem_singleton.mp hx)

end Stream

/-- What the schema makes of an event, if its data is valid JSON. -/
def EventSourceMessage.parsed (e : EventSourceMessage) : Option SSEEvent :=
  e.data.bind (safeParse e.event)

/-- The server-sent events that an action delivers. -/
def Action.events : Action → List EventSourceMessage
  | .item (.sse events) => events
  | _ => []

/-- The server-sent events that a run delivers. -/
def delivered (as : List Action) : List EventSourceMessage := as.flatMap Action.events

/-- `endStream()` was called at the end of `startStream`. -/
def Control.isEnding : Control → Bool
  | .ending => true
  | .settled _ => true
  | _ => false

/-- The parser is left with an event to handle, and a legacy notification has begun. -/
def Control.WellFormed : Control → Prop
  | .feeding events => events ≠ []
  | .notifying n => n ≠ .queued
  | _ => True

/-- The last line of `startStream` was reached. -/
def Control.isDisposed : Control → Bool
  | .settled fulfilled => fulfilled
  | _ => false

namespace Handler

/-- An event that is not valid JSON is an error, and ends the stream at once. -/
theorem onEvent_malformed {e : EventSourceMessage} (he : e.data = none) (h : Handler) :
    h.onEvent e =
      { circuitBreaker := h.circuitBreaker.error
        stream := { h.stream with
          streamCancelledOrErrored := true
          parserEndings := h.stream.parserEndings + 1
          messages := h.stream.messages ++ [h.stream.doneMessage]
          tracked := h.stream.tracked ++ [.errored]
          trackingContexts := h.stream.trackingContexts ++ errorContexts .other } } := by
  simp [onEvent, he, handleError_eq, mapStream, Stream.endStream, Stream.sendStreamingResponse,
    Stream.doneMessage]

/-- The three things the parser does with an event. -/
theorem onEvent_cases (e : EventSourceMessage) (h : Handler) :
    e.data = none ∨ (e.data ≠ none ∧ e.parsed = none ∧ h.onEvent e = h) ∨
      ∃ event, e.data ≠ none ∧ e.parsed = some event ∧
        h.onEvent e = (h.mapStream (·.onParsedEvent event)).addTask := by
  cases hd : e.data with
  | none => exact .inl rfl
  | some json =>
      cases hp : safeParse e.event json with
      | none => exact .inr (.inl ⟨by simp, by simp [EventSourceMessage.parsed, hd, hp],
          by simp [onEvent, hd, hp]⟩)
      | some event => exact .inr (.inr ⟨event, by simp, by simp [EventSourceMessage.parsed, hd, hp],
          by simp [onEvent, hd, hp]⟩)

@[simp] theorem control_onEvent (e : EventSourceMessage) (h : Handler) :
    (h.onEvent e).stream.control = h.stream.control := by
  rcases h.onEvent_cases e with hd | ⟨-, -, he⟩ | ⟨event, -, -, he⟩
  · rw [onEvent_malformed hd]
  · rw [he]
  · simp [he, addTask, queueChanged_eq, mapStream, Stream.onParsedEvent_eq]

theorem control_of_notification {n : Notification} {h : Handler}
    (hn : h.notification .legacy = some n) : h.stream.control = .notifying n := by
  unfold notification at hn
  cases hcontrol : h.stream.control <;> simp_all

/-! ## What a step sends -/

/-- The messages that the parser sends while it handles an event. -/
def sendsOnEvent (e : EventSourceMessage) (h : Handler) : List StreamingCompletionResponse :=
  if e.data.isNone then [h.stream.doneMessage] else []

/-- The messages that an action sends. -/
def sends (h : Handler) : Action → List StreamingCompletionResponse
  | .onEvent =>
    match h.stream.control with
    | .feeding (e :: _) => h.sendsOnEvent e
    | _ => []
  | .postProcessed _ result => h.stream.processedMessages result
  | .onIdle => [h.stream.doneMessage]
  | _ => []

theorem messages_onEvent (e : EventSourceMessage) (h : Handler) :
    (h.onEvent e).stream.messages = h.stream.messages ++ h.sendsOnEvent e := by
  rcases h.onEvent_cases e with hd | ⟨hd, -, he⟩ | ⟨event, hd, -, he⟩
  · rw [onEvent_malformed hd]
    simp [sendsOnEvent, hd]
  · rw [he]
    simp [sendsOnEvent, hd]
  · rw [he]
    simp [sendsOnEvent, hd, addTask, queueChanged_eq, mapStream, Stream.onParsedEvent_eq]

@[simp] theorem messages_setNotification (c : Caller) (n : Notification) (h : Handler) :
    (h.setNotification c n).stream.messages = h.stream.messages := by
  cases c <;> rfl

@[simp] theorem messages_notified (c : Caller) (err : Option StreamError) (h : Handler) :
    (h.notified c err).stream.messages = h.stream.messages := by
  cases c with
  | legacy => cases err <;> simp [notified, setControl, mapStream, Stream.legacyNotified_eq]
  | queue => simp [notified, taskSettled, queueChanged_eq]

theorem messages_step {h h' : Handler} {a : Action} (hs : h.step a = some h') :
    h'.stream.messages = h.stream.messages ++ h.sends a := by
  cases step_cases hs with
  | @onEvent e es hcontrol =>
      simp only [sends, hcontrol]
      exact h.messages_onEvent e
  | @item i hcontrol =>
      cases i with
      | legacy chunk => simp [item_legacy_eq, sends]
      | sse events => simp [item, setControl, mapStream, sends]
  | iteratorDone hcontrol => simp [setControl, mapStream, sends]
  | iteratorFails hcontrol => simp [setControl, mapStream, handleError_eq, sends]
  | iteratorClosed hcontrol => simp [setControl, mapStream, handleError_eq, sends]
  | postProcessed hf hn => simp [Stream.notificationProcessed_eq, sends]
  | sent hf hn => simp [sends]
  | notified hf hn => simp [sends]
  | onIdle hcontrol hidle =>
      simp [setControl, mapStream, Stream.endStream, Stream.sendStreamingResponse, sends]
  | endSent hcontrol =>
      simp [setControl, mapStream, Stream.endStreamSent_eq, Stream.disposeStopStreaming, sends]
  | endRejected hcontrol => simp [setControl, mapStream, sends]
  | parserEndSent hf hp => simp [mapStream, Stream.endStreamSent_eq, sends]
  | parserEndRejected hf hp => simp [mapStream, sends]
  | cancel hf => simp [mapStream, Stream.notificationHandler_eq, sends]
  | environment hf => simp [sends]

/-! ## What a step tracks -/

/-- The events that are tracked while the parser handles an event. -/
def tracksOnEvent (e : EventSourceMessage) (h : Handler) : List TrackingEvent :=
  match e.data, e.parsed with
  | none, _ => [.errored]
  | some _, none => []
  | some _, some event =>
    h.stream.shownEvents (h.stream.parsedShows event) ++
      h.stream.startedEvents ((h.stream.queue.add .queued).2.isSome && h.notifies)

/-- The events that an action tracks. -/
def tracks (h : Handler) : Action → List TrackingEvent
  | .onEvent =>
    match h.stream.control with
    | .feeding (e :: _) => h.tracksOnEvent e
    | _ => []
  | .item (.legacy _) => h.stream.startedEvents h.notifies
  | .iteratorFails _ => [.errored]
  | .iteratorClosed => [.errored]
  | .notified .legacy =>
    match h.stream.control with
    | .notifying (.settled none) => h.stream.shownEvents h.stream.legacyShows
    | _ => []
  | .notified .queue =>
    h.stream.startedEvents (h.stream.queue.settle.2.isSome && h.notifies)
  | .endSent true => h.stream.endEvents
  | .parserEndSent true => h.stream.endEvents
  | .cancel =>
    if h.stream.isRegistered then [if h.stream.streamShown then .rejected else .cancelled] else []
  | _ => []

theorem tracked_onEvent (e : EventSourceMessage) (h : Handler) :
    (h.onEvent e).stream.tracked = h.stream.tracked ++ h.tracksOnEvent e := by
  rcases h.onEvent_cases e with hd | ⟨hd, hp, he⟩ | ⟨event, hd, hp, he⟩
  · rw [onEvent_malformed hd]
    simp [tracksOnEvent, hd]
  · rw [he]
    obtain ⟨json, hjson⟩ := Option.ne_none_iff_exists'.mp hd
    simp [tracksOnEvent, hjson, hp]
  · rw [he]
    obtain ⟨json, hjson⟩ := Option.ne_none_iff_exists'.mp hd
    simp [tracksOnEvent, hjson, hp, addTask, queueChanged_eq, mapStream, Stream.onParsedEvent_eq,
      notifies, Stream.notifies, Stream.startedEvents]

@[simp] theorem tracked_setNotification (c : Caller) (n : Notification) (h : Handler) :
    (h.setNotification c n).stream.tracked = h.stream.tracked := by
  cases c <;> rfl

theorem tracked_notified {c : Caller} {err : Option StreamError} {h : Handler}
    (hn : h.notification c = some (.settled err)) :
    (h.notified c err).stream.tracked = h.stream.tracked ++ h.tracks (.notified c) := by
  cases c with
  | legacy =>
      have hcontrol := control_of_notification hn
      cases err with
      | none =>
          simp [notified, setControl, mapStream, Stream.legacyNotified_eq, tracks, hcontrol]
      | some e => simp [notified, setControl, mapStream, tracks, hcontrol]
  | queue => simp [notified, taskSettled, queueChanged_eq, tracks]

theorem tracked_step {h h' : Handler} {a : Action} (hs : h.step a = some h') :
    h'.stream.tracked = h.stream.tracked ++ h.tracks a := by
  cases step_cases hs with
  | @onEvent e es hcontrol =>
      simp only [tracks, hcontrol]
      exact h.tracked_onEvent e
  | @item i hcontrol =>
      cases i with
      | legacy chunk => simp [item_legacy_eq, tracks]
      | sse events => simp [item, setControl, mapStream, tracks]
  | iteratorDone hcontrol => simp [setControl, mapStream, tracks]
  | iteratorFails hcontrol => simp [setControl, mapStream, handleError_eq, tracks]
  | iteratorClosed hcontrol => simp [setControl, mapStream, handleError_eq, tracks]
  | postProcessed hf hn => simp [Stream.notificationProcessed_eq, tracks]
  | sent hf hn => simp [tracks]
  | notified hf hn => exact tracked_notified hn
  | onIdle hcontrol hidle =>
      simp [setControl, mapStream, Stream.endStream, Stream.sendStreamingResponse, tracks]
  | endSent hcontrol =>
      simp [setControl, mapStream, Stream.endStreamSent_eq, Stream.disposeStopStreaming, tracks]
  | endRejected hcontrol => simp [setControl, mapStream, tracks]
  | parserEndSent hf hp =>
      simp [mapStream, Stream.endStreamSent_eq, Stream.endEvents, tracks]
  | parserEndRejected hf hp => simp [mapStream, tracks]
  | cancel hf => simp [mapStream, Stream.notificationHandler_eq, tracks]
  | environment hf => simp [tracks]

/-! ## Failures -/

/-- The step calls `handleError`. -/
def fails (h : Handler) : Action → Bool
  | .iteratorFails _ => true
  | .iteratorClosed => true
  | .onEvent =>
    match h.stream.control with
    | .feeding (e :: _) => e.data.isNone
    | _ => false
  | _ => false

/-- A stream tracks `ERRORED` exactly when it calls `handleError`. -/
theorem errored_mem_tracks_iff {h h' : Handler} {a : Action} (hs : h.step a = some h') :
    .errored ∈ h.tracks a ↔ h.fails a = true := by
  -- what depends on the flags is other events: `errored` comes from `handleError` alone
  have hshown : ∀ shows, TrackingEvent.errored ∉ h.stream.shownEvents shows :=
    fun shows hx => absurd (Stream.eq_of_mem_shownEvents hx) (by simp)
  have hstarted : ∀ b, TrackingEvent.errored ∉ h.stream.startedEvents b :=
    fun b hx => absurd (Stream.eq_of_mem_startedEvents hx) (by simp)
  have hend : TrackingEvent.errored ∉ h.stream.endEvents :=
    fun hx => absurd (Stream.eq_of_mem_endEvents hx) (by simp)
  cases step_cases hs with
  | @onEvent e es hcontrol =>
      simp only [tracks, fails, hcontrol, tracksOnEvent]
      cases hd : e.data with
      | none => simp
      | some json => cases e.parsed <;> simp [hshown, hstarted]
  | @item i hcontrol => cases i <;> simp [tracks, fails, hstarted]
  | @notified c err hf hn =>
      cases c with
      | legacy => cases err <;> simp [tracks, fails, control_of_notification hn, hshown]
      | queue => simp [tracks, fails, hstarted]
  | endSent | parserEndSent => simp [tracks, fails, hend]
  | cancel hf =>
      simp only [tracks, fails]
      cases h.stream.isRegistered <;> cases h.stream.streamShown <;> simp
  | iteratorDone | iteratorFails | iteratorClosed | postProcessed | sent | onIdle | endRejected
  | parserEndRejected | environment => simp [tracks, fails]

/-- A stream's own steps touch the breaker only through `handleError`. -/
theorem circuitBreaker_step {h h' : Handler} {a : Action} (hs : h.step a = some h')
    (ha : ∀ c, a ≠ .environment c) :
    h'.circuitBreaker = if h.fails a then h.circuitBreaker.error else h.circuitBreaker := by
  cases step_cases hs with
  | @onEvent e es hcontrol =>
      rcases h.onEvent_cases e with hd | ⟨hd, -, he⟩ | ⟨event, hd, -, he⟩
      · simp [fails, hcontrol, hd, setControl, mapStream, onEvent_malformed hd]
      · simp [fails, hcontrol, hd, setControl, mapStream, he]
      · simp [fails, hcontrol, hd, setControl, mapStream, he, addTask, queueChanged_eq]
  | @item i hcontrol =>
      cases i with
      | legacy chunk => simp [fails, item_legacy_eq]
      | sse events => rfl
  | iteratorFails | iteratorClosed => simp [fails, setControl, mapStream, handleError_eq]
  | @postProcessed c _ _ hf hn => cases c <;> rfl
  | @sent c _ hf hn => cases c <;> rfl
  | @notified c err hf hn =>
      cases c with
      | legacy => cases err <;> rfl
      | queue => simp [fails, notified, taskSettled, queueChanged_eq]
  | environment => exact absurd rfl (ha _)
  | iteratorDone | onIdle | endSent | endRejected | parserEndSent | parserEndRejected
  | cancel => rfl

/-! ## Coherence -/

/-- The facts about a stream that its flags and its queue keep in step. -/
structure Coherent (h : Handler) : Prop where
  notPaused : h.stream.queue.isPaused = false
  working : h.stream.queue.running = none → h.stream.queue.waiting = []
  /-- A task that the queue has started has run up to its first `await`. -/
  begun : h.stream.queue.running ≠ some .queued
  control : h.stream.control.WellFormed
  /-- `startStream` ends the stream only once the queue is idle, and nothing is added later. -/
  drained : h.stream.control.isEnding = true → h.stream.queue.isIdle = true
  registered : h.stream.isRegistered = !h.stream.control.isDisposed
  cancelled : h.stream.isCancellationRequested = true → h.stream.streamCancelledOrErrored = true
  parserEnded : h.stream.parserEndings ≠ 0 → h.stream.streamCancelledOrErrored = true
  /-- The parser got its flag by value, when it was `false`. -/
  parserFlag : h.stream.parserCancelledOrErrored = false

theorem coherent_startStream (params : StartStreamParams) (b : Bool)
    (c : DefaultSuggestionApiErrorCheck) : (startStream params b c).Coherent := by
  cases b <;> constructor <;> simp [startStream, Stream.endStream, Stream.sendStreamingResponse,
    Control.isEnding, Control.isDisposed, Control.WellFormed]

namespace Coherent

variable {h : Handler}

/-- A running task is not over yet, so the stream is not. -/
theorem not_ending_of_running (hc : h.Coherent) {n : Notification}
    (hn : h.stream.queue.running = some n) : h.stream.control.isEnding = false := by
  rw [← Bool.not_eq_true]
  intro hending
  have hidle := SerialQueue.isIdle_iff.mp (hc.drained hending)
  rw [hn] at hidle
  exact absurd hidle.1 (by simp)

theorem not_disposed (_ : h.Coherent) (he : h.stream.control.isEnding = false) :
    h.stream.control.isDisposed = false := by
  revert he
  cases h.stream.control <;> simp [Control.isEnding, Control.isDisposed]

/-- The function goes on to a place before the end. -/
theorem setControl (hc : h.Coherent) {c : Control} (hd : h.stream.control.isDisposed = false)
    (hne : c.isEnding = false) (hwf : c.WellFormed) : (h.setControl c).Coherent := by
  have hcd : c.isDisposed = false := by
    revert hne
    cases c <;> simp [Control.isEnding, Control.isDisposed]
  refine { hc with control := hwf, drained := ?_, registered := ?_ }
  · intro hending
    simp [Handler.setControl, mapStream, hne] at hending
  · simpa [Handler.setControl, mapStream, hcd, hd] using hc.registered

/-- The queue changes, and perhaps starts a task. -/
theorem queueChanged (hc : h.Coherent) {q : SerialQueue Notification × Option Notification}
    (hp : q.1.isPaused = false) (hw : q.1.running = none → q.1.waiting = [])
    (hn : q.2 = none → q.1.running ≠ some .queued)
    (hne : h.stream.control.isEnding = false) : (h.queueChanged q).Coherent := by
  rw [queueChanged_eq]
  -- a task that is started leaves `queued` at once, since its synchronous part runs here
  refine { hc with notPaused := ?_, working := ?_, begun := ?_, drained := ?_ }
  · cases hq : q.2 <;> simp [hp]
  · cases hq : q.2 with
    | none => simpa using hw
    | some n => simp
  · cases hq : q.2 with
    | none => simpa using hn hq
    | some n =>
        simp only [Option.isSome_some, if_true, SerialQueue.running_update, Handler.begun]
        split <;> simp
  · intro hending
    simp [hne] at hending

theorem addTask (hc : h.Coherent) (hne : h.stream.control.isEnding = false) :
    h.addTask.Coherent :=
  hc.queueChanged (by simpa using hc.notPaused)
    (SerialQueue.waiting_of_startNext (by simpa using hc.notPaused))
    (fun hq => by rw [SerialQueue.add, SerialQueue.running_of_startNext_none hq]; exact hc.begun)
    hne

theorem taskSettled (hc : h.Coherent) (hne : h.stream.control.isEnding = false) :
    h.taskSettled.Coherent :=
  hc.queueChanged (by simpa using hc.notPaused)
    (SerialQueue.waiting_of_startNext (by simpa using hc.notPaused))
    (fun hq => by rw [SerialQueue.settle, SerialQueue.running_of_startNext_none hq]; simp) hne

/-- A notification that is awaited makes progress. -/
theorem setNotification (hc : h.Coherent) {c : Caller} {n m : Notification}
    (hn : h.notification c = some n) (hm : m ≠ .queued) : (h.setNotification c m).Coherent := by
  cases c with
  | legacy =>
      have hne : h.stream.control.isEnding = false := by rw [control_of_notification hn]; rfl
      exact hc.setControl (hc.not_disposed hne) rfl hm
  | queue =>
      have hne := hc.not_ending_of_running hn
      refine { hc with working := ?_, begun := ?_, drained := ?_ }
      · simp [Handler.setNotification, mapStream]
      · simpa [Handler.setNotification, mapStream] using hm
      · intro hending
        simp [Handler.setNotification, mapStream, hne] at hending

theorem handleError (hc : h.Coherent) (err : StreamError) : (h.handleError err).Coherent := by
  rw [handleError_eq]
  exact { hc with cancelled := fun _ => rfl, parserEnded := fun _ => rfl }

theorem onEvent (hc : h.Coherent) (hne : h.stream.control.isEnding = false)
    (e : EventSourceMessage) : (h.onEvent e).Coherent := by
  rcases h.onEvent_cases e with hd | ⟨-, -, he⟩ | ⟨event, -, -, he⟩
  · rw [onEvent_malformed hd]
    -- the parser has called `endStream()`, but only after `handleError` has set the flag
    exact { hc with cancelled := fun _ => rfl, parserEnded := fun _ => rfl }
  · rw [he]
    exact hc
  · rw [he]
    have hparsed : (h.mapStream (·.onParsedEvent event)).Coherent := by
      simp only [mapStream, Stream.onParsedEvent_eq]
      exact { hc with }
    apply hparsed.addTask
    simpa [mapStream, Stream.onParsedEvent_eq] using hne

theorem notified (hc : h.Coherent) {c : Caller} {err : Option StreamError}
    (hn : h.notification c = some (.settled err)) : (h.notified c err).Coherent := by
  cases c with
  | legacy =>
      have hne : h.stream.control.isEnding = false := by rw [control_of_notification hn]; rfl
      have hd := hc.not_disposed hne
      cases err with
      | none =>
          have hshown : (h.mapStream (·.legacyNotified)).Coherent := by
            simp only [mapStream, Stream.legacyNotified_eq]
            exact { hc with }
          refine hshown.setControl ?_ rfl trivial
          simpa [mapStream, Stream.legacyNotified_eq] using hd
      | some e => exact hc.setControl hd rfl trivial
  | queue => exact hc.taskSettled (hc.not_ending_of_running hn)

/-- Every step keeps a stream coherent. -/
theorem step (hc : h.Coherent) {a : Action} {h' : Handler} (hs : h.step a = some h') :
    h'.Coherent := by
  cases step_cases hs with
  | @onEvent e es hcontrol =>
      have hne : h.stream.control.isEnding = false := by rw [hcontrol]; rfl
      have hkeeps := hc.onEvent hne e
      apply hkeeps.setControl
      · rw [control_onEvent, hcontrol]; rfl
      · cases es <;> rfl
      · cases es <;> simp [afterEvents, Control.WellFormed]
  | @item i hcontrol =>
      have hd : h.stream.control.isDisposed = false := by rw [hcontrol]; rfl
      cases i with
      | legacy chunk =>
          rw [item_legacy_eq]
          refine { hc with control := ?_, drained := ?_, registered := ?_ }
          -- a legacy notification is called, not queued: it begins in the same step
          · cases h.notifies <;> simp [Control.WellFormed]
          · simp [Control.isEnding]
          · have hreg := hc.registered
            rw [hd] at hreg
            exact hreg
      | sse events =>
          refine hc.setControl hd (by cases events <;> rfl) ?_
          cases events <;> simp [afterEvents, Control.WellFormed]
  | iteratorDone hcontrol => exact hc.setControl (by rw [hcontrol]; rfl) rfl trivial
  | @iteratorFails err hcontrol =>
      have hkeeps := hc.handleError err
      refine hkeeps.setControl ?_ rfl trivial
      rw [handleError_eq, hcontrol]; rfl
  | @iteratorClosed err hcontrol =>
      have hkeeps := hc.handleError err
      refine hkeeps.setControl ?_ rfl trivial
      rw [handleError_eq, hcontrol]; rfl
  | @postProcessed c buffer result hf hn =>
      have hsent : { h with stream := (h.stream.notificationProcessed result).1 }.Coherent := by
        rw [Stream.notificationProcessed_eq]
        exact { hc with }
      refine hsent.setNotification (n := .postProcessing buffer) ?_ ?_
      · rw [Stream.notificationProcessed_eq]
        cases c <;> exact hn
      · cases result <;> simp [Stream.notificationProcessed]
  | @sent c result hf hn =>
      exact hc.setNotification hn (by cases result <;> simp [Stream.notificationSent])
  | notified hf hn => exact hc.notified hn
  | onIdle hcontrol hidle =>
      -- from here on nothing is added to the queue, so that it stays as idle as it is now
      refine { hc with control := trivial, drained := fun _ => hidle, registered := ?_ }
      have hreg := hc.registered
      rw [hcontrol] at hreg
      exact hreg
  | endSent hcontrol =>
      have hidle : h.stream.queue.isIdle = true := hc.drained (by rw [hcontrol]; rfl)
      simp only [mapStream, Stream.endStreamSent_eq]
      exact { hc with control := trivial, drained := fun _ => hidle, registered := rfl }
  | endRejected hcontrol =>
      have hidle : h.stream.queue.isIdle = true := hc.drained (by rw [hcontrol]; rfl)
      refine { hc with control := trivial, drained := fun _ => hidle, registered := ?_ }
      have hreg := hc.registered
      rw [hcontrol] at hreg
      exact hreg
  | parserEndSent hf hp =>
      have hflag := hc.parserEnded hp
      simp only [mapStream, Stream.endStreamSent_eq]
      exact { hc with parserEnded := fun _ => hflag }
  | parserEndRejected hf hp => exact { hc with parserEnded := fun _ => hc.parserEnded hp }
  | cancel hf =>
      simp only [mapStream, Stream.notificationHandler_eq]
      refine { hc with cancelled := ?_, parserEnded := ?_ }
      · simp only [Bool.or_eq_true]
        exact Or.imp_left hc.cancelled
      · intro hp
        simp [hc.parserEnded hp]
  | environment hf => exact { hc with }

end Coherent

/-- **Every state of a run is coherent.** -/
theorem coherent_of_run {params : StartStreamParams} {b : Bool}
    {c : DefaultSuggestionApiErrorCheck} {as : List Action} {h : Handler}
    (hrun : run step (startStream params b c) as = some h) : h.Coherent :=
  run_invariant (fun _ _ _ hc hs => hc.step hs) (coherent_startStream params b c) hrun

end Handler
end KhulnasoftLsp.Streaming
