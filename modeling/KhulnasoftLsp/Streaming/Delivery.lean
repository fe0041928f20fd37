import KhulnasoftLsp.Streaming.Completion

/-!
# Two ways to deliver a completion

The API sends the chunks of a completion as plain items or as server-sent events. Each way has its
own code: the loop handles a plain chunk at once, while the parser collects the text and leaves
the notifications to a queue.

`LegacyRep` and `SseRep` relate the state of the handler to what has been delivered so far. From
them, `delivery_agrees_iff`: for an undisturbed stream the two ways report the same telemetry and
leave the client with the same text exactly when that text is not blank. The event that ends the
stream marks a suggestion as provided whether or not there was one.
-/

namespace KhulnasoftLsp.Streaming

open CircuitBreaker Tracking Transition

/-! ## Undisturbed runs -/

namespace Handler

/-- The step neither cancels nor fails anything, keeps the breaker closed, and post-processes by
the function `process`. -/
def Smooth (process : JsString → JsString) (h : Handler) : Action → Prop
  | .iteratorFails _ => False
  | .iteratorClosed => False
  | .postProcessed c result => ∀ buffer, h.notification c = some (.postProcessing buffer) →
      result = .ok (process buffer)
  | .sent _ result => result = .ok ()
  | .endSent fulfilled => fulfilled = true
  | .cancel => False
  | .environment c => c.isOpen = false
  | _ => True

/-- Nothing has disturbed the stream so far. -/
structure Calm (h : Handler) : Prop where
  closed : h.circuitBreaker.isOpen = false
  notCancelled : h.stream.isCancellationRequested = false
  notFailed : h.stream.streamCancelledOrErrored = false

theorem Calm.notifies {h : Handler} (hc : h.Calm) : h.notifies = true := by
  simp [Handler.notifies, Stream.notifies, hc.closed, hc.notCancelled]

/-- Only two flags of the stream matter for its calm. -/
theorem Calm.of_stream {h : Handler} {s : Stream} (hc : h.Calm)
    (hr : s.isCancellationRequested = h.stream.isCancellationRequested)
    (hf : s.streamCancelledOrErrored = h.stream.streamCancelledOrErrored) :
    Calm { h with stream := s } :=
  ⟨hc.closed, hr.trans hc.notCancelled, hf.trans hc.notFailed⟩

end Handler

/-- The completion of the last message with content. -/
def Stream.lastContent (s : Stream) : Option JsString :=
  (s.messages.filterMap fun m => if m.done then none else m.completion).getLast?

/-- The telemetry of an undisturbed stream, read off its flags. -/
def Stream.report (s : Stream) : List TrackingEvent :=
  (bif s.streamStarted then [.streamStarted] else []) ++
    (bif s.streamShown then [.shown] else []) ++
    bif s.control.isDisposed then s.endEvents else []

/-- The plain chunks that an action delivers. -/
def Action.chunks : Action → List JsString
  | .item (.legacy chunk) => [chunk]
  | _ => []

/-- The plain chunks that a run delivers. -/
def deliveredChunks (as : List Action) : List JsString := as.flatMap Action.chunks

/-- The text of an event that passes the schema. -/
def SSEEvent.text (e : SSEEvent) : JsString :=
  match e.event, e.data.bind (·.choices) with
  | .contentChunk, some choices => choices.flatMap (·.content)
  | _, _ => []

theorem Stream.parsedBuffer_eq (e : SSEEvent) (s : Stream) :
    s.parsedBuffer e = s.sseBuffer ++ e.text := by
  obtain ⟨event, data⟩ := e
  unfold Stream.parsedBuffer SSEEvent.text
  cases event with
  | streamStart => simp
  | streamEnd => simp
  | contentChunk =>
      cases data.bind (·.choices) with
      | none => simp
      | some choices =>
          simp only
          generalize s.sseBuffer = buffer
          induction choices generalizing buffer with
          | nil => simp
          | cons choice rest ih => simp [ih]

namespace Handler

/-! ## The plain way -/

/-- Where the loop is, once the plain chunks `cs` were delivered, and what the client has got. -/
def LegacyPlace (process : JsString → JsString) (cs : List JsString) (s : Stream) : Prop :=
  match s.control with
  | .notifying (.postProcessing buffer) => cs ≠ [] ∧ buffer = s.legacyStreamBuffer
  | .notifying .sending => cs ≠ [] ∧ s.lastContent = some (process s.legacyStreamBuffer)
  | .notifying (.settled none) => cs ≠ [] ∧ s.lastContent = some (process s.legacyStreamBuffer)
  | .notifying _ => False
  | .feeding _ => False
  | .closingIterator _ => False
  | .settled false => False
  | _ => s.streamShown = s.legacyStreamBuffer.hasContent ∧
      s.lastContent = if cs = [] then none else some (process s.legacyStreamBuffer)

/-- The state of an undisturbed stream to which the plain chunks `cs` were delivered. -/
structure LegacyRep (process : JsString → JsString) (cs : List JsString) (h : Handler) : Prop where
  coherent : h.Coherent
  calm : h.Calm
  idle : h.stream.queue.running = none
  buffer : h.stream.legacyStreamBuffer = cs.flatten
  started : h.stream.streamStarted = !cs.isEmpty
  shown : h.stream.streamShown = true → h.stream.legacyStreamBuffer.hasContent = true
  provided : h.stream.suggestionProvided = h.stream.streamShown
  tracked : h.stream.tracked = h.stream.report
  place : LegacyPlace process cs h.stream

theorem legacyRep_startStream (process : JsString → JsString) (params : StartStreamParams)
    (c : DefaultSuggestionApiErrorCheck) : LegacyRep process [] (startStream params true c) where
  coherent := coherent_startStream params true c
  calm := ⟨by simp [startStream, DefaultSuggestionApiErrorCheck.isOpen,
    DefaultSuggestionApiErrorCheck.success], rfl, rfl⟩
  idle := rfl
  buffer := rfl
  started := rfl
  shown := by simp [startStream]
  provided := rfl
  tracked := rfl
  place := ⟨rfl, rfl⟩

/-- A chunk arrives, and its text joins the buffer. -/
theorem LegacyRep.item {process : JsString → JsString} {cs : List JsString} {h : Handler}
    {chunk : JsString} (hr : LegacyRep process cs h) (hcontrol : h.stream.control = .iterating)
    (hc' : (h.item (.legacy chunk)).Coherent) :
    LegacyRep process (cs ++ [chunk]) (h.item (.legacy chunk)) := by
  obtain ⟨-, hcalm, hidle, hbuffer, hstarted, hshown, hprovided, htracked, hplace⟩ := hr
  rw [LegacyPlace, hcontrol] at hplace
  rw [item_legacy_eq, hcalm.notifies] at hc' ⊢
  refine ⟨hc', hcalm.of_stream rfl rfl, hidle, ?_, ?_, ?_, hprovided, ?_, ?_⟩
  · simp [hbuffer]
  · simp
  · intro hs
    rw [JsString.hasContent_append, hshown hs, Bool.true_or]
  -- before the first chunk there is no text, so `STREAM_STARTED` comes before `SHOWN`
  · have hnew : h.stream.streamStarted = false → h.stream.streamShown = false := by
      intro hns
      rw [hns] at hstarted
      have hcs : cs = [] := by simpa using hstarted.symm
      rw [hplace.1, hbuffer, hcs]
      rfl
    rw [htracked]
    cases hst : h.stream.streamStarted with
    | true => simp [Stream.report, Stream.startedEvents, hcontrol, hst, Control.isDisposed]
    | false =>
        simp [Stream.report, Stream.startedEvents, hcontrol, hst, hnew hst, Control.isDisposed]
  · simp [LegacyPlace]

/-- A chunk has been sent, and may be the first one that shows text. -/
theorem LegacyRep.notified {process : JsString → JsString} {cs : List JsString} {h : Handler}
    (hr : LegacyRep process cs h) (hcontrol : h.stream.control = .notifying (.settled none))
    (hc' : (h.notified .legacy none).Coherent) :
    LegacyRep process cs (h.notified .legacy none) := by
  obtain ⟨-, hcalm, hidle, hbuffer, hstarted, hshown, hprovided, htracked, hplace⟩ := hr
  rw [LegacyPlace, hcontrol] at hplace
  obtain ⟨hne, hlast⟩ := hplace
  have hshows : (h.stream.streamShown || h.stream.legacyShows) =
      h.stream.legacyStreamBuffer.hasContent := by
    rw [Stream.legacyShows, hcalm.notFailed]
    cases hs : h.stream.streamShown with
    | true => simp [hshown hs]
    | false => simp
  simp only [Handler.notified, Stream.legacyNotified_eq, mapStream] at hc' ⊢
  refine ⟨hc', hcalm.of_stream rfl rfl, hidle, hbuffer, hstarted, ?_, ?_, ?_, ?_, ?_⟩
  · intro hs
    exact hshows.symm.trans hs
  · simp only [setControl, mapStream, hprovided]
  · rw [setControl, mapStream]
    simp only [htracked]
    cases hs : h.stream.streamShown <;> cases h.stream.legacyShows <;>
      simp [Stream.report, Stream.shownEvents, hcontrol, hs, Control.isDisposed]
  · exact hshows
  · rw [if_neg hne]
    exact hlast

theorem LegacyRep.step {process : JsString → JsString} {cs : List JsString} {h h' : Handler}
    {a : Action} (hr : LegacyRep process cs h) (hok : Smooth process h a)
    (hplain : ∀ events, a ≠ .item (.sse events)) (hs : h.step a = some h') :
    LegacyRep process (cs ++ a.chunks) h' := by
  have hc' := hr.coherent.step hs
  obtain ⟨hc, hcalm, hidle, hbuffer, hstarted, hshown, hprovided, htracked, hplace⟩ := id hr
  -- plain chunks put nothing into the queue
  have hnoTask : ∀ n, h.notification .queue ≠ some n := by
    intro n hn
    have hrunning : h.stream.queue.running = some n := hn
    rw [hidle] at hrunning
    cases hrunning
  cases step_cases hs with
  | onEvent hcontrol =>
      rw [LegacyPlace, hcontrol] at hplace
      cases hplace
  | @item i hcontrol =>
      cases i with
      | sse events => exact absurd rfl (hplain events)
      | legacy chunk =>
          exact hr.item hcontrol hc'
  | iteratorDone hcontrol =>
      simp only [Action.chunks, List.append_nil]
      rw [LegacyPlace, hcontrol] at hplace
      refine ⟨hc', hcalm.of_stream rfl rfl, hidle, hbuffer, hstarted,
        hshown, hprovided, ?_, hplace⟩
      simpa [Stream.report, hcontrol, setControl, mapStream, Control.isDisposed] using htracked
  | iteratorFails hcontrol => cases hok
  | iteratorClosed hcontrol => cases hok
  | @postProcessed c buffer result hf hn =>
      simp only [Action.chunks, List.append_nil]
      cases c with
      | queue => exact absurd hn (hnoTask _)
      | legacy =>
          have hcontrol := control_of_notification hn
          rw [LegacyPlace, hcontrol] at hplace
          obtain ⟨hne, rfl⟩ := hplace
          have hresult := hok _ hn
          subst hresult
          refine ⟨hc', hcalm.of_stream rfl rfl, hidle, hbuffer, hstarted,
            hshown, hprovided, ?_, hne, ?_⟩
          · simpa [Stream.report, hcontrol, setNotification, setControl, mapStream,
              Control.isDisposed, Stream.notificationProcessed_eq] using htracked
          · simp [Stream.lastContent, setNotification, setControl, mapStream,
              Stream.notificationProcessed, Stream.sendStreamingResponse]
  | @sent c result hf hn =>
      simp only [Action.chunks, List.append_nil]
      cases c with
      | queue => exact absurd hn (hnoTask _)
      | legacy =>
          have hcontrol := control_of_notification hn
          rw [LegacyPlace, hcontrol] at hplace
          have hresult : result = .ok () := hok
          subst hresult
          refine ⟨hc', hcalm.of_stream rfl rfl, hidle, hbuffer, hstarted,
            hshown, hprovided, ?_, hplace⟩
          simpa [Stream.report, hcontrol, setNotification, setControl, mapStream,
              Control.isDisposed] using htracked
  | @notified c err hf hn =>
      simp only [Action.chunks, List.append_nil]
      cases c with
      | queue => exact absurd hn (hnoTask _)
      | legacy =>
          have hcontrol := control_of_notification hn
          rw [LegacyPlace, hcontrol] at hplace
          cases err with
          | some err => cases hplace
          | none =>
              exact hr.notified hcontrol hc'
  | onIdle hcontrol hidle =>
      simp only [Action.chunks, List.append_nil]
      rw [LegacyPlace, hcontrol] at hplace
      refine ⟨hc', hcalm.of_stream rfl rfl, (SerialQueue.isIdle_iff.mp hidle).1, hbuffer,
        hstarted, hshown, hprovided, ?_, hplace.1, ?_⟩
      · simpa [Stream.report, hcontrol, setControl, mapStream, Control.isDisposed, Stream.endStream,
          Stream.sendStreamingResponse] using htracked
      · apply Eq.trans _ hplace.2
        simp [Stream.lastContent, setControl, mapStream, Stream.endStream,
          Stream.sendStreamingResponse, Stream.doneMessage]
  | endSent hcontrol =>
      simp only [Action.chunks, List.append_nil]
      rw [LegacyPlace, hcontrol] at hplace
      simp only [mapStream, Stream.endStreamSent_eq] at hc' ⊢
      refine ⟨hc', hcalm.of_stream rfl rfl, hidle, hbuffer, hstarted,
        hshown, hprovided, ?_, hplace⟩
      simp [Stream.report, hcontrol, setControl, mapStream, Control.isDisposed,
        Stream.disposeStopStreaming, htracked, Stream.endEvents]
  | endRejected hcontrol => cases hok
  | parserEndSent hf hp | parserEndRejected hf hp =>
      have hfailed := hc.parserEnded hp
      rw [hcalm.notFailed] at hfailed
      cases hfailed
  | cancel hf => cases hok
  | environment hf =>
      simp only [Action.chunks, List.append_nil]
      exact ⟨hc', ⟨hok, hcalm.notCancelled, hcalm.notFailed⟩, hidle, hbuffer, hstarted, hshown,
        hprovided, htracked, hplace⟩

/-- **What a client gets of plain chunks.** -/
theorem legacy_outcome {process : JsString → JsString} {params : StartStreamParams}
    {c : DefaultSuggestionApiErrorCheck} {as : List Action} {h : Handler}
    (hrun : run step (startStream params true c) as = some h)
    (hsmooth : Guarded step (Smooth process) (startStream params true c) as)
    (hplain : ∀ events, .item (.sse events) ∉ as)
    (hsettled : h.stream.control = .settled true) :
    h.stream.tracked = (bif (deliveredChunks as).isEmpty then [] else [.streamStarted]) ++
        (bif JsString.hasContent (deliveredChunks as).flatten then [.shown, .streamCompleted]
          else [.streamCompleted, .notProvided]) ∧
      h.stream.lastContent =
        if deliveredChunks as = [] then none else some (process (deliveredChunks as).flatten) := by
  have hok := hsmooth.and_forall (p := fun a => ∀ events, a ≠ .item (.sse events))
    fun a ha events hEq => hplain events (hEq ▸ ha)
  have hrep : LegacyRep process (deliveredChunks as) h := by
    refine guarded_trace (I := fun as h => LegacyRep process (deliveredChunks as) h)
      (legacyRep_startStream process params c) ?_ hok hrun
    rintro as s a t hrep ⟨hok, hplain⟩ hs
    have hstep := hrep.step hok hplain hs
    rwa [deliveredChunks, List.flatMap_append, List.flatMap_singleton]
  obtain ⟨-, hcalm, -, hbuffer, hstarted, -, hprovided, htracked, hplace⟩ := hrep
  rw [LegacyPlace, hsettled] at hplace
  obtain ⟨hshown, hlast⟩ := hplace
  rw [← hbuffer]
  refine ⟨?_, hlast⟩
  rw [htracked, Stream.report, Stream.endEvents, hstarted, hprovided, hshown, hsettled,
    hcalm.notFailed]
  cases (deliveredChunks as).isEmpty <;> cases h.stream.legacyStreamBuffer.hasContent <;> rfl

/-! ## The way of the events -/

/-- The text of an event. -/
def textOf (e : EventSourceMessage) : JsString := (e.parsed.map SSEEvent.text).getD []

/-- An event that ends the stream. -/
def isStreamEnd (e : EventSourceMessage) : Bool :=
  (e.parsed.map fun event => event.event == .streamEnd).getD false

/-- What the queue and the client have of the text, once some event was handled: the last of the
waiting tasks will send it, the running task does, or it was sent. -/
def TextUnderway (process : JsString → JsString) (s : Stream) : Prop :=
  s.queue.waiting = [] →
    match s.queue.running with
    | some (.postProcessing buffer) => buffer = s.sseBuffer
    | _ => s.lastContent = some (process s.sseBuffer)

/-- The state of an undisturbed stream of which the parser has handled the events `es`. -/
structure SseRep (process : JsString → JsString) (es : List EventSourceMessage) (h : Handler) :
    Prop where
  coherent : h.Coherent
  calm : h.Calm
  place : ∀ n, h.stream.control ≠ .notifying n
  fresh : es = [] → h.stream.queue.running = none ∧ h.stream.lastContent = none
  buffer : h.stream.sseBuffer = es.flatMap textOf
  started : h.stream.streamStarted = !es.isEmpty
  shown : h.stream.streamShown = h.stream.sseBuffer.hasContent
  provided : h.stream.suggestionProvided = (h.stream.streamShown || es.any isStreamEnd)
  tracked : h.stream.tracked = h.stream.report
  text : es ≠ [] → TextUnderway process h.stream

theorem sseRep_startStream (process : JsString → JsString) (params : StartStreamParams)
    (c : DefaultSuggestionApiErrorCheck) : SseRep process [] (startStream params true c) where
  coherent := coherent_startStream params true c
  calm := ⟨by simp [startStream, DefaultSuggestionApiErrorCheck.isOpen,
    DefaultSuggestionApiErrorCheck.success], rfl, rfl⟩
  place := by simp [startStream]
  fresh := fun _ => ⟨rfl, rfl⟩
  buffer := rfl
  started := rfl
  shown := rfl
  provided := rfl
  tracked := rfl
  text := fun hne => absurd rfl hne

/-- In a calm stream every task that is started gets through. -/
theorem Calm.queueChanged_eq {h : Handler} (hc : h.Calm)
    (q : SerialQueue Notification × Option Notification) :
    h.queueChanged q = { h with stream := { h.stream with
      queue := if q.2.isSome then q.1.update (.postProcessing h.stream.sseBuffer) else q.1
      streamStarted := h.stream.streamStarted || q.2.isSome
      tracked := h.stream.tracked ++ h.stream.startedEvents q.2.isSome } } := by
  rw [Handler.queueChanged_eq, hc.notifies, Bool.and_true]
  simp [begun, hc.notifies]

/-- A task that is added runs at once if nothing else does, and waits otherwise. -/
theorem startNext_add (q : SerialQueue Notification) (hp : q.isPaused = false)
    (hw : q.running = none → q.waiting = []) :
    (q.running = none ∧ q.add .queued = ({ q with running := some .queued }, some .queued)) ∨
      (q.running ≠ none ∧
        q.add .queued = ({ q with waiting := q.waiting ++ [.queued] }, none)) := by
  obtain ⟨running, waiting, isPaused⟩ := q
  cases hp
  cases running with
  | none =>
      have hnil : waiting = [] := hw rfl
      subst hnil
      exact .inl ⟨rfl, rfl⟩
  | some n => exact .inr ⟨by simp, rfl⟩

/-- What an event does to the text that is shown. -/
theorem shown_or_parsedShows {s : Stream} (event : SSEEvent)
    (hf : s.parserCancelledOrErrored = false) (hs : s.streamShown = s.sseBuffer.hasContent) :
    (s.streamShown || s.parsedShows event) = JsString.hasContent (s.sseBuffer ++ event.text) := by
  rw [JsString.hasContent_append, ← hs]
  obtain ⟨name, data⟩ := event
  unfold Stream.parsedShows
  rw [Stream.parsedBuffer_eq]
  unfold SSEEvent.text
  cases name with
  | streamStart => simp
  | streamEnd => simp
  | contentChunk =>
      cases data.bind (·.choices) with
      | none => simp
      | some choices => simp [JsString.hasContent_append, ← hs, hf]

/-- The parser handles an event, the first one of which brings no text. -/
theorem SseRep.onEvent {process : JsString → JsString} {es : List EventSourceMessage}
    {h : Handler} {e : EventSourceMessage} {event : SSEEvent} (hr : SseRep process es h)
    (hp : e.parsed = some event) (hfirst : es = [] → event.text = [])
    (hne : h.stream.control.isEnding = false) :
    SseRep process (es ++ [e]) (h.onEvent e) := by
  have hc' := hr.coherent.onEvent hne e
  obtain ⟨hc, hcalm, hplace, hfresh, hbuffer, hstarted, hshown, hprovided, htracked, htext⟩ := hr
  have hd := hc.not_disposed hne
  have he : h.onEvent e = (h.mapStream (·.onParsedEvent event)).addTask := by
    rcases h.onEvent_cases e with hd | ⟨-, hp', -⟩ | ⟨event', -, hp', he⟩
    · simp [EventSourceMessage.parsed, hd] at hp
    · rw [hp'] at hp
      cases hp
    · rw [hp'] at hp
      cases hp
      exact he
  have hshows := shown_or_parsedShows event hc.parserFlag hshown
  have htextOf : textOf e = event.text := by simp [textOf, hp]
  have hend : isStreamEnd e = (event.event == .streamEnd) := by simp [isStreamEnd, hp]
  have hm : (h.mapStream (·.onParsedEvent event)).Calm := by
    simp only [mapStream, Stream.onParsedEvent_eq]
    exact hcalm.of_stream rfl rfl
  rw [he] at hc' ⊢
  rw [addTask, hm.queueChanged_eq] at hc' ⊢
  simp only [mapStream, Stream.onParsedEvent_eq, Stream.parsedBuffer_eq] at hc' ⊢
  have hadd := startNext_add h.stream.queue hc.notPaused hc.working
  refine ⟨hc', hcalm.of_stream rfl rfl, hplace, by simp, ?_, ?_, hshows,
    ?_, ?_, ?_⟩
  · simp [hbuffer, htextOf]
  · -- with nothing handled before, nothing runs, so the task starts at once
    rcases hadd with ⟨-, hq⟩ | ⟨hrun, hq⟩
    · simp [hq]
    · have hes : es ≠ [] := fun hes => hrun (hfresh hes).1
      simp [hstarted, List.isEmpty_eq_false_iff.mpr hes]
  · rw [hprovided, List.any_append, List.any_cons, List.any_nil, hend, Bool.or_false]
    cases h.stream.streamShown <;> cases h.stream.parsedShows event <;> simp
  · rw [htracked]
    -- the first event brings no text: only then may `STREAM_STARTED` still come before `SHOWN`
    by_cases hes : es = []
    · have hnone : h.stream.streamShown = false ∧ h.stream.parsedShows event = false := by
        rw [hbuffer, hes, hfirst hes] at hshows
        simpa using hshows
      have hnot : h.stream.streamStarted = false := by simp [hstarted, hes]
      rcases hadd with ⟨-, hq⟩ | ⟨hrun, hq⟩
      · simp [hq, Stream.report, Stream.shownEvents, Stream.startedEvents, hnone, hnot, hd]
      · exact absurd (hfresh hes).1 hrun
    · have hyes : h.stream.streamStarted = true := by
        simp [hstarted, List.isEmpty_eq_false_iff.mpr hes]
      cases hs : h.stream.streamShown <;> cases hps : h.stream.parsedShows event <;>
        simp [Stream.report, Stream.shownEvents, Stream.startedEvents, hyes, hs, hd]
  -- the task of this event takes the new text along, whether it starts now or waits
  · intro _
    rcases hadd with ⟨-, hq⟩ | ⟨-, hq⟩
    · simp [TextUnderway, hq]
    · simp [TextUnderway, hq]

/-- The loop goes on to another place before the end. -/
theorem SseRep.goOn {process : JsString → JsString} {es : List EventSourceMessage}
    {h : Handler} {c : Control} (hr : SseRep process es h) (hc' : (h.setControl c).Coherent)
    (hd : h.stream.control.isDisposed = false) (hcd : c.isDisposed = false)
    (hn : ∀ n, c ≠ .notifying n) : SseRep process es (h.setControl c) := by
  obtain ⟨-, hcalm, -, hfresh, hbuffer, hstarted, hshown, hprovided, htracked, htext⟩ := hr
  refine ⟨hc', hcalm.of_stream rfl rfl, hn, hfresh, hbuffer, hstarted,
    hshown, hprovided, ?_, htext⟩
  rw [Stream.report, hd] at htracked
  simpa [Stream.report, Handler.setControl, mapStream, hcd] using htracked

/-- A task that runs is there for an event that was handled. -/
theorem SseRep.handled {process : JsString → JsString} {es : List EventSourceMessage}
    {h : Handler} {n : Notification} (hr : SseRep process es h)
    (hn : h.stream.queue.running = some n) : es ≠ [] := by
  intro hes
  rw [(hr.fresh hes).1] at hn
  cases hn

/-- A task has settled, and the next one starts. -/
theorem SseRep.notified {process : JsString → JsString} {es : List EventSourceMessage}
    {h : Handler} {err : Option StreamError} (hr : SseRep process es h)
    (hrunning : h.stream.queue.running = some (.settled err))
    (hc' : (h.notified .queue err).Coherent) : SseRep process es (h.notified .queue err) := by
  have hes := hr.handled hrunning
  obtain ⟨-, hcalm, hplace, -, hbuffer, hstarted, hshown, hprovided, htracked, htext⟩ := hr
  have hyes : h.stream.streamStarted = true := by
    simp [hstarted, List.isEmpty_eq_false_iff.mpr hes]
  simp only [Handler.notified, taskSettled, hcalm.queueChanged_eq] at hc' ⊢
  refine ⟨hc', hcalm.of_stream rfl rfl, hplace, fun h => absurd h hes, hbuffer, ?_, hshown,
    hprovided, ?_, ?_⟩
  · simp [hyes, List.isEmpty_eq_false_iff.mpr hes]
  · simpa [Stream.report, Stream.startedEvents, Stream.endEvents, hyes] using htracked
  · intro _ hwaiting
    have hcases := SerialQueue.startNext_cases { h.stream.queue with running := none }
    -- the next task reads the text as it is now; if there is none, all text was sent
    rcases hcases with ⟨n, ns, -, -, -, hq⟩ | ⟨hq, -⟩
    · simp [SerialQueue.settle, hq]
    · have hlast := htext hes (by simpa [SerialQueue.settle, hq] using hwaiting)
      rw [hrunning] at hlast
      simpa [SerialQueue.settle, hq, Stream.lastContent] using hlast

/-- The events that were handled do not change by any other step. -/
theorem SseRep.step_other {process : JsString → JsString} {es : List EventSourceMessage}
    {h h' : Handler} {a : Action} (hr : SseRep process es h) (hok : Smooth process h a)
    (hevents : ∀ chunk, a ≠ .item (.legacy chunk)) (ha : a ≠ .onEvent)
    (hs : h.step a = some h') : SseRep process es h' := by
  have hc' := hr.coherent.step hs
  obtain ⟨hc, hcalm, hplace, hfresh, hbuffer, hstarted, hshown, hprovided, htracked, htext⟩ :=
    id hr
  cases step_cases hs with
  | onEvent hcontrol => exact absurd rfl ha
  | @item i hcontrol =>
      cases i with
      | legacy chunk => exact absurd rfl (hevents chunk)
      | sse events =>
          have hd : h.stream.control.isDisposed = false := by rw [hcontrol]; rfl
          apply hr.goOn hc' hd
          · cases events <;> rfl
          · cases events <;> simp [afterEvents]
  | iteratorDone hcontrol =>
      have hd : h.stream.control.isDisposed = false := by rw [hcontrol]; rfl
      exact hr.goOn hc' hd rfl (by simp)
  | iteratorFails hcontrol => cases hok
  | iteratorClosed hcontrol => cases hok
  | @postProcessed c buffer result hf hn =>
      cases c with
      | legacy => exact absurd (control_of_notification hn) (hplace _)
      | queue =>
          have hrunning : h.stream.queue.running = some (.postProcessing buffer) := hn
          have hes := hr.handled hrunning
          have hresult := hok buffer hn
          subst hresult
          refine ⟨hc', hcalm.of_stream rfl rfl, hplace, fun h => absurd h hes, hbuffer, hstarted,
            hshown, hprovided, htracked, ?_⟩
          intro _ hwaiting
          have hlast := htext hes hwaiting
          rw [hrunning] at hlast
          subst hlast
          simp [Stream.lastContent, setNotification, mapStream, Stream.notificationProcessed,
            Stream.sendStreamingResponse]
  | @sent c result hf hn =>
      cases c with
      | legacy => exact absurd (control_of_notification hn) (hplace _)
      | queue =>
          have hrunning : h.stream.queue.running = some .sending := hn
          have hes := hr.handled hrunning
          have hresult : result = .ok () := hok
          subst hresult
          refine ⟨hc', hcalm.of_stream rfl rfl, hplace, fun h => absurd h hes, hbuffer, hstarted,
            hshown, hprovided, htracked, ?_⟩
          intro _ hwaiting
          have hlast := htext hes hwaiting
          rw [hrunning] at hlast
          exact hlast
  | @notified c err hf hn =>
      cases c with
      | legacy => exact absurd (control_of_notification hn) (hplace _)
      | queue =>
          exact hr.notified hn hc'
  | onIdle hcontrol hidle =>
      have hlast : h.stream.endStream.lastContent = h.stream.lastContent := by
        simp [Stream.lastContent, Stream.endStream, Stream.sendStreamingResponse,
          Stream.doneMessage]
      refine ⟨hc', hcalm.of_stream rfl rfl, by simp [setControl, mapStream], ?_, hbuffer, hstarted,
        hshown, hprovided, ?_, ?_⟩
      · intro hes
        exact ⟨(hfresh hes).1, hlast.trans (hfresh hes).2⟩
      · rw [Stream.report, hcontrol] at htracked
        exact htracked
      · intro hes hwaiting
        have htext := htext hes hwaiting
        rw [(SerialQueue.isIdle_iff.mp hidle).1] at htext
        rw [setControl, mapStream, mapStream]
        simp only [Stream.endStream, Stream.sendStreamingResponse,
          (SerialQueue.isIdle_iff.mp hidle).1]
        exact hlast.trans htext
  | endSent hcontrol =>
      simp only [mapStream, Stream.endStreamSent_eq] at hc' ⊢
      refine ⟨hc', hcalm.of_stream rfl rfl, by simp [setControl, mapStream], hfresh, hbuffer,
        hstarted, hshown, hprovided, ?_, htext⟩
      simp [Stream.report, hcontrol, setControl, mapStream, Control.isDisposed,
        Stream.disposeStopStreaming, htracked, Stream.endEvents]
  | endRejected hcontrol => cases hok
  | parserEndSent hf hp | parserEndRejected hf hp =>
      have hfailed := hc.parserEnded hp
      rw [hcalm.notFailed] at hfailed
      cases hfailed
  | cancel hf => cases hok
  | environment hf =>
      exact ⟨hc', ⟨hok, hcalm.notCancelled, hcalm.notFailed⟩, hplace, hfresh, hbuffer, hstarted,
        hshown, hprovided, htracked, htext⟩

/-- Along a run of valid events, the first of which brings no text, the parser has handled all
delivered events but those that are pending. -/
theorem sseRep_of_run {process : JsString → JsString} {params : StartStreamParams}
    {c : DefaultSuggestionApiErrorCheck} {as : List Action} {h : Handler}
    (hrun : run step (startStream params true c) as = some h)
    (hsmooth : Guarded step (Smooth process) (startStream params true c) as)
    (hevents : ∀ chunk, .item (.legacy chunk) ∉ as)
    (hparsed : ∀ e ∈ delivered as, e.parsed ≠ none)
    (hfirst : ∀ e es, delivered as = e :: es → textOf e = []) :
    ∃ es, es ++ h.pending = delivered as ∧ SseRep process es h := by
  have hok := hsmooth.and_forall (p := fun a => ∀ chunk, a ≠ .item (.legacy chunk))
    fun a ha chunk hEq => hevents chunk (hEq ▸ ha)
  refine guarded_trace (I := fun as h => (∀ e ∈ delivered as, e.parsed ≠ none) →
    (∀ e es, delivered as = e :: es → textOf e = []) →
      ∃ es, es ++ h.pending = delivered as ∧ SseRep process es h)
    (fun _ _ => ⟨[], rfl, sseRep_startStream process params c⟩) ?_ hok hrun hparsed hfirst
  rintro as h a h' hi ⟨hok, hplain⟩ hs hparsed hfirst
  have hdelivered : delivered (as ++ [a]) = delivered as ++ a.events := by simp [delivered]
  rw [hdelivered] at hparsed hfirst ⊢
  obtain ⟨es, hes, hr⟩ := hi (fun e he => hparsed e (List.mem_append_left _ he))
    (fun e es he => hfirst e (es ++ a.events) (by rw [he]; rfl))
  by_cases ha : a = .onEvent
  · subst ha
    cases step_cases hs with
    | @onEvent e rest hcontrol =>
        have hpending : h.pending = e :: rest := by simp [pending, hcontrol]
        rw [hpending] at hes
        rw [← hes] at hparsed hfirst
        obtain ⟨event, hp⟩ := Option.ne_none_iff_exists'.mp (hparsed e (by simp))
        have hne : h.stream.control.isEnding = false := by rw [hcontrol]; rfl
        have hhandled := hr.onEvent hp (by
          rintro rfl
          simpa [textOf, hp] using hfirst e _ rfl) hne
        refine ⟨es ++ [e], ?_, ?_⟩
        · rw [← hes]
          cases rest <;> simp [pending, setControl, mapStream, afterEvents, Action.events]
        · apply hhandled.goOn (hr.coherent.step hs)
          · rw [control_onEvent, hcontrol]
            rfl
          · cases rest <;> rfl
          · cases rest <;> simp [afterEvents]
  · refine ⟨es, ?_, hr.step_other hok hplain ha hs⟩
    rcases pending_step hs with ⟨e, rfl, -⟩ | ⟨rfl, hp, hp', -⟩ | ⟨-, -, hp, hp', -⟩
    · exact absurd rfl ha
    · rw [hp, List.append_nil] at hes
      rw [hp', hes]
      rfl
    · rw [hp, List.append_nil] at hes
      rw [hp', hes]

/-- **What a client gets of events.** -/
theorem sse_outcome {process : JsString → JsString} {params : StartStreamParams}
    {c : DefaultSuggestionApiErrorCheck} {as : List Action} {h : Handler}
    (hrun : run step (startStream params true c) as = some h)
    (hsmooth : Guarded step (Smooth process) (startStream params true c) as)
    (hevents : ∀ chunk, .item (.legacy chunk) ∉ as)
    (hparsed : ∀ e ∈ delivered as, e.parsed ≠ none)
    (hfirst : ∀ e es, delivered as = e :: es → textOf e = [])
    (hsettled : h.stream.control = .settled true) (hne : delivered as ≠ [])
    (hend : (delivered as).any isStreamEnd = true) :
    h.stream.tracked = .streamStarted ::
        (bif JsString.hasContent ((delivered as).flatMap textOf) then [.shown, .streamCompleted]
          else [.streamCompleted]) ∧
      h.stream.lastContent = some (process ((delivered as).flatMap textOf)) := by
  obtain ⟨es, hes, hr⟩ := sseRep_of_run hrun hsmooth hevents hparsed hfirst
  have hpending : h.pending = [] := by simp [pending, hsettled]
  rw [hpending, List.append_nil] at hes
  obtain ⟨hc, hcalm, -, -, hbuffer, hstarted, hshown, hprovided, htracked, htext⟩ := hr
  rw [hes] at hbuffer hstarted hprovided htext
  have hidle := SerialQueue.isIdle_iff.mp (hc.drained (by rw [hsettled]; rfl))
  rw [← hbuffer]
  constructor
  · rw [htracked, Stream.report, Stream.endEvents, hstarted, List.isEmpty_eq_false_iff.mpr hne,
      hprovided, hend, hshown, hsettled, hcalm.notFailed]
    cases h.stream.sseBuffer.hasContent <;> rfl
  · have hlast := htext hne hidle.2
    rw [hidle.1] at hlast
    exact hlast

end Handler

/-! ## The same chunks both ways -/

/-- The event carries the text `chunk`. -/
def CarriesChunk (e : EventSourceMessage) (chunk : JsString) : Prop :=
  ∃ event, e.parsed = some event ∧ event.event = .contentChunk ∧ event.text = chunk

/-- The events are a `stream_start`, one `content_chunk` for each chunk, and a `stream_end`. -/
def Carries (events : List EventSourceMessage) (chunks : List JsString) : Prop :=
  ∃ first middle last, events = first :: (middle ++ [last]) ∧
    (∃ event, first.parsed = some event ∧ event.event = .streamStart) ∧
    List.Forall₂ CarriesChunk middle chunks ∧
    ∃ event, last.parsed = some event ∧ event.event = .streamEnd

namespace Handler

theorem textOf_of_ne {e : EventSourceMessage} {event : SSEEvent} (hp : e.parsed = some event)
    (he : event.event ≠ .contentChunk) : textOf e = [] := by
  obtain ⟨name, data⟩ := event
  cases name <;> simp_all [textOf, SSEEvent.text]

theorem textOf_of_carriesChunk {es : List EventSourceMessage} {chunks : List JsString}
    (h : List.Forall₂ CarriesChunk es chunks) :
    es.flatMap textOf = chunks.flatten ∧ ∀ e ∈ es, e.parsed ≠ none := by
  induction h with
  | nil => simp
  | @cons e chunk es chunks he _ ih =>
      obtain ⟨event, hp, -, rfl⟩ := he
      simp [textOf, hp, ih.1]
      exact ih.2

/-- The events of a completion are what `sse_outcome` asks for. -/
theorem carries_spec {events : List EventSourceMessage} {chunks : List JsString}
    (h : Carries events chunks) :
    events ≠ [] ∧ (∀ e ∈ events, e.parsed ≠ none) ∧
      (∀ e es, events = e :: es → textOf e = []) ∧ events.any isStreamEnd = true ∧
      events.flatMap textOf = chunks.flatten := by
  obtain ⟨first, middle, last, rfl, ⟨start, hstart, hstartName⟩, hmiddle, stop, hstop,
    hstopName⟩ := h
  obtain ⟨htext, hparsed⟩ := textOf_of_carriesChunk hmiddle
  have hfirst : textOf first = [] := textOf_of_ne hstart (by simp [hstartName])
  have hlast : textOf last = [] := textOf_of_ne hstop (by simp [hstopName])
  refine ⟨by simp, ?_, ?_, ?_, ?_⟩
  · intro e he
    rw [List.mem_cons, List.mem_append, List.mem_singleton] at he
    rcases he with rfl | he | rfl
    · simp [hstart]
    · exact hparsed e he
    · simp [hstop]
  · intro e es he
    cases he
    exact hfirst
  · simp [isStreamEnd, hstop, hstopName]
  · simp [hfirst, hlast, htext]

/-- **Which completions both ways agree on.** Let the same chunks be delivered, undisturbed, as
plain items in one run of `startStream` and as events in another. The two runs track the same
events and leave the client with the same text exactly when the chunks together are not blank. -/
theorem delivery_agrees_iff (process : JsString → JsString) (params : StartStreamParams)
    (chunks : List JsString) (c d : DefaultSuggestionApiErrorCheck) (as bs : List Action)
    (g h : Handler)
    (hplain : run step (startStream params true c) as = some g)
    (hsse : run step (startStream params true d) bs = some h)
    (hg : g.stream.control = .settled true) (hh : h.stream.control = .settled true)
    (hsmooth : Guarded step (Smooth process) (startStream params true c) as)
    (hsmooth' : Guarded step (Smooth process) (startStream params true d) bs)
    (has : ∀ events, .item (.sse events) ∉ as) (hchunks : deliveredChunks as = chunks)
    (hbs : ∀ chunk, .item (.legacy chunk) ∉ bs) (hcarries : Carries (delivered bs) chunks) :
    (g.stream.tracked = h.stream.tracked ∧ g.stream.lastContent = h.stream.lastContent) ↔
      JsString.hasContent chunks.flatten = true := by
  obtain ⟨hne, hparsed, hfirst, hend, htext⟩ := carries_spec hcarries
  obtain ⟨hg1, hg2⟩ := legacy_outcome hplain hsmooth has hg
  obtain ⟨hh1, hh2⟩ := sse_outcome hsse hsmooth' hbs hparsed hfirst hh hne hend
  rw [hchunks] at hg1 hg2
  rw [htext] at hh1 hh2
  rw [hg1, hg2, hh1, hh2]
  -- blank chunks are reported as not provided by the plain way only, and no chunks at all by one
  -- event less
  cases hcontent : JsString.hasContent chunks.flatten with
  | true =>
      have hchunksNe : chunks ≠ [] := by
        rintro rfl
        cases hcontent
      simp [hchunksNe, List.isEmpty_eq_false_iff.mpr hchunksNe]
  | false => cases chunks <;> simp

/-- A run that delivers the text as one plain item. -/
def plainRun (text : JsString) : List Action :=
  [.item (.legacy text), .postProcessed .legacy (.ok text), .sent .legacy (.ok ()),
    .notified .legacy, .iteratorDone, .onIdle, .endSent true]

/-- The two ways agree on a completion of one letter. -/
theorem delivery_agrees_on_sampleText : ∃ g h,
    run step (startStream sampleParams true (.new 0)) (plainRun sampleText) = some g ∧
      run step (startStream sampleParams true (.new 0)) (eventRun sampleText) = some h ∧
      g.stream.tracked = h.stream.tracked ∧ g.stream.lastContent = h.stream.lastContent := by
  refine ⟨?g, ?h, ?plain, ?sse, (delivery_agrees_iff id sampleParams [sampleText] (.new 0) (.new 0)
    (plainRun sampleText) (eventRun sampleText) _ _ ?plain ?sse ?_ ?_ ?_ ?_ ?_ ?_ ?_ ?_).mpr ?_⟩
  case plain => rfl
  case sse => rfl
  · rfl
  · rfl
  · exact ⟨trivial, fun _ hb => by cases hb; rfl, rfl, trivial, trivial, trivial, rfl, trivial⟩
  · exact ⟨trivial, trivial, trivial, trivial, trivial,
      fun _ hb => by cases hb; rfl, rfl, trivial, fun _ hb => by cases hb; rfl, rfl, trivial,
      fun _ hb => by cases hb; rfl, rfl, trivial, trivial, rfl, trivial⟩
  · simp [plainRun]
  · rfl
  · simp [eventRun]
  · exact ⟨streamStartMessage, [contentChunkMessage sampleText], streamEndMessage, rfl,
      ⟨_, rfl, rfl⟩, .cons ⟨_, rfl, rfl, rfl⟩ .nil, _, rfl, rfl⟩
  · decide

/-- A completion of one blank is reported as provided if it comes as events, and as not provided
if it comes as a plain item. -/
theorem not_delivery_agrees_on_blank : ∃ g h,
    run step (startStream sampleParams true (.new 0)) (plainRun [0x20]) = some g ∧
      run step (startStream sampleParams true (.new 0)) (eventRun [0x20]) = some h ∧
      g.stream.control = .settled true ∧ h.stream.control = .settled true ∧
      .notProvided ∈ g.stream.tracked ∧ .notProvided ∉ h.stream.tracked :=
  ⟨_, _, rfl, rfl, rfl, rfl, by decide, by decide⟩

end Handler
end KhulnasoftLsp.Streaming
