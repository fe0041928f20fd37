import KhulnasoftLsp.Streaming.Invariants

/-!
# The telemetry of a stream

A stream reports its life to the state manager, which drops what `streamingSuggestionStateGraph`
does not allow. The handler never looks at that graph: it has flags of its own, and `Flags` is the
automaton they make up, with `Flags.track` as its steps. `flags_step` says that every step of the
handler is the run of this automaton on the events that the step tracks, and `Flags.Agrees` says
which of its states belong to which state of the graph.

The flags and the graph part at several places: at a cancel notification between the start of the
stream and its first text, at a second end of any kind, at text that is shown before (or without)
`STREAM_STARTED`, and at the completion of a stream that never started. `Expected` lists the
steps that avoid all of these, and `accepts_iff_expected` shows that the list is exact.
-/

namespace KhulnasoftLsp.Streaming

open CircuitBreaker Tracking Transition

/-! ## The automaton of the flags -/

/-- What a stream remembers of its telemetry: whether it was shown, started, or has failed
(which includes that it was cancelled), and whether it is over without having failed. -/
structure Flags where
  shown : Bool
  started : Bool
  failed : Bool
  ended : Bool
  deriving DecidableEq, Repr

namespace Flags

def fresh : Flags := { shown := false, started := false, failed := false, ended := false }

/-- What tracking an event does to the flags. -/
def track (f : Flags) : TrackingEvent → Flags
  | .streamStarted => { f with started := true }
  | .shown => { f with shown := true }
  | .errored => { f with failed := true }
  | .cancelled => { f with failed := true }
  | .rejected => { f with failed := true }
  | .streamCompleted => { f with ended := true }
  | .notProvided => { f with ended := true }
  | .requested => f
  | .loaded => f
  | .accepted => f

/-- The flags that belong to the last event of a path of the graph. -/
def Agrees (f : Flags) : TrackingEvent → Prop
  | .requested => f = fresh
  | .streamStarted => f = { fresh with started := true }
  | .shown => f = { fresh with started := true, shown := true }
  | .errored => f.failed = true
  | .cancelled => f.failed = true
  | .rejected => f.failed = true
  | .streamCompleted => f.ended = true
  | .notProvided => f.ended = true
  | .loaded => False
  | .accepted => False

variable {f : Flags} {e x : TrackingEvent}

/-- Along an edge of the graph the flags keep pace. -/
theorem Agrees.track (h : f.Agrees e) (hx : Allows streamingSuggestionStateGraph e x)
    (hacc : x ≠ .accepted) : (f.track x).Agrees x := by
  cases e <;> cases x <;> first
    | exact absurd hx (by decide)
    | simp_all [Agrees, Flags.track, fresh]

/-- Along a path of the graph the flags keep pace. -/
theorem Agrees.foldl {events : List TrackingEvent} (h : f.Agrees e)
    (hpath : IsPath streamingSuggestionStateGraph (e :: events))
    (hacc : ∀ x ∈ events, x ≠ .accepted) :
    ∃ x, (e :: events).getLast? = some x ∧ (events.foldl Flags.track f).Agrees x := by
  induction events generalizing f e with
  | nil => exact ⟨e, rfl, h⟩
  | cons x xs ih =>
      rw [IsPath, List.isChain_cons_cons] at hpath
      rw [List.forall_mem_cons] at hacc
      rw [List.getLast?_cons_cons]
      exact ih (h.track hpath.1 hacc.1) hpath.2 hacc.2

/-! ### The edges of the graph, read off the flags

As long as the stream is not over, its flags tell what the graph allows next. -/

theorem allows_errored (h : f.Agrees e) (ho : f.ended = false) :
    Allows streamingSuggestionStateGraph e .errored ↔ f.failed = false := by
  cases e <;> simp_all [Agrees, fresh] <;> decide

theorem allows_cancelled (h : f.Agrees e) (ho : f.ended = false) :
    Allows streamingSuggestionStateGraph e .cancelled ↔ f.failed = false ∧ f.started = false := by
  cases e <;> simp_all [Agrees, fresh] <;> decide

theorem allows_rejected (h : f.Agrees e) (ho : f.ended = false) :
    Allows streamingSuggestionStateGraph e .rejected ↔ f.failed = false ∧ f.shown = true := by
  cases e <;> simp_all [Agrees, fresh] <;> decide

theorem allows_streamStarted (h : f.Agrees e) (ho : f.ended = false) :
    Allows streamingSuggestionStateGraph e .streamStarted ↔
      f.failed = false ∧ f.started = false := by
  cases e <;> simp_all [Agrees, fresh] <;> decide

theorem allows_shown (h : f.Agrees e) (ho : f.ended = false) :
    Allows streamingSuggestionStateGraph e .shown ↔
      f.failed = false ∧ f.started = true ∧ f.shown = false := by
  cases e <;> simp_all [Agrees, fresh] <;> decide

theorem allows_streamCompleted (h : f.Agrees e) (ho : f.ended = false) :
    Allows streamingSuggestionStateGraph e .streamCompleted ↔
      f.failed = false ∧ f.started = true := by
  cases e <;> simp_all [Agrees, fresh] <;> decide

end Flags

/-! ## The handler's flags -/

namespace Stream

def flags (s : Stream) : Flags where
  shown := s.streamShown
  started := s.streamStarted
  failed := s.streamCancelledOrErrored
  ended := s.control.isDisposed && !s.streamCancelledOrErrored

theorem foldl_shownEvents (shows : Bool) (s : Stream) (f : Flags)
    (hf : f.shown = s.streamShown) :
    (s.shownEvents shows).foldl Flags.track f = { f with shown := s.streamShown || shows } := by
  obtain ⟨shown, started, failed, ended⟩ := f
  subst hf
  unfold shownEvents
  cases shows <;> cases hs : s.streamShown <;> simp [Flags.track]

theorem foldl_startedEvents (notifies : Bool) (s : Stream) (f : Flags)
    (hf : f.started = s.streamStarted) :
    (s.startedEvents notifies).foldl Flags.track f =
      { f with started := s.streamStarted || notifies } := by
  obtain ⟨shown, started, failed, ended⟩ := f
  subst hf
  unfold startedEvents
  cases notifies <;> cases hs : s.streamStarted <;> simp [Flags.track]

theorem foldl_endEvents (s : Stream) (f : Flags) :
    s.endEvents.foldl Flags.track f =
      { f with ended := f.ended || !s.streamCancelledOrErrored } := by
  unfold endEvents
  cases s.streamCancelledOrErrored <;> cases s.suggestionProvided <;> simp [Flags.track]

end Stream

namespace Handler

theorem flags_onEvent (e : EventSourceMessage) {h : Handler}
    (hd : h.stream.control.isDisposed = false) :
    (h.onEvent e).stream.flags = (h.tracksOnEvent e).foldl Flags.track h.stream.flags := by
  rcases h.onEvent_cases e with hdata | ⟨hdata, hp, he⟩ | ⟨event, hdata, hp, he⟩
  · rw [onEvent_malformed hdata]
    simp [tracksOnEvent, hdata, Stream.flags, Flags.track, hd]
  · rw [he]
    obtain ⟨json, hjson⟩ := Option.ne_none_iff_exists'.mp hdata
    simp [tracksOnEvent, hjson, hp]
  · rw [he]
    obtain ⟨json, hjson⟩ := Option.ne_none_iff_exists'.mp hdata
    simp only [tracksOnEvent, hjson, hp, List.foldl_append]
    rw [Stream.foldl_shownEvents _ _ _ rfl, Stream.foldl_startedEvents _ _ _ rfl]
    simp [addTask, queueChanged_eq, mapStream, Stream.onParsedEvent_eq, Stream.flags, notifies,
      Stream.notifies]

/-- The flags do not see the control, as long as the stream is not disposed of. -/
theorem flags_setControl {c : Control} {h : Handler} (hd : h.stream.control.isDisposed = false)
    (hc : c.isDisposed = false) : (h.setControl c).stream.flags = h.stream.flags := by
  simp [setControl, mapStream, Stream.flags, hd, hc]

theorem flags_setNotification {c : Caller} {n m : Notification} {h : Handler}
    (hn : h.notification c = some n) :
    (h.setNotification c m).stream.flags = h.stream.flags := by
  cases c with
  | legacy => exact flags_setControl (by rw [control_of_notification hn]; rfl) rfl
  | queue => rfl

theorem flags_notified {c : Caller} {err : Option StreamError} {h : Handler}
    (hn : h.notification c = some (.settled err)) :
    (h.notified c err).stream.flags =
      (h.tracks (.notified c)).foldl Flags.track h.stream.flags := by
  cases c with
  | legacy =>
      have hcontrol := control_of_notification hn
      have hd : h.stream.control.isDisposed = false := by rw [hcontrol]; rfl
      cases err with
      | none =>
          simp only [tracks, hcontrol]
          rw [Stream.foldl_shownEvents _ _ _ rfl]
          simp [notified, setControl, mapStream, Stream.legacyNotified_eq, Stream.flags, hcontrol,
            Control.isDisposed]
      | some e =>
          simp only [tracks, hcontrol]
          exact flags_setControl hd rfl
  | queue =>
      simp only [tracks]
      rw [Stream.foldl_startedEvents _ _ _ rfl]
      simp [notified, taskSettled, queueChanged_eq, Stream.flags]

/-- **Every step runs the automaton of the flags** on the events that it tracks. -/
theorem flags_step {h h' : Handler} {a : Action} (hc : h.Coherent) (hs : h.step a = some h') :
    h'.stream.flags = (h.tracks a).foldl Flags.track h.stream.flags := by
  cases step_cases hs with
  | @onEvent e es hcontrol =>
      have hd : h.stream.control.isDisposed = false := by rw [hcontrol]; rfl
      simp only [tracks, hcontrol]
      rw [← flags_onEvent e hd]
      apply flags_setControl
      · rw [control_onEvent, hd]
      · cases es <;> rfl
  | @item i hcontrol =>
      have hd : h.stream.control.isDisposed = false := by rw [hcontrol]; rfl
      cases i with
      | legacy chunk =>
          simp only [tracks]
          rw [Stream.foldl_startedEvents _ _ _ rfl, item_legacy_eq]
          simp [Stream.flags, hcontrol, Control.isDisposed]
      | sse events => exact flags_setControl hd (by cases events <;> rfl)
  | iteratorDone hcontrol => exact flags_setControl (by rw [hcontrol]; rfl) rfl
  | iteratorFails hcontrol | iteratorClosed hcontrol =>
      simp [setControl, mapStream, handleError_eq, tracks, Stream.flags, Flags.track, hcontrol,
        Control.isDisposed]
  | @postProcessed c buffer result hf hn =>
      have hsent : { h with stream := (h.stream.notificationProcessed result).1 }.stream.flags =
          h.stream.flags := by
        simp [Stream.notificationProcessed_eq, Stream.flags]
      simp only [tracks, List.foldl_nil]
      rw [← hsent]
      apply flags_setNotification (n := .postProcessing buffer)
      rw [Stream.notificationProcessed_eq]
      cases c <;> exact hn
  | sent hf hn => exact flags_setNotification hn
  | notified hf hn => exact flags_notified hn
  | onIdle hcontrol hidle =>
      simp [setControl, mapStream, Stream.endStream, Stream.sendStreamingResponse, tracks,
        Stream.flags, hcontrol, Control.isDisposed]
  | endSent hcontrol =>
      simp only [tracks]
      rw [Stream.foldl_endEvents]
      simp [setControl, mapStream, Stream.endStreamSent_eq, Stream.disposeStopStreaming,
        Stream.flags, hcontrol, Control.isDisposed]
  | endRejected hcontrol => exact flags_setControl (by rw [hcontrol]; rfl) rfl
  | parserEndSent hf hp =>
      -- the stream has failed, so this `endStream()` tracks nothing
      have hflag := hc.parserEnded hp
      simp [mapStream, Stream.endStreamSent_eq, Stream.endEvents, tracks, Stream.flags, hflag]
  | parserEndRejected hf hp => simp [mapStream, tracks, Stream.flags]
  | cancel hf =>
      have hreg := hc.registered
      simp only [mapStream, Stream.notificationHandler_eq, tracks, Stream.flags]
      cases hd : h.stream.control.isDisposed <;> cases h.stream.streamShown <;>
        simp [hreg, hd, Flags.track]
  | environment hf => simp [tracks]

/-! ## The steps that keep to the graph -/

/-- A notification that goes through does not come after the failure of a stream that it is the
first to start. -/
def Begins (h : Handler) (notifies : Bool) : Prop :=
  notifies = true → h.stream.streamStarted = false → h.stream.streamCancelledOrErrored = false

/-- The first text is shown only once the stream has started and if it has not failed. -/
def Shows (h : Handler) (shows : Bool) : Prop :=
  shows = true → h.stream.streamShown = false →
    h.stream.streamStarted = true ∧ h.stream.streamCancelledOrErrored = false

/-- What the parser may meet: invalid data only if the stream has not failed, and text only if it
may be shown. -/
def ExpectedEvent (h : Handler) (e : EventSourceMessage) : Prop :=
  match e.data, e.parsed with
  | none, _ => h.stream.streamCancelledOrErrored = false
  | some _, none => True
  | some _, some event =>
    h.Shows (h.stream.parsedShows event) ∧
      h.Begins ((h.stream.queue.add .queued).2.isSome && h.notifies)

/-- The steps after which the telemetry is still a path of the graph:
* the API's stream, its iterator or the data of an event fails only in a stream that has not
  failed and was not cancelled;
* a cancel notification reaches a stream that has not failed and was not cancelled, and either
  was shown or has not started;
* the first notification and the first text come while the stream has not failed and was not
  cancelled, the text after the notification;
* a stream that is completed has started. -/
def Expected (h : Handler) : Action → Prop
  | .onEvent =>
    match h.stream.control with
    | .feeding (e :: _) => h.ExpectedEvent e
    | _ => True
  | .item (.legacy _) => h.Begins h.notifies
  | .iteratorFails _ => h.stream.streamCancelledOrErrored = false
  | .iteratorClosed => h.stream.streamCancelledOrErrored = false
  | .notified .legacy =>
    match h.stream.control with
    | .notifying (.settled none) => h.Shows h.stream.legacyShows
    | _ => True
  | .notified .queue => h.Begins (h.stream.queue.settle.2.isSome && h.notifies)
  | .endSent true => h.stream.streamCancelledOrErrored = false → h.stream.streamStarted = true
  | .cancel => h.stream.isRegistered = true →
    h.stream.streamCancelledOrErrored = false ∧
      (h.stream.streamShown = true ∨ h.stream.streamStarted = false)
  | _ => True

section

variable {h : Handler} {e : TrackingEvent}

theorem isPath_startedEvents (ha : h.stream.flags.Agrees e) (ho : h.stream.flags.ended = false)
    (notifies : Bool) :
    IsPath streamingSuggestionStateGraph (e :: h.stream.startedEvents notifies) ↔
      h.Begins notifies := by
  unfold Stream.startedEvents Begins
  cases notifies <;> cases hs : h.stream.streamStarted <;>
    simp [IsPath, Flags.allows_streamStarted ha ho, Stream.flags, hs]

theorem isPath_shownEvents (ha : h.stream.flags.Agrees e) (ho : h.stream.flags.ended = false)
    (shows : Bool) :
    IsPath streamingSuggestionStateGraph (e :: h.stream.shownEvents shows) ↔ h.Shows shows := by
  unfold Stream.shownEvents Shows
  cases shows <;> cases hs : h.stream.streamShown <;>
    simp [IsPath, Flags.allows_shown ha ho, Stream.flags, hs, and_comm]

/-- Text and the first notification in one step. -/
theorem isPath_shown_started (ha : h.stream.flags.Agrees e) (ho : h.stream.flags.ended = false)
    (shows notifies : Bool) :
    IsPath streamingSuggestionStateGraph
        (e :: (h.stream.shownEvents shows ++ h.stream.startedEvents notifies)) ↔
      h.Shows shows ∧ h.Begins notifies := by
  -- if the text is the first one, `SHOWN` comes before `STREAM_STARTED`, and needs it already
  cases hfirst : shows && !h.stream.streamShown with
  | false =>
      have hnone : h.stream.shownEvents shows = [] := by simp [Stream.shownEvents, hfirst]
      have hshows : h.Shows shows := by
        intro hs hns
        simp [hs, hns] at hfirst
      rw [hnone, List.nil_append, isPath_startedEvents ha ho]
      simp [hshows]
  | true =>
      have hone : h.stream.shownEvents shows = [.shown] := by simp [Stream.shownEvents, hfirst]
      rw [hone, IsPath, List.singleton_append, List.isChain_cons_cons,
        Flags.allows_shown ha ho]
      simp only [Bool.and_eq_true, Bool.not_eq_true'] at hfirst
      obtain ⟨hs, hns⟩ := hfirst
      cases hstarted : h.stream.streamStarted <;>
        simp [Stream.flags, Shows, Begins, Stream.startedEvents, hs, hns, hstarted]

theorem isPath_endEvents (ha : h.stream.flags.Agrees e) (ho : h.stream.flags.ended = false) :
    IsPath streamingSuggestionStateGraph (e :: h.stream.endEvents) ↔
      (h.stream.streamCancelledOrErrored = false → h.stream.streamStarted = true) := by
  have hlast : Allows streamingSuggestionStateGraph .streamCompleted .notProvided := by decide
  unfold Stream.endEvents
  cases hf : h.stream.streamCancelledOrErrored <;> cases h.stream.suggestionProvided <;>
    simp [IsPath, Flags.allows_streamCompleted ha ho, Stream.flags, hf, hlast]

theorem isPath_errored (ha : h.stream.flags.Agrees e) (ho : h.stream.flags.ended = false) :
    IsPath streamingSuggestionStateGraph [e, .errored] ↔
      h.stream.streamCancelledOrErrored = false := by
  simp [IsPath, Flags.allows_errored ha ho, Stream.flags]

theorem isPath_nil : IsPath streamingSuggestionStateGraph [e] := by simp [IsPath]

theorem isPath_tracksOnEvent (ha : h.stream.flags.Agrees e) (ho : h.stream.flags.ended = false)
    (m : EventSourceMessage) :
    IsPath streamingSuggestionStateGraph (e :: h.tracksOnEvent m) ↔ h.ExpectedEvent m := by
  unfold tracksOnEvent ExpectedEvent
  cases m.data with
  | none => exact isPath_errored ha ho
  | some json =>
      cases m.parsed with
      | none => simp [isPath_nil]
      | some event => exact isPath_shown_started ha ho _ _

theorem isPath_cancel (ha : h.stream.flags.Agrees e) (ho : h.stream.flags.ended = false) :
    IsPath streamingSuggestionStateGraph
        [e, if h.stream.streamShown then .rejected else .cancelled] ↔
      h.stream.streamCancelledOrErrored = false ∧
        (h.stream.streamShown = true ∨ h.stream.streamStarted = false) := by
  cases hs : h.stream.streamShown with
  | true => simp [IsPath, Flags.allows_rejected ha ho, Stream.flags, hs]
  | false => simp [IsPath, Flags.allows_cancelled ha ho, Stream.flags, hs]

/-- **`Expected` is exact**: what a step tracks goes on with a path of the graph exactly when the
step is expected. -/
theorem isPath_tracks_iff {h' : Handler} {a : Action} (hc : h.Coherent)
    (ha : h.stream.flags.Agrees e) (hs : h.step a = some h') :
    IsPath streamingSuggestionStateGraph (e :: h.tracks a) ↔ h.Expected a := by
  -- only an undisposed stream tracks anything, so the flags tell what the graph allows
  have hover : h.stream.control.isDisposed = false → h.stream.flags.ended = false := by
    intro hd
    simp [Stream.flags, hd]
  cases step_cases hs with
  | @onEvent m es hcontrol =>
      have ho := hover (by rw [hcontrol]; rfl)
      simp only [tracks, Expected, hcontrol]
      exact isPath_tracksOnEvent ha ho m
  | @item i hcontrol =>
      have ho := hover (by rw [hcontrol]; rfl)
      cases i with
      | legacy chunk => exact isPath_startedEvents ha ho h.notifies
      | sse events => exact iff_of_true isPath_nil trivial
  | iteratorFails hcontrol | iteratorClosed hcontrol =>
      exact isPath_errored ha (hover (by rw [hcontrol]; rfl))
  | @notified c err hf hn =>
      cases c with
      | legacy =>
          have hcontrol := control_of_notification hn
          have ho := hover (by rw [hcontrol]; rfl)
          cases err with
          | none =>
              simp only [tracks, Expected, hcontrol]
              exact isPath_shownEvents ha ho h.stream.legacyShows
          | some err =>
              simp only [tracks, Expected, hcontrol]
              exact iff_of_true isPath_nil trivial
      | queue =>
          have ho := hover (hc.not_disposed (hc.not_ending_of_running hn))
          exact isPath_startedEvents ha ho _
  | endSent hcontrol => exact isPath_endEvents ha (hover (by rw [hcontrol]; rfl))
  | parserEndSent hf hp =>
      have hnone : h.stream.endEvents = [] := by simp [Stream.endEvents, hc.parserEnded hp]
      simp only [tracks, Expected, hnone]
      exact iff_of_true isPath_nil trivial
  | cancel hf =>
      simp only [tracks, Expected]
      cases hreg : h.stream.isRegistered with
      | false => simp [isPath_nil]
      | true =>
          have hd : h.stream.control.isDisposed = false := by
            simpa [hreg] using hc.registered
          simpa using isPath_cancel ha (hover hd)
  | iteratorDone | postProcessed | sent | onIdle | endRejected | parserEndRejected
  | environment => exact iff_of_true isPath_nil trivial

end

/-! ## Runs -/

theorem startedEvents_ne {s : Stream} {notifies : Bool} {x : TrackingEvent}
    (hx : x ∈ s.startedEvents notifies) : x ≠ .requested ∧ x ≠ .accepted := by
  simp [Stream.eq_of_mem_startedEvents hx]

theorem shownEvents_ne {s : Stream} {shows : Bool} {x : TrackingEvent}
    (hx : x ∈ s.shownEvents shows) : x ≠ .requested ∧ x ≠ .accepted := by
  simp [Stream.eq_of_mem_shownEvents hx]

theorem endEvents_ne {s : Stream} {x : TrackingEvent} (hx : x ∈ s.endEvents) :
    x ≠ .requested ∧ x ≠ .accepted := by
  rcases Stream.eq_of_mem_endEvents hx with rfl | rfl <;> simp

theorem tracksOnEvent_ne {h : Handler} {m : EventSourceMessage} {x : TrackingEvent}
    (hx : x ∈ h.tracksOnEvent m) : x ≠ .requested ∧ x ≠ .accepted := by
  unfold tracksOnEvent at hx
  split at hx
  · rw [List.mem_singleton] at hx
    simp [hx]
  · cases hx
  · rcases List.mem_append.mp hx with hx | hx
    · exact shownEvents_ne hx
    · exact startedEvents_ne hx

/-- What a stream tracks is never `REQUESTED`, which its caller tracks, nor `ACCEPTED`, which the
client does. -/
theorem tracks_ne (h : Handler) (a : Action) :
    ∀ x ∈ h.tracks a, x ≠ .requested ∧ x ≠ .accepted := by
  intro x hx
  unfold tracks at hx
  split at hx
  · split at hx
    · exact tracksOnEvent_ne hx
    · cases hx
  · exact startedEvents_ne hx
  · rw [List.mem_singleton] at hx
    simp [hx]
  · rw [List.mem_singleton] at hx
    simp [hx]
  · split at hx
    · exact shownEvents_ne hx
    · cases hx
  · exact startedEvents_ne hx
  · exact endEvents_ne hx
  · exact endEvents_ne hx
  -- a cancel notification, whose event depends on whether the stream was shown
  · split at hx
    · rw [List.mem_singleton] at hx
      rw [hx]
      split <;> simp
    · cases hx
  · cases hx

/-- The events of a stream so far are a path of the graph. -/
def FollowsGraph (h : Handler) : Prop :=
  IsPath streamingSuggestionStateGraph (.requested :: h.stream.tracked)

/-- The flags of a stream agree with the last of its events. -/
def InStep (h : Handler) : Prop :=
  ∃ e, (TrackingEvent.requested :: h.stream.tracked).getLast? = some e ∧ h.stream.flags.Agrees e

theorem followsGraph_step {h h' : Handler} {a : Action} (hc : h.Coherent) (hi : h.InStep)
    (hp : h.FollowsGraph) (hs : h.step a = some h') : h'.FollowsGraph ↔ h.Expected a := by
  obtain ⟨e, hlast, ha⟩ := hi
  unfold FollowsGraph at hp ⊢
  rw [tracked_step hs, ← List.cons_append, isPath_append hlast, isPath_tracks_iff hc ha hs]
  simp [hp]

theorem InStep.step {h h' : Handler} {a : Action} (hi : h.InStep) (hc : h.Coherent)
    (hok : h.Expected a) (hs : h.step a = some h') : h'.InStep := by
  obtain ⟨e, hlast, ha⟩ := hi
  have hpath := (isPath_tracks_iff hc ha hs).mpr hok
  obtain ⟨x, hx, hagrees⟩ := ha.foldl hpath fun y hy => (h.tracks_ne a y hy).2
  refine ⟨x, ?_, by rw [flags_step hc hs]; exact hagrees⟩
  rw [tracked_step hs, ← List.cons_append, List.getLast?_append, hlast]
  rw [List.getLast?_cons] at hx
  cases hl : (h.tracks a).getLast? <;> simp_all

section Runs

variable {params : StartStreamParams} {b : Bool} {c : DefaultSuggestionApiErrorCheck}
  {as : List Action} {h : Handler}

theorem tracked_ne_of_run (hrun : run step (startStream params b c) as = some h) :
    ∀ x ∈ h.stream.tracked, x ≠ .requested ∧ x ≠ .accepted := by
  refine run_invariant (I := fun h : Handler =>
    ∀ x ∈ h.stream.tracked, x ≠ .requested ∧ x ≠ .accepted) ?_ ?_ hrun
  · intro h a h' hi hs x hx
    rw [tracked_step hs, List.mem_append] at hx
    rcases hx with hx | hx
    · exact hi x hx
    · exact h.tracks_ne a x hx
  · cases b <;> simp [startStream, Stream.endStream, Stream.sendStreamingResponse]

theorem inStep_startStream : (startStream params b c).InStep := by
  cases b with
  | false => exact ⟨.requested, rfl, rfl⟩
  | true => exact ⟨.requested, rfl, rfl⟩

theorem followsGraph_startStream : (startStream params b c).FollowsGraph := by
  cases b <;> exact isPath_nil

/-- A run keeps to the graph exactly when each of its steps does. -/
theorem followsGraph_iff (hrun : run step (startStream params b c) as = some h) :
    h.FollowsGraph ↔ Guarded step Expected (startStream params b c) as := by
  refine guarded_iff (I := fun h => h.Coherent ∧ h.InStep) (P := FollowsGraph) ?_ ?_ ?_
    ⟨coherent_startStream params b c, inStep_startStream⟩ followsGraph_startStream hrun
  · rintro h a h' ⟨hc, hi⟩ - hok hs
    exact ⟨hc.step hs, hi.step hc hok hs⟩
  · rintro h a h' ⟨hc, hi⟩ hp hs
    exact followsGraph_step hc hi hp hs
  -- what has left the graph stays off it, since tracked events are never taken back
  · intro h a h' hs hp
    unfold FollowsGraph at hp
    rw [tracked_step hs, ← List.cons_append] at hp
    exact hp.of_append

end Runs

/-- **Which streams keep to the graph.** In a run of `startStream` the tracked events, after
`REQUESTED`, are a path of the graph, and the state manager drops none of them, exactly when all
steps of the run are expected ones. -/
theorem accepts_iff_expected (params : StartStreamParams) (b : Bool)
    (c : DefaultSuggestionApiErrorCheck) (as : List Action) (h : Handler)
    (hrun : run step (startStream params b c) as = some h) (m : CodeSuggestionTelemetryState) :
    (IsPath streamingSuggestionStateGraph (.requested :: h.stream.tracked) ∧
      m.Accepts true params.uniqueTrackingId (.requested :: h.stream.tracked)) ↔
    Guarded step Expected (startStream params b c) as := by
  rw [m.accepts_iff_isPath (tracked_ne_of_run hrun)]
  exact and_self_iff.trans (followsGraph_iff hrun)

/-- A stream of one legacy chunk that is sent before the stream is cancelled: every step is
expected, as its three events are a path. -/
theorem expected_of_cancel_after_shown :
    Guarded step Expected (startStream sampleParams true (.new 0))
      [.item (.legacy sampleText), .postProcessed .legacy (.ok sampleText), .sent .legacy (.ok ()),
        .notified .legacy, .cancel, .iteratorDone, .onIdle, .endSent true] := by
  have hpath : IsPath streamingSuggestionStateGraph
      [.requested, .streamStarted, .shown, .rejected] := by decide
  apply (accepts_iff_expected sampleParams true (.new 0) _ _ rfl .new).mp
  refine ⟨hpath, ?_⟩
  exact (CodeSuggestionTelemetryState.accepts_iff_isPath _ (by decide)).mpr hpath

/-- A stream that is cancelled between its start and its first text tracks `CANCELLED` after
`STREAM_STARTED`, which the graph does not allow. -/
theorem not_isPath_of_cancel_before_shown : ∃ h,
    run step (startStream sampleParams true (.new 0))
      [.item (.legacy sampleText), .cancel] = some h ∧
      ¬ IsPath streamingSuggestionStateGraph (.requested :: h.stream.tracked) :=
  ⟨_, rfl, by decide⟩

end Handler
end KhulnasoftLsp.Streaming
