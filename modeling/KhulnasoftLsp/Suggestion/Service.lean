import KhulnasoftLsp.Streaming.Invariants

/-!
# The suggestion service and its circuit breaker

The service answers streaming and other requests, and all of them share one circuit breaker: a
streaming request is refused while it is open, a failure of any request is an error, and a
response to a request that is not streamed is a success.

A stream, however, reports its success when it starts, before the API has answered. So streams
that start one after the other and all fail never open the breaker
(`not_opens_of_successive_failures`), and `opensAfterFailures_of_steady` is what holds: the
breaker opens after enough failures of streams that were all started before the first of them
failed.
-/

namespace KhulnasoftLsp.Suggestion

open CircuitBreaker Streaming Tracking Transition

/-- What `#handleStreamingInlineCompletion` is given, and what it asks other services for. -/
structure StreamingRequest where
  context : IDocContext
  userInstruction : Option JsString
  generationType : Option GenerationType
  additionalContexts : Option (List AdditionalContext)
  /-- The path of the Duo project of the document, if `checkProjectStatus` finds one. -/
  namespaceWithPath : Option String
  /-- What `generateUniqueTrackingId` returns. -/
  uniqueTrackingId : String

/-- The answer to a streaming request. -/
structure StartStreamOption where
  streamId : String
  uniqueTrackingId : String
  deriving DecidableEq, Repr

/-- The shared breaker, the streams whose `setTimeout` callback has still to run, and the streams
that were started. -/
structure Service where
  circuitBreaker : DefaultSuggestionApiErrorCheck
  /-- The counter of `uniqueId`. -/
  idCounter : Nat
  scheduled : List StartStreamParams
  streams : List Stream

/-- The steps of the service. -/
inductive Action where
  /-- A streaming request arrives. -/
  | streamingRequest (r : StreamingRequest)
  /-- The next `setTimeout` callback starts its stream. The API returns a stream or `undefined`. -/
  | startStream (apiReturnsStream : Bool)
  /-- A stream takes a step. -/
  | stream (i : Nat) (a : Streaming.Action)
  /-- A request that is not streamed fails. -/
  | nonStreamingFails
  /-- The API answers a request that is not streamed. -/
  | nonStreamingSucceeds
  /-- Time passes. -/
  | wait (t : Nat)
  /-- A timer of the breaker fires. -/
  | expire (id : Nat)

namespace Service

def new (now : Nat) : Service where
  circuitBreaker := .new now
  idCounter := 0
  scheduled := []
  streams := []

/-- `uniqueId` -/
def uniqueId (prefixText : String) (s : Service) : String × Service :=
  (prefixText ++ toString (s.idCounter + 1), { s with idCounter := s.idCounter + 1 })

/-- `#handleStreamingInlineCompletion` -/
def handleStreamingInlineCompletion (r : StreamingRequest) (s : Service) :
    Service × List StartStreamOption :=
  if s.circuitBreaker.isOpen then (s, [])
  else
    let contextProjectPath :=
      if r.context.workspaceFolder.isSome then r.namespaceWithPath else none
    let (streamId, s) := s.uniqueId "code-suggestion-stream-"
    let params : StartStreamParams :=
      { streamId := streamId
        uniqueTrackingId := r.uniqueTrackingId
        documentContext := r.context
        userInstruction := r.userInstruction
        generationType := r.generationType
        additionalContexts := r.additionalContexts
        contextProjectPath := contextProjectPath }
    ({ s with scheduled := s.scheduled ++ [params] },
      [{ streamId := streamId, uniqueTrackingId := r.uniqueTrackingId }])

/-- The parser of a stream is handling the events of an item, so that nothing else can happen. -/
def isFeeding (s : Service) : Bool :=
  s.streams.any fun t => Handler.isFeeding { circuitBreaker := s.circuitBreaker, stream := t }

/-- A step of the stream `i`. What the rest of the service does to the breaker is no step of a
stream here. -/
def streamStep (i : Nat) (a : Streaming.Action) (s : Service) : Option Service :=
  match a, s.streams[i]? with
  | .environment _, _ => none
  | _, none => none
  | _, some t =>
    (Handler.step { circuitBreaker := s.circuitBreaker, stream := t } a).map fun h =>
      { s with circuitBreaker := h.circuitBreaker, streams := s.streams.set i h.stream }

/-- What the service does when nothing else is under way. -/
def idleStep (s : Service) : Action → Option Service
  | .streamingRequest r => some (s.handleStreamingInlineCompletion r).1
  | .startStream apiReturnsStream =>
    match s.scheduled with
    | [] => none
    | params :: rest =>
      -- the breaker is not asked again: it may have opened since the request was accepted
      let h := Handler.startStream params apiReturnsStream s.circuitBreaker
      some { s with circuitBreaker := h.circuitBreaker, scheduled := rest,
                    streams := s.streams ++ [h.stream] }
  | .stream i a => s.streamStep i a
  | .nonStreamingFails => some { s with circuitBreaker := s.circuitBreaker.error }
  | .nonStreamingSucceeds => some { s with circuitBreaker := s.circuitBreaker.success }
  | .wait t =>
    (s.circuitBreaker.circuitBreaker.step (.wait t)).map fun b => { s with circuitBreaker := ⟨b⟩ }
  | .expire id =>
    (s.circuitBreaker.circuitBreaker.step (.expire id)).map fun b =>
      { s with circuitBreaker := ⟨b⟩ }

def step (s : Service) (a : Action) : Option Service :=
  -- a parser hands over the events of an item without a break
  if s.isFeeding then
    match a with
    | .stream i .onEvent => s.streamStep i .onEvent
    | _ => none
  else s.idleStep a

/-! ## What a step does to the breaker -/

/-- The step `a` of the stream `i` calls `handleError`. -/
def streamFails (s : Service) (i : Nat) (a : Streaming.Action) : Bool :=
  match s.streams[i]? with
  | none => false
  | some t => Handler.fails { circuitBreaker := s.circuitBreaker, stream := t } a

/-- How many streams have failed. -/
def failedStreams (s : Service) : Nat := s.streams.countP fun t => t.tracked.contains .errored

/-- The action of the breaker that an action of the service comes with, if any. -/
def breakerAction (s : Service) : Action → Option FixedTimeCircuitBreaker.Action
  | .streamingRequest _ => none
  | .startStream _ => some .success
  | .stream i a => if s.streamFails i a then some .error else none
  | .nonStreamingFails => some .error
  | .nonStreamingSucceeds => some .success
  | .wait t => some (.wait t)
  | .expire id => some (.expire id)

theorem streamStep_eq_some {s s' : Service} {i : Nat} {a : Streaming.Action}
    (hs : s.streamStep i a = some s') :
    ∃ t h, s.streams[i]? = some t ∧ (∀ c, a ≠ .environment c) ∧
      Handler.step { circuitBreaker := s.circuitBreaker, stream := t } a = some h ∧
      s' = { s with circuitBreaker := h.circuitBreaker, streams := s.streams.set i h.stream } := by
  unfold streamStep at hs
  split at hs
  · cases hs
  · cases hs
  · rename_i t hne ht
    obtain ⟨h, hh, rfl⟩ := Option.map_eq_some_iff.mp hs
    exact ⟨t, h, ht, fun c hc => hne c hc, hh, rfl⟩

/-- A step is a step of a stream, or one that the service takes on its own. -/
theorem step_eq_some {s s' : Service} {a : Action} (hs : s.step a = some s') :
    s.idleStep a = some s' := by
  unfold step at hs
  split at hs
  · split at hs
    · exact hs
    · cases hs
  · exact hs

/-- **The breaker of the service is a `FixedTimeCircuitBreaker`**: each step of the service is one
of its steps, or leaves it alone. -/
theorem breaker_step {s s' : Service} {a : Action} (hs : s.step a = some s') :
    match s.breakerAction a with
    | some b => s.circuitBreaker.circuitBreaker.step b = some s'.circuitBreaker.circuitBreaker
    | none => s'.circuitBreaker = s.circuitBreaker := by
  replace hs := step_eq_some hs
  cases a with
  | streamingRequest r =>
      cases hs
      simp only [breakerAction, handleStreamingInlineCompletion]
      split <;> rfl
  | startStream b =>
      simp only [idleStep] at hs
      split at hs
      · cases hs
      · cases hs
        rfl
  | stream i a =>
      obtain ⟨t, h, ht, hne, hstep, rfl⟩ := streamStep_eq_some hs
      have hbreaker := Handler.circuitBreaker_step hstep hne
      simp only [breakerAction, streamFails, ht, hbreaker]
      cases Handler.fails { circuitBreaker := s.circuitBreaker, stream := t } a <;> rfl
  | nonStreamingFails =>
      cases hs
      rfl
  | nonStreamingSucceeds =>
      cases hs
      rfl
  | wait t =>
      obtain ⟨b, hb, rfl⟩ := Option.map_eq_some_iff.mp hs
      exact hb
  | expire id =>
      obtain ⟨b, hb, rfl⟩ := Option.map_eq_some_iff.mp hs
      exact hb

/-- A step adds at most the stream that fails in it to the failed ones. -/
theorem failedStreams_step {s s' : Service} {a : Action} (hs : s.step a = some s') :
    s.failedStreams ≤ s'.failedStreams ∧
      s'.failedStreams ≤ s.failedStreams +
        (if s.breakerAction a = some .error then 1 else 0) := by
  replace hs := step_eq_some hs
  cases a with
  | streamingRequest r =>
      cases hs
      have hstreams : (s.handleStreamingInlineCompletion r).1.streams = s.streams := by
        unfold handleStreamingInlineCompletion
        split <;> rfl
      simp [failedStreams, hstreams]
  | startStream b =>
      simp only [idleStep] at hs
      split at hs
      · cases hs
      · cases hs
        have hnew : ∀ p c, (Handler.startStream p b c).stream.tracked = [] := by
          intro p c
          cases b <;> rfl
        simp [failedStreams, hnew]
  | stream i a =>
      obtain ⟨t, h, ht, -, hstep, rfl⟩ := streamStep_eq_some hs
      obtain ⟨hi, rfl⟩ := List.getElem?_eq_some_iff.mp ht
      have hfails : s.streamFails i a =
          Handler.fails { circuitBreaker := s.circuitBreaker, stream := s.streams[i] } a := by
        simp [streamFails, ht]
      -- the stream has failed after the step if it had before, or does in the step
      have hnew : h.stream.tracked.contains .errored =
          (s.streams[i].tracked.contains .errored || s.streamFails i a) := by
        rw [Bool.eq_iff_iff, Handler.tracked_step hstep]
        simp [Handler.errored_mem_tracks_iff hstep, hfails]
      have hpos : s.streams[i].tracked.contains .errored = true → 0 < s.failedStreams :=
        fun hc => List.countP_pos_iff.mpr ⟨_, List.getElem_mem hi, hc⟩
      have hcount : failedStreams { s with circuitBreaker := h.circuitBreaker
                                           streams := s.streams.set i h.stream } =
          s.failedStreams - (if s.streams[i].tracked.contains .errored then 1 else 0) +
            (if h.stream.tracked.contains .errored then 1 else 0) := List.countP_set hi
      rw [hcount, hnew]
      simp only [breakerAction]
      cases hold : s.streams[i].tracked.contains .errored with
      | true =>
          have hpos' := hpos hold
          simp
          omega
      | false => by_cases hf : s.streamFails i a = true <;> simp [hf]
  | nonStreamingFails | nonStreamingSucceeds =>
      cases hs
      simp [failedStreams]
  | wait t =>
      obtain ⟨b, hb, rfl⟩ := Option.map_eq_some_iff.mp hs
      simp [failedStreams]
  | expire id =>
      obtain ⟨b, hb, rfl⟩ := Option.map_eq_some_iff.mp hs
      simp [failedStreams]

end Service

/-! ## When enough failures open the breaker -/

/-- The action starts a stream. -/
def Action.startsStream : Action → Bool
  | .startStream _ => true
  | _ => false

namespace Service

/-- No stream is started once a stream has failed, and no failure is reported while the breaker is
open. -/
def Steady (s : Service) (a : Action) : Prop :=
  (a.startsStream = true → s.failedStreams = 0) ∧
    (s.breakerAction a = some .error → s.circuitBreaker.isOpen = false)

instance (s : Service) (a : Action) : Decidable (Steady s a) :=
  inferInstanceAs (Decidable ((_ → _) ∧ (_ → _)))

/-- What time it is. -/
def now (s : Service) : Nat := s.circuitBreaker.circuitBreaker.timers.now

/-- The breaker of the service, with the default settings, one timer for each opening, and at
least as many errors counted as streams have failed. -/
structure Counted (s : Service) : Prop where
  oneTimer : s.circuitBreaker.circuitBreaker.OneTimer
  threshold : s.circuitBreaker.circuitBreaker.maxErrorsBeforeBreaking =
    maxErrorsBeforeCircuitBreak
  breakTime : s.circuitBreaker.circuitBreaker.breakTimeMs = circuitBreakIntervalMs
  errors : s.failedStreams ≤ s.circuitBreaker.circuitBreaker.errorCount

theorem counted_new (now : Nat) : (new now).Counted :=
  ⟨FixedTimeCircuitBreaker.oneTimer_new _ _ _, rfl, rfl, Nat.le_refl _⟩

theorem Counted.step {s s' : Service} {a : Action} (hc : s.Counted) (hok : s.Steady a)
    (hne : a ≠ .nonStreamingSucceeds) (hs : s.step a = some s') : s'.Counted := by
  obtain ⟨hone, hmax, hbreak, herrors⟩ := hc
  have hbreaker := breaker_step hs
  obtain ⟨hle, hge⟩ := failedStreams_step hs
  cases hb : s.breakerAction a with
  | none =>
      rw [hb] at hbreaker hge
      simp only at hbreaker
      rw [← hbreaker] at hone hmax hbreak herrors
      simp at hge
      exact ⟨hone, hmax, hbreak, Nat.le_trans hge herrors⟩
  | some b =>
      rw [hb] at hbreaker hge
      have hclosed :
          FixedTimeCircuitBreaker.ErrorWhileClosed s.circuitBreaker.circuitBreaker b := by
        rintro rfl
        exact hok.2 hb
      obtain ⟨hmax', hcount⟩ := FixedTimeCircuitBreaker.step_count hbreaker
      refine ⟨hone.step hclosed hbreaker, hmax'.trans hmax,
        (FixedTimeCircuitBreaker.step_grows hbreaker).2.2.trans hbreak, ?_⟩
      rw [hcount]
      cases b with
      -- one error, and at most one stream that has failed
      | error =>
          simp at hge
          simp
          omega
      | success =>
          -- the success is that of a stream that starts
          have hzero : s.failedStreams = 0 := by
            cases a with
            | startStream r => exact hok.1 rfl
            | nonStreamingSucceeds => exact absurd rfl hne
            | stream i a => simp [breakerAction] at hb
            | _ => simp [breakerAction] at hb
          simp at hge
          simp
          omega
      | wait t | expire t =>
          simp at hge
          exact Nat.le_trans hge herrors

/-- Whenever a failing step of the run leaves enough streams failed, the breaker is open, and
refuses every streaming request, from then on until the break time has elapsed. -/
def OpensAfterFailures (s₀ : Service) (as : List Action) : Prop :=
  ∀ before i a during after, as = before ++ .stream i a :: (during ++ after) →
    ∀ m s t, run step s₀ before = some m → m.step (.stream i a) = some s →
      m.streamFails i a = true → maxErrorsBeforeCircuitBreak ≤ s.failedStreams →
      run step s during = some t → t.now < s.now + circuitBreakIntervalMs →
        t.circuitBreaker.isOpen = true ∧ ∀ r, t.handleStreamingInlineCompletion r = (t, [])

/-- An open breaker refuses streaming requests. -/
theorem handleStreamingInlineCompletion_of_isOpen {s : Service}
    (h : s.circuitBreaker.isOpen = true) (r : StreamingRequest) :
    s.handleStreamingInlineCompletion r = (s, []) := by
  simp [handleStreamingInlineCompletion, h]

/-- Once a stream has failed, steady steps do not call `success()`. -/
theorem Steady.ne_success {s : Service} {a : Action} (hok : s.Steady a)
    (hfailed : 0 < s.failedStreams) (hne : a ≠ .nonStreamingSucceeds)
    {b : FixedTimeCircuitBreaker.Action} (hb : s.breakerAction a = some b) : b ≠ .success := by
  rintro rfl
  cases a with
  | startStream r =>
      have hzero := hok.1 rfl
      omega
  | nonStreamingSucceeds => exact absurd rfl hne
  | stream i a => simp [breakerAction] at hb
  | _ => simp [breakerAction] at hb

/-- An opening lasts through the steady steps after it. -/
theorem openUntil_step {s s' : Service} {a : Action} {t : Timer}
    (hopen : s.circuitBreaker.circuitBreaker.OpenUntil t) (hfailed : 0 < s.failedStreams)
    (hok : s.Steady a) (hne : a ≠ .nonStreamingSucceeds) (hs : s.step a = some s') :
    s'.circuitBreaker.circuitBreaker.OpenUntil t ∧ 0 < s'.failedStreams := by
  refine ⟨?_, Nat.lt_of_lt_of_le hfailed (failedStreams_step hs).1⟩
  have hbreaker := breaker_step hs
  cases hb : s.breakerAction a with
  | none =>
      rw [hb] at hbreaker
      simp only at hbreaker
      rwa [hbreaker]
  | some b =>
      rw [hb] at hbreaker
      refine hopen.step ?_ (hok.ne_success hfailed hne hb) hbreaker
      rintro rfl
      exact hok.2 hb

/-- **When failing streams open the breaker.** In every run in which no request that is not
streamed succeeds, no stream is started once a stream has failed, and no failure is reported while
the breaker is open: the breaker opens when the last of enough streams fails, and stays open, and
refuses all streaming requests, until its break time has elapsed. -/
theorem opensAfterFailures_of_steady (now : Nat) (as : List Action) (u : Service)
    (hrun : run step (new now) as = some u) (hns : .nonStreamingSucceeds ∉ as)
    (hg : Guarded step Steady (new now) as) : OpensAfterFailures (new now) as := by
  rintro before i a during after rfl m s t hm hs hfails hmax ht hnow
  have hg' := hg.and_forall (p := (· ≠ .nonStreamingSucceeds)) fun a ha hEq => hns (hEq ▸ ha)
  obtain ⟨hgb, hgrest⟩ := (guarded_append hm).mp hg'
  obtain ⟨⟨hok, -⟩, hgrest⟩ := (guarded_cons hs).mp hgrest
  have hgd := ((guarded_append ht).mp hgrest).1
  have hcm : m.Counted :=
    guarded_invariant (fun _ _ _ hc hok hs => hc.step hok.1 hok.2 hs) (counted_new now) hgb hm
  have herror : m.breakerAction (.stream i a) = some .error := by simp [breakerAction, hfails]
  have hclosed : m.circuitBreaker.circuitBreaker.isOpen = false := hok.2 herror
  have hbreaker : m.circuitBreaker.circuitBreaker.error = s.circuitBreaker.circuitBreaker := by
    have hbreaker := breaker_step hs
    rw [herror] at hbreaker
    exact Option.some.inj hbreaker
  have hfailed : s.failedStreams ≤ m.failedStreams + 1 := by
    simpa [herror] using (failedStreams_step hs).2
  have hopen : m.circuitBreaker.circuitBreaker.error.isOpen = true := by
    apply FixedTimeCircuitBreaker.isOpen_error
    have hcounted := hcm.errors
    rw [hcm.threshold]
    omega
  -- the breaker was closed before this failure, so the timer that it arms is the only one
  have huntil := hcm.oneTimer.openUntil hclosed hopen
  rw [hcm.breakTime, hbreaker] at huntil
  have hpos : 0 < s.failedStreams := Nat.lt_of_lt_of_le (by decide) hmax
  obtain ⟨htopen, -⟩ := guarded_invariant
    (I := fun t : Service => FixedTimeCircuitBreaker.OpenUntil
      ⟨m.circuitBreaker.circuitBreaker.timers.nextId, m.now + circuitBreakIntervalMs⟩
      t.circuitBreaker.circuitBreaker ∧ 0 < t.failedStreams)
    (fun _ _ _ hi hok hs => openUntil_step hi.1 hi.2 hok.1 hok.2 hs) ⟨huntil, hpos⟩ hgd ht
  have hsame : s.now = m.now := by
    rw [Service.now, ← hbreaker, FixedTimeCircuitBreaker.now_error, Service.now]
  have hisOpen : t.circuitBreaker.isOpen = true := htopen.isOpen (by rwa [← hsame])
  exact ⟨hisOpen, handleStreamingInlineCompletion_of_isOpen hisOpen⟩

/-- A streaming request in an empty document. -/
def sampleRequest : StreamingRequest where
  context := sampleParams.documentContext
  userInstruction := none
  generationType := none
  additionalContexts := none
  namespaceWithPath := none
  uniqueTrackingId := "1"

/-- Four streams that are all started before the first of them fails. -/
def concurrentFailures : List Action :=
  [.streamingRequest sampleRequest, .streamingRequest sampleRequest,
    .streamingRequest sampleRequest, .streamingRequest sampleRequest,
    .startStream true, .startStream true, .startStream true, .startStream true,
    .stream 0 (.iteratorFails .other), .stream 1 (.iteratorFails .other),
    .stream 2 (.iteratorFails .other), .stream 3 (.iteratorFails .other), .wait 9999]

/-- One stream after the other, each of which fails before the next one is requested. -/
def successiveFailures : List Action :=
  (List.range 4).flatMap fun i =>
    [.streamingRequest sampleRequest, .startStream true, .stream i (.iteratorFails .other)]

/-- The breaker opens after four concurrent failures. -/
theorem opensAfterFailures_of_concurrent : OpensAfterFailures (new 0) concurrentFailures :=
  opensAfterFailures_of_steady 0 concurrentFailures _ rfl (by simp [concurrentFailures])
    (by decide)

/-- Four failures in a row, and the next streaming request is accepted. -/
theorem not_opens_of_successive_failures : ¬ OpensAfterFailures (new 0) successiveFailures := by
  intro h
  have hopen := h (successiveFailures.take 11) 3 (.iteratorFails .other) [] [] rfl _ _ _ rfl rfl rfl
    (by decide) rfl (by decide)
  exact absurd hopen.1 (by decide)

end Service
end KhulnasoftLsp.Suggestion
