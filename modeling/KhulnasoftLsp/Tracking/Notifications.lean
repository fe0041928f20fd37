import KhulnasoftLsp.Tracking.Lifetimes

/-!
# Telemetry notifications of the client

The client notifies the server of what becomes of its suggestions. An acceptance with an option sets
a context first, and the Snowplow tracker cannot tell such a call from the start of a suggestion: if
it does not know the id, it records `REQUESTED`. The same holds of the calls by which the server
adds to a context later. `requestedOnStart_iff` says exactly when nothing but a start does so.
-/

namespace KhulnasoftLsp.Tracking

open Transition

/-- `TelemetryNotificationParams`. The last two go to other trackers. -/
inductive TelemetryNotification where
  | codeSuggestions (action : TrackingEvent) (trackingId : String) (optionId : Option Nat)
  | quickChat
  | securityDiagnostics
  deriving DecidableEq, Repr

/-- The server with its Snowplow tracker. -/
structure TrackedServer where
  tracker : LiveTracker
  /-- `client.telemetry.actions` -/
  clientActions : Option (List TrackingEvent)
  /-- The ids for which `REQUESTED` was recorded, but no suggestion was started or served. -/
  requestedOtherwise : List String

inductive ServerAction where
  | notification (params : TelemetryNotification)
  /-- The suggestion service or the streaming handler starts a suggestion, or serves it from the
  cache. -/
  | startSuggestion (uniqueTrackingId : String) (isStreaming : Option Bool)
  /-- They add to the context of a suggestion. -/
  | updateSuggestion (uniqueTrackingId : String)
  | trackEvent (event : TrackingEvent) (uniqueTrackingId : String)
  | reconfigure (enabled : Option Bool) (actions : Option (List TrackingEvent))
  | wait (t : Nat)
  | fire (timer : Nat)
  deriving DecidableEq, Repr

/-- `setTrackingContext` of the multi tracker, which passes calls on to the enabled trackers. -/
def LiveTracker.setTrackingContextIfEnabled (id : String) (isStreaming : Option Bool)
    (t : LiveTracker) : LiveTracker :=
  if t.enabled then t.setTrackingContext .snowplowTracker id isStreaming else t

/-- `trackEvent` of the multi tracker. -/
def LiveTracker.trackEventIfEnabled (event : TrackingEvent) (id : String) (t : LiveTracker) :
    LiveTracker :=
  if t.enabled then t.trackEvent .snowplowTracker event id else t

/-- The ids of the suggestions for which `REQUESTED` has been recorded, the newest first. -/
def LiveTracker.requested (t : LiveTracker) : List String :=
  t.log.filterMap fun
    | .recorded .requested id _ => some id
    | _ => none

namespace TrackedServer

def init (now : Nat) : TrackedServer := ⟨LiveTracker.init now, none, []⟩

/-- An option id is a number, and `0` is no truthy value. -/
def truthy (optionId : Option Nat) : Bool := optionId.any (· != 0)

def notificationHandler (s : TrackedServer) : TelemetryNotification → LiveTracker
  | .codeSuggestions action trackingId optionId =>
    if trackingId ≠ "" ∧ canClientTrackEvent (s.clientActions.getD []) action then
      match action with
      | .accepted =>
        let tracker :=
          if truthy optionId then s.tracker.setTrackingContextIfEnabled trackingId none
          else s.tracker
        tracker.trackEventIfEnabled .accepted trackingId
      | .rejected => s.tracker.trackEventIfEnabled .rejected trackingId
      | .cancelled => s.tracker.trackEventIfEnabled .cancelled trackingId
      | .shown => s.tracker.trackEventIfEnabled .shown trackingId
      | .notProvided => s.tracker.trackEventIfEnabled .notProvided trackingId
      | _ => s.tracker
    else s.tracker
  | .quickChat => s.tracker
  | .securityDiagnostics => s.tracker

/-- Something else than a start has happened to the tracker. -/
def otherwise (s : TrackedServer) (tracker : LiveTracker) : TrackedServer :=
  { s with
    tracker
    requestedOtherwise := s.requestedOtherwise ++
      tracker.requested.take (tracker.requested.length - s.tracker.requested.length) }

def step (s : TrackedServer) : ServerAction → Option TrackedServer
  | .notification params => some (s.otherwise (s.notificationHandler params))
  | .startSuggestion id isStreaming =>
    some { s with tracker := s.tracker.setTrackingContextIfEnabled id isStreaming }
  | .updateSuggestion id => some (s.otherwise (s.tracker.setTrackingContextIfEnabled id none))
  | .trackEvent event id =>
    if event = .requested then none
    else some (s.otherwise (s.tracker.trackEventIfEnabled event id))
  | .reconfigure enabled actions =>
    some (({ s with clientActions := actions }).otherwise (s.tracker.reconfigure enabled actions))
  | .wait now => (s.tracker.step .snowplowTracker (.wait now)).map s.otherwise
  | .fire timer => (s.tracker.step .snowplowTracker (.fire timer)).map s.otherwise

/-- The notification sets a context. -/
def SetsContext (s : TrackedServer) : TelemetryNotification → Option String
  | .codeSuggestions .accepted trackingId optionId =>
    if trackingId ≠ "" ∧ canClientTrackEvent (s.clientActions.getD []) .accepted ∧
        truthy optionId then some trackingId
    else none
  | _ => none

/-- What is added to a context comes for an id whose context is still there. -/
def ContextKnown (s : TrackedServer) : ServerAction → Prop
  | .notification params =>
    ∀ id, s.SetsContext params = some id → s.tracker.enabled = true → s.tracker.hasContext id = true
  | .updateSuggestion id => s.tracker.enabled = true → s.tracker.hasContext id = true
  | _ => True

end TrackedServer

/-! ## What is requested by a call -/

namespace LiveTracker

variable {t : LiveTracker}

theorem requested_record {event : TrackingEvent} (h : event ≠ .requested) (id : String)
    (isStreaming sent : Bool) : (t.record event id isStreaming sent).requested = t.requested := by
  cases event <;> first | rfl | exact absurd rfl h

theorem requested_trackEvent {event : TrackingEvent} (h : event ≠ .requested) (id : String) :
    (t.trackEvent .snowplowTracker event id).requested = t.requested := by
  rw [trackEvent]
  split
  · exact requested_record h _ _ _
  · rfl

theorem requested_trackEventIfEnabled {event : TrackingEvent} (h : event ≠ .requested)
    (id : String) : (t.trackEventIfEnabled event id).requested = t.requested := by
  rw [trackEventIfEnabled]
  split
  · exact requested_trackEvent h id
  · rfl

theorem requested_rejectOpenedSuggestions :
    (t.rejectOpenedSuggestions .snowplowTracker).requested = t.requested := by
  apply rejectOpenedSuggestions_induction (P := fun u => u.requested = t.requested) rfl
  intro u id hu
  rw [requested_trackEvent (by simp), hu]

/-- A call for an id that is not known requests it. -/
theorem requested_setTrackingContext (id : String) (isStreaming : Option Bool) :
    (t.setTrackingContext .snowplowTracker id isStreaming).requested =
      if t.hasContext id then t.requested else id :: t.requested := by
  rw [setTrackingContext]
  split
  · rfl
  · rw [setCodeSuggestionsContext, if_neg (by simp)]
    dsimp only
    rw [if_neg (by simp)]
    generalize hrejected : (if canClientTrackEvent t.actions .accepted &&
      !canClientTrackEvent t.actions .rejected then t.rejectOpenedSuggestions .snowplowTracker
      else t) = u
    have hu : u.requested = t.requested := by
      rw [← hrejected]
      split
      · exact requested_rejectOpenedSuggestions
      · rfl
    rw [← hu]
    rfl

theorem requested_setTrackingContextIfEnabled (id : String) (isStreaming : Option Bool) :
    (t.setTrackingContextIfEnabled id isStreaming).requested =
      if t.enabled = true → t.hasContext id = true then t.requested else id :: t.requested := by
  rw [setTrackingContextIfEnabled]
  split
  · next henabled =>
    rw [requested_setTrackingContext]
    simp [henabled]
  · next hdisabled => rw [if_pos fun henabled => absurd henabled hdisabled]

theorem requested_collect (id : String) : (t.collect id).requested = t.requested := by
  rw [collect]
  split
  · rfl
  · rfl

end LiveTracker

namespace TrackedServer

variable {s t : TrackedServer}

theorem otherwise_of_same {tracker : LiveTracker}
    (h : tracker.requested = s.tracker.requested) :
    (s.otherwise tracker).requestedOtherwise = s.requestedOtherwise := by
  rw [otherwise, h, Nat.sub_self, List.take_zero, List.append_nil]

theorem otherwise_congr {tracker tracker' : LiveTracker}
    (h : tracker.requested = tracker'.requested) :
    (s.otherwise tracker).requestedOtherwise = (s.otherwise tracker').requestedOtherwise := by
  rw [otherwise, otherwise, h]

theorem otherwise_of_new {tracker : LiveTracker} {id : String}
    (h : tracker.requested = id :: s.tracker.requested) :
    (s.otherwise tracker).requestedOtherwise = s.requestedOtherwise ++ [id] := by
  rw [otherwise, h]
  simp

theorem otherwise_setTrackingContext (id : String) :
    (s.otherwise (s.tracker.setTrackingContextIfEnabled id none)).requestedOtherwise =
      s.requestedOtherwise ++
        if s.tracker.enabled = true → s.tracker.hasContext id = true then [] else [id] := by
  have hrequested := s.tracker.requested_setTrackingContextIfEnabled id none
  split at hrequested
  · next hknown => rw [otherwise_of_same hrequested, if_pos hknown, List.append_nil]
  · next hunknown => rw [otherwise_of_new hrequested, if_neg hunknown]

/-- A notification only requests what it sets the context of. -/
theorem requested_notificationHandler (params : TelemetryNotification) :
    (s.notificationHandler params).requested =
      match s.SetsContext params with
      | some id => (s.tracker.setTrackingContextIfEnabled id none).requested
      | none => s.tracker.requested := by
  cases params with
  | codeSuggestions action trackingId optionId =>
    have other {event : TrackingEvent} (hevent : event ≠ .requested) :
        (if trackingId ≠ "" ∧ canClientTrackEvent (s.clientActions.getD []) event then
          s.tracker.trackEventIfEnabled event trackingId
        else s.tracker).requested = s.tracker.requested := by
      split
      · exact LiveTracker.requested_trackEventIfEnabled hevent trackingId
      · rfl
    cases action with
    | accepted =>
      rw [SetsContext, notificationHandler]
      by_cases htracks :
          trackingId ≠ "" ∧ canClientTrackEvent (s.clientActions.getD []) .accepted = true
      · rw [if_pos htracks]
        show (LiveTracker.trackEventIfEnabled .accepted trackingId _).requested = _
        rw [LiveTracker.requested_trackEventIfEnabled (by simp)]
        by_cases hoption : truthy optionId = true
        · rw [if_pos hoption, if_pos ⟨htracks.1, htracks.2, hoption⟩]
        · rw [if_neg hoption, if_neg fun h => hoption h.2.2]
      · rw [if_neg htracks, if_neg fun h => htracks ⟨h.1, h.2.1⟩]
    | rejected => exact other (by simp)
    | cancelled => exact other (by simp)
    | shown => exact other (by simp)
    | notProvided => exact other (by simp)
    | _ => exact congrArg LiveTracker.requested (ite_self _)
  | quickChat => rfl
  | securityDiagnostics => rfl

theorem requestedOtherwise_step {a : ServerAction} (h : s.step a = some t) :
    t.requestedOtherwise = [] ↔ s.requestedOtherwise = [] ∧ s.ContextKnown a := by
  cases a with
  | notification params =>
    cases h
    have hrequested := s.requested_notificationHandler params
    rw [ContextKnown]
    cases hsets : s.SetsContext params with
    | none =>
      have hsame : (s.notificationHandler params).requested = s.tracker.requested := by
        simpa only [hsets] using hrequested
      rw [otherwise_of_same hsame]
      simp
    | some id =>
      have hset : (s.otherwise (s.notificationHandler params)).requestedOtherwise =
          (s.otherwise (s.tracker.setTrackingContextIfEnabled id none)).requestedOtherwise := by
        apply otherwise_congr
        simpa only [hsets] using hrequested
      rw [hset, otherwise_setTrackingContext]
      simp
  | startSuggestion id isStreaming =>
    cases h
    simp [ContextKnown]
  | updateSuggestion id =>
    cases h
    rw [otherwise_setTrackingContext, ContextKnown]
    simp
  | trackEvent event id =>
    obtain ⟨hevent, heq⟩ := Option.ite_none_left_eq_some.mp h
    cases heq
    rw [otherwise_of_same (LiveTracker.requested_trackEventIfEnabled hevent id)]
    simp [ContextKnown]
  | reconfigure enabled actions =>
    cases h
    have hsame : (s.tracker.reconfigure enabled actions).requested = s.tracker.requested := rfl
    simp only [ContextKnown, and_true]
    exact iff_of_eq (congrArg (· = []) (otherwise_of_same hsame))
  | wait now =>
    obtain ⟨tracker, hstep, rfl⟩ := Option.map_eq_some_iff.mp h
    obtain ⟨timers, -, rfl⟩ := Option.map_eq_some_iff.mp hstep
    have hsame : { s.tracker with timers }.requested = s.tracker.requested := rfl
    rw [otherwise_of_same hsame]
    simp [ContextKnown]
  | fire timer =>
    obtain ⟨tracker, hstep, rfl⟩ := Option.map_eq_some_iff.mp h
    obtain ⟨timers, -, rfl⟩ := Option.map_eq_some_iff.mp hstep
    have hsame : (LiveTracker.collect (s.tracker.collects timer)
        { s.tracker with timers }).requested = s.tracker.requested :=
      LiveTracker.requested_collect _
    rw [otherwise_of_same hsame]
    simp [ContextKnown]

/-- Only starts request suggestions exactly in those runs in which every acceptance with an option
and every later addition to a context comes while the context of its id is there. -/
theorem requestedOnStart_iff (now : Nat) (actions : List ServerAction) (s : TrackedServer)
    (h : run step (init now) actions = some s) :
    s.requestedOtherwise = [] ↔ Guarded step ContextKnown (init now) actions := by
  apply guarded_iff (I := fun _ => True) (P := fun s => s.requestedOtherwise = [])
    _ _ _ trivial rfl h
  · intro s a t _ _ _ _
    trivial
  · intro s a t _ hs hstep
    rw [requestedOtherwise_step hstep]
    simp [hs]
  · intro s a t hstep ht
    exact ((requestedOtherwise_step hstep).mp ht).1

/-- The second of two options of a suggestion is accepted. -/
def sampleAccepted : List ServerAction :=
  [.reconfigure none (some [.accepted]), .startSuggestion "a" none,
    .notification (.codeSuggestions .shown "a" none),
    .notification (.codeSuggestions .accepted "a" (some 2))]

/-- The client accepts an option of a suggestion that is not known any more. -/
def sampleUnknown : List ServerAction :=
  [.reconfigure none (some [.accepted]), .startSuggestion "a" none, .wait GC_TIME, .fire 0,
    .notification (.codeSuggestions .accepted "a" (some 2))]

theorem requestedOnStart_iff_accepted : ∃ s, run step (init 0) sampleAccepted = some s ∧
    (s.requestedOtherwise = [] ↔ Guarded step ContextKnown (init 0) sampleAccepted) := by
  obtain ⟨s, hs⟩ : ∃ s, run step (init 0) sampleAccepted = some s :=
    Option.isSome_iff_exists.mp (by decide +kernel)
  exact ⟨s, hs, requestedOnStart_iff 0 sampleAccepted s hs⟩

/-- The acceptance of a suggestion that has been collected requests it. -/
theorem requested_on_acceptance :
    ¬ ∀ now actions s, run step (init now) actions = some s → s.requestedOtherwise = [] := by
  intro h
  have hsome : (run step (init 0) sampleUnknown).isSome := by decide +kernel
  obtain ⟨s, hs⟩ := Option.isSome_iff_exists.mp hsome
  have hrequested : ∀ s ∈ run step (init 0) sampleUnknown, s.requestedOtherwise = ["a"] := by
    decide +kernel
  have hnone := h 0 sampleUnknown s hs
  rw [hrequested s hs] at hnone
  cases hnone

end TrackedServer
end KhulnasoftLsp.Tracking
