import KhulnasoftLsp.Timers
import KhulnasoftLsp.Tracking.Trackers
import KhulnasoftLsp.Transition
import Mathlib.Logic.Function.Basic

/-!
# How long the trackers remember a suggestion

A tracker of code suggestions keeps the context of a suggestion in one map and its state in another,
and arms a timer that removes both when it sets the context. Here the two trackers are modelled with
all that may come in between: they are enabled and disabled, the breaker of the instance tracker
opens and closes, and timers fire late. `remembers` says that none of that leaks an id.
-/

namespace KhulnasoftLsp.Tracking

open Transition

inductive TrackerKind where
  | snowplowTracker
  | instanceTracker
  deriving DecidableEq, Repr

def GC_TIME : Nat := 60000

/-- `INSTANCE_TRACKING_EVENTS_MAP` -/
def instanceTrackingEventsMap : TrackingEvent → Option String
  | .shown => some "code_suggestion_shown_in_ide"
  | .accepted => some "code_suggestion_accepted_in_ide"
  | .rejected => some "code_suggestion_rejected_in_ide"
  | _ => none

/-- What a reader of a tracker's log sees. An event that is recorded is sent, or kept back. -/
inductive TrackerEntry where
  | contextSet (id : String)
  | collected (id : String)
  | recorded (event : TrackingEvent) (id : String) (sent : Bool)
  deriving DecidableEq, Repr

structure LiveTracker where
  enabled : Bool
  actions : List TrackingEvent
  circuitBreakerOpen : Bool
  /-- Of each context, whether the suggestion is streamed. -/
  codeSuggestionsContextMap : OrderedMap String Bool
  suggestionStateManager : CodeSuggestionTelemetryState
  timers : Timers
  /-- The id that the callback of a timer removes. -/
  collects : Nat → String
  /-- When the context of an id was set last. -/
  setAt : String → Nat
  /-- The newest entry comes first. -/
  log : List TrackerEntry

inductive TrackerAction where
  | setTrackingContext (uniqueTrackingId : String) (isStreaming : Option Bool)
  | trackEvent (event : TrackingEvent) (uniqueTrackingId : String)
  | reconfigure (enabled : Option Bool) (actions : Option (List TrackingEvent))
  | circuitBreaker (isOpen : Bool)
  | wait (t : Nat)
  | fire (timer : Nat)
  deriving DecidableEq, Repr

namespace LiveTracker

def init (now : Nat) : LiveTracker where
  enabled := true
  actions := []
  circuitBreakerOpen := false
  codeSuggestionsContextMap := OrderedMap.empty
  suggestionStateManager := CodeSuggestionTelemetryState.new
  timers := Timers.new now
  collects := fun _ => ""
  setAt := fun _ => 0
  log := []

def isStreamingSuggestion (t : LiveTracker) (id : String) : Bool :=
  (t.codeSuggestionsContextMap.get id).getD false

def hasContext (t : LiveTracker) (id : String) : Bool :=
  (t.codeSuggestionsContextMap.get id).isSome

def hasState (t : LiveTracker) (id : String) : Bool :=
  (t.suggestionStateManager.codeSuggestionStates.get id).isSome

/-- `updateSuggestionState`, and the event is sent or not. -/
def record (event : TrackingEvent) (id : String) (isStreaming sent : Bool) (t : LiveTracker) :
    LiveTracker :=
  { t with
    suggestionStateManager := t.suggestionStateManager.updateSuggestionState id event isStreaming
    log := .recorded event id sent :: t.log }

def trackEvent : TrackerKind → TrackingEvent → String → LiveTracker → LiveTracker
  | .snowplowTracker, event, id, t =>
    let isStreaming := t.isStreamingSuggestion id
    if t.suggestionStateManager.canUpdateState id event isStreaming then
      -- only what is sent depends on `isEnabled`
      t.record event id isStreaming t.enabled
    else t
  | .instanceTracker, event, id, t =>
    if !t.enabled then t
    else if t.isStreamingSuggestion id then t
    else if t.suggestionStateManager.canUpdateState id event false then
      t.record event id false (instanceTrackingEventsMap event).isSome
    else t

def rejectOpenedSuggestions (kind : TrackerKind) (t : LiveTracker) : LiveTracker :=
  t.suggestionStateManager.getOpenedSuggestions.foldl
    (fun t id => trackEvent kind .rejected id t) t

/-- `setTimeout(…, GC_TIME)`, and the context is set. -/
def remember (id : String) (isStreaming : Bool) (t : LiveTracker) : LiveTracker :=
  let timer := t.timers.setTimeout GC_TIME
  { t with
    timers := timer.2
    collects := Function.update t.collects timer.1 id
    codeSuggestionsContextMap := t.codeSuggestionsContextMap.set id isStreaming
    setAt := Function.update t.setAt id t.timers.now
    log := .contextSet id :: t.log }

def setCodeSuggestionsContext (kind : TrackerKind) (id : String) (isStreaming : Option Bool)
    (t : LiveTracker) : LiveTracker :=
  if kind = .instanceTracker ∧ t.circuitBreakerOpen then t
  else
    let t := if canClientTrackEvent t.actions .accepted && !canClientTrackEvent t.actions .rejected
      then t.rejectOpenedSuggestions kind else t
    let t := t.remember id (isStreaming.getD false)
    -- `trackEvent` of the instance tracker asks the same once more
    if kind = .instanceTracker ∧ t.isStreamingSuggestion id then t
    else t.trackEvent kind .requested id

def updateCodeSuggestionsContext (kind : TrackerKind) (id : String) (isStreaming : Option Bool)
    (t : LiveTracker) : LiveTracker :=
  match kind, isStreaming with
  | .instanceTracker, some isStreaming =>
    if t.circuitBreakerOpen || t.isStreamingSuggestion id then t
    else { t with
      codeSuggestionsContextMap := t.codeSuggestionsContextMap.set id isStreaming }
  | _, _ => t

def setTrackingContext (kind : TrackerKind) (id : String) (isStreaming : Option Bool)
    (t : LiveTracker) : LiveTracker :=
  if t.hasContext id then t.updateCodeSuggestionsContext kind id isStreaming
  else t.setCodeSuggestionsContext kind id isStreaming

def reconfigure (enabled : Option Bool) (actions : Option (List TrackingEvent))
    (t : LiveTracker) : LiveTracker :=
  { t with enabled := enabled.getD t.enabled, actions := actions.getD t.actions }

/-- The callback of a timer. -/
def collect (id : String) (t : LiveTracker) : LiveTracker :=
  if t.hasContext id then
    { t with
      codeSuggestionsContextMap := t.codeSuggestionsContextMap.delete id
      suggestionStateManager := t.suggestionStateManager.deleteSuggestion id
      log := .collected id :: t.log }
  else t

/-- `REQUESTED` is only tracked by the tracker itself. -/
def step (kind : TrackerKind) (t : LiveTracker) : TrackerAction → Option LiveTracker
  | .setTrackingContext id isStreaming => some (t.setTrackingContext kind id isStreaming)
  | .trackEvent event id => if event = .requested then none else some (t.trackEvent kind event id)
  | .reconfigure enabled actions => some (t.reconfigure enabled actions)
  | .circuitBreaker isOpen => some { t with circuitBreakerOpen := isOpen }
  | .wait now => (t.timers.wait now).map fun timers => { t with timers }
  | .fire timer =>
    (t.timers.fire timer).map fun timers => collect (t.collects timer) { t with timers }

/-! ## What is claimed of a run -/

/-- The context of an id has been set, and not collected since. -/
def contextAlive (id : String) : List TrackerEntry → Bool
  | [] => false
  | .contextSet id' :: log => if id' = id then true else contextAlive id log
  | .collected id' :: log => if id' = id then false else contextAlive id log
  | .recorded _ _ _ :: log => contextAlive id log

structure Remembers (t : LiveTracker) : Prop where
  state_has_context : ∀ id, t.hasState id = true → t.hasContext id = true
  /-- The timer that was armed when the context was set is still pending. -/
  context_has_timer : ∀ id, t.hasContext id = true →
    ∃ timer ∈ t.timers.live, t.collects timer.id = id ∧ timer.due = t.setAt id + GC_TIME
  /-- When no timer is overdue, what is remembered has been set less than `GC_TIME` ago. -/
  gone_in_time : (∀ timer ∈ t.timers.live, t.timers.now < timer.due) →
    ∀ id, t.hasContext id = true ∨ t.hasState id = true → t.timers.now < t.setAt id + GC_TIME
  /-- Nothing is recorded, let alone sent, for an id without a context. -/
  recorded_alive : ∀ after event id sent before,
    t.log = after ++ .recorded event id sent :: before → contextAlive id before = true

/-! ## The invariant -/

/-- Every recorded event is one of an id whose context is alive. -/
def RecordsAlive : List TrackerEntry → Prop
  | [] => True
  | .recorded _ id _ :: log => contextAlive id log = true ∧ RecordsAlive log
  | _ :: log => RecordsAlive log

structure Kept (t : LiveTracker) : Prop where
  state : ∀ id, t.hasState id = true → t.hasContext id = true
  timer : ∀ id, t.hasContext id = true →
    ∃ timer ∈ t.timers.live, t.collects timer.id = id ∧ timer.due = t.setAt id + GC_TIME
  fresh : ∀ timer ∈ t.timers.live, timer.id < t.timers.nextId
  alive : ∀ id, contextAlive id t.log = t.hasContext id
  records : RecordsAlive t.log

theorem RecordsAlive.of_append {after before : List TrackerEntry}
    (h : RecordsAlive (after ++ before)) : RecordsAlive before := by
  induction after with
  | nil => exact h
  | cons entry after ih =>
    cases entry with
    | contextSet id => exact ih h
    | collected id => exact ih h
    | recorded event id sent => exact ih h.2

theorem Remembers.of_kept {t : LiveTracker} (h : t.Kept) : t.Remembers where
  state_has_context := h.state
  context_has_timer := h.timer
  gone_in_time := by
    intro hdue id hmem
    have hcontext : t.hasContext id = true := by
      obtain hcontext | hstate := hmem
      · exact hcontext
      · exact h.state id hstate
    obtain ⟨timer, hlive, -, htimer⟩ := h.timer id hcontext
    have := hdue timer hlive
    omega
  recorded_alive := by
    intro after event id sent before hlog
    have hrecords := h.records
    rw [hlog] at hrecords
    exact hrecords.of_append.1

/-! ## What each operation keeps -/

theorem hasState_record {event : TrackingEvent} {id id' : String} {isStreaming sent : Bool}
    {t : LiveTracker} (h : (t.record event id isStreaming sent).hasState id' = true) :
    id' = id ∨ t.hasState id' = true := by
  rw [hasState, record] at h
  dsimp only at h
  rw [CodeSuggestionTelemetryState.updateSuggestionState] at h
  split at h
  · rw [OrderedMap.get_set] at h
    split at h
    · next hid => exact Or.inl hid
    · exact Or.inr h
  · exact Or.inr h

theorem Kept.record {t : LiveTracker} (h : t.Kept) {id : String} (hid : t.hasContext id = true)
    (event : TrackingEvent) (isStreaming sent : Bool) :
    (t.record event id isStreaming sent).Kept where
  state := by
    intro id' hstate
    obtain rfl | hold := hasState_record hstate
    · exact hid
    · exact h.state id' hold
  timer := h.timer
  fresh := h.fresh
  alive := h.alive
  records := ⟨(h.alive id).trans hid, h.records⟩

theorem hasState_of_canUpdateState {t : LiveTracker} {event : TrackingEvent} {id : String}
    {isStreaming : Bool} (hevent : event ≠ .requested)
    (h : t.suggestionStateManager.canUpdateState id event isStreaming = true) :
    t.hasState id = true := by
  rw [CodeSuggestionTelemetryState.canUpdateState, if_neg hevent] at h
  rw [hasState]
  split at h
  · cases h
  · next hstate => rw [hstate]; rfl

/-- An event is only recorded for an id that has a context: `REQUESTED` when it has just been set,
and every other one because there is a state already. -/
theorem Kept.trackEvent {t : LiveTracker} (h : t.Kept) (kind : TrackerKind) {event : TrackingEvent}
    {id : String} (hevent : event = .requested → t.hasContext id = true) :
    (t.trackEvent kind event id).Kept := by
  have hcontext : ∀ {isStreaming},
      t.suggestionStateManager.canUpdateState id event isStreaming = true →
        t.hasContext id = true := by
    intro isStreaming hcan
    by_cases hrequested : event = .requested
    · exact hevent hrequested
    · exact h.state id (hasState_of_canUpdateState hrequested hcan)
  cases kind with
  | snowplowTracker =>
    rw [LiveTracker.trackEvent]
    split
    · next hcan => exact h.record (hcontext hcan) _ _ _
    · exact h
  | instanceTracker =>
    rw [LiveTracker.trackEvent]
    split
    · exact h
    split
    · exact h
    split
    · next hcan => exact h.record (hcontext hcan) _ _ _
    · exact h

/-- What is kept whenever a suggestion is rejected. -/
theorem rejectOpenedSuggestions_induction {kind : TrackerKind} {P : LiveTracker → Prop}
    {t : LiveTracker} (h : P t) (hreject : ∀ u id, P u → P (u.trackEvent kind .rejected id)) :
    P (t.rejectOpenedSuggestions kind) := by
  rw [rejectOpenedSuggestions]
  generalize t.suggestionStateManager.getOpenedSuggestions = opened
  induction opened generalizing t with
  | nil => exact h
  | cons id opened ih =>
    apply ih
    exact hreject t id h

/-- The opened suggestions are rejected or not, and then the suggestion is requested or not. -/
theorem setCodeSuggestionsContext_cases (kind : TrackerKind) (id : String)
    (isStreaming : Option Bool) (t : LiveTracker) :
    t.setCodeSuggestionsContext kind id isStreaming = t ∨
    ∃ u, (u = t ∨ u = t.rejectOpenedSuggestions kind) ∧
      (t.setCodeSuggestionsContext kind id isStreaming = u.remember id (isStreaming.getD false) ∨
        t.setCodeSuggestionsContext kind id isStreaming =
          (u.remember id (isStreaming.getD false)).trackEvent kind .requested id) := by
  rw [setCodeSuggestionsContext]
  split
  · exact Or.inl rfl
  dsimp only
  generalize hrejected : (if canClientTrackEvent t.actions .accepted &&
    !canClientTrackEvent t.actions .rejected then t.rejectOpenedSuggestions kind else t) = u
  refine Or.inr ⟨u, ?_, ?_⟩
  · rw [← hrejected]
    split
    · exact Or.inr rfl
    · exact Or.inl rfl
  · split
    · exact Or.inl rfl
    · exact Or.inr rfl

theorem Kept.rejectOpenedSuggestions {t : LiveTracker} (h : t.Kept) (kind : TrackerKind) :
    (t.rejectOpenedSuggestions kind).Kept := by
  apply rejectOpenedSuggestions_induction h
  intro u id hu
  apply hu.trackEvent
  intro hevent
  cases hevent

theorem hasContext_remember (id id' : String) (isStreaming : Bool) (t : LiveTracker) :
    (t.remember id isStreaming).hasContext id' = (decide (id' = id) || t.hasContext id') := by
  rw [hasContext, remember]
  dsimp only
  rw [OrderedMap.get_set]
  by_cases hid : id' = id <;> simp [hid, hasContext]

theorem Kept.remember {t : LiveTracker} (h : t.Kept) (id : String) (isStreaming : Bool) :
    (t.remember id isStreaming).Kept where
  state := by
    intro id' hstate
    rw [hasContext_remember, h.state id' hstate, Bool.or_true]
  timer := by
    intro id' hcontext
    by_cases hid : id' = id
    · refine ⟨⟨t.timers.nextId, t.timers.now + GC_TIME⟩, ?_, ?_, ?_⟩
      · exact List.mem_append_right _ List.mem_cons_self
      · rw [hid]
        exact Function.update_self _ _ _
      · rw [hid]
        show _ = Function.update t.setAt id t.timers.now id + GC_TIME
        rw [Function.update_self]
    · rw [hasContext_remember, decide_eq_false hid, Bool.false_or] at hcontext
      obtain ⟨timer, hlive, hcollects, hdue⟩ := h.timer id' hcontext
      refine ⟨timer, List.mem_append_left _ hlive, ?_, ?_⟩
      · show Function.update t.collects t.timers.nextId id timer.id = id'
        rw [Function.update_of_ne (h.fresh timer hlive).ne]
        exact hcollects
      · show _ = Function.update t.setAt id t.timers.now id' + GC_TIME
        rw [Function.update_of_ne hid]
        exact hdue
  fresh := by
    intro timer hlive
    obtain hold | hnew := List.mem_append.mp hlive
    · exact Nat.lt_succ_of_lt (h.fresh timer hold)
    · obtain rfl := List.mem_singleton.mp hnew
      exact Nat.lt_succ_self _
  alive := by
    intro id'
    rw [hasContext_remember]
    show (if id = id' then true else contextAlive id' t.log) = _
    rw [h.alive id']
    by_cases hid : id' = id
    · rw [if_pos hid.symm, decide_eq_true hid, Bool.true_or]
    · rw [if_neg (Ne.symm hid), decide_eq_false hid, Bool.false_or]
  records := h.records

theorem Kept.setCodeSuggestionsContext {t : LiveTracker} (h : t.Kept) (kind : TrackerKind)
    (id : String) (isStreaming : Option Bool) :
    (t.setCodeSuggestionsContext kind id isStreaming).Kept := by
  rcases t.setCodeSuggestionsContext_cases kind id isStreaming with heq | ⟨u, hrejected, hset⟩
  · rw [heq]
    exact h
  have hu : u.Kept := by
    rcases hrejected with rfl | rfl
    · exact h
    · exact h.rejectOpenedSuggestions kind
  have hremembered := hu.remember id (isStreaming.getD false)
  rcases hset with heq | heq
  · rw [heq]
    exact hremembered
  · rw [heq]
    apply hremembered.trackEvent
    intro _
    rw [hasContext_remember, decide_eq_true rfl, Bool.true_or]

theorem Kept.updateCodeSuggestionsContext {t : LiveTracker} (h : t.Kept) (kind : TrackerKind)
    {id : String} (hid : t.hasContext id = true) (isStreaming : Option Bool) :
    (t.updateCodeSuggestionsContext kind id isStreaming).Kept := by
  unfold LiveTracker.updateCodeSuggestionsContext
  split
  · next isStreaming =>
    split
    · exact h
    · -- the flag of a context that is there already
      have hsame : ∀ id', hasContext { t with
          codeSuggestionsContextMap := t.codeSuggestionsContextMap.set id isStreaming } id' =
            t.hasContext id' := by
        intro id'
        rw [hasContext]
        dsimp only
        rw [OrderedMap.get_set]
        split
        · next hid' => rw [hid', hid]; rfl
        · rfl
      constructor
      · intro id' hstate
        rw [hsame]
        exact h.state id' hstate
      · intro id' hcontext
        rw [hsame] at hcontext
        exact h.timer id' hcontext
      · exact h.fresh
      · intro id'
        rw [hsame]
        exact h.alive id'
      · exact h.records
  · exact h

theorem Kept.setTrackingContext {t : LiveTracker} (h : t.Kept) (kind : TrackerKind) (id : String)
    (isStreaming : Option Bool) : (t.setTrackingContext kind id isStreaming).Kept := by
  rw [LiveTracker.setTrackingContext]
  split
  · next hid => exact h.updateCodeSuggestionsContext kind hid isStreaming
  · exact h.setCodeSuggestionsContext kind id isStreaming

/-- Only the timer of the id itself may be gone by now: the callback removes what it was armed for,
and the timers of the other ids are still pending. -/
theorem Kept.fire {t u : LiveTracker} (h : t.Kept) {timer : Nat} {timers : Timers}
    (hfire : t.timers.fire timer = some timers)
    (hu : u = collect (t.collects timer) { t with timers }) : u.Kept := by
  obtain ⟨-, rfl⟩ := Timers.fire_eq_some.mp hfire
  have htimer : ∀ id, id ≠ t.collects timer → t.hasContext id = true →
      ∃ timer' ∈ (t.timers.clearTimeout timer).live,
        t.collects timer'.id = id ∧ timer'.due = t.setAt id + GC_TIME := by
    intro id hid hcontext
    obtain ⟨timer', hlive, hcollects, hdue⟩ := h.timer id hcontext
    refine ⟨timer', ?_, hcollects, hdue⟩
    rw [Timers.live_clearTimeout, List.mem_filter]
    refine ⟨hlive, ?_⟩
    rw [bne_iff_ne]
    intro hsame
    exact hid (by rw [← hcollects, hsame])
  have hfresh : ∀ timer' ∈ (t.timers.clearTimeout timer).live, timer'.id < t.timers.nextId := by
    intro timer' hlive
    exact h.fresh timer' (List.mem_of_mem_filter hlive)
  rw [collect] at hu
  split at hu
  · have hcontext : ∀ id, u.hasContext id = true ↔
        id ≠ t.collects timer ∧ t.hasContext id = true := by
      intro id
      rw [hu, hasContext]
      dsimp only
      rw [OrderedMap.get_delete]
      split <;> simp_all [hasContext]
    constructor
    · intro id hstate
      rw [hcontext]
      rw [hu, hasState] at hstate
      dsimp only at hstate
      rw [CodeSuggestionTelemetryState.deleteSuggestion, OrderedMap.get_delete] at hstate
      split at hstate
      · cases hstate
      · next hid => exact ⟨hid, h.state id hstate⟩
    · intro id hid
      obtain ⟨hne, hold⟩ := (hcontext id).mp hid
      rw [hu]
      exact htimer id hne hold
    · rw [hu]
      exact hfresh
    · intro id
      rw [Bool.eq_iff_iff, hcontext, hu]
      show (if t.collects timer = id then false else contextAlive id t.log) = true ↔ _
      split
      · next hid => simp [hid]
      · next hid => simp [h.alive id, Ne.symm hid]
    · rw [hu]
      exact h.records
  · next hnone =>
    rw [hu]
    constructor
    · exact h.state
    · intro id hid
      apply htimer id _ hid
      intro heq
      exact hnone (heq ▸ hid)
    · exact hfresh
    · exact h.alive
    · exact h.records

theorem kept_init (now : Nat) : (init now).Kept where
  state := fun _ h => by cases h
  timer := fun _ h => by cases h
  fresh := fun _ h => by cases h
  alive := fun _ => rfl
  records := trivial

theorem Kept.step {kind : TrackerKind} {t u : LiveTracker} {a : TrackerAction} (h : t.Kept)
    (hstep : t.step kind a = some u) : u.Kept := by
  cases a with
  | setTrackingContext id isStreaming =>
    cases hstep
    exact h.setTrackingContext kind id isStreaming
  | trackEvent event id =>
    obtain ⟨hevent, heq⟩ := Option.ite_none_left_eq_some.mp hstep
    cases heq
    exact h.trackEvent kind fun hrequested => absurd hrequested hevent
  | reconfigure enabled actions =>
    cases hstep
    exact ⟨h.state, h.timer, h.fresh, h.alive, h.records⟩
  | circuitBreaker isOpen =>
    cases hstep
    exact ⟨h.state, h.timer, h.fresh, h.alive, h.records⟩
  | wait now =>
    obtain ⟨timers, hwait, heq⟩ := Option.map_eq_some_iff.mp hstep
    obtain ⟨-, rfl⟩ := Timers.wait_eq_some.mp hwait
    cases heq
    exact ⟨h.state, h.timer, h.fresh, h.alive, h.records⟩
  | fire timer =>
    obtain ⟨timers, hfire, heq⟩ := Option.map_eq_some_iff.mp hstep
    exact h.fire hfire heq.symm

/-- In every run of either tracker, what is remembered of an id is removed in time, and nothing is
recorded or sent for one that has been removed. -/
theorem remembers (kind : TrackerKind) (now : Nat) (actions : List TrackerAction) (t : LiveTracker)
    (h : run (step kind) (init now) actions = some t) : t.Remembers :=
  Remembers.of_kept (run_invariant (fun _ _ _ hs hstep => hs.step hstep) (kept_init now) h)

/-- A suggestion is requested, loaded and collected, and shown too late. -/
def collectedBeforeShown : List TrackerAction :=
  [.setTrackingContext "a" none, .trackEvent .loaded "a", .wait 60000, .fire 0,
    .trackEvent .shown "a"]

theorem remembers_collectedBeforeShown :
    ∃ t, run (step .snowplowTracker) (init 0) collectedBeforeShown = some t ∧ t.Remembers ∧
      t.log = [.collected "a", .recorded .loaded "a" true, .recorded .requested "a" true,
        .contextSet "a"] := by
  obtain ⟨t, ht⟩ : ∃ t, run (step .snowplowTracker) (init 0) collectedBeforeShown = some t :=
    Option.isSome_iff_exists.mp (by decide)
  have hlog : ∀ t ∈ run (step .snowplowTracker) (init 0) collectedBeforeShown,
      t.log = [.collected "a", .recorded .loaded "a" true, .recorded .requested "a" true,
        .contextSet "a"] := by decide
  exact ⟨t, ht, remembers .snowplowTracker 0 collectedBeforeShown t ht, hlog t ht⟩

end LiveTracker
end KhulnasoftLsp.Tracking
