import KhulnasoftLsp.Tracking.Recording

/-!
# The telemetry trackers

The trackers of code suggestions (one sends to Snowplow, one to the instance) keep a context for
each tracking id, and a state manager that decides which events are sent. The first context that is
set for an id tracks `REQUESTED`, and it may reject the suggestions that are still open. The tracker
of the instance ignores streamed suggestions.

Both trackers are enabled here, and the breaker of the second one is closed. Of a context only the
flag is kept that says whether the suggestion is streamed: the rest is sent along with the events.
-/

namespace KhulnasoftLsp.Tracking

/-- What happens to a tracker. -/
inductive TrackerCall where
  | setTrackingContext (uniqueTrackingId : String) (isStreaming : Option Bool)
  | trackEvent (event : TrackingEvent) (uniqueTrackingId : String)
  /-- The timer of a context fires. -/
  | collect (uniqueTrackingId : String)
  deriving DecidableEq, Repr

def TrackerCall.id : TrackerCall → String
  | .setTrackingContext uniqueTrackingId _ => uniqueTrackingId
  | .trackEvent _ uniqueTrackingId => uniqueTrackingId
  | .collect uniqueTrackingId => uniqueTrackingId

/-- The call is for the id, and it is not its timer. -/
def TrackerCall.isFor (id : String) : TrackerCall → Bool
  | .collect _ => false
  | c => c.id = id

theorem TrackerCall.isFor_or_collect {c : TrackerCall} {id : String} (h : c.id = id) :
    c.isFor id = true ∨ c = .collect id := by
  cases c with
  | setTrackingContext _ _ => exact Or.inl (decide_eq_true h)
  | trackEvent _ _ => exact Or.inl (decide_eq_true h)
  | collect _ => exact Or.inr (congrArg collect h)

structure Tracker where
  /-- It is the tracker of the instance. -/
  ignoresStreams : Bool
  /-- The events that the client tracks. -/
  actions : List TrackingEvent
  codeSuggestionsContextMap : OrderedMap String Bool
  /-- `#suggestionStateManager` -/
  suggestionState : Recording

def canClientTrackEvent (actions : List TrackingEvent) (event : TrackingEvent) : Bool :=
  actions.contains event

namespace Tracker

def new (ignoresStreams : Bool) (actions : List TrackingEvent) : Tracker where
  ignoresStreams
  actions
  codeSuggestionsContextMap := OrderedMap.empty
  suggestionState := Recording.new

def isStreaming (t : Tracker) (id : String) : Bool :=
  (t.codeSuggestionsContextMap.get id).getD false

def trackEvent (event : TrackingEvent) (id : String) (t : Tracker) : Tracker :=
  if t.ignoresStreams && t.isStreaming id then t
  else { t with suggestionState := t.suggestionState.update id event (t.isStreaming id) }

def rejectOpenedSuggestions (t : Tracker) : Tracker :=
  t.suggestionState.manager.getOpenedSuggestions.foldl (fun t id => t.trackEvent .rejected id) t

def setContext (id : String) (isStreaming : Bool) (t : Tracker) : Tracker :=
  { t with codeSuggestionsContextMap := t.codeSuggestionsContextMap.set id isStreaming }

def setCodeSuggestionsContext (id : String) (isStreaming : Option Bool) (t : Tracker) : Tracker :=
  let t := if canClientTrackEvent t.actions .accepted && !canClientTrackEvent t.actions .rejected
    then t.rejectOpenedSuggestions else t
  let t := t.setContext id (isStreaming.getD false)
  if t.ignoresStreams && t.isStreaming id then t else t.trackEvent .requested id

def updateCodeSuggestionsContext (id : String) (isStreaming : Option Bool) (t : Tracker) :
    Tracker :=
  match isStreaming with
  | some isStreaming =>
    -- the other tracker does not update the flag
    if t.ignoresStreams && !t.isStreaming id then t.setContext id isStreaming else t
  | none => t

def setTrackingContext (id : String) (isStreaming : Option Bool) (t : Tracker) : Tracker :=
  if (t.codeSuggestionsContextMap.get id).isSome then t.updateCodeSuggestionsContext id isStreaming
  else t.setCodeSuggestionsContext id isStreaming

def collect (id : String) (t : Tracker) : Tracker :=
  if (t.codeSuggestionsContextMap.get id).isSome then
    { t with
      codeSuggestionsContextMap := t.codeSuggestionsContextMap.delete id
      suggestionState := t.suggestionState.delete id }
  else t

def call (t : Tracker) : TrackerCall → Tracker
  | .setTrackingContext id isStreaming => t.setTrackingContext id isStreaming
  | .trackEvent event id => t.trackEvent event id
  | .collect id => t.collect id

/-! ## What is tracked of a suggestion -/

/-- The events that were tracked of an id. -/
def tracked (t : Tracker) (id : String) : List TrackingEvent := t.suggestionState.recorded id

/-- The event would be recorded. -/
def Records (t : Tracker) (event : TrackingEvent) (id : String) : Prop :=
  (t.trackEvent event id).tracked id = t.tracked id ++ [event]

/-- `REQUESTED` and `LOADED` were tracked. An acceptance would be recorded, and a rejection too
(once the suggestion is shown), unless a rejection is what was recorded last. -/
structure Loaded (t : Tracker) (id : String) : Prop where
  requested : TrackingEvent.requested ∈ t.tracked id
  loaded : TrackingEvent.loaded ∈ t.tracked id
  accepted : t.Records .accepted id
  rejected : t.suggestionState.manager.codeSuggestionStates.get id = some .rejected ∨
    t.Records .rejected id ∨
    (t.Records .shown id ∧ (t.trackEvent .shown id).Records .rejected id)

/-- A tracker that does not know the id. -/
structure Unknown (t : Tracker) (id : String) : Prop where
  context : t.codeSuggestionsContextMap.get id = none
  state : t.suggestionState.manager.codeSuggestionStates.get id = none

/-! ## The stages of a suggestion that is not streamed -/

/-- What the tracker knows of an id, and some of the events that were recorded of it. -/
structure Has (t : Tracker) (id : String) (context : Option Bool) (state : Option TrackingEvent)
    (events : List TrackingEvent) : Prop where
  context : t.codeSuggestionsContextMap.get id = context
  state : t.suggestionState.manager.codeSuggestionStates.get id = state
  tracked : ∀ event ∈ events, event ∈ t.tracked id

end Tracker

inductive Stage where
  | unknown
  | requested
  | loaded
  | settled
  deriving DecidableEq, Repr

namespace Stage

def context : Stage → Option Bool
  | unknown => none
  | _ => some false

/-- The events that may have been recorded last. -/
def states : Stage → List (Option TrackingEvent)
  | unknown => [none]
  | requested => [some .requested]
  | loaded => [some .loaded]
  | settled => [some .shown, some .rejected]

/-- The events that were recorded, at least. -/
def events : Stage → List TrackingEvent
  | unknown => []
  | requested => [.requested]
  | loaded => [.requested, .loaded]
  | settled => [.requested, .loaded]

/-- The next stage, after a call for the suggestion. -/
def advance : Stage → TrackerCall → Stage
  | _, .collect _ => unknown
  | unknown, .setTrackingContext _ _ => requested
  | requested, .trackEvent .loaded _ => loaded
  | loaded, .trackEvent .shown _ => settled
  | stage, _ => stage

/-- The next stage of the id, after a call for any. -/
def follow (id : String) (stage : Stage) (c : TrackerCall) : Stage :=
  if c.id = id then stage.advance c else stage

end Stage

namespace Tracker

def At (t : Tracker) (id : String) (stage : Stage) : Prop :=
  ∃ state ∈ stage.states, t.Has id stage.context state stage.events

/-- The calls by which a suggestion gets on that is not streamed, and its timer. -/
def IsPlain : TrackerCall → Prop
  | .setTrackingContext _ isStreaming => isStreaming = none
  | .trackEvent event _ => event = .loaded ∨ event = .shown
  | .collect _ => True

/-! ## What a call does to the stage of an id -/

/-- Whether an event is recorded of a suggestion that is not streamed. -/
def canFollow (current : Option TrackingEvent) (newState : TrackingEvent) : Bool :=
  if newState = .requested then true
  else match current with
    | none => false
    | some currentState =>
      match nonStreamingSuggestionStateGraph.lookup currentState with
      | none => false
      | some allowedTransitions =>
        allowedTransitions.contains newState || newState == TrackingEvent.accepted

theorem canUpdateState_eq (m : CodeSuggestionTelemetryState) (id : String)
    (newState : TrackingEvent) :
    m.canUpdateState id newState = canFollow (m.codeSuggestionStates.get id) newState := by
  unfold CodeSuggestionTelemetryState.canUpdateState canFollow
  split
  · rfl
  · cases m.codeSuggestionStates.get id with
    | none => rfl
    | some current =>
      simp only [CodeSuggestionTelemetryState.stateGraph, Bool.false_eq_true, if_false]
      cases nonStreamingSuggestionStateGraph.lookup current with
      | none => rfl
      | some allowed => simp [bne]

variable {t : Tracker} {id : String} {context : Option Bool} {state : Option TrackingEvent}
  {events : List TrackingEvent}

theorem has_trackEvent_of_ne (h : t.Has id context state events) {id' : String} (hne : id' ≠ id)
    (event : TrackingEvent) : (t.trackEvent event id').Has id context state events := by
  unfold trackEvent
  split
  · exact h
  · constructor
    · exact h.context
    · rw [← h.state]
      show (t.suggestionState.manager.updateSuggestionState id' event _).codeSuggestionStates.get id
        = _
      unfold CodeSuggestionTelemetryState.updateSuggestionState
      split
      · exact OrderedMap.get_set_other _ _ hne.symm
      · rfl
    · have heq : (t.suggestionState.update id' event (t.isStreaming id')).recorded id =
          t.suggestionState.recorded id := by
        cases hcan : t.suggestionState.manager.canUpdateState id' event (t.isStreaming id') with
        | false => rw [Recording.update_of_not hcan]
        | true => simp [Recording.recorded, Recording.entries_update hcan, hne]
      intro e he
      show e ∈ (t.suggestionState.update id' event _).recorded id
      rw [heq]
      exact h.tracked e he

/-- What an event of the suggestion itself does. -/
theorem trackEvent_self (h : t.Has id context state events) (hcontext : context ≠ some true)
    (event : TrackingEvent) :
    (t.trackEvent event id).codeSuggestionsContextMap.get id = context ∧
      (t.trackEvent event id).suggestionState.manager.codeSuggestionStates.get id =
        (if canFollow state event then some event else state) ∧
      (t.trackEvent event id).tracked id =
        if canFollow state event then t.tracked id ++ [event] else t.tracked id := by
  have hstreaming : t.isStreaming id = false := by
    unfold isStreaming
    rw [h.context]
    match context with
    | none => rfl
    | some false => rfl
    | some true => exact absurd rfl hcontext
  have hcan := canUpdateState_eq t.suggestionState.manager id event
  rw [h.state] at hcan
  unfold trackEvent
  rw [hstreaming, Bool.and_false, if_neg Bool.false_ne_true]
  cases hfollow : canFollow state event with
  | false =>
    rw [hfollow] at hcan
    rw [Recording.update_of_not hcan]
    exact ⟨h.context, h.state, rfl⟩
  | true =>
    rw [hfollow] at hcan
    refine ⟨h.context, CodeSuggestionTelemetryState.get_updateSuggestionState hcan, ?_⟩
    simp [tracked, Recording.recorded, Recording.entries_update hcan]

/-- An event of the suggestion itself. -/
theorem at_trackEvent_self {stage stage' : Stage} {event : TrackingEvent} (h : t.At id stage)
    (hcontext : stage'.context = stage.context)
    (hstates : ∀ state ∈ stage.states,
      (if canFollow state event then some event else state) ∈ stage'.states)
    (hevents : ∀ state ∈ stage.states, ∀ e ∈ stage'.events,
      e ∈ stage.events ∨ (canFollow state event = true ∧ e = event)) :
    (t.trackEvent event id).At id stage' := by
  obtain ⟨state, hstate, hhas⟩ := h
  have hstreamed : stage.context ≠ some true := by cases stage <;> decide
  obtain ⟨hcontext', hstate', htracked⟩ := trackEvent_self hhas hstreamed event
  refine ⟨_, hstates state hstate, ?_, hstate', ?_⟩
  · rw [hcontext, hcontext']
  · intro e he
    rw [htracked]
    rcases hevents state hstate e he with hold | ⟨hfollow, rfl⟩
    · split
      · exact List.mem_append_left _ (hhas.tracked e hold)
      · exact hhas.tracked e hold
    · rw [if_pos hfollow]
      exact List.mem_append_right _ List.mem_cons_self

theorem at_trackEvent_of_ne {stage : Stage} (h : t.At id stage) {id' : String} (hne : id' ≠ id)
    (event : TrackingEvent) : (t.trackEvent event id').At id stage := by
  obtain ⟨state, hstate, hhas⟩ := h
  exact ⟨state, hstate, has_trackEvent_of_ne hhas hne event⟩

theorem at_rejectOpenedSuggestions {stage : Stage} (h : t.At id stage) :
    t.rejectOpenedSuggestions.At id stage := by
  unfold rejectOpenedSuggestions
  generalize t.suggestionState.manager.getOpenedSuggestions = opened
  induction opened generalizing t with
  | nil => exact h
  | cons id' opened ih =>
    apply ih
    by_cases hid : id' = id
    · rw [hid]
      apply at_trackEvent_self h rfl
      · cases stage <;> decide
      · cases stage <;> decide
    · exact at_trackEvent_of_ne h hid _

theorem at_setContext_of_ne {stage : Stage} (h : t.At id stage) {id' : String} (hne : id' ≠ id)
    (isStreaming : Bool) : (t.setContext id' isStreaming).At id stage := by
  obtain ⟨state, hstate, hhas⟩ := h
  refine ⟨state, hstate, ?_, hhas.state, hhas.tracked⟩
  rw [← hhas.context]
  exact OrderedMap.get_set_other _ _ hne.symm

/-- The suggestions that are still open are rejected, if the client does not do that. -/
theorem at_rejectOpenedSuggestions_of_client {stage : Stage} (h : t.At id stage) :
    (if canClientTrackEvent t.actions .accepted && !canClientTrackEvent t.actions .rejected
      then t.rejectOpenedSuggestions else t).At id stage := by
  split
  · exact at_rejectOpenedSuggestions h
  · exact h

theorem at_setTrackingContext_of_ne {stage : Stage} (h : t.At id stage) {id' : String}
    (hne : id' ≠ id) (isStreaming : Option Bool) :
    (t.setTrackingContext id' isStreaming).At id stage := by
  unfold setTrackingContext
  split
  · unfold updateCodeSuggestionsContext
    split
    · split
      · exact at_setContext_of_ne h hne _
      · exact h
    · exact h
  · unfold setCodeSuggestionsContext
    dsimp only
    have hset := at_setContext_of_ne (at_rejectOpenedSuggestions_of_client h) hne
      (isStreaming.getD false)
    generalize (if canClientTrackEvent t.actions .accepted &&
      !canClientTrackEvent t.actions .rejected then t.rejectOpenedSuggestions else t) = s at hset
    split
    · exact hset
    · exact at_trackEvent_of_ne hset hne _

theorem at_setTrackingContext_self {stage : Stage} (h : t.At id stage) :
    (t.setTrackingContext id none).At id (stage.advance (.setTrackingContext id none)) := by
  have hcontext : t.codeSuggestionsContextMap.get id = stage.context := by
    obtain ⟨_, -, hhas⟩ := h
    exact hhas.context
  unfold setTrackingContext
  rw [hcontext]
  cases stage with
  | unknown =>
    rw [if_neg (by decide)]
    unfold setCodeSuggestionsContext
    dsimp only
    obtain ⟨state, hstate, hhas⟩ := at_rejectOpenedSuggestions_of_client h
    generalize (if canClientTrackEvent t.actions .accepted &&
      !canClientTrackEvent t.actions .rejected then t.rejectOpenedSuggestions else t) = s at hhas
    have hset : (s.setContext id false).Has id (some false) state [] :=
      ⟨OrderedMap.get_set_self _ _ _, hhas.state, hhas.tracked⟩
    have hstreaming : (s.setContext id false).isStreaming id = false := by
      unfold isStreaming
      rw [hset.context]
      rfl
    rw [Option.getD_none, hstreaming, Bool.and_false, if_neg Bool.false_ne_true]
    obtain ⟨hcontext', hstate', htracked⟩ := trackEvent_self hset (by decide) .requested
    refine ⟨some .requested, List.mem_cons_self, hcontext', hstate', ?_⟩
    intro e he
    obtain rfl := List.mem_singleton.mp he
    rw [htracked]
    exact List.mem_append_right _ List.mem_cons_self
  | requested => exact h
  | loaded => exact h
  | settled => exact h

theorem at_collect_of_ne {stage : Stage} (h : t.At id stage) {id' : String} (hne : id' ≠ id) :
    (t.collect id').At id stage := by
  obtain ⟨state, hstate, hhas⟩ := h
  unfold collect
  split
  · refine ⟨state, hstate, ?_, ?_, ?_⟩
    · rw [OrderedMap.get_delete, if_neg hne.symm]
      exact hhas.context
    · rw [← hhas.state]
      show (t.suggestionState.manager.codeSuggestionStates.delete id').get id = _
      rw [OrderedMap.get_delete, if_neg hne.symm]
    · intro e he
      show e ∈ (t.suggestionState.delete id').recorded id
      simp only [Recording.recorded, Recording.entries_delete, if_neg hne]
      exact hhas.tracked e he
  · exact ⟨state, hstate, hhas⟩

/-- The timer of the suggestion itself. -/
theorem at_collect_self {stage : Stage} (h : t.At id stage) : (t.collect id).At id .unknown := by
  obtain ⟨state, hstate, hhas⟩ := h
  unfold collect
  split
  · refine ⟨none, List.mem_cons_self, ?_, ?_, List.forall_mem_nil _⟩
    · exact (OrderedMap.get_delete _ _ _).trans (if_pos rfl)
    · exact (OrderedMap.get_delete _ _ _).trans (if_pos rfl)
  · next hnone =>
    rw [hhas.context] at hnone
    cases stage with
    | unknown => exact ⟨state, hstate, hhas⟩
    | requested => exact absurd rfl hnone
    | loaded => exact absurd rfl hnone
    | settled => exact absurd rfl hnone

theorem at_call_of_ne {stage : Stage} (h : t.At id stage) {c : TrackerCall} (hne : c.id ≠ id) :
    (t.call c).At id stage := by
  cases c with
  | setTrackingContext id' isStreaming => exact at_setTrackingContext_of_ne h hne isStreaming
  | trackEvent event id' => exact at_trackEvent_of_ne h hne event
  | collect id' => exact at_collect_of_ne h hne

theorem at_call_self {stage : Stage} {c : TrackerCall} (h : t.At c.id stage) (hplain : IsPlain c) :
    (t.call c).At c.id (stage.advance c) := by
  cases c with
  | setTrackingContext id isStreaming =>
    obtain rfl : isStreaming = none := hplain
    exact at_setTrackingContext_self h
  | trackEvent event id =>
    rcases hplain with rfl | rfl
    · apply at_trackEvent_self h
      · cases stage <;> rfl
      · cases stage <;> simp only [Stage.advance] <;> decide
      · cases stage <;> simp only [Stage.advance] <;> decide
    · apply at_trackEvent_self h
      · cases stage <;> rfl
      · cases stage <;> simp only [Stage.advance] <;> decide
      · cases stage <;> simp only [Stage.advance] <;> decide
  | collect id =>
    have hunknown : stage.advance (.collect id) = .unknown := by cases stage <;> rfl
    rw [hunknown]
    exact at_collect_self h

/-- The stage of an id follows the calls for it, whatever the others are. -/
theorem at_calls {stage : Stage} (h : t.At id stage) (cs : List TrackerCall)
    (hplain : ∀ c ∈ cs, c.id = id → IsPlain c) :
    (cs.foldl call t).At id (cs.foldl (Stage.follow id) stage) := by
  induction cs generalizing t stage with
  | nil => exact h
  | cons c cs ih =>
    apply ih
    · unfold Stage.follow
      split
      · next hid =>
        subst hid
        exact at_call_self h (hplain c List.mem_cons_self rfl)
      · next hid => exact at_call_of_ne h hid
    · intro c' hc'
      exact hplain c' (List.mem_cons_of_mem c hc')

/-! ## The stages in which it is loaded -/

theorem records_iff {event : TrackingEvent} (h : t.Has id context state events)
    (hcontext : context ≠ some true) : t.Records event id ↔ canFollow state event = true := by
  unfold Records
  rw [(trackEvent_self h hcontext event).2.2]
  split
  · next hfollow => exact iff_of_true rfl hfollow
  · next hfollow => simp [hfollow]

theorem loaded_iff {stage : Stage} (h : t.At id stage) :
    t.Loaded id ↔ stage = .loaded ∨ stage = .settled := by
  obtain ⟨state, hstate, hhas⟩ := h
  have hcontext : stage.context ≠ some true := by cases stage <;> decide
  constructor
  · intro ⟨_, _, haccepted, hrejected⟩
    rw [records_iff hhas hcontext] at haccepted
    rw [records_iff hhas hcontext, records_iff hhas hcontext, hhas.state] at hrejected
    cases stage with
    | unknown =>
      obtain rfl := List.mem_singleton.mp hstate
      nomatch haccepted
    | requested =>
      obtain rfl := List.mem_singleton.mp hstate
      rcases hrejected with h | h | ⟨h, -⟩
      · nomatch h
      · nomatch h
      · nomatch h
    | loaded => exact Or.inl rfl
    | settled => exact Or.inr rfl
  · intro hstage
    have hall : ∀ stage : Stage, stage = .loaded ∨ stage = .settled →
        TrackingEvent.requested ∈ stage.events ∧ TrackingEvent.loaded ∈ stage.events ∧
          ∀ state ∈ stage.states, canFollow state .accepted = true := by
      intro stage
      cases stage <;> decide
    obtain ⟨hrequested, hloaded, hfollow⟩ := hall stage hstage
    refine ⟨hhas.tracked _ hrequested, hhas.tracked _ hloaded,
      (records_iff hhas hcontext).mpr (hfollow state hstate), ?_⟩
    rcases hstage with rfl | rfl
    · obtain rfl := List.mem_singleton.mp hstate
      obtain ⟨hcontext', hstate', -⟩ := trackEvent_self hhas hcontext .shown
      have hshown : (t.trackEvent .shown id).Has id (Stage.loaded.context) (some .shown) [] :=
        ⟨hcontext', hstate', List.forall_mem_nil _⟩
      exact Or.inr (Or.inr ⟨(records_iff hhas hcontext).mpr rfl,
        (records_iff hshown hcontext).mpr rfl⟩)
    · rcases List.mem_pair.mp hstate with rfl | rfl
      · exact Or.inr (Or.inl ((records_iff hhas hcontext).mpr rfl))
      · exact Or.inl hhas.state

theorem at_unknown {t : Tracker} {id : String} (h : t.Unknown id) : t.At id .unknown :=
  ⟨none, List.mem_cons_self, h.context, h.state, List.forall_mem_nil _⟩

end Tracker

/-! ## The calls after which it is loaded -/

namespace Stage

/-- What the calls have to hold for the suggestion to be loaded after them, if no timer fires. -/
def Loads (id : String) : Stage → List TrackerCall → Prop
  | unknown, cs => [.setTrackingContext id none, .trackEvent .loaded id].Sublist cs
  | requested, cs => .trackEvent .loaded id ∈ cs
  | _, _ => True

/-- Each time that the timer of the id fires, the suggestion is requested and loaded anew. -/
def Renewed (id : String) (cs : List TrackerCall) : Prop :=
  ∀ before after, cs = before ++ .collect id :: after → unknown.Loads id after

variable {id : String}

theorem renewed_of_not_mem {cs : List TrackerCall} (h : .collect id ∉ cs) : Renewed id cs := by
  intro before after heq
  rw [heq] at h
  exact absurd (List.mem_append_right _ List.mem_cons_self) h

theorem renewed_cons_iff {c : TrackerCall} {cs : List TrackerCall} :
    Renewed id (c :: cs) ↔ (c = .collect id → unknown.Loads id cs) ∧ Renewed id cs := by
  constructor
  · intro h
    constructor
    · intro hc
      exact h [] cs (by rw [hc]; rfl)
    · intro before after heq
      exact h (c :: before) after (by rw [heq]; rfl)
  · rintro ⟨hhead, htail⟩ before after heq
    cases before with
    | nil =>
      obtain ⟨rfl, rfl⟩ := List.cons.inj heq
      exact hhead rfl
    | cons d before =>
      obtain ⟨rfl, hrest⟩ := List.cons.inj heq
      exact htail before after hrest

theorem loads_cons_iff {c : TrackerCall} {cs : List TrackerCall}
    (hplain : c.id = id → Tracker.IsPlain c) (stage : Stage) :
    stage.Loads id (c :: cs) ∧ (c = .collect id → unknown.Loads id cs) ↔
      (follow id stage c).Loads id cs := by
  unfold follow
  split
  · next hid =>
    cases c with
    | setTrackingContext id' isStreaming =>
      obtain rfl : isStreaming = none := hplain hid
      obtain rfl : id' = id := hid
      cases stage <;> simp [advance, Loads]
    | trackEvent event id' =>
      obtain rfl : id' = id := hid
      rcases hplain rfl with rfl | rfl
      · cases stage <;> simp [advance, Loads, List.cons_sublist_cons']
      · cases stage <;> simp [advance, Loads, List.cons_sublist_cons']
    | collect id' =>
      obtain rfl : id' = id := hid
      cases stage with
      | unknown => simp [advance, Loads, List.cons_sublist_cons']
      | requested =>
        simp only [advance, Loads, List.mem_cons, reduceCtorEq, false_or, true_imp_iff]
        apply and_iff_right_of_imp
        intro h
        exact h.subset (List.mem_cons_of_mem _ List.mem_cons_self)
      | loaded => simp [advance, Loads]
      | settled => simp [advance, Loads]
  · next hid =>
    have hset : c ≠ .setTrackingContext id none := fun h => hid (h ▸ rfl)
    have hloaded : c ≠ .trackEvent .loaded id := fun h => hid (h ▸ rfl)
    have hcollect : c ≠ .collect id := fun h => hid (h ▸ rfl)
    cases stage <;> simp [Loads, List.cons_sublist_cons', hset.symm, hloaded.symm, hcollect]

/-- **The calls decide whether a suggestion is loaded.** -/
theorem loaded_foldl_iff {cs : List TrackerCall}
    (hplain : ∀ c ∈ cs, c.id = id → Tracker.IsPlain c) (stage : Stage) :
    (cs.foldl (follow id) stage = loaded ∨ cs.foldl (follow id) stage = settled) ↔
      stage.Loads id cs ∧ Renewed id cs := by
  induction cs generalizing stage with
  | nil =>
    have hrenewed : Renewed id [] := renewed_of_not_mem List.not_mem_nil
    cases stage <;> simp [Loads, hrenewed]
  | cons c cs ih =>
    rw [List.foldl_cons, ih fun c' hc' => hplain c' (List.mem_cons_of_mem c hc'),
      renewed_cons_iff, ← and_assoc, loads_cons_iff (hplain c List.mem_cons_self)]

theorem loads_filter_iff {cs : List TrackerCall} :
    unknown.Loads id (cs.filter (·.isFor id)) ↔ unknown.Loads id cs := by
  constructor
  · intro h
    exact h.trans List.filter_sublist
  · intro h
    have hfilter := h.filter (·.isFor id)
    rw [List.filter_eq_self.mpr (by simp [TrackerCall.isFor, TrackerCall.id])] at hfilter
    exact hfilter

end Stage

/-- Whether a suggestion is loaded depends on the calls of one party, if no other call is for it,
and on its timer. -/
theorem Tracker.loaded_calls_iff {t : Tracker} {id : String} {calls cs : List TrackerCall}
    (ht : t.Unknown id) (hcs : cs.filter (·.isFor id) = calls.filter (·.isFor id))
    (hplain : ∀ c ∈ calls, c.isFor id = true → IsPlain c) :
    (cs.foldl call t).Loaded id ↔ Stage.unknown.Loads id calls ∧ Stage.Renewed id cs := by
  have hplain' : ∀ c ∈ cs, c.id = id → IsPlain c := by
    intro c hc hid
    rcases TrackerCall.isFor_or_collect hid with hfor | rfl
    · have hmem : c ∈ cs.filter (·.isFor id) := List.mem_filter.mpr ⟨hc, hfor⟩
      rw [hcs] at hmem
      exact hplain c (List.mem_of_mem_filter hmem) hfor
    · trivial
  rw [loaded_iff (at_calls (at_unknown ht) cs hplain'), Stage.loaded_foldl_iff hplain',
    ← Stage.loads_filter_iff, hcs, Stage.loads_filter_iff]
end KhulnasoftLsp.Tracking
