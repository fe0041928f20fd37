import KhulnasoftLsp.Tracking.SuggestionState
import Mathlib.Data.List.Infix

/-!
# The events that are recorded

A state manager records an event of a suggestion if the last one that it has of the suggestion lets
it, by the graph of the streamed suggestions or by the other one, as each call says. What it has
recorded is kept here in a log, together with the deletions.

The edges of both graphs go up a rank, which is highest at the end states. So whichever of the two
each call asks, no event is recorded again before the suggestion is requested anew, save `ACCEPTED`.
-/

namespace KhulnasoftLsp.Tracking

/-- A call of a state manager. -/
inductive StateCall where
  | updateSuggestionState (uniqueTrackingId : String) (newState : TrackingEvent)
    (isStreaming : Bool)
  | deleteSuggestion (uniqueTrackingId : String)
  deriving DecidableEq, Repr

/-- A state manager with what it has recorded. A deletion is logged as `none`. -/
structure Recording where
  manager : CodeSuggestionTelemetryState
  log : List (String × Option TrackingEvent)

namespace Recording

def new : Recording := ⟨CodeSuggestionTelemetryState.new, []⟩

def update (id : String) (newState : TrackingEvent) (isStreaming : Bool) (s : Recording) :
    Recording where
  manager := s.manager.updateSuggestionState id newState isStreaming
  log := if s.manager.canUpdateState id newState isStreaming then s.log ++ [(id, some newState)]
    else s.log

def delete (id : String) (s : Recording) : Recording where
  manager := s.manager.deleteSuggestion id
  log := s.log ++ [(id, none)]

def call (s : Recording) : StateCall → Recording
  | .updateSuggestionState id newState isStreaming => s.update id newState isStreaming
  | .deleteSuggestion id => s.delete id

/-- What the log says of an id. -/
def entries (s : Recording) (id : String) : List (Option TrackingEvent) :=
  (s.log.filter fun entry => entry.1 = id).map Prod.snd

/-- The events that were recorded of an id. -/
def recorded (s : Recording) (id : String) : List TrackingEvent :=
  (s.entries id).filterMap fun entry => entry

/-! ## What is claimed of the log -/

/-- From one `REQUESTED` to the next no other event is recorded twice, except `ACCEPTED`. After an
end state nothing but `ACCEPTED` is recorded until the next `REQUESTED`. And the suggestions that
are open are those of which an event was recorded last that is no end state. -/
structure Lawful (s : Recording) : Prop where
  once : ∀ id before segment after, s.recorded id = before ++ segment ++ after →
    TrackingEvent.requested ∉ segment → ∀ e ≠ TrackingEvent.accepted, segment.count e ≤ 1
  ended : ∀ id before e segment after, s.recorded id = before ++ e :: segment ++ after →
    e ∈ endStates → TrackingEvent.requested ∉ segment → ∀ e' ∈ segment, e' = .accepted
  mem_opened : ∀ id, id ∈ s.manager.getOpenedSuggestions ↔
    ∃ e, (s.entries id).getLast? = some (some e) ∧ e ∉ endStates
  nodup_opened : s.manager.getOpenedSuggestions.Nodup

end Recording

/-! ## The rank of an event -/

namespace TrackingEvent

def rank : TrackingEvent → Nat
  | requested => 0
  | loaded => 1
  | streamStarted => 1
  | shown => 2
  | streamCompleted => 3
  | notProvided => 4
  | errored => 4
  | accepted => 4
  | rejected => 4
  | cancelled => 4

/-- One event goes up to the other. -/
def Below (a b : TrackingEvent) : Prop := b = accepted ∨ a.rank < b.rank

theorem rank_le (a : TrackingEvent) : a.rank ≤ 4 := by
  cases a <;> decide

theorem rank_of_mem_endStates {a : TrackingEvent} (h : a ∈ endStates) : a.rank = 4 := by
  revert a
  decide

theorem Below.trans {a b c : TrackingEvent} (hab : a.Below b) (hbc : b.Below c) : a.Below c := by
  rcases hbc with rfl | hlt
  · exact Or.inl rfl
  · rcases hab with rfl | hlt'
    · have hle := rank_le c
      have htop : accepted.rank = 4 := rfl
      omega
    · exact Or.inr (hlt'.trans hlt)

instance : Trans Below Below Below := ⟨Below.trans⟩

/-- Nothing but `ACCEPTED` is above an end state. -/
theorem Below.eq_accepted {a b : TrackingEvent} (h : a.Below b) (ha : a ∈ endStates) :
    b = accepted := by
  rcases h with rfl | hlt
  · rfl
  · have hle := rank_le b
    have htop := rank_of_mem_endStates ha
    omega

/-- The edges of the graphs go up. -/
theorem rank_lt_of_allows {isStreaming : Bool} {a b : TrackingEvent}
    (h : Allows (CodeSuggestionTelemetryState.stateGraph isStreaming) a b) : a.rank < b.rank := by
  have hall : ∀ a, ∀ b ∈ ((CodeSuggestionTelemetryState.stateGraph isStreaming).lookup a).getD [],
      a.rank < b.rank := by
    intro a
    cases isStreaming <;> cases a <;> decide
  exact hall a b h

/-- What may be recorded after an event. -/
def Follows (a b : TrackingEvent) : Prop := b = requested ∨ a.Below b

end TrackingEvent

namespace CodeSuggestionTelemetryState

open TrackingEvent

/-- What can be recorded after the state that the manager has. -/
theorem canUpdateState_cases {m : CodeSuggestionTelemetryState} {id : String}
    {newState : TrackingEvent} {isStreaming : Bool}
    (h : m.canUpdateState id newState isStreaming = true) :
    newState = .requested ∨
      ∃ current, m.codeSuggestionStates.get id = some current ∧ current.Below newState := by
  by_cases hreq : newState = .requested
  · exact Or.inl hreq
  · right
    cases hget : m.codeSuggestionStates.get id with
    | none => simp [canUpdateState, hreq, hget] at h
    | some current =>
      refine ⟨current, rfl, ?_⟩
      by_cases hacc : newState = .accepted
      · exact Or.inl hacc
      · exact Or.inr (rank_lt_of_allows ((canUpdateState_iff hget hreq hacc).mp h))

theorem mem_getOpenedSuggestions {m : CodeSuggestionTelemetryState} {id : String} :
    id ∈ m.getOpenedSuggestions ↔
      ∃ e, m.codeSuggestionStates.get id = some e ∧ e ∉ endStates := by
  simp only [getOpenedSuggestions, List.mem_map, List.mem_filter, Prod.exists,
    exists_and_right, exists_eq_right, OrderedMap.get_eq_some_iff]
  simp

theorem nodup_getOpenedSuggestions (m : CodeSuggestionTelemetryState) :
    m.getOpenedSuggestions.Nodup :=
  m.codeSuggestionStates.nodup.sublist (List.filter_sublist.map _)

end CodeSuggestionTelemetryState

/-! ## What holds after every run -/

namespace Recording

open TrackingEvent

/-- The manager has the last entry of the log, and what was recorded goes up. -/
structure Valid (s : Recording) : Prop where
  get : ∀ id, s.manager.codeSuggestionStates.get id = (s.entries id).getLast?.join
  follows : ∀ id, (s.recorded id).IsChain Follows

theorem entries_update {s : Recording} {id : String} {newState : TrackingEvent}
    {isStreaming : Bool} (h : s.manager.canUpdateState id newState isStreaming = true)
    (id' : String) : (s.update id newState isStreaming).entries id' =
      if id = id' then s.entries id' ++ [some newState] else s.entries id' := by
  unfold entries update
  rw [if_pos h, List.filter_append]
  by_cases hid : id = id' <;> simp [hid]

theorem entries_delete (s : Recording) (id id' : String) : (s.delete id).entries id' =
    if id = id' then s.entries id' ++ [none] else s.entries id' := by
  unfold entries delete
  rw [List.filter_append]
  by_cases hid : id = id' <;> simp [hid]

theorem update_of_not {s : Recording} {id : String} {newState : TrackingEvent} {isStreaming : Bool}
    (h : s.manager.canUpdateState id newState isStreaming = false) :
    s.update id newState isStreaming = s := by
  simp [update, CodeSuggestionTelemetryState.updateSuggestionState, h]

theorem getLast?_recorded {s : Recording} {id : String} {e : TrackingEvent}
    (h : (s.entries id).getLast?.join = some e) : (s.recorded id).getLast? = some e := by
  obtain ⟨before, hbefore⟩ := List.getLast?_eq_some_iff.mp (Option.join_eq_some_iff.mp h)
  unfold recorded
  rw [hbefore, List.filterMap_append]
  simp

theorem valid_new : new.Valid where
  get := fun _ => rfl
  follows := fun _ => List.isChain_nil

theorem valid_update {s : Recording} (h : s.Valid) (id : String) (newState : TrackingEvent)
    (isStreaming : Bool) : (s.update id newState isStreaming).Valid := by
  cases hcan : s.manager.canUpdateState id newState isStreaming with
  | false =>
    rw [update_of_not hcan]
    exact h
  | true =>
    have hmanager : (s.update id newState isStreaming).manager.codeSuggestionStates =
        s.manager.codeSuggestionStates.set id newState := by
      simp [update, CodeSuggestionTelemetryState.updateSuggestionState, hcan]
    constructor
    · intro id'
      rw [hmanager, OrderedMap.get_set, entries_update hcan]
      by_cases hid : id' = id
      · simp [hid]
      · rw [if_neg hid, if_neg (Ne.symm hid)]
        exact h.get id'
    · intro id'
      unfold recorded
      rw [entries_update hcan]
      split
      · next hid =>
        subst hid
        rw [List.filterMap_append]
        apply (h.follows id).append (List.isChain_singleton newState)
        intro last hlast next hnext
        obtain rfl : newState = next := Option.some.inj hnext
        rcases CodeSuggestionTelemetryState.canUpdateState_cases hcan with
          hreq | ⟨current, hget, hup⟩
        · exact Or.inl hreq
        · rw [h.get] at hget
          obtain rfl : current = last :=
            Option.some.inj ((getLast?_recorded hget).symm.trans hlast)
          exact Or.inr hup
      · exact h.follows id'

theorem valid_delete {s : Recording} (h : s.Valid) (id : String) : (s.delete id).Valid := by
  constructor
  · intro id'
    have hget : (s.delete id).manager.codeSuggestionStates.get id' =
        if id' = id then none else s.manager.codeSuggestionStates.get id' :=
      OrderedMap.get_delete _ _ _
    rw [hget, entries_delete]
    by_cases hid : id' = id
    · simp [hid]
    · rw [if_neg hid, if_neg (Ne.symm hid)]
      exact h.get id'
  · intro id'
    unfold recorded
    rw [entries_delete]
    split
    · rw [List.filterMap_append]
      simpa [recorded] using h.follows id'
    · exact h.follows id'

theorem valid_calls (cs : List StateCall) : (cs.foldl call new).Valid := by
  induction cs using List.reverseRecOn with
  | nil => exact valid_new
  | append_singleton cs c ih =>
    rw [List.foldl_append]
    cases c with
    | updateSuggestionState id newState isStreaming => exact valid_update ih id newState isStreaming
    | deleteSuggestion id => exact valid_delete ih id

/-- Between two requests the events go up. -/
theorem pairwise_below {events before segment after : List TrackingEvent}
    (h : events.IsChain Follows) (hevents : events = before ++ segment ++ after)
    (hreq : TrackingEvent.requested ∉ segment) : segment.Pairwise Below := by
  have hsegment : segment.IsChain Follows := h.infix ⟨before, after, hevents.symm⟩
  apply List.isChain_iff_pairwise.mp
  apply hsegment.imp_of_mem_imp
  intro a b _ hb hfollows
  rcases hfollows with rfl | hbelow
  · exact absurd hb hreq
  · exact hbelow

theorem Valid.lawful {s : Recording} (h : s.Valid) : s.Lawful where
  once := by
    intro id before segment after hevents hreq e hacc
    have hpairwise := pairwise_below (h.follows id) hevents hreq
    by_contra htwice
    have hsublist : (List.replicate 2 e).Sublist segment :=
      List.replicate_sublist_iff.mpr (by omega)
    have hself : e.Below e := by simpa using hpairwise.sublist hsublist
    rcases hself with heq | hlt
    · exact hacc heq
    · exact absurd hlt (lt_irrefl _)
  ended := by
    intro id before e segment after hevents he hreq e' he'
    have hne : TrackingEvent.requested ∉ e :: segment := by
      rw [List.mem_cons, not_or]
      refine ⟨?_, hreq⟩
      rintro rfl
      revert he
      decide
    have hpairwise := pairwise_below (h.follows id) hevents hne
    exact (List.rel_of_pairwise_cons hpairwise he').eq_accepted he
  mem_opened := by
    intro id
    rw [CodeSuggestionTelemetryState.mem_getOpenedSuggestions, h.get]
    simp [Option.join_eq_some_iff]
  nodup_opened := CodeSuggestionTelemetryState.nodup_getOpenedSuggestions _

/-- **What a state manager records.** The calls may be about any ids, in any order, and each may ask
the one graph or the other. -/
theorem lawful_of_calls (cs : List StateCall) : (cs.foldl call new).Lawful :=
  (valid_calls cs).lawful

/-- A suggestion that is deleted is no longer open, although no end state was recorded for it. -/
theorem not_opened_of_deletion :
    let s := [.updateSuggestionState "a" .requested false, .deleteSuggestion "a"].foldl call new
    s.recorded "a" = [.requested] ∧ TrackingEvent.requested ∉ endStates ∧
      "a" ∉ s.manager.getOpenedSuggestions := by
  decide +kernel

end Recording
end KhulnasoftLsp.Tracking
