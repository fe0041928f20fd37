import Mathlib.Data.List.Chain
import KhulnasoftLsp.OrderedMap

/-!
# The telemetry states of a code suggestion

The two transition graphs of a suggestion (one for streamed suggestions, one for the others) and
`CodeSuggestionTelemetryState`, which remembers the last event of each tracking id and drops the
events that its graph does not allow.

`accepts_iff_isPath` connects the two: after `REQUESTED`, a state manager drops none of a list of
events exactly when the list is a path of the graph.
-/

namespace KhulnasoftLsp.Tracking

/-- `CODE_SUGGESTIONS_TRACKING_EVENTS` -/
inductive TrackingEvent where
  | requested
  | loaded
  | notProvided
  | shown
  | errored
  | accepted
  | rejected
  | cancelled
  | streamStarted
  | streamCompleted
  deriving DecidableEq, Repr

/-- The name under which an event is sent. -/
def TrackingEvent.name : TrackingEvent → String
  | requested => "suggestion_requested"
  | loaded => "suggestion_loaded"
  | notProvided => "suggestion_not_provided"
  | shown => "suggestion_shown"
  | errored => "suggestion_error"
  | accepted => "suggestion_accepted"
  | rejected => "suggestion_rejected"
  | cancelled => "suggestion_cancelled"
  | streamStarted => "suggestion_stream_started"
  | streamCompleted => "suggestion_stream_completed"

/-- A graph lists, for each of its states, the events it may go on with. -/
abbrev StateGraph := List (TrackingEvent × List TrackingEvent)

def endStateNoTransitionsAllowed : List TrackingEvent := []

def endStatesGraph : StateGraph :=
  [(.errored, endStateNoTransitionsAllowed),
   (.cancelled, endStateNoTransitionsAllowed),
   (.notProvided, endStateNoTransitionsAllowed),
   (.rejected, endStateNoTransitionsAllowed),
   (.accepted, endStateNoTransitionsAllowed)]

def nonStreamingSuggestionStateGraph : StateGraph :=
  [(.requested, [.loaded, .errored]),
   (.loaded, [.shown, .cancelled, .notProvided]),
   (.shown, [.accepted, .rejected])] ++ endStatesGraph

def streamingSuggestionStateGraph : StateGraph :=
  [(.requested, [.streamStarted, .errored, .cancelled]),
   (.streamStarted, [.shown, .errored, .streamCompleted]),
   (.shown, [.errored, .streamCompleted, .accepted, .rejected]),
   (.streamCompleted, [.accepted, .rejected, .notProvided])] ++ endStatesGraph

def endStates : List TrackingEvent := endStatesGraph.map Prod.fst

/-- The graph has an edge from `a` to `b`. -/
def Allows (g : StateGraph) (a b : TrackingEvent) : Prop :=
  b ∈ (g.lookup a).getD []

instance (g : StateGraph) (a b : TrackingEvent) : Decidable (Allows g a b) :=
  inferInstanceAs (Decidable (_ ∈ _))

/-- A list of events follows the edges of the graph. -/
def IsPath (g : StateGraph) (events : List TrackingEvent) : Prop :=
  events.IsChain (Allows g)

instance (g : StateGraph) (events : List TrackingEvent) : Decidable (IsPath g events) :=
  inferInstanceAs (Decidable (List.IsChain _ _))

/-- Extending a path that ends in `a`. -/
theorem isPath_append {g : StateGraph} {events more : List TrackingEvent} {a : TrackingEvent}
    (ha : events.getLast? = some a) :
    IsPath g (events ++ more) ↔ IsPath g events ∧ IsPath g (a :: more) := by
  unfold IsPath
  rw [List.isChain_append]
  cases more with
  | nil => simp
  | cons b bs => simp [ha, List.isChain_cons_cons, and_comm]

theorem IsPath.of_append {g : StateGraph} {events more : List TrackingEvent}
    (h : IsPath g (events ++ more)) : IsPath g events :=
  (List.isChain_append.mp h).1

/-! ## The state manager -/

/-- The last recorded event of each tracking id. -/
structure CodeSuggestionTelemetryState where
  codeSuggestionStates : OrderedMap String TrackingEvent

namespace CodeSuggestionTelemetryState

def new : CodeSuggestionTelemetryState := ⟨OrderedMap.empty⟩

def stateGraph (isStreaming : Bool) : StateGraph :=
  if isStreaming then streamingSuggestionStateGraph else nonStreamingSuggestionStateGraph

def canUpdateState (m : CodeSuggestionTelemetryState) (uniqueTrackingId : String)
    (newState : TrackingEvent) (isStreaming : Bool := false) : Bool :=
  if newState = .requested then true
  else
    match m.codeSuggestionStates.get uniqueTrackingId with
    | none => false
    | some currentState =>
      match (stateGraph isStreaming).lookup currentState with
      | none => false
      | some allowedTransitions =>
        -- `ACCEPTED` is let through from every state of the graph
        !(!allowedTransitions.contains newState && newState != .accepted)

def updateSuggestionState (m : CodeSuggestionTelemetryState) (uniqueTrackingId : String)
    (newState : TrackingEvent) (isStreaming : Bool := false) : CodeSuggestionTelemetryState :=
  if m.canUpdateState uniqueTrackingId newState isStreaming then
    ⟨m.codeSuggestionStates.set uniqueTrackingId newState⟩
  else m

def getOpenedSuggestions (m : CodeSuggestionTelemetryState) : List String :=
  (m.codeSuggestionStates.entries.filter fun e => !endStates.contains e.2).map Prod.fst

def deleteSuggestion (m : CodeSuggestionTelemetryState) (uniqueTrackingId : String) :
    CodeSuggestionTelemetryState :=
  ⟨m.codeSuggestionStates.delete uniqueTrackingId⟩

/-- None of the events, recorded one after the other for the id, is dropped. -/
def Accepts (isStreaming : Bool) (uniqueTrackingId : String) :
    CodeSuggestionTelemetryState → List TrackingEvent → Prop
  | _, [] => True
  | m, e :: es => m.canUpdateState uniqueTrackingId e isStreaming = true ∧
      Accepts isStreaming uniqueTrackingId
        (m.updateSuggestionState uniqueTrackingId e isStreaming) es

/-- For the events a server tracks on its own, `canUpdateState` is an edge of the graph. -/
theorem canUpdateState_iff {m : CodeSuggestionTelemetryState} {id : String} {isStreaming : Bool}
    {current newState : TrackingEvent} (hget : m.codeSuggestionStates.get id = some current)
    (hreq : newState ≠ .requested) (hacc : newState ≠ .accepted) :
    m.canUpdateState id newState isStreaming = true ↔
      Allows (stateGraph isStreaming) current newState := by
  unfold canUpdateState Allows
  rw [if_neg hreq, hget]
  dsimp only
  cases (stateGraph isStreaming).lookup current with
  | none => simp
  | some allowed => simp [hacc]

theorem get_updateSuggestionState {m : CodeSuggestionTelemetryState} {id : String}
    {isStreaming : Bool} {newState : TrackingEvent}
    (h : m.canUpdateState id newState isStreaming = true) :
    (m.updateSuggestionState id newState isStreaming).codeSuggestionStates.get id =
      some newState := by
  unfold updateSuggestionState
  rw [if_pos h]
  exact OrderedMap.get_set_self _ _ _

/-- From a known state on, nothing is dropped exactly when the events follow the graph. -/
theorem accepts_of_get {isStreaming : Bool} {id : String} {events : List TrackingEvent}
    (hevents : ∀ e ∈ events, e ≠ .requested ∧ e ≠ .accepted) :
    ∀ {m : CodeSuggestionTelemetryState} {current : TrackingEvent},
      m.codeSuggestionStates.get id = some current →
      (Accepts isStreaming id m events ↔ IsPath (stateGraph isStreaming) (current :: events)) := by
  induction events with
  | nil =>
      intro m current _
      simp [Accepts, IsPath]
  | cons e es ih =>
      intro m current hget
      obtain ⟨hreq, hacc⟩ := hevents e List.mem_cons_self
      have hcan : m.canUpdateState id e isStreaming = true ↔
          Allows (stateGraph isStreaming) current e := canUpdateState_iff hget hreq hacc
      have hes := fun x hx => hevents x (List.mem_cons_of_mem e hx)
      rw [Accepts, IsPath, List.isChain_cons_cons]
      constructor
      · rintro ⟨hok, hrest⟩
        exact ⟨hcan.mp hok, (ih hes (get_updateSuggestionState hok)).mp hrest⟩
      · rintro ⟨hedge, hrest⟩
        have hok := hcan.mpr hedge
        exact ⟨hok, (ih hes (get_updateSuggestionState hok)).mpr hrest⟩

/-- **Nothing is dropped exactly on the paths of the graph.** Whatever the manager held before,
once `REQUESTED` is recorded it keeps all of the events that follow, in their order, exactly when
they are a path that starts with `REQUESTED`. -/
theorem accepts_iff_isPath (m : CodeSuggestionTelemetryState) {isStreaming : Bool} {id : String}
    {events : List TrackingEvent} (hevents : ∀ e ∈ events, e ≠ .requested ∧ e ≠ .accepted) :
    Accepts isStreaming id m (.requested :: events) ↔
      IsPath (stateGraph isStreaming) (.requested :: events) := by
  have hreq : m.canUpdateState id .requested isStreaming = true := by simp [canUpdateState]
  rw [Accepts, accepts_of_get hevents (get_updateSuggestionState hreq)]
  simp [hreq]

end CodeSuggestionTelemetryState
end KhulnasoftLsp.Tracking
