import KhulnasoftLsp.Transition

/-!
# Checks that ask the API

On every reconfiguration of the API to a valid instance, an `ApiStateCheck` sends its query and sets
one flag from the answer. Queries for different configurations are on their way at the same time,
and their answers set the flag in the order in which they arrive.
-/

namespace KhulnasoftLsp.StateChecks

open Transition

/-- What becomes of a query. -/
inductive Answer (T : Type*) where
  | response (x : T)
  | invalidInstanceVersionError
  | error
  deriving DecidableEq, Repr

/-- An `ApiStateCheck` with the queries that it has sent, each with its answer once it has one, and
the state that the listeners of `change` found at each event. -/
structure ApiStateCheck (T : Type*) where
  isSuccessful : Bool
  queries : List (Option (Answer T))
  changes : List Bool
  deriving DecidableEq, Repr

inductive ApiStateCheckAction (T : Type*) where
  | onApiReconfigured (isInValidState : Bool)
  /-- The query `i` is answered. -/
  | answered (i : Nat) (answer : Answer T)
  deriving DecidableEq, Repr

namespace ApiStateCheck

variable {T : Type*}

def init : ApiStateCheck T := ⟨false, [], []⟩

def engaged (s : ApiStateCheck T) : Bool := !s.isSuccessful

/-- `this.#stateEmitter.emit('change', this)` -/
def emitChange (s : ApiStateCheck T) : ApiStateCheck T :=
  { s with changes := s.changes ++ [s.engaged] }

section Check

-- the callback may throw, and then returns `none`
variable (checkSuccessful : T → Option Bool)

/-- `#checkIfLicenseAvailable` from the answer on. -/
def receive (answer : Answer T) (s : ApiStateCheck T) : ApiStateCheck T :=
  match answer with
  | .response x =>
    match checkSuccessful x with
    | some successful => { s with isSuccessful := successful }.emitChange
    | none => { s with isSuccessful := false }.emitChange
  | .invalidInstanceVersionError => s
  | .error => { s with isSuccessful := false }.emitChange

def step (s : ApiStateCheck T) : ApiStateCheckAction T → Option (ApiStateCheck T)
  | .onApiReconfigured isInValidState =>
    some (if isInValidState then { s with queries := s.queries ++ [none] } else s)
  | .answered i answer =>
    match s.queries[i]? with
    | some none =>
      some (receive checkSuccessful answer { s with queries := s.queries.set i (some answer) })
    | _ => none

/-- Whether a query has been successful, or `none` if the answer does not tell. -/
def verdict : Answer T → Option Bool
  | .response x => some ((checkSuccessful x).getD false)
  | .invalidInstanceVersionError => none
  | .error => some false

def succeeded (answer : Answer T) : Bool := (verdict checkSuccessful answer).getD false

/-- The last answer to arrive that tells whether a query has been successful. -/
def lastVerdict : List (ApiStateCheckAction T) → Option Bool
  | [] => none
  | .onApiReconfigured _ :: actions => lastVerdict actions
  | .answered _ answer :: actions =>
    (lastVerdict actions).or (verdict checkSuccessful answer)

/-- All queries have been answered, the last of them with `answer`. -/
def Settled (s : ApiStateCheck T) (answer : Answer T) : Prop :=
  (∀ q ∈ s.queries, q ≠ none) ∧ s.queries.getLast? = some (some answer)

/-- The state is that of the most recent reconfiguration, and the listeners have been told. -/
def UpToDate (s : ApiStateCheck T) (answer : Answer T) : Prop :=
  (s.engaged = true ↔ succeeded checkSuccessful answer = false) ∧
    s.changes.getLast? = some s.engaged

variable {checkSuccessful}

theorem lastVerdict_append (as bs : List (ApiStateCheckAction T)) :
    lastVerdict checkSuccessful (as ++ bs) =
      (lastVerdict checkSuccessful bs).or (lastVerdict checkSuccessful as) := by
  induction as with
  | nil => simp [lastVerdict]
  | cons a as ih =>
    cases a with
    | onApiReconfigured isInValidState => exact ih
    | answered i answer => rw [List.cons_append, lastVerdict, ih, lastVerdict, Option.or_assoc]

/-- An answer that tells nothing changes nothing, and every other one sets the flag and is told. -/
theorem receive_eq (answer : Answer T) (s : ApiStateCheck T) :
    receive checkSuccessful answer s =
      match verdict checkSuccessful answer with
      | some successful =>
        { s with isSuccessful := successful, changes := s.changes ++ [!successful] }
      | none => s := by
  cases answer with
  | response x =>
    rw [receive, verdict]
    cases checkSuccessful x <;> rfl
  | invalidInstanceVersionError => rfl
  | error => rfl

/-- The flag and the last event are those of the last answer that tells something. -/
def Reflects (checkSuccessful : T → Option Bool) (actions : List (ApiStateCheckAction T))
    (s : ApiStateCheck T) : Prop :=
  s.isSuccessful = (lastVerdict checkSuccessful actions).getD false ∧
    s.changes.getLast? = (lastVerdict checkSuccessful actions).map (!·)

theorem reflects_step {actions : List (ApiStateCheckAction T)} {s t : ApiStateCheck T}
    {a : ApiStateCheckAction T} (hs : Reflects checkSuccessful actions s)
    (h : step checkSuccessful s a = some t) : Reflects checkSuccessful (actions ++ [a]) t := by
  rw [Reflects, lastVerdict_append]
  cases a with
  | onApiReconfigured isInValidState =>
    cases h
    rw [lastVerdict, lastVerdict, Option.none_or]
    split
    · exact hs
    · exact hs
  | answered i answer =>
    rw [step] at h
    split at h
    · obtain rfl := Option.some.inj h
      rw [receive_eq, lastVerdict, lastVerdict, Option.none_or]
      cases verdict checkSuccessful answer with
      | none => exact hs
      | some successful => exact ⟨rfl, by simp⟩
    · cases h

theorem reflects_of_run {actions : List (ApiStateCheckAction T)} {s : ApiStateCheck T}
    (h : run (step checkSuccessful) init actions = some s) :
    Reflects checkSuccessful actions s := by
  apply run_trace (I := Reflects checkSuccessful) _ _ h
  · exact ⟨rfl, rfl⟩
  · intro as s a t hs hstep
    exact reflects_step hs hstep

theorem upToDate_iff_lastVerdict {actions : List (ApiStateCheckAction T)} {s : ApiStateCheck T}
    (h : run (step checkSuccessful) init actions = some s) (answer : Answer T) :
    s.UpToDate checkSuccessful answer ↔
      lastVerdict checkSuccessful actions = some (succeeded checkSuccessful answer) := by
  obtain ⟨hflag, hchange⟩ := reflects_of_run h
  rw [UpToDate, engaged, hflag, hchange]
  generalize succeeded checkSuccessful answer = expected
  cases lastVerdict checkSuccessful actions with
  | none => simp
  | some successful => cases successful <;> cases expected <;> simp

end Check

/-- Once all queries are answered, a check is up to date exactly when the last answer to arrive that
tells anything says the same as the one for the most recent reconfiguration. -/
theorem upToDate_iff (checkSuccessful : T → Option Bool) (actions : List (ApiStateCheckAction T))
    (s : ApiStateCheck T) (h : run (step checkSuccessful) init actions = some s)
    (answer : Answer T) : s.Settled answer →
      (s.UpToDate checkSuccessful answer ↔
        lastVerdict checkSuccessful actions = some (succeeded checkSuccessful answer)) := by
  intro _
  exact upToDate_iff_lastVerdict h answer

/-- Two reconfigurations, and the answers in their order. -/
def inOrder : List (ApiStateCheckAction Bool) :=
  [.onApiReconfigured true, .onApiReconfigured true, .answered 0 .error,
    .answered 1 (.response true)]

theorem upToDate_iff_inOrder :
    ∃ s : ApiStateCheck Bool, run (step some) init inOrder = some s ∧
      s.UpToDate some (.response true) := by
  refine ⟨⟨true, [some .error, some (.response true)], [true, false]⟩, by decide, ?_⟩
  exact (upToDate_iff some inOrder _ (by decide) (.response true)
    ⟨by decide, by decide⟩).mpr (by decide)

/-- The answer for the older configuration arrives last. -/
def overtaken : List (ApiStateCheckAction Bool) :=
  [.onApiReconfigured true, .onApiReconfigured true, .answered 1 .error,
    .answered 0 (.response true)]

theorem not_upToDate_overtaken :
    ¬ ∀ (actions : List (ApiStateCheckAction Bool)) (s : ApiStateCheck Bool)
      (answer : Answer Bool), run (step some) init actions = some s → s.Settled answer →
        s.UpToDate some answer := by
  intro h
  have hstale := h overtaken ⟨true, [some (.response true), some .error], [true, false]⟩ .error
    (by decide) ⟨by decide, by decide⟩
  have hengaged := hstale.1.mpr (by decide)
  exact absurd hengaged (by decide)

end ApiStateCheck
end KhulnasoftLsp.StateChecks
