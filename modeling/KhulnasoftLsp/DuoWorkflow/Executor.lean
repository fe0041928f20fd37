import KhulnasoftLsp.Transition
import Mathlib.Logic.Function.Basic

/-!
# The executor container of a workflow

`startWorkflow` creates a container for its workflow, subscribes to the updates and then watches the
container, to report a workflow that fails as dropped. The runner keeps one container in a field:
each call overwrites it, also with nothing, and a watch reads it whenever it starts and starts
again. `always_reported_iff` says exactly when the workflows are reported right all the same.
-/

namespace KhulnasoftLsp.DuoWorkflow

open Transition

inductive CallPhase where
  /-- `startWorkflow` has not been called. -/
  | idle
  /-- The call waits for its container. -/
  | creating
  /-- It copies the executor, starts the container and subscribes to the updates. -/
  | starting
  | watching (container : Nat)
  | over
  deriving DecidableEq, Repr

/-- A call of `startWorkflow`. -/
structure StartCall where
  phase : CallPhase
  workflowId : String
  /-- A container has been created for the call. -/
  created : Bool
  deriving DecidableEq, Repr

/-- A call of `updateStatus` with the event `DROP`. -/
structure StatusUpdate where
  call : Nat
  workflowId : String
  /-- The container of the workflow has exited with another code than zero, or a watch of it has
  failed. -/
  justified : Bool
  deriving DecidableEq, Repr

/-- The calls have numbers, and a container is known by the call that created it. -/
structure WorkflowRunner where
  dockerClient : Bool
  /-- `#container?.Id` -/
  container : Option Nat
  calls : Nat → StartCall
  /-- The code with which a container has exited. -/
  exitCode : Nat → Option Nat
  /-- A watch of the container has failed. -/
  watchFailed : Nat → Bool
  updates : List StatusUpdate

inductive WorkflowAction where
  | reconfigure (dockerSocket : Bool)
  | startWorkflow (call : Nat) (workflowId : String)
  /-- Docker answers that it has created the container. -/
  | containerCreated (call : Nat) (hasId : Bool)
  /-- Any of the requests before the watch fails. -/
  | failed (call : Nat)
  | subscribed (call : Nat)
  | exited (container : Nat) (statusCode : Nat)
  /-- The three ways in which a request to watch a container ends. -/
  | timedOut (call : Nat)
  | watchError (call : Nat)
  | answered (call : Nat)
  deriving DecidableEq, Repr

namespace WorkflowRunner

def new : WorkflowRunner where
  dockerClient := false
  container := none
  calls := fun _ => ⟨.idle, "", false⟩
  exitCode := fun _ => none
  watchFailed := fun _ => false
  updates := []

def phase (s : WorkflowRunner) (call : Nat) : CallPhase := (s.calls call).phase

def moveTo (call : Nat) (phase : CallPhase) (s : WorkflowRunner) : WorkflowRunner :=
  { s with calls := Function.update s.calls call { s.calls call with phase } }

/-- The phase of a call that has just called it. Without a client or a container, it throws. -/
def watchWorkflowExecutor (s : WorkflowRunner) : CallPhase :=
  if !s.dockerClient then .over
  else
    match s.container with
    | none => .over
    | some container => .watching container

def exitedNonZero (s : WorkflowRunner) (container : Nat) : Bool :=
  (s.exitCode container).any (0 < ·)

def justifies (s : WorkflowRunner) (call : Nat) : Bool :=
  s.exitedNonZero call || s.watchFailed call

/-- The watch has returned a status code. -/
def onStatusCode (call : Nat) (statusCode : Nat) (s : WorkflowRunner) : WorkflowRunner :=
  let s := s.moveTo call .over
  if 0 < statusCode then
    { s with
      updates := s.updates ++ [⟨call, (s.calls call).workflowId, s.justifies call⟩] }
  else s

def step (s : WorkflowRunner) : WorkflowAction → Option WorkflowRunner
  | .reconfigure dockerSocket => some { s with dockerClient := dockerSocket }
  | .startWorkflow call workflowId =>
    if s.phase call = .idle then
      let phase := if s.dockerClient then CallPhase.creating else .over
      some { s with calls := Function.update s.calls call ⟨phase, workflowId, false⟩ }
    else none
  | .containerCreated call hasId =>
    if s.phase call = .creating then
      some { s with
        container := if hasId then some call else none
        calls := Function.update s.calls call { s.calls call with
          phase := if hasId then .starting else .over
          created := hasId } }
    else none
  | .failed call =>
    if s.phase call = .creating ∨ s.phase call = .starting then some (s.moveTo call .over)
    else none
  | .subscribed call =>
    if s.phase call = .starting then some (s.moveTo call s.watchWorkflowExecutor) else none
  | .exited container statusCode =>
    if (s.calls container).created ∧ s.exitCode container = none then
      some { s with exitCode := Function.update s.exitCode container (some statusCode) }
    else none
  | .timedOut call =>
    match s.phase call with
    | .watching _ => some (s.moveTo call s.watchWorkflowExecutor)
    | _ => none
  | .watchError call =>
    match s.phase call with
    | .watching container =>
      some (({ s with
        watchFailed := Function.update s.watchFailed container true } : WorkflowRunner).onStatusCode
          call 1)
    | _ => none
  | .answered call =>
    match s.phase call with
    | .watching container => (s.exitCode container).map fun code => s.onStatusCode call code
    | _ => none

/-! ## What is claimed of the workflows -/

def Dropped (s : WorkflowRunner) (call : Nat) : Prop := ∃ update ∈ s.updates, update.call = call

/-- A call in this phase will go on by itself: no container has to exit first. -/
def GoesOn (s : WorkflowRunner) : CallPhase → Prop
  | .creating => True
  | .starting => True
  | .watching container => (s.exitCode container).isSome
  | .idle => False
  | .over => False

/-- A workflow was dropped only if its container has exited with another code than zero or a watch
of it has failed, and all workflows whose containers have exited so were dropped, unless their calls
still have to go on. -/
structure Reported (s : WorkflowRunner) : Prop where
  justified : ∀ update ∈ s.updates, update.justified = true
  dropped : ∀ call, s.exitedNonZero call = true → s.Dropped call ∨ s.GoesOn (s.phase call)

/-! ## When they are reported right -/

/-- The action does not mistake the container of one workflow for that of another, and no workflow
fails unseen. -/
def KeepsApart (s : WorkflowRunner) : WorkflowAction → Prop
  | .failed call => s.exitedNonZero call = false
  | .subscribed call => s.exitedNonZero call = true → s.GoesOn s.watchWorkflowExecutor
  | .timedOut call => s.exitedNonZero call = true → s.GoesOn s.watchWorkflowExecutor
  | .watchError call => s.phase call = .watching call ∨ s.justifies call = true
  | .answered call =>
    ∀ container code, s.phase call = .watching container → s.exitCode container = some code →
      if 0 < code then s.justifies call = true else s.exitedNonZero call = false
  | .exited container statusCode =>
    0 < statusCode → s.Dropped container ∨ s.phase container = .watching container ∨
      s.GoesOn (s.phase container)
  | _ => True

/-! ## What the steps change -/

variable {s t : WorkflowRunner} {a : WorkflowAction}

/-- A workflow is dropped when its call is over, and containers exit that have been created. -/
structure Lawful (s : WorkflowRunner) : Prop where
  dropped : ∀ call, s.Dropped call → s.phase call = .over
  exited : ∀ call, (s.exitCode call).isSome → (s.calls call).created = true
  created : ∀ call, (s.calls call).created = true →
    s.phase call ≠ .idle ∧ s.phase call ≠ .creating

theorem lawful_new : new.Lawful where
  dropped := by
    intro call hdropped
    obtain ⟨update, hupdate, -⟩ := hdropped
    cases hupdate
  exited := fun _ hexited => by cases hexited
  created := fun _ hcreated => by cases hcreated

theorem reported_new : new.Reported where
  justified := fun _ hupdate => by cases hupdate
  dropped := fun _ hexited => by cases hexited

/-- The step moves a call to another phase, and does nothing else that counts. -/
structure Moves (s t : WorkflowRunner) (call : Nat) (p : CallPhase) : Prop where
  others : ∀ i, i ≠ call → t.calls i = s.calls i
  phase_self : t.phase call = p
  exitCode : t.exitCode = s.exitCode
  updates : t.updates = s.updates

theorem moves_update (call : Nat) (container : Option Nat) (changed : StartCall) :
    Moves s { s with container, calls := Function.update s.calls call changed } call
      changed.phase where
  others := fun _ hne => Function.update_of_ne hne _ _
  phase_self := by
    show (Function.update s.calls call changed call).phase = changed.phase
    rw [Function.update_self]
  exitCode := rfl
  updates := rfl

theorem moves_moveTo (call : Nat) (p : CallPhase) : Moves s (s.moveTo call p) call p :=
  moves_update call s.container { s.calls call with phase := p }

theorem created_moveTo (call : Nat) (p : CallPhase) :
    ((s.moveTo call p).calls call).created = (s.calls call).created := by
  show (Function.update s.calls call _ call).created = _
  rw [Function.update_self]

theorem Moves.phase_of_ne {call i : Nat} {p : CallPhase} (h : Moves s t call p) (hne : i ≠ call) :
    t.phase i = s.phase i := by
  rw [phase, phase, h.others i hne]

theorem exitedNonZero_congr (h : t.exitCode = s.exitCode) (container : Nat) :
    t.exitedNonZero container = s.exitedNonZero container := by
  rw [exitedNonZero, exitedNonZero, h]

theorem goesOn_congr (h : t.exitCode = s.exitCode) (p : CallPhase) : t.GoesOn p ↔ s.GoesOn p := by
  cases p <;> simp [GoesOn, h]

theorem Lawful.not_dropped (h : s.Lawful) {call : Nat} (hphase : s.phase call ≠ .over) :
    ¬ s.Dropped call := fun hdropped => hphase (h.dropped call hdropped)

theorem Lawful.reported_iff_of_moves (h : s.Lawful) (hs : s.Reported) {call : Nat} {p : CallPhase}
    (hmoves : Moves s t call p) (hphase : s.phase call ≠ .over) :
    t.Reported ↔ (s.exitedNonZero call = true → s.GoesOn p) := by
  have hdropped : ∀ i, t.Dropped i ↔ s.Dropped i := by
    intro i
    rw [Dropped, Dropped, hmoves.updates]
  constructor
  · intro ht hcall
    rcases ht.dropped call ((exitedNonZero_congr hmoves.exitCode call).trans hcall) with
      hdrop | hgoes
    · exact absurd ((hdropped call).mp hdrop) (h.not_dropped hphase)
    · rw [hmoves.phase_self, goesOn_congr hmoves.exitCode] at hgoes
      exact hgoes
  · intro hmoved
    constructor
    · rw [hmoves.updates]
      exact hs.justified
    · intro i hi
      rw [exitedNonZero_congr hmoves.exitCode] at hi
      rw [hdropped, goesOn_congr hmoves.exitCode]
      by_cases heq : i = call
      · subst heq
        rw [hmoves.phase_self]
        exact Or.inr (hmoved hi)
      · rw [hmoves.phase_of_ne heq]
        exact hs.dropped i hi

theorem over_ne : CallPhase.over ≠ .idle ∧ CallPhase.over ≠ .creating := by
  constructor
  · intro h
    cases h
  · intro h
    cases h

theorem Lawful.of_moves (h : s.Lawful) {call : Nat} {p : CallPhase} (hmoves : Moves s t call p)
    (hphase : s.phase call ≠ .over)
    (hkept : (s.calls call).created = true → (t.calls call).created = true)
    (hp : (t.calls call).created = true → p ≠ .idle ∧ p ≠ .creating) : t.Lawful where
  dropped := by
    intro i hdropped
    rw [Dropped, hmoves.updates] at hdropped
    have hne : i ≠ call := by
      intro heq
      rw [heq] at hdropped
      exact h.not_dropped hphase hdropped
    rw [hmoves.phase_of_ne hne]
    exact h.dropped i hdropped
  exited := by
    intro i hexited
    rw [hmoves.exitCode] at hexited
    by_cases heq : i = call
    · subst heq
      exact hkept (h.exited i hexited)
    · rw [hmoves.others i heq]
      exact h.exited i hexited
  created := by
    intro i hi
    by_cases heq : i = call
    · subst heq
      rw [hmoves.phase_self]
      exact hp hi
    · rw [hmoves.phase_of_ne heq]
      rw [hmoves.others i heq] at hi
      exact h.created i hi

/-- The step ends a call, and drops its workflow. -/
structure Drops (s t : WorkflowRunner) (call : Nat) (update : StatusUpdate) : Prop where
  moves : Moves s { t with updates := s.updates } call .over
  updates : t.updates = s.updates ++ [update]
  call_eq : update.call = call

theorem Drops.reported_iff {call : Nat} {update : StatusUpdate} (h : Drops s t call update)
    (hs : s.Reported) : t.Reported ↔ update.justified = true := by
  have hnew : update ∈ t.updates := by
    rw [h.updates]
    exact List.mem_append_right _ (List.mem_singleton_self _)
  have hexitCode : t.exitCode = s.exitCode := h.moves.exitCode
  constructor
  · intro ht
    exact ht.justified update hnew
  · intro hjustified
    constructor
    · intro update' hupdate
      rw [h.updates] at hupdate
      rcases List.mem_append.mp hupdate with hold | hlast
      · exact hs.justified update' hold
      · rw [List.mem_singleton.mp hlast]
        exact hjustified
    · intro i hi
      rw [exitedNonZero_congr hexitCode] at hi
      by_cases heq : i = call
      · exact Or.inl ⟨update, hnew, h.call_eq.trans heq.symm⟩
      · have hphase : t.phase i = s.phase i := h.moves.phase_of_ne heq
        rw [goesOn_congr hexitCode, hphase]
        apply (hs.dropped i hi).imp_left
        intro hdropped
        obtain ⟨update', hupdate, hcall⟩ := hdropped
        refine ⟨update', ?_, hcall⟩
        rw [h.updates]
        exact List.mem_append_left _ hupdate

theorem Lawful.of_drops (h : s.Lawful) {call : Nat} {update : StatusUpdate}
    (hdrops : Drops s t call update) (hphase : s.phase call ≠ .over)
    (hkept : (t.calls call).created = (s.calls call).created) : t.Lawful := by
  have hmoved : Lawful { t with updates := s.updates } := by
    apply h.of_moves hdrops.moves hphase
    · intro hcreated
      exact hkept.trans hcreated
    · intro _
      exact over_ne
  constructor
  · intro i hdropped
    obtain ⟨update', hupdate, hcall⟩ := hdropped
    rw [hdrops.updates] at hupdate
    rcases List.mem_append.mp hupdate with hold | hlast
    · exact hmoved.dropped i ⟨update', hold, hcall⟩
    · rw [List.mem_singleton.mp hlast, hdrops.call_eq] at hcall
      rw [← hcall]
      exact hdrops.moves.phase_self
  · exact hmoved.exited
  · exact hmoved.created

theorem onStatusCode_of_zero (call : Nat) : s.onStatusCode call 0 = s.moveTo call .over := rfl

theorem drops_onStatusCode {call statusCode : Nat} (h : 0 < statusCode) :
    Drops s (s.onStatusCode call statusCode) call
      ⟨call, (s.calls call).workflowId, s.justifies call⟩ := by
  have hworkflowId : ((s.moveTo call .over).calls call).workflowId =
      (s.calls call).workflowId := by
    show (Function.update s.calls call _ call).workflowId = _
    rw [Function.update_self]
  rw [onStatusCode, if_pos h]
  refine ⟨moves_moveTo call .over, ?_, rfl⟩
  rw [hworkflowId]
  rfl

theorem lawful_onStatusCode (h : s.Lawful) {call : Nat} (hphase : s.phase call ≠ .over)
    (statusCode : Nat) : (s.onStatusCode call statusCode).Lawful := by
  cases statusCode with
  | zero =>
    apply h.of_moves (moves_moveTo call .over) hphase
    · intro hcreated
      rw [created_moveTo]
      exact hcreated
    · intro _
      exact over_ne
  | succ statusCode =>
    apply h.of_drops (drops_onStatusCode (Nat.succ_pos statusCode)) hphase
    exact created_moveTo call .over

theorem reported_onStatusCode_iff (h : s.Lawful) (hs : s.Reported) {call : Nat}
    (hphase : s.phase call ≠ .over) (statusCode : Nat) :
    (s.onStatusCode call statusCode).Reported ↔
      if 0 < statusCode then s.justifies call = true else s.exitedNonZero call = false := by
  cases statusCode with
  | zero =>
    rw [onStatusCode_of_zero, h.reported_iff_of_moves hs (moves_moveTo call .over) hphase]
    simp [GoesOn]
  | succ statusCode =>
    rw [(drops_onStatusCode (Nat.succ_pos statusCode)).reported_iff hs, if_pos (Nat.succ_pos _)]

/-- The phases of a watch. -/
theorem watchWorkflowExecutor_ne (s : WorkflowRunner) :
    s.watchWorkflowExecutor ≠ .idle ∧ s.watchWorkflowExecutor ≠ .creating := by
  rw [watchWorkflowExecutor]
  split
  · simp
  · split
    · simp
    · simp

/-- What becomes of the two properties when a call that is not over moves on. -/
theorem Lawful.moveTo_spec (h : s.Lawful) {call : Nat} {p : CallPhase}
    (hphase : s.phase call ≠ .over) (hp : p ≠ .idle ∧ p ≠ .creating) : (s.moveTo call p).Lawful ∧
      (s.Reported → ((s.moveTo call p).Reported ↔ (s.exitedNonZero call = true → s.GoesOn p))) := by
  constructor
  · apply h.of_moves (moves_moveTo call p) hphase
    · intro hcreated
      rw [created_moveTo]
      exact hcreated
    · exact fun _ => hp
  · intro hs
    exact h.reported_iff_of_moves hs (moves_moveTo call p) hphase

/-- The runner learns that a watch of a container has failed. -/
theorem lawful_watchFailed (h : s.Lawful) (watchFailed : Nat → Bool) :
    Lawful { s with watchFailed } := ⟨h.dropped, h.exited, h.created⟩

theorem reported_watchFailed (hs : s.Reported) (watchFailed : Nat → Bool) :
    Reported { s with watchFailed } := ⟨hs.justified, fun call hcall => hs.dropped call hcall⟩

theorem Lawful.not_exited (h : s.Lawful) {call : Nat}
    (hphase : s.phase call = .idle ∨ s.phase call = .creating) : s.exitedNonZero call = false := by
  rw [exitedNonZero]
  cases hcode : s.exitCode call with
  | none => rfl
  | some code =>
    have hcreated := h.created call (h.exited call (by simp [hcode]))
    grind

theorem lawful_exited (h : s.Lawful) {container : Nat}
    (hcreated : (s.calls container).created = true) (statusCode : Nat) :
    ({ s with exitCode := Function.update s.exitCode container (some statusCode) } :
      WorkflowRunner).Lawful := by
  refine ⟨h.dropped, ?_, h.created⟩
  intro i hi
  by_cases heq : i = container
  · rw [heq]
    exact hcreated
  · have hbefore : (Function.update s.exitCode container (some statusCode) i) = s.exitCode i :=
      Function.update_of_ne heq _ _
    apply h.exited i
    rw [← hbefore]
    exact hi

theorem reported_exited_iff (hs : s.Reported) {container statusCode : Nat}
    (hnone : s.exitCode container = none) :
    ({ s with exitCode := Function.update s.exitCode container (some statusCode) } :
      WorkflowRunner).Reported ↔ s.KeepsApart (.exited container statusCode) := by
  have hself : ({ s with exitCode := Function.update s.exitCode container (some statusCode) } :
      WorkflowRunner).exitedNonZero container = decide (0 < statusCode) := by
    show (Function.update s.exitCode container _ container).any _ = _
    rw [Function.update_self]
    rfl
  have hother : ∀ i, i ≠ container →
      ({ s with exitCode := Function.update s.exitCode container (some statusCode) } :
        WorkflowRunner).exitedNonZero i = s.exitedNonZero i := by
    intro i hne
    show (Function.update s.exitCode container _ i).any _ = _
    rw [Function.update_of_ne hne]
    rfl
  have hgoesOn : ∀ p,
      ({ s with exitCode := Function.update s.exitCode container (some statusCode) } :
        WorkflowRunner).GoesOn p ↔ p = .watching container ∨ s.GoesOn p := by
    intro p
    cases p with
    | watching c =>
      simp only [GoesOn, CallPhase.watching.injEq, Function.update_apply]
      split
      · next heq => simp [heq]
      · next hne => simp [hne]
    | _ => simp [GoesOn]
  constructor
  · intro ht hpositive
    rcases ht.dropped container (by rw [hself]; exact decide_eq_true hpositive) with
      hdropped | hgoes
    · exact Or.inl hdropped
    · exact Or.inr ((hgoesOn _).mp hgoes)
  · intro hkeeps
    refine ⟨hs.justified, ?_⟩
    intro i hi
    by_cases heq : i = container
    · subst heq
      rw [hself] at hi
      rw [hgoesOn]
      exact hkeeps (of_decide_eq_true hi)
    · rw [hother i heq] at hi
      rw [hgoesOn]
      exact (hs.dropped i hi).imp_right Or.inr

theorem step_spec (h : s.Lawful) (hstep : s.step a = some t) :
    t.Lawful ∧ (s.Reported → (t.Reported ↔ s.KeepsApart a)) := by
  cases a with
  | reconfigure dockerSocket =>
    cases hstep
    refine ⟨⟨h.dropped, h.exited, h.created⟩, ?_⟩
    intro hs
    exact iff_of_true ⟨hs.justified, fun call hcall => hs.dropped call hcall⟩ trivial
  | startWorkflow call workflowId =>
    obtain ⟨hidle, heq⟩ := Option.ite_none_right_eq_some.mp hstep
    cases heq
    have hmoves := moves_update (s := s) call s.container
      ⟨if s.dockerClient then .creating else .over, workflowId, false⟩
    have hphase : s.phase call ≠ .over := by simp [hidle]
    constructor
    · apply h.of_moves hmoves hphase
      · intro hcreated
        exact absurd hidle (h.created call hcreated).1
      · intro hcreated
        dsimp only at hcreated
        rw [Function.update_self] at hcreated
        cases hcreated
    · intro hs
      rw [h.reported_iff_of_moves hs hmoves hphase]
      simp [KeepsApart, h.not_exited (Or.inl hidle)]
  | containerCreated call hasId =>
    obtain ⟨hcreating, heq⟩ := Option.ite_none_right_eq_some.mp hstep
    cases heq
    have hmoves := moves_update (s := s) call (if hasId then some call else none)
      { s.calls call with phase := if hasId then .starting else .over, created := hasId }
    have hphase : s.phase call ≠ .over := by simp [hcreating]
    constructor
    · apply h.of_moves hmoves hphase
      · intro hcreated
        exact absurd hcreating (h.created call hcreated).2
      · intro _
        cases hasId
        · simp
        · simp
    · intro hs
      rw [h.reported_iff_of_moves hs hmoves hphase]
      simp [KeepsApart, h.not_exited (Or.inr hcreating)]
  | failed call =>
    obtain ⟨hphase, heq⟩ := Option.ite_none_right_eq_some.mp hstep
    cases heq
    have hover : s.phase call ≠ .over := by
      rcases hphase with hcreating | hstarting
      · simp [hcreating]
      · simp [hstarting]
    obtain ⟨hlawful, hreported⟩ := h.moveTo_spec hover (p := .over) (by simp)
    refine ⟨hlawful, ?_⟩
    intro hs
    rw [hreported hs]
    simp [KeepsApart, GoesOn]
  | subscribed call =>
    obtain ⟨hphase, heq⟩ := Option.ite_none_right_eq_some.mp hstep
    cases heq
    exact h.moveTo_spec (by simp [hphase]) s.watchWorkflowExecutor_ne
  | exited container statusCode =>
    obtain ⟨⟨hcreated, hnone⟩, heq⟩ := Option.ite_none_right_eq_some.mp hstep
    cases heq
    exact ⟨lawful_exited h hcreated statusCode, fun hs => reported_exited_iff hs hnone⟩
  | timedOut call =>
    rw [step] at hstep
    split at hstep
    · next container hphase =>
      cases hstep
      exact h.moveTo_spec (by simp [hphase]) s.watchWorkflowExecutor_ne
    · cases hstep
  | watchError call =>
    rw [step] at hstep
    split at hstep
    · next container hphase =>
      cases hstep
      have hover : s.phase call ≠ .over := by simp [hphase]
      have hfailed := lawful_watchFailed h (Function.update s.watchFailed container true)
      refine ⟨lawful_onStatusCode hfailed hover 1, ?_⟩
      intro hs
      have hiff := reported_onStatusCode_iff hfailed (reported_watchFailed hs _) hover 1
      rw [if_pos Nat.one_pos] at hiff
      rw [hiff, KeepsApart, hphase, CallPhase.watching.injEq]
      show (s.exitedNonZero call || Function.update s.watchFailed container true call) = true ↔ _
      rw [Function.update_apply, justifies]
      by_cases heq : call = container
      · simp [heq]
      · simp [heq, Ne.symm heq]
    · cases hstep
  | answered call =>
    rw [step] at hstep
    split at hstep
    · next container hphase =>
      obtain ⟨code, hcode, rfl⟩ := Option.map_eq_some_iff.mp hstep
      have hover : s.phase call ≠ .over := by simp [hphase]
      refine ⟨lawful_onStatusCode h hover code, ?_⟩
      intro hs
      rw [reported_onStatusCode_iff h hs hover code, KeepsApart, hphase]
      constructor
      · intro hright container' code' hcontainer hcode'
        cases hcontainer
        rw [hcode] at hcode'
        cases hcode'
        exact hright
      · intro hall
        exact hall container code rfl hcode
    · cases hstep

/-- **When the workflows are reported right.** -/
theorem always_reported_iff (actions : List WorkflowAction) (t : WorkflowRunner)
    (h : run step new actions = some t) :
    Always step Reported new actions ↔ Guarded step KeepsApart new actions := by
  apply always_iff_guarded _ _ lawful_new reported_new h
  · intro s a t hlawful _ _ hstep
    exact (step_spec hlawful hstep).1
  · intro s a t hlawful hs hstep
    exact (step_spec hlawful hstep).2 hs

/-- A workflow whose container exits with an error after its watch has timed out once. -/
def sampleFailure : List WorkflowAction :=
  [.reconfigure true, .startWorkflow 0 "1", .containerCreated 0 true, .subscribed 0, .timedOut 0,
    .exited 0 1, .answered 0]

theorem always_reported_iff_failure :
    Always step Reported new sampleFailure ↔ Guarded step KeepsApart new sampleFailure := by
  obtain ⟨t, ht⟩ : ∃ t, run step new sampleFailure = some t :=
    Option.isSome_iff_exists.mp (by decide +kernel)
  exact always_reported_iff sampleFailure t ht

/-- The watch of the first workflow starts again when the second has got its container. -/
def sampleSecondStart : List WorkflowAction :=
  [.reconfigure true, .startWorkflow 0 "1", .containerCreated 0 true, .subscribed 0,
    .startWorkflow 1 "2", .containerCreated 1 true, .subscribed 1, .timedOut 0, .exited 1 1,
    .answered 0]

/-- The first workflow is dropped because the container of the second has failed. -/
theorem dropped_for_another :
    ¬ ∀ actions t, run step new actions = some t → Always step Reported new actions := by
  intro h
  have hsome : (run step new sampleSecondStart).isSome := by decide +kernel
  obtain ⟨t, ht⟩ := Option.isSome_iff_exists.mp hsome
  have hupdates : ∀ t ∈ run step new sampleSecondStart, t.updates = [⟨0, "1", false⟩] := by
    decide +kernel
  have hall := h sampleSecondStart t ht
  have hreported := hall sampleSecondStart [] t (List.append_nil _).symm ht
  have hjustified := hreported.justified ⟨0, "1", false⟩
    (hupdates t ht ▸ List.mem_singleton_self _)
  cases hjustified

end WorkflowRunner
end KhulnasoftLsp.DuoWorkflow
