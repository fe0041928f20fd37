import Mathlib.Data.List.Basic

/-!
# A queue that runs its tasks one at a time

The queue of the package `p-queue` with concurrency `1`, as its documentation has it: tasks are
started in the order in which they were added, a task is started as soon as it is added or as soon
as its predecessor settles, and no task is started while the queue is paused. A task that rejects is
done like one that fulfils, and the queue goes on with the next.

Starting a task runs its synchronous part, which is the business of the queue's owner. So every
operation that may start a task returns the queue together with the task it started, if any.

`SerialQueue` is what can be seen of such a queue. `PromiseQueue.Lawful` is what is promised of the
package, and `PromiseQueue.Lawful.simulates` says that this leaves no choice: every queue that keeps
the promise does what is defined here.
-/

/-- A serial queue of tasks `τ`: the one that runs, those that wait (first one first), and
whether the queue is paused. -/
structure SerialQueue (τ : Type) where
  running : Option τ
  waiting : List τ
  isPaused : Bool
  deriving DecidableEq, Repr

namespace SerialQueue

variable {τ : Type}

/-- A fresh queue. -/
def new : SerialQueue τ := { running := none, waiting := [], isPaused := false }

/-- Start the first waiting task, if the queue is not paused and nothing runs. -/
def startNext (q : SerialQueue τ) : SerialQueue τ × Option τ :=
  match q.running, q.waiting, q.isPaused with
  | none, t :: ts, false => ({ q with running := some t, waiting := ts }, some t)
  | _, _, _ => (q, none)

/-- Append a task. -/
def add (t : τ) (q : SerialQueue τ) : SerialQueue τ × Option τ :=
  startNext { q with waiting := q.waiting ++ [t] }

/-- The running task has settled. -/
def settle (q : SerialQueue τ) : SerialQueue τ × Option τ :=
  startNext { q with running := none }

/-- Start no further task; one that runs goes on. -/
def pause (q : SerialQueue τ) : SerialQueue τ := { q with isPaused := true }

/-- Start tasks again after a pause. -/
def start (q : SerialQueue τ) : SerialQueue τ × Option τ := startNext { q with isPaused := false }

/-- The running task makes progress (its new state is `t`). -/
def update (t : τ) (q : SerialQueue τ) : SerialQueue τ := { q with running := some t }

/-- Nothing runs and nothing waits. -/
def isIdle (q : SerialQueue τ) : Bool := q.running.isNone && q.waiting.isEmpty

/-! ## What the operations leave -/

@[simp] theorem running_new : (new : SerialQueue τ).running = none := rfl
@[simp] theorem waiting_new : (new : SerialQueue τ).waiting = [] := rfl
@[simp] theorem isPaused_new : (new : SerialQueue τ).isPaused = false := rfl

@[simp] theorem running_update (t : τ) (q : SerialQueue τ) : (q.update t).running = some t := rfl
@[simp] theorem waiting_update (t : τ) (q : SerialQueue τ) : (q.update t).waiting = q.waiting := rfl
@[simp] theorem isPaused_update (t : τ) (q : SerialQueue τ) :
    (q.update t).isPaused = q.isPaused := rfl

@[simp] theorem running_pause (q : SerialQueue τ) : q.pause.running = q.running := rfl
@[simp] theorem waiting_pause (q : SerialQueue τ) : q.pause.waiting = q.waiting := rfl
@[simp] theorem isPaused_pause (q : SerialQueue τ) : q.pause.isPaused = true := rfl

theorem isIdle_iff {q : SerialQueue τ} :
    q.isIdle = true ↔ q.running = none ∧ q.waiting = [] := by
  simp [isIdle]

@[simp] theorem isIdle_new : (new : SerialQueue τ).isIdle = true := rfl

/-- `startNext` either starts the first waiting task of a queue where nothing runs, or does
nothing. -/
theorem startNext_cases (q : SerialQueue τ) :
    (∃ t ts, q.running = none ∧ q.waiting = t :: ts ∧ q.isPaused = false ∧
      q.startNext = ({ q with running := some t, waiting := ts }, some t)) ∨
    (q.startNext = (q, none) ∧ (q.running = none → q.waiting = [] ∨ q.isPaused = true)) := by
  obtain ⟨running, waiting, isPaused⟩ := q
  cases running with
  | some r => exact .inr ⟨rfl, by simp⟩
  | none =>
      cases waiting with
      | nil => exact .inr ⟨rfl, by simp⟩
      | cons t ts =>
          cases isPaused with
          | true => exact .inr ⟨rfl, by simp⟩
          | false => exact .inl ⟨t, ts, rfl, rfl, rfl, rfl⟩

@[simp] theorem isPaused_startNext (q : SerialQueue τ) :
    q.startNext.1.isPaused = q.isPaused := by
  rcases q.startNext_cases with ⟨t, ts, -, -, -, h⟩ | ⟨h, -⟩ <;> simp [h]

@[simp] theorem isPaused_add (t : τ) (q : SerialQueue τ) :
    (q.add t).1.isPaused = q.isPaused := isPaused_startNext _

@[simp] theorem isPaused_settle (q : SerialQueue τ) : q.settle.1.isPaused = q.isPaused :=
  isPaused_startNext _

@[simp] theorem isPaused_start (q : SerialQueue τ) : q.start.1.isPaused = false :=
  isPaused_startNext _

/-- A queue that is not paused never lets a task wait while nothing runs. -/
theorem waiting_of_startNext {q : SerialQueue τ} (hp : q.isPaused = false)
    (h : q.startNext.1.running = none) : q.startNext.1.waiting = [] := by
  rcases q.startNext_cases with ⟨t, ts, -, -, -, hs⟩ | ⟨hs, hw⟩
  · rw [hs] at h
    cases h
  · rw [hs] at h ⊢
    rcases hw h with hw | hw
    · exact hw
    · rw [hp] at hw
      cases hw

/-- **No task starts while the queue is paused.** -/
theorem startNext_of_isPaused {q : SerialQueue τ} (h : q.isPaused = true) :
    q.startNext = (q, none) := by
  rcases q.startNext_cases with ⟨t, ts, -, -, hp, -⟩ | ⟨hs, -⟩
  · rw [h] at hp
    cases hp
  · exact hs

/-- A queue that starts nothing keeps what runs. -/
theorem running_of_startNext_none {q : SerialQueue τ} (h : q.startNext.2 = none) :
    q.startNext.1 = q := by
  rcases q.startNext_cases with ⟨u, ts, -, -, -, hs⟩ | ⟨hs, -⟩
  · rw [hs] at h
    cases h
  · rw [hs]

end SerialQueue

/-! ## The queue of a package -/

/-- A queue, what can be done to it, and what can be seen of it. -/
structure PromiseQueue (τ : Type) where
  State : Type
  new : State
  add : τ → State → State × Option τ
  /-- The running task has settled. -/
  settle : State → State × Option τ
  pause : State → State
  start : State → State × Option τ
  observe : State → SerialQueue τ

namespace PromiseQueue

variable {τ : Type}

/-- The first of the waiting tasks is started if no task runs and the queue is not paused, and else
nothing happens. -/
inductive Starts (q : SerialQueue τ) : SerialQueue τ → Option τ → Prop where
  | first (t : τ) (ts : List τ) (hrunning : q.running = none) (hwaiting : q.waiting = t :: ts)
      (hpaused : q.isPaused = false) : Starts q { q with running := some t, waiting := ts } (some t)
  | none (h : q.running ≠ none ∨ q.waiting = [] ∨ q.isPaused = true) : Starts q q none

structure Lawful (Q : PromiseQueue τ) : Prop where
  new : Q.observe Q.new = SerialQueue.new
  /-- A task that is added waits behind the others. -/
  add : ∀ t s, Starts { Q.observe s with waiting := (Q.observe s).waiting ++ [t] }
    (Q.observe (Q.add t s).1) (Q.add t s).2
  settle : ∀ s,
    Starts { Q.observe s with running := none } (Q.observe (Q.settle s).1) (Q.settle s).2
  pause : ∀ s, Q.observe (Q.pause s) = { Q.observe s with isPaused := true }
  start : ∀ s, Starts { Q.observe s with isPaused := false } (Q.observe (Q.start s).1) (Q.start s).2

theorem starts_iff {q r : SerialQueue τ} {started : Option τ} :
    Starts q r started ↔ q.startNext = (r, started) := by
  constructor
  · intro h
    cases h with
    | first t ts hrunning hwaiting hpaused =>
        rw [SerialQueue.startNext, hrunning, hwaiting, hpaused]
    | none h =>
        rcases q.startNext_cases with ⟨t, ts, hrunning, hwaiting, hpaused, -⟩ | ⟨hnone, -⟩
        · rw [hrunning, hwaiting, hpaused] at h
          simp at h
        · exact hnone
  · intro h
    rcases q.startNext_cases with ⟨t, ts, hrunning, hwaiting, hpaused, hstart⟩ | ⟨hnone, hidle⟩
    · rw [hstart] at h
      cases h
      exact .first t ts hrunning hwaiting hpaused
    · rw [hnone] at h
      cases h
      apply Starts.none
      by_cases hrunning : q.running = none
      · exact .inr (hidle hrunning)
      · exact .inl hrunning

/-- What can be seen of a queue that keeps the promise is a serial queue, whatever is done. -/
theorem Lawful.simulates {Q : PromiseQueue τ} (hQ : Q.Lawful) (s : Q.State) :
    (∀ t, (Q.observe s).add t = (Q.observe (Q.add t s).1, (Q.add t s).2)) ∧
      (Q.observe s).settle = (Q.observe (Q.settle s).1, (Q.settle s).2) ∧
      (Q.observe s).pause = Q.observe (Q.pause s) ∧
      (Q.observe s).start = (Q.observe (Q.start s).1, (Q.start s).2) :=
  ⟨fun t => starts_iff.mp (hQ.add t s), starts_iff.mp (hQ.settle s), (hQ.pause s).symm,
    starts_iff.mp (hQ.start s)⟩

/-- The serial queue itself. -/
def serial : PromiseQueue τ where
  State := SerialQueue τ
  new := SerialQueue.new
  add := SerialQueue.add
  settle := SerialQueue.settle
  pause := SerialQueue.pause
  start := SerialQueue.start
  observe := id

theorem lawful_serial : (serial : PromiseQueue τ).Lawful where
  new := rfl
  add := fun _ _ => starts_iff.mpr rfl
  settle := fun _ => starts_iff.mpr rfl
  pause := fun _ => rfl
  start := fun _ => starts_iff.mpr rfl

end PromiseQueue
