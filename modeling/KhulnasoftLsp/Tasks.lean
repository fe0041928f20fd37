import KhulnasoftLsp.Transition

/-!
# Tasks that share a state

A task of a single thread runs without interruption up to its next `await`. What is left of it then
is data: the place where it stopped, with the values that it has captured. When it goes on it may
change the shared state, and it leaves behind what is left of it, beside other tasks that it has
started.

While a task waits, others change the state. `sound_of_run` is the rule for what a waiting task may
still count on: a property `P` of the state and the task, which every change of the state that a
task can make (the relation `R`) leaves true.
-/

namespace Tasks

open Transition

variable {σ τ ε ο : Type}

structure System (σ τ : Type) where
  shared : σ
  tasks : List τ

inductive Action (ε ο : Type) where
  /-- An event starts tasks. -/
  | event (e : ε)
  /-- The task at this place goes on, with the answer to what it has awaited. -/
  | resume (task : Nat) (answer : ο)
  deriving DecidableEq, Repr

namespace System

variable (starts : ε → List τ) (resume : τ → ο → σ → Option (σ × List τ))

def step (s : System σ τ) : Action ε ο → Option (System σ τ)
  | .event e => some { s with tasks := s.tasks ++ starts e }
  | .resume i answer => do
    let task ← s.tasks[i]?
    let (shared, left) ← resume task answer s.shared
    return { shared := shared, tasks := s.tasks.eraseIdx i ++ left }

variable {starts resume}

/-- The state has the property `I`, and each task may count on `P`. -/
structure Sound (I : σ → Prop) (P : σ → τ → Prop) (s : System σ τ) : Prop where
  shared : I s.shared
  tasks : ∀ task ∈ s.tasks, P s.shared task

variable {I : σ → Prop} {R : σ → σ → Prop} {P : σ → τ → Prop}

theorem Sound.step (hstarts : ∀ e s, I s → ∀ task ∈ starts e, P s task)
    (hresume : ∀ task answer s t left, I s → P s task →
      resume task answer s = some (t, left) → I t ∧ R s t ∧ ∀ task' ∈ left, P t task')
    (hstable : ∀ s t task, I s → R s t → P s task → P t task)
    {s t : System σ τ} {a : Action ε ο} (h : Sound I P s)
    (hstep : s.step starts resume a = some t) : Sound I P t := by
  cases a with
  | event e =>
      cases hstep
      refine ⟨h.shared, ?_⟩
      intro task htask
      rcases List.mem_append.mp htask with hold | hnew
      · exact h.tasks task hold
      · exact hstarts e s.shared h.shared task hnew
  | resume i answer =>
      obtain ⟨task, htask, hstep⟩ := Option.bind_eq_some_iff.mp hstep
      obtain ⟨⟨shared, left⟩, hresumed, hstep⟩ := Option.bind_eq_some_iff.mp hstep
      cases hstep
      obtain ⟨hshared, hchange, hleft⟩ := hresume task answer s.shared shared left h.shared
        (h.tasks task (List.mem_of_getElem? htask)) hresumed
      refine ⟨hshared, ?_⟩
      intro task' htask'
      rcases List.mem_append.mp htask' with hold | hnew
      · exact hstable s.shared shared task' h.shared hchange
          (h.tasks task' (List.mem_of_mem_eraseIdx hold))
      · exact hleft task' hnew

/-- **What tasks may count on.** In every run, whichever task goes on next, the state keeps `I` and
each of the tasks that wait has its `P`. -/
theorem sound_of_run (hstarts : ∀ e s, I s → ∀ task ∈ starts e, P s task)
    (hresume : ∀ task answer s t left, I s → P s task →
      resume task answer s = some (t, left) → I t ∧ R s t ∧ ∀ task' ∈ left, P t task')
    (hstable : ∀ s t task, I s → R s t → P s task → P t task)
    {shared : σ} (hshared : I shared) {as : List (Action ε ο)} {t : System σ τ}
    (h : run (step starts resume) ⟨shared, []⟩ as = some t) : Sound I P t := by
  refine run_invariant ?_ ?_ h
  · intro s a t hs hstep
    exact Sound.step hstarts hresume hstable hs hstep
  · refine ⟨hshared, ?_⟩
    rintro task ⟨⟩

end System
end Tasks
