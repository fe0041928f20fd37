import KhulnasoftLsp.Transition

/-!
# Asynchronous programs

An asynchronous program of a single thread runs without interruption up to the next answer that it
awaits. In between, other programs and events change the state that they all share. So a program is
a tree: it reads the state, calls a service (which changes the state at once), awaits an answer, or
ends with a result or an error.

`Program.Meets` says of one program what its *log* may look like, the calls and requests that it
has made so far, whenever it awaits something or has ended. It is proved by going through the
program; `Meets.bind` and `Meets.tryCatch` take a program apart. `meets_of_run` carries it over to
any number of programs that are started at any time and interleave in any way.
-/

namespace Async

/-- What programs work with: a shared state, services that are called synchronously, and requests
whose answers are awaited. -/
structure Signature where
  State : Type
  Call : Type
  effect : Call → State → State
  Request : Type
  Answer : Request → Type
  Error : Type

inductive Program (S : Signature) (α : Type) where
  | done (result : Except S.Error α)
  | read (next : S.State → Program S α)
  | call (c : S.Call) (next : Program S α)
  | await (q : S.Request) (next : S.Answer q → Program S α)

/-- An entry of the log of a program. Calls and requests come with the state that they are made
in. -/
inductive Entry (S : Signature) where
  | called (s : S.State) (c : S.Call)
  | asked (s : S.State) (q : S.Request)
  | answered (q : S.Request) (o : S.Answer q)

variable {S : Signature} {α β : Type}

namespace Program

def bind : Program S α → (α → Program S β) → Program S β
  | done (.ok a), k => k a
  | done (.error e), _ => done (.error e)
  | read next, k => read fun s => (next s).bind k
  | call c next, k => call c (next.bind k)
  | await q next, k => await q fun o => (next o).bind k

/-- `try { … } catch (e) { … }` -/
def tryCatch : Program S α → (S.Error → Program S α) → Program S α
  | done (.ok a), _ => done (.ok a)
  | done (.error e), handler => handler e
  | read next, handler => read fun s => (next s).tryCatch handler
  | call c next, handler => call c (next.tryCatch handler)
  | await q next, handler => await q fun o => (next o).tryCatch handler

instance : Monad (Program S) where
  pure a := done (.ok a)
  bind := bind

def throw (e : S.Error) : Program S α := done (.error e)

def get : Program S S.State := read fun s => pure s

def perform (c : S.Call) : Program S Unit := call c (pure ())

def performAll : List S.Call → Program S Unit
  | [] => pure ()
  | c :: cs => do
    perform c
    performAll cs

def ask (q : S.Request) : Program S (S.Answer q) := await q fun o => pure o

def result : Program S α → Option (Except S.Error α)
  | done r => some r
  | _ => none

/-! ## Running a program up to its next request -/

structure Settled (S : Signature) (α : Type) where
  state : S.State
  log : List (Entry S)
  program : Program S α

def settle : Program S α → S.State → Settled S α
  | done r, s => ⟨s, [], done r⟩
  | read next, s => (next s).settle s
  | call c next, s =>
    let t := next.settle (S.effect c s)
    { t with log := .called s c :: t.log }
  | await q next, s => ⟨s, [.asked s q], await q next⟩

/-! ## What a program does -/

/-- In a shared state that has the property `I`, the program keeps it, and its log and result meet
`P` whenever it awaits an answer or has ended. The state may have changed when an answer comes. -/
def Meets (I : S.State → Prop) : Program S α → S.State →
    (List (Entry S) → Option (Except S.Error α) → Prop) → Prop
  | done r, _, P => P [] (some r)
  | read next, s, P => (next s).Meets I s P
  | call c next, s, P =>
    I (S.effect c s) ∧ next.Meets I (S.effect c s) fun log => P (.called s c :: log)
  | await q next, s, P =>
    P [.asked s q] none ∧
      ∀ o t, I t → (next o).Meets I t fun log => P (.asked s q :: .answered q o :: log)

section

variable {I : S.State → Prop} {s : S.State}
  {P P' : List (Entry S) → Option (Except S.Error α) → Prop}
  {Q : List (Entry S) → Option (Except S.Error β) → Prop}

@[simp] theorem meets_pure {a : α} : (pure a : Program S α).Meets I s P ↔ P [] (some (.ok a)) :=
  Iff.rfl

@[simp] theorem meets_throw {e : S.Error} :
    (throw e : Program S α).Meets I s P ↔ P [] (some (.error e)) :=
  Iff.rfl

theorem Meets.mono {p : Program S α} (h : p.Meets I s P)
    (himp : ∀ log result, P log result → P' log result) : p.Meets I s P' := by
  induction p generalizing s P P' with
  | done r => exact himp _ _ h
  | read next ih => exact ih s h himp
  | call c next ih => exact ⟨h.1, ih h.2 fun log => himp (.called s c :: log)⟩
  | await q next ih =>
    refine ⟨himp _ _ h.1, ?_⟩
    intro o t ht
    exact ih o (h.2 o t ht) fun log => himp (.asked s q :: .answered q o :: log)

/-- A program, and another that goes on with its result. -/
theorem Meets.bind {p : Program S α} {k : α → Program S β} (hs : I s) (h : p.Meets I s P)
    (hrunning : ∀ log, P log none → Q log none)
    (herror : ∀ log e, P log (some (.error e)) → Q log (some (.error e)))
    (hok : ∀ log a t, I t → P log (some (.ok a)) →
      (k a).Meets I t fun rest => Q (log ++ rest)) :
    (p >>= k).Meets I s Q := by
  show (p.bind k).Meets I s Q
  induction p generalizing s P Q with
  | done r =>
    cases r with
    | ok a => exact hok [] a s hs h
    | error e => exact herror [] e h
  | read next ih => exact ih s hs h hrunning herror hok
  | call c next ih =>
    exact ⟨h.1, ih h.1 h.2 (fun log => hrunning (.called s c :: log))
      (fun log => herror (.called s c :: log)) fun log => hok (.called s c :: log)⟩
  | await q next ih =>
    refine ⟨hrunning _ h.1, ?_⟩
    intro o t ht
    exact ih o ht (h.2 o t ht) (fun log => hrunning (.asked s q :: .answered q o :: log))
      (fun log => herror (.asked s q :: .answered q o :: log))
      fun log => hok (.asked s q :: .answered q o :: log)

/-- A program whose errors are caught. -/
theorem Meets.tryCatch {p : Program S α} {handler : S.Error → Program S α} (hs : I s)
    (h : p.Meets I s P) (hrunning : ∀ log, P log none → P' log none)
    (hok : ∀ log a, P log (some (.ok a)) → P' log (some (.ok a)))
    (herror : ∀ log e t, I t → P log (some (.error e)) →
      (handler e).Meets I t fun rest => P' (log ++ rest)) :
    (p.tryCatch handler).Meets I s P' := by
  induction p generalizing s P P' with
  | done r =>
    cases r with
    | ok a => exact hok [] a h
    | error e => exact herror [] e s hs h
  | read next ih => exact ih s hs h hrunning hok herror
  | call c next ih =>
    exact ⟨h.1, ih h.1 h.2 (fun log => hrunning (.called s c :: log))
      (fun log => hok (.called s c :: log)) fun log => herror (.called s c :: log)⟩
  | await q next ih =>
    refine ⟨hrunning _ h.1, ?_⟩
    intro o t ht
    exact ih o ht (h.2 o t ht) (fun log => hrunning (.asked s q :: .answered q o :: log))
      (fun log => hok (.asked s q :: .answered q o :: log))
      fun log => herror (.asked s q :: .answered q o :: log)

/-! ### The steps of a program -/

theorem meets_get_bind {k : S.State → Program S β} :
    (get >>= k).Meets I s Q ↔ (k s).Meets I s Q :=
  Iff.rfl

theorem meets_perform_bind {c : S.Call} {k : Unit → Program S β} :
    (perform c >>= k).Meets I s Q ↔ I (S.effect c s) ∧
      (k ()).Meets I (S.effect c s) fun log => Q (.called s c :: log) :=
  Iff.rfl

theorem meets_ask_bind {q : S.Request} {k : S.Answer q → Program S β} :
    (ask q >>= k).Meets I s Q ↔ Q [.asked s q] none ∧
      ∀ o t, I t → (k o).Meets I t fun log => Q (.asked s q :: .answered q o :: log) :=
  Iff.rfl

/-- Calls that come one after the other. -/
theorem meets_performAll (hI : ∀ c s, I s → I (S.effect c s)) (cs : List S.Call) (hs : I s) :
    (performAll cs).Meets I s fun log result =>
      result = some (.ok ()) ∧ List.Forall₂ (fun c entry => ∃ t, entry = .called t c) cs log := by
  induction cs generalizing s with
  | nil => exact ⟨rfl, .nil⟩
  | cons c cs ih =>
    refine meets_perform_bind.mpr ⟨hI c s hs, ?_⟩
    refine (ih (hI c s hs)).mono ?_
    intro log result h
    exact ⟨h.1, .cons ⟨s, rfl⟩ h.2⟩

end
end Program

/-! ## Programs that interleave -/

/-- A program that was started on an input. -/
structure Task (S : Signature) (ρ α : Type) where
  input : ρ
  log : List (Entry S)
  program : Program S α

structure System (S : Signature) (ρ α : Type) where
  shared : S.State
  tasks : List (Task S ρ α)

inductive Action (S : Signature) (ρ ξ : Type) where
  | start (input : ρ)
  /-- A task gets the answer to the request that it awaits. -/
  | answer (task : Nat) (reply : (q : S.Request) → S.Answer q)
  /-- What else changes the shared state. -/
  | environment (event : ξ)

namespace System

open Program Transition

variable {ρ ξ : Type} (program : ρ → Program S α) (event : ξ → S.State → Option S.State)

def step (s : System S ρ α) : Action S ρ ξ → Option (System S ρ α)
  | .start input =>
    let t := (program input).settle s.shared
    some { shared := t.state, tasks := s.tasks ++ [⟨input, t.log, t.program⟩] }
  | .answer i reply =>
    match s.tasks[i]? with
    | some ⟨input, log, .await q next⟩ =>
      let t := (next (reply q)).settle s.shared
      some
        { shared := t.state
          tasks := s.tasks.set i ⟨input, log ++ .answered q (reply q) :: t.log, t.program⟩ }
    | _ => none
  | .environment e => (event e s.shared).map fun shared => { s with shared }

variable {program event} {I : S.State → Prop}
  {Spec : ρ → List (Entry S) → Option (Except S.Error α) → Prop}

/-- What is left of a program meets what is left of `P`, and awaits an answer unless it has
ended. -/
def Resumes (I : S.State → Prop) (P : List (Entry S) → Option (Except S.Error α) → Prop)
    (log : List (Entry S)) : Program S α → Prop
  | .done r => P log (some r)
  | .await q next =>
    P log none ∧ ∀ o t, I t → (next o).Meets I t fun rest => P (log ++ .answered q o :: rest)
  | _ => False

theorem resumes_settle {p : Program S α} {s : S.State} {log : List (Entry S)}
    {P : List (Entry S) → Option (Except S.Error α) → Prop} (hs : I s)
    (h : p.Meets I s fun rest => P (log ++ rest)) :
    I (p.settle s).state ∧ Resumes I P (log ++ (p.settle s).log) (p.settle s).program := by
  induction p generalizing s log with
  | done r => exact ⟨hs, h⟩
  | read next ih => exact ih s hs h
  | call c next ih =>
    have hnext := h.2
    have hrest : next.Meets I (S.effect c s) fun rest =>
        P ((log ++ [.called s c]) ++ rest) := by
      refine hnext.mono ?_
      intro rest result hP
      rw [List.append_assoc]
      exact hP
    obtain ⟨hstate, hresumes⟩ := ih h.1 hrest
    rw [List.append_assoc] at hresumes
    exact ⟨hstate, hresumes⟩
  | await q next ih =>
    refine ⟨hs, h.1, ?_⟩
    intro o t ht
    refine (h.2 o t ht).mono ?_
    intro rest result hP
    show P ((log ++ [.asked s q]) ++ .answered q o :: rest) result
    rw [List.append_assoc]
    exact hP

theorem Resumes.result {P : List (Entry S) → Option (Except S.Error α) → Prop}
    {log : List (Entry S)} {p : Program S α} (h : Resumes I P log p) : P log p.result := by
  cases p with
  | done r => exact h
  | read next => exact h.elim
  | call c next => exact h.elim
  | await q next => exact h.1

/-- Every task is where its specification allows. -/
structure Sound (I : S.State → Prop)
    (Spec : ρ → List (Entry S) → Option (Except S.Error α) → Prop) (s : System S ρ α) :
    Prop where
  shared : I s.shared
  tasks : ∀ task ∈ s.tasks, Resumes I (Spec task.input) task.log task.program

theorem Sound.step {s t : System S ρ α} {a : Action S ρ ξ}
    (hprogram : ∀ input s, I s → (program input).Meets I s (Spec input))
    (hevent : ∀ e s t, I s → event e s = some t → I t) (h : Sound I Spec s)
    (hstep : s.step program event a = some t) : Sound I Spec t := by
  cases a with
  | start input =>
    cases hstep
    have hmeets : (program input).Meets I s.shared fun rest => Spec input ([] ++ rest) :=
      hprogram input s.shared h.shared
    obtain ⟨hshared, hresumes⟩ := resumes_settle h.shared hmeets
    refine ⟨hshared, ?_⟩
    intro task htask
    rcases List.mem_append.mp htask with htask | htask
    · exact h.tasks task htask
    · obtain rfl := List.mem_singleton.mp htask
      exact hresumes
  | answer i reply =>
    rw [System.step] at hstep
    split at hstep
    · next input log q next hi =>
      cases hstep
      obtain ⟨-, hnext⟩ := h.tasks _ (List.mem_of_getElem? hi)
      have hmeets := hnext (reply q) s.shared h.shared
      have hrest : (next (reply q)).Meets I s.shared fun rest =>
          Spec input ((log ++ [.answered q (reply q)]) ++ rest) := by
        refine hmeets.mono ?_
        intro rest result hP
        rw [List.append_assoc]
        exact hP
      obtain ⟨hshared, hresumes⟩ := resumes_settle h.shared hrest
      rw [List.append_assoc] at hresumes
      refine ⟨hshared, ?_⟩
      intro task htask
      rcases List.mem_or_eq_of_mem_set htask with htask | rfl
      · exact h.tasks task htask
      · exact hresumes
    · cases hstep
  | environment e =>
    obtain ⟨shared, hshared, rfl⟩ := Option.map_eq_some_iff.mp hstep
    exact ⟨hevent e s.shared shared h.shared hshared, h.tasks⟩

/-- **What each program does alone, it does in every interleaving**: of all tasks that were started
in a run, the logs and results meet their specifications. -/
theorem meets_of_run (hprogram : ∀ input s, I s → (program input).Meets I s (Spec input))
    (hevent : ∀ e s t, I s → event e s = some t → I t) {shared : S.State} (hshared : I shared)
    {as : List (Action S ρ ξ)} {t : System S ρ α}
    (h : run (step program event) ⟨shared, []⟩ as = some t) :
    I t.shared ∧ ∀ task ∈ t.tasks, Spec task.input task.log task.program.result := by
  have hsound : Sound I Spec t := by
    refine run_invariant ?_ ?_ h
    · intro s a t hs hstep
      exact Sound.step hprogram hevent hs hstep
    · exact ⟨hshared, nofun⟩
  exact ⟨hsound.shared, fun task htask => (hsound.tasks task htask).result⟩

end System
end Async
