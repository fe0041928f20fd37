import Mathlib.Data.List.Induction

/-!
# Runs of partial steps

A system is a partial step function `step : σ → α → Option σ`: the state `s` may carry out the
action `a` exactly when `step s a` is `some`. A *run* is a list of actions, so that "every
interleaving" is a quantifier over lists and a counterexample is a list that `decide` replays.

Six rules are packaged here, so that no induction over runs is done twice:

* `guarded_invariant` — an invariant of the runs whose steps all meet a side condition;
* `run_trace` — an invariant that may mention the actions taken so far;
* `run_invariant` — an invariant of the state alone;
* `exists_run` — where every step can be taken, the runs that an invariant holds of exist;
* `guarded_iff` — if a side condition says of each step *exactly* whether it keeps a property,
  then it says so of whole runs;
* `always_iff_guarded` — the same for a property that a run may lose and regain, asked of every
  state on the way.
-/

namespace Transition

variable {σ α : Type*} {step : σ → α → Option σ}

/-- Carry out the actions of a list in order, failing as soon as one is not enabled. -/
def run (step : σ → α → Option σ) : σ → List α → Option σ
  | s, [] => some s
  | s, a :: as => (step s a).bind fun t => run step t as

@[simp] theorem run_nil (s : σ) : run step s [] = some s := rfl

theorem run_cons (s : σ) (a : α) (as : List α) :
    run step s (a :: as) = (step s a).bind fun t => run step t as := rfl

theorem run_append (s : σ) (as bs : List α) :
    run step s (as ++ bs) = (run step s as).bind fun t => run step t bs := by
  induction as generalizing s with
  | nil => rfl
  | cons a as ih =>
      rw [List.cons_append, run_cons, run_cons]
      cases step s a with
      | none => rfl
      | some t => exact ih t

/-- A run of `as ++ bs` passes through a state reached by `as` alone. -/
theorem run_append_eq_some {s u : σ} {as bs : List α} :
    run step s (as ++ bs) = some u ↔ ∃ t, run step s as = some t ∧ run step t bs = some u := by
  rw [run_append, Option.bind_eq_some_iff]

theorem run_concat_eq_some {s u : σ} {as : List α} {a : α} :
    run step s (as ++ [a]) = some u ↔ ∃ t, run step s as = some t ∧ step t a = some u := by
  rw [run_append_eq_some]
  simp [run_cons]

/-! ## Runs whose steps all meet a side condition -/

/-- Every step of the run of `as` from `s` meets `ok`, a condition on the state before the step
and on the action. (What comes after an action that is not enabled is no step, and meets it.) -/
def Guarded (step : σ → α → Option σ) (ok : σ → α → Prop) : σ → List α → Prop
  | _, [] => True
  | s, a :: as => ok s a ∧ match step s a with
    | some t => Guarded step ok t as
    | none => True

instance decidableGuarded {ok : σ → α → Prop} [∀ s a, Decidable (ok s a)] :
    ∀ (s : σ) (as : List α), Decidable (Guarded step ok s as)
  | _, [] => isTrue trivial
  | s, a :: as =>
    match h : step s a with
    | some t =>
      have : Decidable (Guarded step ok t as) := decidableGuarded t as
      decidable_of_iff (ok s a ∧ Guarded step ok t as) (by simp [Guarded, h])
    | none => decidable_of_iff (ok s a) (by simp [Guarded, h])

variable {ok : σ → α → Prop}

@[simp] theorem guarded_nil (s : σ) : Guarded step ok s [] := trivial

theorem guarded_cons {s t : σ} {a : α} {as : List α} (h : step s a = some t) :
    Guarded step ok s (a :: as) ↔ ok s a ∧ Guarded step ok t as := by
  simp [Guarded, h]

theorem guarded_append {s t : σ} {as bs : List α} (h : run step s as = some t) :
    Guarded step ok s (as ++ bs) ↔ Guarded step ok s as ∧ Guarded step ok t bs := by
  induction as generalizing s with
  | nil =>
      cases h
      simp
  | cons a as ih =>
      rw [run_cons, Option.bind_eq_some_iff] at h
      obtain ⟨m, hm, hrest⟩ := h
      rw [List.cons_append, guarded_cons hm, guarded_cons hm, ih hrest, and_assoc]

/-- A run whose steps all meet a condition, in terms of the states that it passes through. -/
theorem guarded_iff_forall {s : σ} {as : List α} :
    Guarded step ok s as ↔
      ∀ before a after t, as = before ++ a :: after → run step s before = some t → ok t a := by
  constructor
  · rintro hg before a after t rfl hrun
    exact ((guarded_append hrun).mp hg).2.1
  · intro hall
    induction as generalizing s with
    | nil => trivial
    | cons a as ih =>
        refine ⟨hall [] a as s rfl rfl, ?_⟩
        split
        · next t ht =>
            apply ih
            rintro before b after u rfl hu
            exact hall (a :: before) b after u rfl (by simp [run_cons, ht, hu])
        · trivial

/-- A condition on the actions of a run joins the condition on its steps. -/
theorem Guarded.and_forall {p : α → Prop} {s : σ} {as : List α} (h : Guarded step ok s as)
    (hp : ∀ a ∈ as, p a) : Guarded step (fun s a => ok s a ∧ p a) s as := by
  induction as generalizing s with
  | nil => trivial
  | cons a as ih =>
      refine ⟨⟨h.1, hp a List.mem_cons_self⟩, ?_⟩
      have hrest := h.2
      split at hrest
      · exact ih hrest fun b hb => hp b (List.mem_cons_of_mem a hb)
      · trivial

/-- A condition on steps that has a part about the actions alone. -/
theorem guarded_and_forall {p : α → Prop} {s t : σ} {as : List α} (h : run step s as = some t) :
    Guarded step (fun s a => ok s a ∧ p a) s as ↔ Guarded step ok s as ∧ ∀ a ∈ as, p a := by
  induction as generalizing s with
  | nil => simp
  | cons a as ih =>
      rw [run_cons, Option.bind_eq_some_iff] at h
      obtain ⟨m, hm, hrest⟩ := h
      rw [guarded_cons hm, guarded_cons hm, ih hrest, List.forall_mem_cons]
      grind

/-- The step rule of guarded runs, for an invariant that may mention the actions so far. -/
theorem guarded_trace {I : List α → σ → Prop} {s : σ} (h0 : I [] s)
    (hstep : ∀ as s a t, I as s → ok s a → step s a = some t → I (as ++ [a]) t) :
    ∀ {as : List α} {t : σ}, Guarded step ok s as → run step s as = some t → I as t := by
  intro as
  induction as using List.reverseRecOn with
  | nil =>
      intro t _ h
      cases h
      exact h0
  | append_singleton as a ih =>
      intro t hg h
      obtain ⟨m, hm, ha⟩ := run_concat_eq_some.mp h
      obtain ⟨hgas, hga⟩ := (guarded_append hm).mp hg
      exact hstep as m a t (ih hgas hm) hga.1 ha

/-- An invariant kept by the steps that meet `ok` holds after every run of such steps. -/
theorem guarded_invariant {I : σ → Prop}
    (hstep : ∀ s a t, I s → ok s a → step s a = some t → I t)
    {s t : σ} {as : List α} (h0 : I s) (hg : Guarded step ok s as)
    (h : run step s as = some t) : I t :=
  guarded_trace (I := fun _ t => I t) h0 (fun _ s a t hs hok ha => hstep s a t hs hok ha) hg h

/-! ## Invariants -/

theorem guarded_true (s : σ) (as : List α) : Guarded step (fun _ _ => True) s as := by
  induction as generalizing s with
  | nil => trivial
  | cons a as ih =>
      refine ⟨trivial, ?_⟩
      split
      · exact ih _
      · trivial

/-- The rule for invariants that speak about the actions taken so far. -/
theorem run_trace {I : List α → σ → Prop} {s : σ} (h0 : I [] s)
    (hstep : ∀ as s a t, I as s → step s a = some t → I (as ++ [a]) t) :
    ∀ {as : List α} {t : σ}, run step s as = some t → I as t := by
  intro as t h
  apply guarded_trace (I := I) h0 _ (guarded_true s as) h
  intro as s a t hs _ ha
  exact hstep as s a t hs ha

/-- The rule for steps that can always be taken: a run goes to its end. -/
theorem exists_run {I : List α → σ → Prop} {s : σ} (h0 : I [] s)
    (hstep : ∀ as s a, I as s → ∃ t, step s a = some t ∧ I (as ++ [a]) t) (as : List α) :
    ∃ t, run step s as = some t ∧ I as t := by
  induction as using List.reverseRecOn with
  | nil => exact ⟨s, rfl, h0⟩
  | append_singleton as a ih =>
      obtain ⟨t, hrun, ht⟩ := ih
      obtain ⟨u, hstep, hu⟩ := hstep as t a ht
      exact ⟨u, run_concat_eq_some.mpr ⟨t, hrun, hstep⟩, hu⟩

/-- The rule for invariants of the state: it holds of every state a run reaches. -/
theorem run_invariant {I : σ → Prop} (hstep : ∀ s a t, I s → step s a = some t → I t)
    {s t : σ} {as : List α} (h0 : I s) (h : run step s as = some t) : I t :=
  run_trace (I := fun _ t => I t) h0 (fun _ s a t hs ha => hstep s a t hs ha) h

/-! ## Exactness -/

/-- **Exactness.** Suppose a step out of a state of the invariant `I` ends in a state with `P`
exactly when it meets `ok`, that `P` is never regained once lost, and that `I` survives the steps
that meet `ok`. Then a run ends with `P` exactly when all of its steps meet `ok`. -/
theorem guarded_iff {I P : σ → Prop}
    (hI : ∀ s a t, I s → P s → ok s a → step s a = some t → I t)
    (hP : ∀ s a t, I s → P s → step s a = some t → (P t ↔ ok s a))
    (hmono : ∀ s a t, step s a = some t → P t → P s)
    {s t : σ} {as : List α} (h0 : I s) (hp0 : P s) (h : run step s as = some t) :
    P t ↔ Guarded step ok s as := by
  induction as generalizing s with
  | nil =>
      cases h
      simp [hp0]
  | cons a as ih =>
      rw [run_cons, Option.bind_eq_some_iff] at h
      obtain ⟨m, hm, hrest⟩ := h
      rw [guarded_cons hm]
      by_cases hok : ok s a
      · have hpm : P m := (hP s a m h0 hp0 hm).mpr hok
        simpa [hok] using ih (hI s a m h0 hp0 hok hm) hpm hrest
      · have hpm : ¬ P m := fun hpm => hok ((hP s a m h0 hp0 hm).mp hpm)
        have hpt : ¬ P t :=
          run_invariant (I := fun t => ¬ P t)
            (fun s a t hs ha ht => hs (hmono s a t ha ht)) hpm hrest
        simp [hok, hpt]

/-! ## Every state on the way -/

/-- `P` holds in every state that the run of `as` from `s` passes through. -/
def Always (step : σ → α → Option σ) (P : σ → Prop) (s : σ) (as : List α) : Prop :=
  ∀ before after t, as = before ++ after → run step s before = some t → P t

theorem Always.nil {P : σ → Prop} {s : σ} {as : List α} (h : Always step P s as) : P s :=
  h [] as s rfl rfl

theorem always_nil {P : σ → Prop} {s : σ} : Always step P s [] ↔ P s := by
  constructor
  · exact Always.nil
  · intro hs before after t has hrun
    obtain ⟨rfl, -⟩ := List.nil_eq_append_iff.mp has
    cases hrun
    exact hs

theorem always_cons {P : σ → Prop} {s t : σ} {a : α} {as : List α} (h : step s a = some t) :
    Always step P s (a :: as) ↔ P s ∧ Always step P t as := by
  constructor
  · intro hall
    refine ⟨hall.nil, ?_⟩
    intro before after u has hu
    exact hall (a :: before) after u (by rw [has, List.cons_append]) (by simp [run_cons, h, hu])
  · rintro ⟨hs, hall⟩ before after u has hu
    cases before with
    | nil =>
        cases hu
        exact hs
    | cons b before =>
        obtain ⟨rfl, rfl⟩ : a = b ∧ as = before ++ after := by simpa using has
        rw [run_cons, h] at hu
        exact hall before after u rfl hu

theorem Always.mono {P Q : σ → Prop} {s : σ} {as : List α} (h : Always step P s as)
    (hPQ : ∀ t, P t → Q t) : Always step Q s as :=
  fun before after t has hrun => hPQ t (h before after t has hrun)

/-- An invariant kept by the steps that meet `ok` holds all the way through a run of such steps. -/
theorem always_of_guarded {I : σ → Prop} (hstep : ∀ s a t, I s → ok s a → step s a = some t → I t)
    {s : σ} {as : List α} (h0 : I s) (hg : Guarded step ok s as) : Always step I s as := by
  rintro before after t rfl hrun
  exact guarded_invariant hstep h0 ((guarded_append hrun).mp hg).1 hrun

/-- What follows of a step from a property of the states before and after it. -/
theorem Always.guarded {P : σ → Prop} {s : σ} {as : List α} (h : Always step P s as)
    (hok : ∀ s a, P s → (∀ t, step s a = some t → P t) → ok s a) : Guarded step ok s as := by
  induction as generalizing s with
  | nil => trivial
  | cons a as ih =>
      refine ⟨?_, ?_⟩
      · apply hok s a h.nil
        intro t ht
        exact ((always_cons ht).mp h).2.nil
      · split
        · next t ht => exact ih ((always_cons ht).mp h).2
        · trivial

/-- Two properties that are the same in the states of an invariant. -/
theorem always_congr {I P Q : σ → Prop} (hI : ∀ s a t, I s → step s a = some t → I t)
    (hPQ : ∀ s, I s → (P s ↔ Q s)) {s : σ} {as : List α} (h0 : I s) :
    Always step P s as ↔ Always step Q s as := by
  have hI' : ∀ {before t}, run step s before = some t → I t := fun hrun =>
    run_invariant hI h0 hrun
  constructor
  · intro hall before after t has hrun
    exact (hPQ t (hI' hrun)).mp (hall before after t has hrun)
  · intro hall before after t has hrun
    exact (hPQ t (hI' hrun)).mpr (hall before after t has hrun)

/-- **Looking now and then.** A property that cannot be regained while `Q` does not hold may be
looked at in the states with `Q` alone, if the run ends in one. -/
theorem always_iff_always_when {I P Q : σ → Prop} (hI : ∀ s a t, I s → step s a = some t → I t)
    (hback : ∀ s a t, I s → ¬ Q s → step s a = some t → P t → P s)
    {s t : σ} {as : List α} (h0 : I s) (h : run step s as = some t) (hQ : Q t) :
    Always step P s as ↔ Always step (fun s => Q s → P s) s as := by
  constructor
  · intro hall
    exact hall.mono fun _ hP _ => hP
  · intro hwhen
    induction as generalizing s with
    | nil =>
        cases h
        exact always_nil.mpr (hwhen.nil hQ)
    | cons a as ih =>
        rw [run_cons, Option.bind_eq_some_iff] at h
        obtain ⟨m, hm, hrest⟩ := h
        rw [always_cons hm] at hwhen ⊢
        have hall := ih (hI s a m h0 hm) hrest hwhen.2
        refine ⟨?_, hall⟩
        by_cases hs : Q s
        · exact hwhen.1 hs
        · exact hback s a m h0 hs hm hall.nil

/-- **Exactness on the way.** Suppose a step out of a state of the invariant `I` with `P` ends in a
state with `P` exactly when it meets `ok`, and that `I` survives such steps, as far as the steps
meet `given`. Then `P` holds all the way through a run whose steps meet `given` exactly when they
all meet `ok`. -/
theorem always_iff_guarded_of_guarded {given : σ → α → Prop} {I P : σ → Prop}
    (hI : ∀ s a t, I s → P s → given s a → ok s a → step s a = some t → I t)
    (hP : ∀ s a t, I s → P s → given s a → step s a = some t → (P t ↔ ok s a))
    {s t : σ} {as : List α} (h0 : I s) (hp0 : P s) (hg : Guarded step given s as)
    (h : run step s as = some t) : Always step P s as ↔ Guarded step ok s as := by
  induction as generalizing s with
  | nil =>
      exact iff_of_true (always_nil.mpr hp0) trivial
  | cons a as ih =>
      rw [run_cons, Option.bind_eq_some_iff] at h
      obtain ⟨m, hm, hrest⟩ := h
      obtain ⟨hgiven, hgrest⟩ := (guarded_cons hm).mp hg
      rw [always_cons hm, guarded_cons hm]
      by_cases hok : ok s a
      · have hpm : P m := (hP s a m h0 hp0 hgiven hm).mpr hok
        simp [hp0, hok, ih (hI s a m h0 hp0 hgiven hok hm) hpm hgrest hrest]
      · have hpm : ¬ P m := fun hpm => hok ((hP s a m h0 hp0 hgiven hm).mp hpm)
        have hnot : ¬ Always step P m as := fun hall => hpm hall.nil
        simp [hok, hnot]

/-- Exactness on the way, of every run. -/
theorem always_iff_guarded {I P : σ → Prop}
    (hI : ∀ s a t, I s → P s → ok s a → step s a = some t → I t)
    (hP : ∀ s a t, I s → P s → step s a = some t → (P t ↔ ok s a))
    {s t : σ} {as : List α} (h0 : I s) (hp0 : P s) (h : run step s as = some t) :
    Always step P s as ↔ Guarded step ok s as :=
  always_iff_guarded_of_guarded (fun s a t hs hp _ => hI s a t hs hp)
    (fun s a t hs hp _ => hP s a t hs hp) h0 hp0 (guarded_true s as) h

end Transition
