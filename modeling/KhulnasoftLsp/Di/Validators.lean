import KhulnasoftLsp.Di.Sorting

/-!
# The check for circular dependencies

`noCircularDependencies` follows only the first listed class of each interface, and throws when it
meets an interface that is neither listed nor has an instance, which an empty collection is.
`noCircularDependencies_eq_ok_iff` says exactly when it accepts a list, and
`rejectsCycles_iff` when that agrees with the graph that `sortDependencies` goes through.
-/

namespace KhulnasoftLsp.Di

open Relation

section Check

variable (cwds : List ClassWithDependencies) (present : List Symbol)

/-- The first listed class of the interface `s` depends on the interface `t`. -/
def FirstNeeds (s t : Symbol) : Prop :=
  ∃ c, cwds.find? (·.id = s) = some c ∧ t ∈ c.symbols

/-- The interface has neither a listed class nor an instance. -/
def Absent (s : Symbol) : Prop := cwds.find? (·.id = s) = none ∧ s ∉ present

/-- Nothing is found from the interface on: neither a cycle nor a missing dependency. -/
def Clean (fuel : Nat) (inStack : List Symbol) (s : Symbol) : Prop :=
  hasCircularDependency cwds present fuel inStack s = some (.ok none)

theorem firstFound_eq_nothing_iff {α : Type} {search : α → Search} {as : List α} :
    firstFound search as = some (.ok none) ↔ ∀ a ∈ as, search a = some (.ok none) := by
  induction as with
  | nil => simp [firstFound]
  | cons a as ih =>
      rw [firstFound, List.forall_mem_cons, ← ih]
      split
      · rename_i h
        simp [h]
      · rename_i hne
        constructor
        · intro h
          exact absurd h hne
        · rintro ⟨h, -⟩
          exact absurd h hne

/-- The search with one step written out. -/
theorem clean_succ_iff {fuel : Nat} {inStack : List Symbol} {s : Symbol} :
    Clean cwds present (fuel + 1) inStack s ↔ s ∉ inStack ∧ ¬ Absent cwds present s ∧
      ∀ t, FirstNeeds cwds s t → Clean cwds present fuel (inStack ++ [s]) t := by
  unfold Clean Absent FirstNeeds
  rw [hasCircularDependency]
  by_cases hin : s ∈ inStack
  · simp [hin]
  · cases hfind : cwds.find? (·.id = s) with
    | none => by_cases hp : s ∈ present <;> simp [hin, hp]
    | some c =>
        simp only [hin, if_false, firstFound_eq_nothing_iff, not_false_iff, true_and]
        simp [ClassWithDependencies.symbols]

/-- With an interface, the search is clean at all that it leads to, and what is in its stack is not
met again. -/
theorem Clean.below {fuel : Nat} {inStack : List Symbol} {s t : Symbol}
    (h : Clean cwds present fuel inStack s) (hst : ReflTransGen (FirstNeeds cwds) s t) :
    ∃ fuel' inStack', Clean cwds present fuel' (inStack ++ inStack') t := by
  induction hst with
  | refl => exact ⟨fuel, [], by simpa using h⟩
  | tail _ hbc ih =>
      obtain ⟨fuel', inStack', hclean⟩ := ih
      cases fuel' with
      | zero => cases hclean
      | succ fuel' =>
          obtain ⟨-, -, hnext⟩ := (clean_succ_iff cwds present).mp hclean
          exact ⟨fuel', inStack' ++ [_], by simpa using hnext _ hbc⟩

theorem Clean.not_absent {fuel : Nat} {inStack : List Symbol} {s : Symbol}
    (h : Clean cwds present fuel inStack s) : s ∉ inStack ∧ ¬ Absent cwds present s := by
  cases fuel with
  | zero => cases h
  | succ fuel =>
      obtain ⟨hin, habsent, -⟩ := (clean_succ_iff cwds present).mp h
      exact ⟨hin, habsent⟩

/-- A clean search has gone through no cycle. -/
theorem Clean.no_cycle {fuel : Nat} {inStack : List Symbol} {s : Symbol}
    (h : Clean cwds present fuel inStack s) : ¬ TransGen (FirstNeeds cwds) s s := by
  intro hcycle
  obtain ⟨t, hst, hts⟩ := TransGen.head'_iff.mp hcycle
  cases fuel with
  | zero => cases h
  | succ fuel =>
      obtain ⟨-, -, hnext⟩ := (clean_succ_iff cwds present).mp h
      obtain ⟨fuel', inStack', hclean⟩ := (hnext t hst).below cwds present hts
      have hnot := (hclean.not_absent cwds present).1
      simp at hnot

theorem mem_of_find?_id {s : Symbol} {c : ClassWithDependencies}
    (hfind : cwds.find? (·.id = s) = some c) : c ∈ cwds ∧ c.id = s := by
  refine ⟨List.mem_of_find?_eq_some hfind, ?_⟩
  simpa using List.find?_some hfind

/-- A listed interface that is pushed on the stack brings the end of the search nearer. -/
theorem countP_pushed_lt {inStack : List Symbol} {s : Symbol} {c : ClassWithDependencies}
    (hfind : cwds.find? (·.id = s) = some c) (hin : s ∉ inStack) :
    cwds.countP (fun c => c.id ∉ inStack ++ [s]) < cwds.countP fun c => c.id ∉ inStack := by
  obtain ⟨hc, hcs⟩ := mem_of_find?_id cwds hfind
  apply List.countP_lt_countP_of_mem _ hc
  · simpa [hcs] using hin
  · simp [hcs]
  · intro d _ hd
    simp only [List.mem_append, decide_eq_true_eq, not_or] at hd ⊢
    exact hd.1

/-- The search is clean at an interface from which neither a cycle nor a missing dependency nor the
stack is reached, if its fuel exceeds the number of listed classes whose interface is not in the
stack. -/
theorem clean_of_settled :
    ∀ fuel inStack s, cwds.countP (fun c => c.id ∉ inStack) < fuel →
      (∀ t, ReflTransGen (FirstNeeds cwds) s t →
        t ∉ inStack ∧ ¬ Absent cwds present t ∧ ¬ TransGen (FirstNeeds cwds) t t) →
      Clean cwds present fuel inStack s := by
  intro fuel
  induction fuel with
  | zero =>
      intro inStack s hfuel
      omega
  | succ fuel ih =>
      intro inStack s hfuel hbelow
      obtain ⟨hin, habsent, hcycle⟩ := hbelow s .refl
      refine (clean_succ_iff cwds present).mpr ⟨hin, habsent, ?_⟩
      intro t hst
      apply ih
      · obtain ⟨c, hfind, -⟩ := id hst
        have hlt := countP_pushed_lt cwds hfind hin
        omega
      · intro u htu
        obtain ⟨hu, hrest⟩ := hbelow u (ReflTransGen.head hst htu)
        refine ⟨?_, hrest⟩
        rw [List.mem_append, List.mem_singleton]
        rintro (hu' | rfl)
        · exact hu hu'
        · exact hcycle (TransGen.head' hst htu)

theorem firstFound_ne_none {α : Type} {search : α → Search} {as : List α}
    (h : ∀ a ∈ as, search a ≠ none) : firstFound search as ≠ none := by
  induction as with
  | nil => simp [firstFound]
  | cons a as ih =>
      rw [firstFound]
      split
      · exact ih fun b hb => h b (List.mem_cons_of_mem a hb)
      · exact h a List.mem_cons_self

/-- The fuel suffices: every search ends. -/
theorem hasCircularDependency_ne_none :
    ∀ fuel inStack s, cwds.countP (fun c => c.id ∉ inStack) < fuel →
      hasCircularDependency cwds present fuel inStack s ≠ none := by
  intro fuel
  induction fuel with
  | zero =>
      intro inStack s hfuel
      omega
  | succ fuel ih =>
      intro inStack s hfuel
      rw [hasCircularDependency]
      split
      · simp
      · rename_i hin
        split
        · split <;> simp
        · rename_i c hfind
          have hlt := countP_pushed_lt cwds hfind hin
          apply firstFound_ne_none
          intro dep _
          apply ih
          omega

/-! ## What the check accepts -/

theorem noCircularDependencies_ne_none : noCircularDependencies cwds present ≠ none := by
  have hfound : ∀ c : ClassWithDependencies,
      hasCircularDependency cwds present (cwds.length + 1) [] c.id ≠ none := by
    intro c
    apply hasCircularDependency_ne_none
    have hle : cwds.countP (fun c => c.id ∉ ([] : List Symbol)) ≤ cwds.length :=
      List.countP_le_length
    omega
  rw [noCircularDependencies, Ne, Option.map_eq_none_iff]
  apply firstFound_ne_none
  intro c _
  split
  · simp
  · exact hfound c

/-- A search that reports every cycle as an error finds nothing or an error. -/
theorem firstFound_eq_ok_iff {α : Type} {search : α → Search} {as : List α}
    (h : ∀ a path, search a ≠ some (.ok (some path))) :
    (∃ r, firstFound search as = some (.ok r)) ↔ ∀ a ∈ as, search a = some (.ok none) := by
  rw [← firstFound_eq_nothing_iff]
  constructor
  · rintro ⟨r, hr⟩
    induction as with
    | nil => rfl
    | cons a as ih =>
        rw [firstFound] at hr ⊢
        split at hr
        · exact ih hr
        · cases r with
          | none => exact hr
          | some path => exact absurd hr (h a path)
  · intro hnothing
    exact ⟨none, hnothing⟩

theorem map_eq_ok_iff {found : Search} :
    (found.map fun r => r.map fun _ => ()) = some (.ok ()) ↔ ∃ r, found = some (.ok r) := by
  rcases found with _ | e | r
  · simp
  · simp [Except.map]
  · simp [Except.map]

theorem noCircularDependencies_eq_ok_iff_clean :
    noCircularDependencies cwds present = some (.ok ()) ↔
      ∀ c ∈ cwds, Clean cwds present (cwds.length + 1) [] c.id := by
  rw [noCircularDependencies, map_eq_ok_iff, firstFound_eq_ok_iff]
  · apply forall₂_congr
    intro c _
    unfold Clean
    split
    · rename_i h
      simp [h]
    · rfl
  · intro c path h
    split at h
    · cases h
    · rename_i hne
      exact hne path h

/-- **What the check accepts.** It accepts the lists without a cycle through first classes in which
no first class depends on an interface that has neither a class nor an instance. -/
theorem noCircularDependencies_eq_ok_iff :
    noCircularDependencies cwds present = some (.ok ()) ↔
      Acyclic (FirstNeeds cwds) ∧ ∀ s t, FirstNeeds cwds s t → ¬ Absent cwds present t := by
  rw [noCircularDependencies_eq_ok_iff_clean]
  constructor
  · intro hclean
    have hfirst : ∀ s t, FirstNeeds cwds s t → Clean cwds present (cwds.length + 1) [] s := by
      rintro s t ⟨c, hfind, -⟩
      obtain ⟨hc, rfl⟩ := mem_of_find?_id cwds hfind
      exact hclean c hc
    constructor
    · intro s hcycle
      obtain ⟨t, hst, -⟩ := TransGen.head'_iff.mp hcycle
      exact (hfirst s t hst).no_cycle cwds present hcycle
    · intro s t hst
      obtain ⟨fuel, inStack, hbelow⟩ := (hfirst s t hst).below cwds present (.single hst)
      exact (hbelow.not_absent cwds present).2
  · rintro ⟨hacyclic, hpresent⟩ c hc
    apply clean_of_settled
    · have hle : cwds.countP (fun c => c.id ∉ ([] : List Symbol)) ≤ cwds.length :=
        List.countP_le_length
      omega
    · intro t ht
      refine ⟨List.not_mem_nil, ?_, hacyclic t⟩
      rcases ReflTransGen.cases_tail ht with rfl | ⟨s, -, hst⟩
      · rintro ⟨hnone, -⟩
        rw [List.find?_eq_none] at hnone
        exact hnone c hc (by simp)
      · exact hpresent s t hst

/-! ## The check and the graph -/

/-- A first class depends on a collection whose interface has neither a class nor an instance. -/
def EmptyCollectionNeeded : Prop :=
  ∃ s c, cwds.find? (·.id = s) = some c ∧ ∃ t, DependencyId.collection t ∈ c.dependencies ∧
    t ∉ cwds.map ClassWithDependencies.id ∧ t ∉ present

theorem absent_iff {t : Symbol} :
    Absent cwds present t ↔ t ∉ cwds.map ClassWithDependencies.id ∧ t ∉ present := by
  unfold Absent
  rw [List.find?_eq_none]
  simp

/-- After `dependenciesArePresent`, every direct dependency is listed or has an instance. -/
theorem present_of_dependenciesArePresent (h : dependenciesArePresent cwds present = .ok ())
    {c : ClassWithDependencies} (hc : c ∈ cwds) {t : Symbol}
    (ht : DependencyId.single t ∈ c.dependencies) :
    t ∈ cwds.map ClassWithDependencies.id ∨ t ∈ present := by
  unfold dependenciesArePresent at h
  simp only at h
  split at h
  · rename_i hempty
    have hunmet : unmetDependencies cwds present c = [] := by
      by_contra hne
      have hmem : c ∈ cwds.filter fun c => !(unmetDependencies cwds present c).isEmpty := by
        simp [hc, hne]
      rw [List.isEmpty_iff.mp hempty] at hmem
      cases hmem
    by_contra hnot
    have hdep : t ∈ unmetDependencies cwds present c := by
      apply List.mem_map_of_mem (f := DependencyId.symbol) (a := .single t)
      apply List.mem_filter.mpr
      refine ⟨ht, ?_⟩
      rw [← List.mem_append] at hnot
      simpa [DependencyId.isCollectionToken, DependencyId.symbol] using hnot
    rw [hunmet] at hdep
    cases hdep
  · cases h

/-- Among present dependencies, only an empty collection can be missing. -/
theorem emptyCollectionNeeded_iff (h : dependenciesArePresent cwds present = .ok ()) :
    EmptyCollectionNeeded cwds present ↔ ∃ s t, FirstNeeds cwds s t ∧ Absent cwds present t := by
  constructor
  · rintro ⟨s, c, hfind, t, ht, habsent⟩
    refine ⟨s, t, ⟨c, hfind, ?_⟩, (absent_iff cwds present).mpr habsent⟩
    exact List.mem_map_of_mem (f := DependencyId.symbol) ht
  · rintro ⟨s, t, ⟨c, hfind, ht⟩, habsent⟩
    have hmissing := (absent_iff cwds present).mp habsent
    obtain ⟨dep, hdep, rfl⟩ := List.mem_map.mp ht
    refine ⟨s, c, hfind, dep.symbol, ?_, hmissing⟩
    cases dep with
    | collection baseId => exact hdep
    | single t =>
        have hc := (mem_of_find?_id cwds hfind).1
        exact absurd (present_of_dependenciesArePresent cwds present h hc hdep)
          (not_or.mpr hmissing)

/-- `noCircularDependencies` throws exactly if the graph of the classes has a cycle, and the sort
of a list that it lets through ends. -/
structure RejectsCycles : Prop where
  rejects : (∃ e, noCircularDependencies cwds present = some (.error e)) ↔
    ¬ Acyclic (Edge cwds)
  sortEnds : noCircularDependencies cwds present = some (.ok ()) →
    ∃ fuel sorted, sortDependencies fuel cwds = some sorted

/-- A list with a cycle has one through first classes, or a first class of it depends on an empty
collection; and it has a cycle if a first class depends on an empty collection. -/
structure CyclesAreSeen : Prop where
  firstClasses : ¬ Acyclic (Edge cwds) → ¬ EmptyCollectionNeeded cwds present →
    ¬ Acyclic (FirstNeeds cwds)
  emptyCollections : EmptyCollectionNeeded cwds present → ¬ Acyclic (Edge cwds)

/-- A cycle through first classes is a cycle. -/
theorem acyclic_firstNeeds (h : Acyclic (Edge cwds)) : Acyclic (FirstNeeds cwds) := by
  apply Acyclic.of_map (f := id) ((acyclic_needs_iff cwds).mpr h)
  rintro s t ⟨c, hfind, ht⟩
  obtain ⟨hc, hcs⟩ := mem_of_find?_id cwds hfind
  exact ⟨c, hc, hcs, ht⟩

theorem cyclesAreSeen_iff : CyclesAreSeen cwds present ↔
    (¬ Acyclic (FirstNeeds cwds) ∨ EmptyCollectionNeeded cwds present ↔
      ¬ Acyclic (Edge cwds)) := by
  have hfirst := acyclic_firstNeeds cwds
  constructor
  · rintro ⟨hseen, hempty⟩
    tauto
  · intro hiff
    constructor <;> tauto

theorem rejects_iff (h : dependenciesArePresent cwds present = .ok ()) :
    (∃ e, noCircularDependencies cwds present = some (.error e)) ↔
      ¬ Acyclic (FirstNeeds cwds) ∨ EmptyCollectionNeeded cwds present := by
  have hends := noCircularDependencies_ne_none cwds present
  have haccepts := noCircularDependencies_eq_ok_iff cwds present
  have hrejects : (∃ e, noCircularDependencies cwds present = some (.error e)) ↔
      ¬ noCircularDependencies cwds present = some (.ok ()) := by
    match hr : noCircularDependencies cwds present with
    | none => exact absurd hr hends
    | some (.ok ()) => simp
    | some (.error e) => simp
  rw [hrejects, haccepts, emptyCollectionNeeded_iff cwds present h, not_and_or]
  simp only [not_forall, not_not, exists_prop]

end Check

/-- **What the check is worth.** For decorated classes whose dependencies are present, it rejects
exactly the cyclic lists, and the sort ends on the others, if and only if every cycle is seen. -/
theorem rejectsCycles_iff {ι : Type} (metadata : WithConstructor → Option Metadata)
    (classes : List WithConstructor) (c : Container ι)
    (hpresent : dependenciesArePresent (Container.classesWithDeps metadata classes) c.symbols =
      .ok ()) :
    RejectsCycles (Container.classesWithDeps metadata classes) c.symbols ↔
      CyclesAreSeen (Container.classesWithDeps metadata classes) c.symbols := by
  have hiff := rejects_iff (Container.classesWithDeps metadata classes) c.symbols hpresent
  constructor
  · intro h
    exact (cyclesAreSeen_iff _ _).mpr (hiff.symm.trans h.rejects)
  · intro hseen
    have hrejects := hiff.trans ((cyclesAreSeen_iff _ _).mp hseen)
    refine ⟨hrejects, ?_⟩
    intro hok
    have hacyclic : Acyclic (Edge (Container.classesWithDeps metadata classes)) := by
      by_contra hcyclic
      obtain ⟨e, he⟩ := hrejects.mpr hcyclic
      rw [hok] at he
      cases he
    obtain ⟨sorted, hsorted, -⟩ := sortDependencies_spec
      (decorated_classesWithDeps metadata classes) hacyclic (Nat.lt_succ_self _)
    exact ⟨_, sorted, hsorted⟩

/-- The interfaces of the samples. -/
def symbolA : Symbol := ⟨0, "A"⟩
def symbolB : Symbol := ⟨1, "B"⟩

/-- Two classes of the interface `A`, of which the second depends on `B`, and a class of `B` that
depends on `A`. -/
def classA1 : WithConstructor := ⟨0, "AImpl1"⟩
def classA2 : WithConstructor := ⟨1, "AImpl2"⟩
def classB : WithConstructor := ⟨2, "BImpl"⟩

def sampleMetadata (cls : WithConstructor) : Option Metadata :=
  if cls = classA1 then some ⟨symbolA, []⟩
  else if cls = classA2 then some ⟨symbolA, [.single symbolB]⟩
  else if cls = classB then some ⟨symbolB, [.single symbolA]⟩
  else none

/-- A class and the class that depends on it. -/
theorem rejectsCycles_iff_of_two_classes :
    RejectsCycles (Container.classesWithDeps sampleMetadata [classB, classA1])
        (Container.empty (ι := Unit)).symbols ↔
      CyclesAreSeen (Container.classesWithDeps sampleMetadata [classB, classA1])
        (Container.empty (ι := Unit)).symbols :=
  rejectsCycles_iff sampleMetadata [classB, classA1] Container.empty (by rfl)

/-- The classes of the samples, with their interfaces and dependencies. -/
def sampleCycle : List ClassWithDependencies :=
  Container.classesWithDeps sampleMetadata [classA1, classA2, classB]

/-- Back in the interface `A`, the recursion of the sort begins again. -/
theorem topologicalSort_sampleCycle : ∀ fuel,
    topologicalSort sampleCycle fuel symbolA
        (Sorting.new.push ⟨classA1, symbolA, []⟩) = none ∧
      topologicalSort sampleCycle fuel symbolB
        (Sorting.new.push ⟨classA1, symbolA, []⟩) = none := by
  intro fuel
  induction fuel with
  | zero => exact ⟨rfl, rfl⟩
  | succ fuel ih =>
      have hA : (sampleCycle.filter fun c => decide (c.id = symbolA) &&
          !(c.cls ∈ (Sorting.new.push ⟨classA1, symbolA, []⟩).processedClasses)) =
          [⟨classA2, symbolA, [.single symbolB]⟩] := by decide
      have hB : (sampleCycle.filter fun c => decide (c.id = symbolB) &&
          !(c.cls ∈ (Sorting.new.push ⟨classA1, symbolA, []⟩).processedClasses)) =
          [⟨classB, symbolB, [.single symbolA]⟩] := by decide
      rw [topologicalSort, topologicalSort, hA, hB]
      simp [DependencyId.symbol, ih.1, ih.2]

/-- The check sees the first class of `A` only, and accepts the list; the sort never ends. -/
theorem not_rejectsCycles_of_second_class :
    dependenciesArePresent sampleCycle (Container.empty (ι := Unit)).symbols = .ok () ∧
      ¬ RejectsCycles sampleCycle (Container.empty (ι := Unit)).symbols ∧
      ∀ fuel, sortDependencies fuel sampleCycle = none := by
  refine ⟨by rfl, ?_, ?_⟩
  · intro h
    have hcycle : TransGen (Edge sampleCycle) ⟨classA2, symbolA, [.single symbolB]⟩
        ⟨classA2, symbolA, [.single symbolB]⟩ :=
      TransGen.head (b := ⟨classB, symbolB, [.single symbolA]⟩)
        (by unfold Edge; decide) (TransGen.single (by unfold Edge; decide))
    obtain ⟨e, he⟩ := h.rejects.mpr fun hacyclic => hacyclic _ hcycle
    have hok : noCircularDependencies sampleCycle (Container.empty (ι := Unit)).symbols =
        some (.ok ()) := by rfl
    rw [hok] at he
    cases he
  · intro fuel
    have hfirst : topologicalSort sampleCycle fuel symbolA Sorting.new = none := by
      cases fuel with
      | zero => rfl
      | succ fuel =>
          have hA : (sampleCycle.filter fun c => decide (c.id = symbolA) &&
              !(c.cls ∈ Sorting.new.processedClasses)) =
              [⟨classA1, symbolA, []⟩, ⟨classA2, symbolA, [.single symbolB]⟩] := by decide
          rw [topologicalSort, hA]
          simp [DependencyId.symbol, (topologicalSort_sampleCycle fuel).2]
    have hlist : sampleCycle = [⟨classA1, symbolA, []⟩, ⟨classA2, symbolA, [.single symbolB]⟩,
        ⟨classB, symbolB, [.single symbolA]⟩] := by decide
    rw [sortDependencies]
    nth_rewrite 2 [hlist]
    rw [List.foldlM_cons, hfirst]
    rfl

end KhulnasoftLsp.Di
