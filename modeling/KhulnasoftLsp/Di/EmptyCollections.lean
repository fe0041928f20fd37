import KhulnasoftLsp.Di.Instantiate

/-!
# Empty collections

`dependenciesArePresent` lets a collection through that nobody provides, and `instantiate` would
inject the empty list for it. The check for cycles throws at such a collection if its search comes
to it. The search goes, from interface to interface, to the first dependency from which a cycle or
a missing interface can be reached (`Follows`), so that it throws exactly if this way ends at a
missing interface.
-/

/-- What every pass of a loop that may fail keeps. -/
theorem List.foldlM_option_keeps {α β : Type*} {f : β → α → Option β} {P : β → Prop} :
    ∀ {l : List α} {b b' : β}, (∀ a ∈ l, ∀ b b', P b → f b a = some b' → P b') → P b →
      l.foldlM f b = some b' → P b' := by
  intro l
  induction l with
  | nil =>
      intro b b' _ hb h
      cases h
      exact hb
  | cons a l ih =>
      intro b b' hstep hb h
      rw [List.foldlM_cons] at h
      obtain ⟨c, hc, hrest⟩ := Option.bind_eq_some_iff.mp h
      exact ih (fun a' ha' => hstep a' (List.mem_cons_of_mem _ ha'))
        (hstep a List.mem_cons_self b c hb hc) hrest

namespace KhulnasoftLsp.Di

open Relation

/-! ## Ways without a choice -/

/-- Where every node has one successor at most, all that is reached from a node on a cycle is on a
cycle. -/
theorem transGen_of_reached {α : Type*} {r : α → α → Prop} (hr : Relator.RightUnique r) {a b : α}
    (hcycle : TransGen r a a) (hab : ReflTransGen r a b) : TransGen r b b := by
  induction hab with
  | refl => exact hcycle
  | tail _ hbc ih =>
      obtain ⟨d, hbd, hdb⟩ := TransGen.head'_iff.mp ih
      obtain rfl := hr hbc hbd
      exact TransGen.tail' hdb hbc

section Check

variable (cwds : List ClassWithDependencies) (present : List Symbol)

/-- From the interface, neither a missing interface nor a cycle can be reached. -/
def Settled (s : Symbol) : Prop :=
  ∀ t, ReflTransGen (FirstNeeds cwds) s t →
    ¬ Absent cwds present t ∧ ¬ TransGen (FirstNeeds cwds) t t

/-- The first of the interfaces that is not settled. -/
def FirstUnsettled (symbols : List Symbol) (t : Symbol) : Prop :=
  ∃ before after, symbols = before ++ t :: after ∧
    (∀ u ∈ before, Settled cwds present u) ∧ ¬ Settled cwds present t

/-- The interface `t` is the first dependency of the first class of `s` that is not settled. -/
def Follows (s t : Symbol) : Prop :=
  ∃ c, cwds.find? (·.id = s) = some c ∧ FirstUnsettled cwds present c.symbols t

/-- The way that begins with the first listed interface that is not settled, and follows from each
interface the first dependency that is not, ends at an interface without class and instance. -/
def MeetsMissing (t : Symbol) : Prop :=
  ∃ s, FirstUnsettled cwds present (cwds.map ClassWithDependencies.id) s ∧
    ReflTransGen (Follows cwds present) s t ∧ Absent cwds present t

variable {cwds present}

theorem FirstUnsettled.unique {symbols : List Symbol} {t u : Symbol}
    (ht : FirstUnsettled cwds present symbols t) (hu : FirstUnsettled cwds present symbols u) :
    t = u := by
  induction symbols with
  | nil =>
      obtain ⟨before, after, heq, -⟩ := ht
      simp at heq
  | cons s symbols ih =>
      obtain ⟨before, after, heq, hbefore, hnot⟩ := ht
      obtain ⟨before', after', heq', hbefore', hnot'⟩ := hu
      cases before with
      | nil =>
          cases before' with
          | nil => exact (List.cons.inj heq).1.symm.trans (List.cons.inj heq').1
          | cons b before' =>
              obtain ⟨rfl, -⟩ := List.cons.inj heq
              obtain ⟨rfl, -⟩ := List.cons.inj heq'
              exact absurd (hbefore' _ List.mem_cons_self) hnot
      | cons b before =>
          obtain ⟨rfl, hrest⟩ := List.cons.inj heq
          cases before' with
          | nil =>
              obtain ⟨rfl, -⟩ := List.cons.inj heq'
              exact absurd (hbefore _ List.mem_cons_self) hnot'
          | cons b' before' =>
              obtain ⟨-, hrest'⟩ := List.cons.inj heq'
              apply ih
              · exact ⟨before, after, hrest,
                  fun v hv => hbefore v (List.mem_cons_of_mem _ hv), hnot⟩
              · exact ⟨before', after', hrest',
                  fun v hv => hbefore' v (List.mem_cons_of_mem _ hv), hnot'⟩

theorem follows_rightUnique : Relator.RightUnique (Follows cwds present) := by
  rintro s t u ⟨c, hfind, ht⟩ ⟨d, hfind', hu⟩
  obtain rfl : c = d := Option.some.inj (hfind.symm.trans hfind')
  exact ht.unique hu

theorem FirstUnsettled.mem {symbols : List Symbol} {t : Symbol}
    (h : FirstUnsettled cwds present symbols t) : t ∈ symbols := by
  obtain ⟨before, after, rfl, -⟩ := h
  simp

theorem Follows.firstNeeds {s t : Symbol} (h : Follows cwds present s t) :
    FirstNeeds cwds s t := by
  obtain ⟨c, hfind, ht⟩ := h
  exact ⟨c, hfind, ht.mem⟩

theorem reached_of_follows {s t : Symbol} (h : ReflTransGen (Follows cwds present) s t) :
    ReflTransGen (FirstNeeds cwds) s t :=
  h.lift id fun _ _ hst => hst.firstNeeds

theorem not_settled_of_follows {s t : Symbol} (hst : ReflTransGen (Follows cwds present) s t)
    (ht : Absent cwds present t) : ¬ Settled cwds present s := by
  intro hs
  exact (hs t (reached_of_follows hst)).1 ht

/-- A way that ends at a missing interface does not go round. -/
theorem no_cycle_of_absent {s t : Symbol} (hst : ReflTransGen (Follows cwds present) s t)
    (ht : Absent cwds present t) : ¬ TransGen (Follows cwds present) s s := by
  intro hcycle
  obtain ⟨u, ⟨c, hfind, -⟩, -⟩ :=
    TransGen.head'_iff.mp (transGen_of_reached follows_rightUnique hcycle hst)
  rw [ht.1] at hfind
  cases hfind

/-! ## The search follows the way -/

/-- An outcome of a list of searches is that of the first of them that finds anything. -/
theorem firstFound_eq_iff {α : Type} {search : α → Search} {as : List α} {found : Search}
    (hfound : found ≠ some (.ok none)) : firstFound search as = found ↔
      ∃ before a after, as = before ++ a :: after ∧
        (∀ b ∈ before, search b = some (.ok none)) ∧ search a = found := by
  induction as with
  | nil => simp [firstFound, hfound.symm]
  | cons x as ih =>
      rw [firstFound]
      split
      · rename_i hx
        rw [ih]
        constructor
        · rintro ⟨before, a, after, rfl, hbefore, ha⟩
          refine ⟨x :: before, a, after, rfl, ?_, ha⟩
          rw [List.forall_mem_cons]
          exact ⟨hx, hbefore⟩
        · rintro ⟨before, a, after, heq, hbefore, ha⟩
          cases before with
          | nil =>
              obtain ⟨rfl, -⟩ := List.cons.inj heq
              exact absurd (ha.symm.trans hx) hfound
          | cons b before =>
              obtain ⟨rfl, hrest⟩ := List.cons.inj heq
              exact ⟨before, a, after, hrest, (List.forall_mem_cons.mp hbefore).2, ha⟩
      · rename_i hx
        constructor
        · intro h
          exact ⟨[], x, as, rfl, by simp, h⟩
        · rintro ⟨before, a, after, heq, hbefore, ha⟩
          cases before with
          | nil =>
              obtain ⟨rfl, -⟩ := List.cons.inj heq
              exact ha
          | cons b before =>
              obtain ⟨rfl, -⟩ := List.cons.inj heq
              exact absurd (hbefore _ List.mem_cons_self) hx

/-- Nothing is found exactly from the settled interfaces, where the stack is not met again. -/
theorem Clean.settled {fuel : Nat} {inStack : List Symbol} {s : Symbol}
    (h : Clean cwds present fuel inStack s) : Settled cwds present s := by
  intro t hst
  obtain ⟨fuel', inStack', hclean⟩ := h.below cwds present hst
  exact ⟨(hclean.not_absent cwds present).2, hclean.no_cycle cwds present⟩

/-- The search that throws has gone the way. -/
theorem follows_of_missing {t : Symbol} : ∀ fuel inStack s,
    hasCircularDependency cwds present fuel inStack s = some (.error (.dependencyIdMissing t)) →
      ReflTransGen (Follows cwds present) s t ∧ Absent cwds present t := by
  intro fuel
  induction fuel with
  | zero =>
      intro inStack s h
      cases h
  | succ fuel ih =>
      intro inStack s h
      rw [hasCircularDependency] at h
      split at h
      · cases h
      · split at h
        · rename_i hfind
          split at h
          · cases h
          · rename_i hnot
            cases h
            exact ⟨.refl, hfind, hnot⟩
        · rename_i c hfind
          obtain ⟨before, dep, after, hdeps, hbefore, hdep⟩ :=
            (firstFound_eq_iff (by simp)).mp h
          obtain ⟨hway, habsent⟩ := ih _ _ hdep
          refine ⟨ReflTransGen.head ?_ hway, habsent⟩
          refine ⟨c, hfind, before.map DependencyId.symbol, after.map DependencyId.symbol, ?_, ?_,
            not_settled_of_follows hway habsent⟩
          · simp [ClassWithDependencies.symbols, hdeps]
          · intro u hu
            obtain ⟨d, hd, rfl⟩ := List.mem_map.mp hu
            exact Clean.settled (hbefore d hd)

/-- The search finds nothing from a settled dependency: what is in the stack would be on a cycle. -/
theorem clean_of_settled_dependency {fuel : Nat} {inStack : List Symbol} {s d : Symbol}
    (hfuel : cwds.countP (fun c => c.id ∉ inStack ++ [s]) < fuel)
    (hstack : ∀ u ∈ inStack, TransGen (Follows cwds present) u s) (hneeds : FirstNeeds cwds s d)
    (hsettled : Settled cwds present d) : Clean cwds present fuel (inStack ++ [s]) d := by
  apply clean_of_settled cwds present fuel _ _ hfuel
  intro v hv
  obtain ⟨habsent, hcycle⟩ := hsettled v hv
  refine ⟨?_, habsent, hcycle⟩
  have hback : ReflTransGen (Follows cwds present) v s → False := by
    intro hvs
    apply hcycle
    exact TransGen.trans_right (reached_of_follows hvs) (TransGen.head' hneeds hv)
  rw [List.mem_append, List.mem_singleton]
  rintro (hv' | rfl)
  · exact hback (hstack v hv').to_reflTransGen
  · exact hback .refl

/-- The search that goes the way throws at its end. -/
theorem missing_of_follows {t : Symbol} (ht : Absent cwds present t) : ∀ fuel inStack s,
    cwds.countP (fun c => c.id ∉ inStack) < fuel →
      (∀ u ∈ inStack, TransGen (Follows cwds present) u s) →
      ReflTransGen (Follows cwds present) s t →
      hasCircularDependency cwds present fuel inStack s =
        some (.error (.dependencyIdMissing t)) := by
  intro fuel
  induction fuel with
  | zero =>
      intro inStack s hfuel
      omega
  | succ fuel ih =>
      intro inStack s hfuel hstack hway
      have hin : s ∉ inStack := fun hs => no_cycle_of_absent hway ht (hstack s hs)
      rw [hasCircularDependency, if_neg hin]
      rcases ReflTransGen.cases_head hway with rfl | ⟨u, hsu, hut⟩
      · rw [ht.1]
        exact if_neg ht.2
      · obtain ⟨c, hfind, before, after, hdeps, hbefore, hu⟩ := id hsu
        have hlt := countP_pushed_lt cwds hfind hin
        obtain ⟨deps, rest, hsplit, hdepsBefore, hrest⟩ := List.map_eq_append_iff.mp hdeps
        obtain ⟨dep, deps', rfl, rfl, -⟩ := List.map_eq_cons_iff.mp hrest
        rw [hfind]
        refine (firstFound_eq_iff (by simp)).mpr ⟨deps, dep, deps', hsplit, ?_, ?_⟩
        · intro d hd
          have hneeds : FirstNeeds cwds s d.symbol := by
            refine ⟨c, hfind, ?_⟩
            apply List.mem_map_of_mem
            rw [hsplit]
            exact List.mem_append_left _ hd
          have hsettled := hbefore d.symbol (hdepsBefore ▸ List.mem_map_of_mem hd)
          exact clean_of_settled_dependency (by omega) hstack hneeds hsettled
        · apply ih
          · omega
          · intro v hv
            rcases List.mem_append.mp hv with hv | hv
            · exact (hstack v hv).tail hsu
            · rw [List.mem_singleton.mp hv]
              exact .single hsu
          · exact hut

/-- **When the assertion is reached.** -/
theorem dependencyIdMissing_iff {t : Symbol} :
    noCircularDependencies cwds present = some (.error (.dependencyIdMissing t)) ↔
      MeetsMissing cwds present t := by
  have hmap : ∀ found : Search, (found.map fun found => found.map fun _ => ()) =
      some (.error (.dependencyIdMissing t)) ↔ found = some (.error (.dependencyIdMissing t)) := by
    rintro (_ | _ | _) <;> simp [Except.map]
  have hfuel : cwds.countP (fun c => c.id ∉ ([] : List Symbol)) < cwds.length + 1 :=
    Nat.lt_succ_of_le List.countP_le_length
  rw [noCircularDependencies, hmap, firstFound_eq_iff (by simp)]
  constructor
  · rintro ⟨before, c, after, hcwds, hbefore, hc⟩
    have hsearch : hasCircularDependency cwds present (cwds.length + 1) [] c.id =
        some (.error (.dependencyIdMissing t)) := by
      split at hc
      · cases hc
      · exact hc
    obtain ⟨hway, habsent⟩ := follows_of_missing _ _ _ hsearch
    refine ⟨c.id, ⟨before.map ClassWithDependencies.id, after.map ClassWithDependencies.id, ?_, ?_,
      not_settled_of_follows hway habsent⟩, hway, habsent⟩
    · simp [hcwds]
    · intro u hu
      obtain ⟨d, hd, rfl⟩ := List.mem_map.mp hu
      have hclean := hbefore d hd
      split at hclean
      · cases hclean
      · exact Clean.settled hclean
  · rintro ⟨s, ⟨before, after, hids, hbefore, hs⟩, hway, habsent⟩
    obtain ⟨listed, rest, hsplit, rfl, hrest⟩ := List.map_eq_append_iff.mp hids
    obtain ⟨c, rest', rfl, rfl, -⟩ := List.map_eq_cons_iff.mp hrest
    refine ⟨listed, c, rest', hsplit, ?_, ?_⟩
    · intro d hd
      have hclean : Clean cwds present (cwds.length + 1) [] d.id := by
        apply clean_of_settled cwds present _ _ _ hfuel
        intro v hv
        exact ⟨List.not_mem_nil, hbefore d.id (List.mem_map_of_mem hd) v hv⟩
      unfold Clean at hclean
      rw [hclean]
    · rw [missing_of_follows habsent _ _ _ hfuel (by simp) hway]

/-- After `dependenciesArePresent`, a class at the end of such a way needs an empty collection. -/
theorem MeetsMissing.emptyCollectionNeeded {t : Symbol}
    (hpresent : dependenciesArePresent cwds present = .ok ()) (h : MeetsMissing cwds present t) :
    EmptyCollectionNeeded cwds present := by
  obtain ⟨s, hfirst, hway, habsent⟩ := h
  apply (emptyCollectionNeeded_iff cwds present hpresent).mpr
  rcases ReflTransGen.cases_tail hway with rfl | ⟨u, -, hut⟩
  · have hlisted := hfirst.mem
    exact absurd hlisted ((absent_iff cwds present).mp habsent).1
  · exact ⟨u, t, hut.firstNeeds, habsent⟩

end Check

/-! ## What is injected for an empty collection -/

open Container

variable {ι : Type}

theorem resolve_empty {c : Container ι} {t : Symbol} (ht : c.getAll t = []) :
    c.resolve (.collection t) = .ok (.all []) := by
  show Except.ok (Argument.all (c.getAll t)) = _
  rw [ht]

/-- An interface without instance and without a class in the list has none after the loop either,
and all that has been constructed has been given the empty list for it. -/
theorem construct_empty (new : Constructors ι) {t : Symbol} : ∀ todo r,
    (∀ cwd ∈ todo, cwd.id ≠ t) → r.container.getAll t = [] →
      (∀ k ∈ r.constructed, ∀ i : Nat, k.cwd.dependencies[i]? = some (.collection t) →
        k.args[i]? = some (.all [])) →
      ∀ k ∈ (construct new todo r).constructed, ∀ i : Nat,
        k.cwd.dependencies[i]? = some (.collection t) → k.args[i]? = some (.all []) := by
  intro todo
  induction todo with
  | nil =>
      intro r _ _ h
      exact h
  | cons cwd todo ih =>
      intro r hids hempty h
      rw [construct]
      split
      · exact h
      · rename_i args hargs
        split
        · exact h
        · rename_i inst _
          apply ih
          · exact fun d hd => hids d (List.mem_cons_of_mem _ hd)
          · show (r.container.push cwd.id inst).getAll t = []
            rw [getAll_push, hempty, if_neg (hids cwd List.mem_cons_self)]
            rfl
          · intro k hk i hi
            rcases List.mem_append.mp hk with hk | hk
            · exact h k hk i hi
            · obtain rfl := List.mem_singleton.mp hk
              obtain ⟨arg, harg, hget⟩ := mapM_eq_ok hargs hi
              rw [resolve_empty hempty] at harg
              cases harg
              exact hget

/-! ## The sort lists no other classes -/

/-- All sorted classes are listed. -/
def Sorting.Listed (classes : List ClassWithDependencies) (s : Sorting) : Prop :=
  ∀ c ∈ s.sortedClasses, c ∈ classes

theorem topologicalSort_listed {classes : List ClassWithDependencies} : ∀ fuel symbol s s',
    Sorting.Listed classes s → topologicalSort classes fuel symbol s = some s' →
      Sorting.Listed classes s' := by
  intro fuel
  induction fuel with
  | zero =>
      intro symbol s s' _ h
      cases h
  | succ fuel ih =>
      intro symbol s s' hs h
      rw [topologicalSort] at h
      apply List.foldlM_option_keeps _ hs h
      intro cwd hcwd s s' hs hpush
      obtain ⟨sorted, hsorted, rfl⟩ := Option.map_eq_some_iff.mp hpush
      have hlisted : Sorting.Listed classes sorted := by
        apply List.foldlM_option_keeps _ hs hsorted
        intro dep _ s s' hs hdep
        exact ih dep.symbol s s' hs hdep
      intro c hc
      rcases List.mem_append.mp hc with hc | hc
      · exact hlisted c hc
      · rw [List.mem_singleton.mp hc]
        exact (List.mem_filter.mp hcwd).1

theorem sortDependencies_listed {classes sorted : List ClassWithDependencies} {fuel : Nat}
    (h : sortDependencies fuel classes = some sorted) : ∀ c ∈ sorted, c ∈ classes := by
  obtain ⟨s, hs, rfl⟩ := Option.map_eq_some_iff.mp h
  apply List.foldlM_option_keeps (P := Sorting.Listed classes) _ _ hs
  · intro cwd _ s s' hs hsort
    exact topologicalSort_listed fuel cwd.id s s' hs hsort
  · rintro c ⟨⟩

/-! ## Collections that are empty -/

section Collections

variable (metadata : WithConstructor → Option Metadata) (classes : List WithConstructor)
  (c : Container ι)

/-- The check for cycles does not throw that a dependency is missing, and every class that is
constructed gets the empty list for each of its collections without class and instance. -/
structure EmptyCollectionsInjected : Prop where
  neverMissing : ∀ t, noCircularDependencies (classesWithDeps metadata classes) c.symbols ≠
    some (.error (.dependencyIdMissing t))
  injected : ∀ (new : Constructors ι) (fuel : Nat) (r : Instantiation ι),
    c.instantiate metadata new fuel classes = some r →
      ∀ k ∈ r.constructed, ∀ (i : Nat) (t : Symbol),
        k.cwd.dependencies[i]? = some (.collection t) →
          t ∉ (classesWithDeps metadata classes).map ClassWithDependencies.id →
            t ∉ c.symbols → k.args[i]? = some (.all [])

variable {metadata classes c}

theorem getAll_eq_nil {t : Symbol} (ht : t ∉ c.symbols) : c.getAll t = [] := by
  have hget : c.instances.get t = none := by
    rw [← Option.not_isSome_iff_eq_none]
    intro hsome
    obtain ⟨l, hl⟩ := Option.isSome_iff_exists.mp hsome
    exact ht (List.mem_map_of_mem (OrderedMap.get_eq_some_iff.mp hl))
  rw [Container.getAll, hget]
  rfl

/-- Whatever is constructed gets empty lists for empty collections. -/
theorem instantiate_empty {new : Constructors ι} {fuel : Nat} {r : Instantiation ι}
    (h : c.instantiate metadata new fuel classes = some r) :
    ∀ k ∈ r.constructed, ∀ (i : Nat) (t : Symbol),
      k.cwd.dependencies[i]? = some (.collection t) →
        t ∉ (classesWithDeps metadata classes).map ClassWithDependencies.id →
          t ∉ c.symbols → k.args[i]? = some (.all []) := by
  intro k hk i t hi hclass hinstance
  have hthrows : ∀ e : InstantiateError, r = ⟨c, [], some e⟩ → k.args[i]? = some (.all []) := by
    rintro e rfl
    cases hk
  unfold Container.instantiate at h
  dsimp only at h
  split at h
  · cases h
    exact hthrows _ rfl
  · split at h
    · cases h
      exact hthrows _ rfl
    · obtain ⟨checked, -, hrest⟩ := Option.bind_eq_some_iff.mp h
      split at hrest
      · cases hrest
        exact hthrows _ rfl
      · obtain ⟨sorted, hsorted, hconstruct⟩ := Option.bind_eq_some_iff.mp hrest
        cases hconstruct
        apply construct_empty new sorted ⟨c, [], none⟩ _ (getAll_eq_nil hinstance) _ k hk i hi
        · rintro cwd hcwd rfl
          exact hclass (List.mem_map_of_mem (sortDependencies_listed hsorted cwd hcwd))
        · rintro k ⟨⟩

end Collections

/-- **Where empty collections are injected.** Among the lists that `dependenciesArePresent` accepts,
exactly those in which the search for a cycle does not come to a missing interface; and where it
comes to one, a class needs an empty collection. -/
theorem emptyCollectionsInjected_iff (metadata : WithConstructor → Option Metadata)
    (classes : List WithConstructor) (c : Container ι)
    (hpresent : dependenciesArePresent (classesWithDeps metadata classes) c.symbols = .ok ()) :
    (EmptyCollectionsInjected metadata classes c ↔
      ∀ t, ¬ MeetsMissing (classesWithDeps metadata classes) c.symbols t) ∧
    ∀ t, MeetsMissing (classesWithDeps metadata classes) c.symbols t →
      EmptyCollectionNeeded (classesWithDeps metadata classes) c.symbols := by
  constructor
  · constructor
    · intro h t hmeets
      exact h.neverMissing t (dependencyIdMissing_iff.mpr hmeets)
    · intro hmeets
      refine ⟨?_, fun new fuel r h => instantiate_empty h⟩
      intro t hmissing
      exact hmeets t (dependencyIdMissing_iff.mp hmissing)
  · intro t hmeets
    exact hmeets.emptyCollectionNeeded hpresent

/-- A class of the interface `A` that depends on the collection of `B`, behind another one. -/
def classWithCollection : WithConstructor := ⟨3, "AWithCollection"⟩

def collectionMetadata (cls : WithConstructor) : Option Metadata :=
  if cls = classWithCollection then some ⟨symbolA, [.collection symbolB]⟩
  else sampleMetadata cls

/-- The first class of `A` depends on nothing, and the search looks at no other. -/
theorem emptyCollectionsInjected_iff_of_second_class :
    EmptyCollectionsInjected collectionMetadata [classA1, classWithCollection]
        (empty : Container Nat) ∧
      ((empty : Container Nat).instantiate collectionMetadata (fun call _ _ => some call) 3
          [classA1, classWithCollection]).map Instantiation.constructed =
        some [⟨⟨classA1, symbolA, []⟩, [], 0⟩,
          ⟨⟨classWithCollection, symbolA, [.collection symbolB]⟩, [.all []], 1⟩] := by
  constructor
  · apply (emptyCollectionsInjected_iff collectionMetadata _ _ (by rfl)).1.mpr
    intro t hmeets
    have hok : noCircularDependencies
        (classesWithDeps collectionMetadata [classA1, classWithCollection])
        (empty : Container Nat).symbols = some (.ok ()) := by rfl
    rw [dependencyIdMissing_iff.mpr hmeets] at hok
    cases hok
  · rfl

/-- The only class depends on a collection that nobody provides. -/
theorem not_emptyCollectionsInjected :
    dependenciesArePresent (classesWithDeps collectionMetadata [classWithCollection])
        (empty : Container Nat).symbols = .ok () ∧
      ¬ EmptyCollectionsInjected collectionMetadata [classWithCollection]
        (empty : Container Nat) := by
  refine ⟨by rfl, ?_⟩
  intro h
  exact h.neverMissing symbolB (by rfl)

end KhulnasoftLsp.Di
