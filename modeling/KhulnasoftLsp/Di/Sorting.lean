import KhulnasoftLsp.Di.Container
import KhulnasoftLsp.Reachability

/-!
# The sort of the dependencies

`topologicalSort` of an interface appends the classes of the interface that are not sorted yet, each
after the classes of its dependencies. In an acyclic graph it comes back to no interface that is
half sorted, so that each interface is sorted completely or not at all whenever the recursion
looks at it. `sortDependencies_spec` assembles the whole result.
-/

/-- A loop that may fail, with an invariant of what has been done so far. -/
theorem List.foldlM_option_invariant {α β : Type*} {f : β → α → Option β} {l : List α}
    {P : List α → β → Prop} {b : β} (h0 : P [] b)
    (hstep : ∀ done a todo b, l = done ++ a :: todo → P done b →
      ∃ b', f b a = some b' ∧ P (done ++ [a]) b') :
    ∃ b', l.foldlM f b = some b' ∧ P l b' := by
  have hloop : ∀ todo done b, l = done ++ todo → P done b →
      ∃ b', todo.foldlM f b = some b' ∧ P l b' := by
    intro todo
    induction todo with
    | nil =>
        intro done b hl hb
        obtain rfl : l = done := by simpa using hl
        exact ⟨b, rfl, hb⟩
    | cons a todo ih =>
        intro done b hl hb
        obtain ⟨b', hf, hb'⟩ := hstep done a todo b hl hb
        obtain ⟨c, hc, hP⟩ := ih (done ++ [a]) b' (by simp [hl]) hb'
        refine ⟨c, ?_, hP⟩
        rw [List.foldlM_cons, hf]
        exact hc
  exact hloop l [] b rfl h0

namespace KhulnasoftLsp.Di

open Relation

section Graph

variable (classes : List ClassWithDependencies)

/-- There is an edge from each listed class to every listed class of an interface that it depends
on. -/
def Edge (c d : ClassWithDependencies) : Prop := c ∈ classes ∧ d ∈ classes ∧ d.id ∈ c.symbols

/-- A listed class of the interface `s` depends on the interface `t`. -/
def Needs (s t : Symbol) : Prop := ∃ c ∈ classes, c.id = s ∧ t ∈ c.symbols

/-- A path of interfaces is a path of classes, from one that depends on the next interface of the
path to every class of the last one. -/
theorem exists_path_of_needs {s t : Symbol} (h : TransGen (Needs classes) s t) :
    ∃ c ∈ classes, c.id = s ∧
      ∀ d ∈ classes, d.id = t → TransGen (Edge classes) c d := by
  induction h using TransGen.head_induction_on with
  | single hst =>
      obtain ⟨c, hc, hcs, ht⟩ := hst
      refine ⟨c, hc, hcs, ?_⟩
      rintro d hd rfl
      exact TransGen.single ⟨hc, hd, ht⟩
  | head hsu _ ih =>
      obtain ⟨c, hc, hcs, hu⟩ := hsu
      obtain ⟨c', hc', rfl, hpath⟩ := ih
      refine ⟨c, hc, hcs, ?_⟩
      intro d hd hdt
      exact TransGen.head ⟨hc, hc', hu⟩ (hpath d hd hdt)

/-- The classes have a cycle exactly if their interfaces have one. -/
theorem acyclic_needs_iff : Acyclic (Needs classes) ↔ Acyclic (Edge classes) := by
  constructor
  · intro h
    apply Acyclic.of_map (f := ClassWithDependencies.id) h
    rintro c d ⟨hc, -, hd⟩
    exact ⟨c, hc, rfl, hd⟩
  · intro h s hs
    obtain ⟨c, hc, hcs, hpath⟩ := exists_path_of_needs classes hs
    exact h c (hpath c hc hcs)

/-- The classes have been decorated: a class has one interface and one list of dependencies. -/
def Decorated : Prop := ∀ c ∈ classes, ∀ d ∈ classes, c.cls = d.cls → c = d

end Graph

theorem decorated_classesWithDeps (metadata : WithConstructor → Option Metadata)
    (classes : List WithConstructor) :
    Decorated (Container.classesWithDeps metadata classes) := by
  intro c hc d hd hcls
  obtain ⟨a, -, ha⟩ := List.mem_filterMap.mp hc
  obtain ⟨b, -, hb⟩ := List.mem_filterMap.mp hd
  obtain ⟨m, hm, rfl⟩ := Option.map_eq_some_iff.mp ha
  obtain ⟨n, hn, rfl⟩ := Option.map_eq_some_iff.mp hb
  obtain rfl : a = b := hcls
  rw [hm] at hn
  cases hn
  rfl

/-! ## Sorted interfaces -/

/-- The classes of an interface, in the order of the list. -/
def ofInterface (t : Symbol) (cs : List ClassWithDependencies) : List ClassWithDependencies :=
  cs.filter (·.id = t)

theorem mem_ofInterface {t : Symbol} {cs : List ClassWithDependencies}
    {c : ClassWithDependencies} : c ∈ ofInterface t cs ↔ c ∈ cs ∧ c.id = t := by
  simp [ofInterface]

theorem ofInterface_append (t : Symbol) (cs ds : List ClassWithDependencies) :
    ofInterface t (cs ++ ds) = ofInterface t cs ++ ofInterface t ds :=
  List.filter_append ..

theorem ofInterface_singleton (t : Symbol) (c : ClassWithDependencies) :
    ofInterface t [c] = if c.id = t then [c] else [] := by
  simp [ofInterface, List.filter_cons]

namespace Sorting

variable (classes : List ClassWithDependencies)

/-- All classes of the interface are sorted. -/
def Complete (t : Symbol) (s : Sorting) : Prop :=
  ofInterface t s.sortedClasses = ofInterface t classes

/-- No class of the interface is sorted. -/
def Untouched (t : Symbol) (s : Sorting) : Prop := ofInterface t s.sortedClasses = []

/-- What holds whenever a class has been pushed. -/
structure Valid (s : Sorting) : Prop where
  processed : s.processedClasses = s.sortedClasses.map ClassWithDependencies.cls
  listed : ∀ c ∈ s.sortedClasses, c ∈ classes
  /-- The dependencies of a sorted class are sorted. -/
  closed : ∀ c ∈ s.sortedClasses, ∀ t ∈ c.symbols, Complete classes t s
  /-- No class is sorted before one of its dependencies. -/
  ordered : s.sortedClasses.Pairwise fun c d => d.id ∉ c.symbols

variable {classes} {s : Sorting} {t : Symbol}

theorem valid_new : Valid classes Sorting.new where
  processed := rfl
  listed := by
    rintro c ⟨⟩
  closed := by
    rintro c ⟨⟩
  ordered := List.Pairwise.nil

theorem Complete.mem (h : Complete classes t s) {c : ClassWithDependencies} (hc : c ∈ classes)
    (hct : c.id = t) : c ∈ s.sortedClasses := by
  have hmem : c ∈ ofInterface t s.sortedClasses := by
    rw [h]
    exact mem_ofInterface.mpr ⟨hc, hct⟩
  exact (mem_ofInterface.mp hmem).1

/-- With an interface, all that is below it is sorted. -/
theorem Valid.complete_below (hs : Valid classes s) (ht : Complete classes t s) {u : Symbol}
    (hu : ReflTransGen (Needs classes) t u) : Complete classes u s := by
  apply hu.invariant (p := fun u => Complete classes u s) _ ht
  rintro a b ha ⟨c, hc, hca, hb⟩
  exact hs.closed c (ha.mem hc hca) b hb

/-- The classes of the interface that `topologicalSort` collects: none if it is sorted. -/
theorem collected_of_complete (hs : Valid classes s) (ht : Complete classes t s) :
    (classes.filter fun c => decide (c.id = t) && !(c.cls ∈ s.processedClasses)) = [] := by
  apply List.filter_eq_nil_iff.mpr
  intro c hc hcond
  have hct : c.id = t := by
    simp only [Bool.and_eq_true, decide_eq_true_eq] at hcond
    exact hcond.1
  have hmem : c.cls ∈ s.processedClasses := by
    rw [hs.processed]
    exact List.mem_map_of_mem (ht.mem hc hct)
  simp [hmem] at hcond

/-- And all of them if it is untouched. -/
theorem collected_of_untouched (hdec : Decorated classes) (hs : Valid classes s)
    (ht : Untouched t s) :
    (classes.filter fun c => decide (c.id = t) && !(c.cls ∈ s.processedClasses)) =
      ofInterface t classes := by
  apply List.filter_congr
  intro c hc
  by_cases hct : c.id = t
  · have hnot : c.cls ∉ s.processedClasses := by
      rw [hs.processed]
      intro hmem
      obtain ⟨d, hd, hcls⟩ := List.mem_map.mp hmem
      obtain rfl := hdec d (hs.listed d hd) c hc hcls
      have hin : d ∈ ofInterface t s.sortedClasses := mem_ofInterface.mpr ⟨hd, hct⟩
      rw [ht] at hin
      cases hin
    simp [hct, hnot]
  · simp [hct]

/-- Pushing a class whose dependencies are sorted, of an interface that is not. -/
theorem Valid.push (hs : Valid classes s) {c : ClassWithDependencies} (hc : c ∈ classes)
    (hdeps : ∀ t ∈ c.symbols, Complete classes t s) (hnot : ¬ Complete classes c.id s) :
    Valid classes (s.push c) := by
  have hkeep : ∀ u, Complete classes u s → Complete classes u (s.push c) := by
    intro u hu
    have hne : c.id ≠ u := by
      rintro rfl
      exact hnot hu
    show ofInterface u (s.sortedClasses ++ [c]) = _
    rw [ofInterface_append, ofInterface_singleton, if_neg hne, List.append_nil]
    exact hu
  constructor
  · simp [Sorting.push, hs.processed]
  · intro d hd
    rcases List.mem_append.mp hd with hd | hd
    · exact hs.listed d hd
    · rw [List.mem_singleton.mp hd]
      exact hc
  · intro d hd u hu
    apply hkeep
    rcases List.mem_append.mp hd with hd | hd
    · exact hs.closed d hd u hu
    · rw [List.mem_singleton.mp hd] at hu
      exact hdeps u hu
  · apply List.pairwise_append.mpr
    refine ⟨hs.ordered, List.pairwise_singleton _ _, ?_⟩
    intro d hd e he hmem
    rw [List.mem_singleton.mp he] at hmem
    exact hnot (hs.closed d hd c.id hmem)

end Sorting

/-! ## One interface -/

section Interfaces

variable {classes : List ClassWithDependencies}

open Sorting

/-- What sorting the interface `t` does: it sorts `t`, and leaves alone what is not below it. -/
structure Sorts (classes : List ClassWithDependencies) (t : Symbol) (s s' : Sorting) : Prop where
  valid : Valid classes s'
  complete : Complete classes t s'
  same : ∀ u, ¬ ReflTransGen (Needs classes) t u →
    ofInterface u s'.sortedClasses = ofInterface u s.sortedClasses

/-- What is completely sorted or not at all stays so. -/
theorem Sorts.settled {t u : Symbol} {s s' : Sorting} (h : Sorts classes t s s')
    (hu : Complete classes u s ∨ Untouched u s) : Complete classes u s' ∨ Untouched u s' := by
  by_cases hreach : ReflTransGen (Needs classes) t u
  · exact .inl (h.valid.complete_below h.complete hreach)
  · unfold Complete Untouched
    rw [h.same u hreach]
    exact hu

theorem Sorts.keeps {t u : Symbol} {s s' : Sorting} (h : Sorts classes t s s')
    (hu : Complete classes u s) : Complete classes u s' := by
  by_cases hreach : ReflTransGen (Needs classes) t u
  · exact h.valid.complete_below h.complete hreach
  · unfold Complete
    rw [h.same u hreach]
    exact hu

/-- The dependencies of a class, if each of them is sorted as it should be. -/
theorem sortDependenciesOf (sort : Symbol → Sorting → Option Sorting) {c : ClassWithDependencies}
    {s : Sorting} (hs : Valid classes s)
    (hsettled : ∀ t ∈ c.symbols, ∀ u, ReflTransGen (Needs classes) t u →
      Complete classes u s ∨ Untouched u s)
    (hsort : ∀ t ∈ c.symbols, ∀ s, Valid classes s →
      (∀ u, ReflTransGen (Needs classes) t u → Complete classes u s ∨ Untouched u s) →
        ∃ s', sort t s = some s' ∧ Sorts classes t s s') :
    ∃ s', c.dependencies.foldlM (fun s dep => sort dep.symbol s) s = some s' ∧
      Valid classes s' ∧ (∀ t ∈ c.symbols, Complete classes t s') ∧
      (∀ u, Complete classes u s ∨ Untouched u s → Complete classes u s' ∨ Untouched u s') ∧
      ∀ u, (∀ t ∈ c.symbols, ¬ ReflTransGen (Needs classes) t u) →
        ofInterface u s'.sortedClasses = ofInterface u s.sortedClasses := by
  obtain ⟨s', hfold, hvalid, hcomplete, hkeep, hsame⟩ := List.foldlM_option_invariant
    (l := c.dependencies) (f := fun s (dep : DependencyId) => sort dep.symbol s) (b := s)
    (P := fun done s' => Valid classes s' ∧ (∀ dep ∈ done, Complete classes dep.symbol s') ∧
      (∀ u, Complete classes u s ∨ Untouched u s → Complete classes u s' ∨ Untouched u s') ∧
      ∀ u, (∀ t ∈ c.symbols, ¬ ReflTransGen (Needs classes) t u) →
        ofInterface u s'.sortedClasses = ofInterface u s.sortedClasses)
    ⟨hs, by simp, fun _ hu => hu, fun _ _ => rfl⟩ (by
      intro done dep todo s1 hl ⟨hs1, hdone, hkeep, hsame⟩
      have hdep : dep.symbol ∈ c.symbols := by
        apply List.mem_map_of_mem
        rw [hl]
        simp
      obtain ⟨s2, hs2, hsorts⟩ := hsort dep.symbol hdep s1 hs1
        fun u hu => hkeep u (hsettled _ hdep u hu)
      refine ⟨s2, hs2, hsorts.valid, ?_, fun u hu => hsorts.settled (hkeep u hu), ?_⟩
      · intro d hd
        rcases List.mem_append.mp hd with hd | hd
        · exact hsorts.keeps (hdone d hd)
        · rw [List.mem_singleton.mp hd]
          exact hsorts.complete
      · intro u hu
        rw [hsorts.same u (hu _ hdep), hsame u hu])
  refine ⟨s', hfold, hvalid, ?_, hkeep, hsame⟩
  intro t ht
  obtain ⟨dep, hdep, rfl⟩ := List.mem_map.mp ht
  exact hcomplete dep hdep

/-- What the loop over the classes of the interface `t` has done after some of them: those are the
sorted classes of `t`, and what is not below `t` is left alone. -/
structure SortsSome (classes : List ClassWithDependencies) (t : Symbol)
    (done : List ClassWithDependencies) (s s' : Sorting) : Prop where
  valid : Valid classes s'
  done : ofInterface t s'.sortedClasses = done
  settled : ∀ u, u ≠ t → ReflTransGen (Needs classes) t u →
    Complete classes u s' ∨ Untouched u s'
  same : ∀ u, ¬ ReflTransGen (Needs classes) t u →
    ofInterface u s'.sortedClasses = ofInterface u s.sortedClasses

theorem ofInterface_push (u : Symbol) (c : ClassWithDependencies) (s : Sorting) :
    ofInterface u (s.push c).sortedClasses =
      ofInterface u s.sortedClasses ++ if c.id = u then [c] else [] := by
  rw [← ofInterface_singleton, ← ofInterface_append]
  rfl

/-- One turn of that loop. -/
theorem SortsSome.step {sort : Symbol → Sorting → Option Sorting} {t : Symbol} {s s1 : Sorting}
    {done todo : List ClassWithDependencies} {c : ClassWithDependencies}
    (hacyclic : Acyclic (Needs classes)) (h : SortsSome classes t done s s1)
    (htodo : ofInterface t classes = done ++ c :: todo)
    (hsort : ∀ u, Needs classes t u → ∀ s, Valid classes s →
      (∀ v, ReflTransGen (Needs classes) u v → Complete classes v s ∨ Untouched v s) →
        ∃ s', sort u s = some s' ∧ Sorts classes u s s') :
    ∃ s', (c.dependencies.foldlM (fun s dep => sort dep.symbol s) s1).map (Sorting.push c) =
        some s' ∧ SortsSome classes t (done ++ [c]) s s' := by
  obtain ⟨hc, hct⟩ : c ∈ classes ∧ c.id = t := by
    apply mem_ofInterface.mp
    rw [htodo]
    simp
  have hneeds : ∀ u ∈ c.symbols, Needs classes t u := fun u hu => ⟨c, hc, hct, hu⟩
  -- nothing below a dependency is `t` itself
  have hback : ∀ u ∈ c.symbols, ¬ ReflTransGen (Needs classes) u t :=
    fun u hu => hacyclic.not_reach_back (hneeds u hu)
  have hsettled : ∀ u ∈ c.symbols, ∀ v, ReflTransGen (Needs classes) u v →
      Complete classes v s1 ∨ Untouched v s1 := by
    intro u hu v hv
    apply h.settled v _ ((ReflTransGen.single (hneeds u hu)).trans hv)
    rintro rfl
    exact hback u hu hv
  obtain ⟨s2, hs2, hvalid, hdeps, hkeep, hsame⟩ := sortDependenciesOf sort h.valid hsettled
    fun u hu => hsort u (hneeds u hu)
  have hdone : ofInterface t s2.sortedClasses = done := by
    rw [hsame t hback, h.done]
  have hnot : ¬ Complete classes c.id s2 := by
    rw [hct]
    intro hcomplete
    have hdone' := hdone.symm.trans hcomplete
    rw [htodo] at hdone'
    simp at hdone'
  refine ⟨s2.push c, by rw [hs2]; rfl, hvalid.push hc hdeps hnot, ?_, ?_, ?_⟩
  · rw [ofInterface_push, hdone, if_pos hct]
  · intro u hut hu
    unfold Complete Untouched
    rw [ofInterface_push, if_neg (by rw [hct]; exact hut.symm), List.append_nil]
    exact hkeep u (h.settled u hut hu)
  · intro u hu
    have hut : c.id ≠ u := by
      rw [hct]
      rintro rfl
      exact hu .refl
    rw [ofInterface_push, if_neg hut, List.append_nil, hsame u, h.same u hu]
    intro v hv hreach
    exact hu ((ReflTransGen.single (hneeds v hv)).trans hreach)

/-- **One interface.** In an acyclic graph, a call whose fuel exceeds the number of classes below
the interface sorts it, if what is below it is completely sorted or not at all. -/
theorem topologicalSort_spec (hdec : Decorated classes) (hacyclic : Acyclic (Needs classes)) :
    ∀ fuel t s, reachCount (Needs classes) ClassWithDependencies.id classes t < fuel →
      Valid classes s →
      (∀ u, ReflTransGen (Needs classes) t u → Complete classes u s ∨ Untouched u s) →
      ∃ s', topologicalSort classes fuel t s = some s' ∧ Sorts classes t s s' := by
  intro fuel
  induction fuel with
  | zero =>
      intro t s hfuel
      omega
  | succ fuel ih =>
      intro t s hfuel hs hsettled
      rw [topologicalSort]
      by_cases hcomplete : Complete classes t s
      · rw [collected_of_complete hs hcomplete]
        exact ⟨s, rfl, hs, hcomplete, fun _ _ => rfl⟩
      have huntouched : Untouched t s := (hsettled t .refl).resolve_left hcomplete
      rw [collected_of_untouched hdec hs huntouched]
      have hstart : SortsSome classes t [] s s :=
        ⟨hs, huntouched, fun u _ hu => hsettled u hu, fun _ _ => rfl⟩
      -- fewer classes are below a dependency than below `t`
      have hsort : ∀ u, Needs classes t u → ∀ s, Valid classes s →
          (∀ v, ReflTransGen (Needs classes) u v → Complete classes v s ∨ Untouched v s) →
            ∃ s', topologicalSort classes fuel u s = some s' ∧ Sorts classes u s s' := by
        intro u hu s hs hsettled
        apply ih u s _ hs hsettled
        obtain ⟨c, hc, hct, -⟩ := id hu
        have hlt := reachCount_lt (Needs classes) ClassWithDependencies.id classes hacyclic hu hc
          hct
        omega
      obtain ⟨s', hfold, hloop⟩ := List.foldlM_option_invariant
        (P := fun done s' => SortsSome classes t done s s') hstart
        fun done c todo s1 htodo h => h.step hacyclic htodo hsort
      exact ⟨s', hfold, hloop.valid, hloop.done, hloop.same⟩

end Interfaces

/-! ## The whole list -/

/-- The classes of `sorted` are those of the list, each after all listed classes of the interfaces
that it depends on. -/
structure TopologicalOrder (classes sorted : List ClassWithDependencies) : Prop where
  perm : sorted.Perm classes
  after : ∀ before c rest, sorted = before ++ c :: rest →
    ∀ d ∈ classes, d.id ∈ c.symbols → d ∈ before ∧ d ∉ c :: rest

/-- A list that has the same classes of each interface has the same classes. -/
theorem perm_of_ofInterface {cs ds : List ClassWithDependencies}
    (h : ∀ t, ofInterface t cs = ofInterface t ds) : cs.Perm ds := by
  rw [List.perm_iff_count]
  intro c
  have hcount : ∀ l : List ClassWithDependencies, l.count c = (ofInterface c.id l).count c := by
    intro l
    rw [ofInterface, List.count_filter]
    simp
  rw [hcount cs, hcount ds, h]

/-- A sort of all classes is an order of them. -/
theorem Sorting.Valid.topologicalOrder {classes : List ClassWithDependencies} {s : Sorting}
    (hs : s.Valid classes) (hacyclic : Acyclic (Edge classes))
    (hperm : s.sortedClasses.Perm classes) : TopologicalOrder classes s.sortedClasses where
  perm := hperm
  after := by
    intro before c rest hsorted d hd hdep
    have hmem : d ∈ before ++ c :: rest := hsorted ▸ hperm.mem_iff.mpr hd
    have hordered := hs.ordered
    rw [hsorted, List.pairwise_append, List.pairwise_cons] at hordered
    have hnot : d ∉ c :: rest := by
      intro hin
      rcases List.mem_cons.mp hin with rfl | hin
      · exact hacyclic d (TransGen.single ⟨hd, hd, hdep⟩)
      · exact hordered.2.1.1 d hin hdep
    exact ⟨(List.mem_append.mp hmem).resolve_right hnot, hnot⟩

/-- **The sort.** In an acyclic graph the recursion ends, no deeper than the list is long, with a
topological order of the list. -/
theorem sortDependencies_spec {classes : List ClassWithDependencies} (hdec : Decorated classes)
    (hacyclic : Acyclic (Edge classes)) {fuel : Nat} (hfuel : classes.length < fuel) :
    ∃ sorted, sortDependencies fuel classes = some sorted ∧ TopologicalOrder classes sorted := by
  have hneeds := (acyclic_needs_iff classes).mpr hacyclic
  obtain ⟨s, hfold, hvalid, hsettled, hcomplete⟩ := List.foldlM_option_invariant
    (l := classes) (b := Sorting.new)
    (f := fun s (cwd : ClassWithDependencies) => topologicalSort classes fuel cwd.id s)
    (P := fun done s => s.Valid classes ∧ (∀ u, s.Complete classes u ∨ s.Untouched u) ∧
      ∀ c ∈ done, s.Complete classes c.id)
    ⟨Sorting.valid_new, fun _ => .inr rfl, by simp⟩ (by
      intro done c todo s _ ⟨hs, hsettled, hdone⟩
      have hle := reachCount_le (Needs classes) ClassWithDependencies.id classes c.id
      obtain ⟨s', hs', hsorts⟩ := topologicalSort_spec hdec hneeds fuel c.id s (by omega) hs
        fun u _ => hsettled u
      refine ⟨s', hs', hsorts.valid, fun u => hsorts.settled (hsettled u), ?_⟩
      intro d hd
      rcases List.mem_append.mp hd with hd | hd
      · exact hsorts.keeps (hdone d hd)
      · rw [List.mem_singleton.mp hd]
        exact hsorts.complete)
  have hgroups : ∀ t, ofInterface t s.sortedClasses = ofInterface t classes := by
    intro t
    rcases hsettled t with h | h
    · exact h
    -- an interface that was not touched has no class
    · cases hc : ofInterface t classes with
      | nil => exact h
      | cons c cs =>
          have hmem : c ∈ ofInterface t classes := by
            rw [hc]
            exact List.mem_cons_self
          obtain ⟨hlisted, rfl⟩ := mem_ofInterface.mp hmem
          rw [← hc]
          exact hcomplete c hlisted
  refine ⟨s.sortedClasses, ?_, hvalid.topologicalOrder hacyclic (perm_of_ofInterface hgroups)⟩
  rw [sortDependencies, hfold]
  rfl

end KhulnasoftLsp.Di
