import KhulnasoftLsp.Di.Validators

/-!
# What `instantiate` injects

The classes are constructed in the order of the sort. When a class has its turn, all listed classes
of its dependencies have been constructed, and none will be after it: a single dependency finds an
instance, and a collection all there will be. What can still go wrong is that a constructor throws,
or that a single dependency has several instances.
-/

namespace KhulnasoftLsp.Di

open Container

variable {ι : Type}

/-! ## The container -/

theorem getAll_push (c : Container ι) (id t : Symbol) (inst : ι) :
    (c.push id inst).getAll t = c.getAll t ++ if id = t then [inst] else [] := by
  show ((c.instances.set id (c.getAll id ++ [inst])).get t).getD [] = _
  rw [OrderedMap.get_set]
  by_cases h : t = id
  · simp [h]
  · simp [h, Ne.symm h, Container.getAll]

/-- An interface that is there has an instance. -/
theorem getAll_ne_nil {c : Container ι} {t : Symbol} (h : t ∈ c.symbols) : c.getAll t ≠ [] := by
  obtain ⟨e, he, rfl⟩ := List.mem_map.mp h
  have hget : c.instances.get e.1 = some e.2 := OrderedMap.get_eq_some_iff.mpr he
  have hne := c.nonempty e.1
  rw [hget] at hne
  rw [Container.getAll, hget]
  simpa using hne

/-! ## The arguments of a constructor -/

theorem mapM_eq_ok {α β ε : Type} {f : α → Except ε β} {as : List α} {bs : List β}
    (h : as.mapM f = .ok bs) {i : Nat} {a : α} (ha : as[i]? = some a) :
    ∃ b, f a = .ok b ∧ bs[i]? = some b := by
  induction as generalizing bs i with
  | nil => cases ha
  | cons x as ih =>
      rw [List.mapM_cons] at h
      match hx : f x with
      | .error e =>
          rw [hx] at h
          cases h
      | .ok b =>
          match hrest : as.mapM f with
          | .error e =>
              rw [hx, hrest] at h
              cases h
          | .ok bs' =>
              rw [hx, hrest] at h
              cases h
              cases i with
              | zero =>
                  cases ha
                  exact ⟨b, hx, rfl⟩
              | succ i => exact ih hrest ha

theorem mapM_eq_error {α β ε : Type} {f : α → Except ε β} {as : List α} {e : ε}
    (h : as.mapM f = .error e) : ∃ a ∈ as, f a = .error e := by
  induction as with
  | nil => cases h
  | cons x as ih =>
      rw [List.mapM_cons] at h
      match hx : f x with
      | .error e' =>
          rw [hx] at h
          cases h
          exact ⟨x, List.mem_cons_self, hx⟩
      | .ok b =>
          match hrest : as.mapM f with
          | .error e' =>
              rw [hx, hrest] at h
              cases h
              obtain ⟨a, ha, hfa⟩ := ih hrest
              exact ⟨a, List.mem_cons_of_mem x ha, hfa⟩
          | .ok bs =>
              rw [hx, hrest] at h
              cases h

theorem length_of_mapM {α β ε : Type} {f : α → Except ε β} {as : List α} {bs : List β}
    (h : as.mapM f = .ok bs) : bs.length = as.length := by
  induction as generalizing bs with
  | nil =>
      cases h
      rfl
  | cons x as ih =>
      rw [List.mapM_cons] at h
      cases hx : f x with
      | error e =>
          rw [hx] at h
          cases h
      | ok b =>
          cases hrest : as.mapM f with
          | error e =>
              rw [hx, hrest] at h
              cases h
          | ok bs' =>
              rw [hx, hrest] at h
              cases h
              rw [List.length_cons, List.length_cons, ih hrest]

/-- Only a single dependency without instance is not found. -/
theorem resolve_noInstanceFound {c : Container ι} {dep : DependencyId} {t : Symbol}
    (h : c.resolve dep = .error (.noInstanceFound t)) : dep = .single t ∧ c.getAll t = [] := by
  cases dep with
  | collection baseId => cases h
  | single s =>
      cases hall : c.getAll s with
      | nil =>
          obtain rfl : s = t := by simpa [Container.resolve, hall] using h
          exact ⟨rfl, hall⟩
      | cons x xs => cases xs <;> simp [Container.resolve, hall] at h

/-- A single dependency is given an argument where there is one instance. -/
theorem resolve_single_eq_ok {c : Container ι} {t : Symbol} {arg : Argument ι}
    (h : c.resolve (.single t) = .ok arg) : ∃ inst, arg = .one inst ∧ c.getAll t = [inst] := by
  rw [Container.resolve] at h
  split at h
  · cases h
  · next inst hall =>
    cases h
    exact ⟨inst, rfl, hall⟩
  · cases h

/-- What else a dependency can fail at: it is single, and has several instances. -/
theorem resolve_eq_error {c : Container ι} {dep : DependencyId} {e : InstantiateError}
    (h : c.resolve dep = .error e) :
    ∃ t, dep = .single t ∧
      (e = .noInstanceFound t ∨
        e = .multipleInstancesFound t ∧ 1 < (c.getAll t).length) := by
  cases dep with
  | collection baseId => cases h
  | single t =>
      refine ⟨t, rfl, ?_⟩
      cases hall : c.getAll t with
      | nil =>
          rw [Container.resolve, hall] at h
          exact .inl (Except.error.inj h).symm
      | cons x xs =>
          cases xs with
          | nil => simp [Container.resolve, hall] at h
          | cons y ys =>
              rw [Container.resolve, hall] at h
              exact .inr ⟨(Except.error.inj h).symm, by simp⟩

/-! ## The loop -/

/-- What is true of an `instantiate` that has constructed these classes. -/
structure Injects (new : Constructors ι) (c : Container ι) (done : List ClassWithDependencies)
    (r : Instantiation ι) : Prop where
  constructed : r.constructed.map Construction.cwd = done
  /-- The instances are what the constructors return, each of them called with an argument for
  every dependency. -/
  returned : ∀ (i : Nat) (k : Construction ι), r.constructed[i]? = some k →
    new i k.cwd.cls k.args = some k.inst ∧ k.args.length = k.cwd.dependencies.length
  /-- Instances that were registered earlier come first. -/
  registered : ∀ t, r.container.getAll t =
    c.getAll t ++ (r.constructed.filter fun k => k.cwd.id = t).map Construction.inst
  /-- A collection is given all the instances that there are. -/
  collections : ∀ k ∈ r.constructed, ∀ (i : Nat) (t : Symbol),
    k.cwd.dependencies[i]? = some (.collection t) →
      k.args[i]? = some (.all (r.container.getAll t))
  /-- A single dependency is given the only instance that there is. -/
  singles : ∀ k ∈ r.constructed, ∀ (i : Nat) (t : Symbol),
    k.cwd.dependencies[i]? = some (.single t) →
      ∃ inst, k.args[i]? = some (.one inst) ∧ r.container.getAll t = [inst]

/-- Why no instance of a class is constructed: its constructor throws, or a single dependency has
several instances. -/
inductive Stops (new : Constructors ι) (r : Instantiation ι) (cwd : ClassWithDependencies) :
    InstantiateError → Prop where
  | constructorThrows (args : List (Argument ι))
      (hargs : cwd.dependencies.mapM r.container.resolve = .ok args)
      (hnew : new r.constructed.length cwd.cls args = none) :
      Stops new r cwd (.constructorThrows cwd.cls)
  | multipleInstancesFound (t : Symbol) (hdep : .single t ∈ cwd.dependencies)
      (hmany : 1 < (r.container.getAll t).length) :
      Stops new r cwd (.multipleInstancesFound t)

/-- The classes that have been constructed are all the sorted ones, or those in front of one at
which the loop has stopped. -/
def Ends (new : Constructors ι) (sorted done : List ClassWithDependencies)
    (r : Instantiation ι) : Prop :=
  match r.error with
  | none => done = sorted
  | some e => ∃ cwd todo, sorted = done ++ cwd :: todo ∧ Stops new r cwd e

variable {cwds sorted : List ClassWithDependencies} {c : Container ι} {new : Constructors ι}

theorem TopologicalOrder.mem (horder : TopologicalOrder cwds sorted)
    {done todo : List ClassWithDependencies} {cwd : ClassWithDependencies}
    (hsorted : sorted = done ++ cwd :: todo) : cwd ∈ cwds := by
  apply horder.perm.mem_iff.mp
  simp [hsorted]

/-- Neither a class nor any before it depends on the interface of the class. -/
theorem TopologicalOrder.not_needs (horder : TopologicalOrder cwds sorted)
    {done todo : List ClassWithDependencies} {cwd : ClassWithDependencies}
    (hsorted : sorted = done ++ cwd :: todo) : ∀ k ∈ done ++ [cwd], cwd.id ∉ k.symbols := by
  intro k hk hdep
  obtain ⟨before, rest, hsplit⟩ := List.append_of_mem hk
  have hcut : sorted = before ++ k :: (rest ++ todo) := by
    rw [hsorted, ← List.singleton_append, ← List.append_assoc, hsplit]
    simp
  have hlast : cwd ∈ k :: rest := by
    have hend : (done ++ [cwd]).getLast? = some cwd := by simp
    rw [hsplit, List.getLast?_append_of_ne_nil _ (by simp)] at hend
    exact List.mem_of_getLast? hend
  apply (horder.after before k (rest ++ todo) hcut cwd (horder.mem hsorted) hdep).2
  rw [← List.cons_append]
  exact List.mem_append_left _ hlast

/-- A class that has its turn finds its single dependencies. -/
theorem Injects.resolves {done todo : List ClassWithDependencies} {cwd : ClassWithDependencies}
    {r : Instantiation ι} (h : Injects new c done r) (horder : TopologicalOrder cwds sorted)
    (hsorted : sorted = done ++ cwd :: todo)
    (hpresent : dependenciesArePresent cwds c.symbols = .ok ()) (t : Symbol) :
    cwd.dependencies.mapM r.container.resolve ≠ .error (.noInstanceFound t) := by
  intro herror
  obtain ⟨dep, hdep, hresolve⟩ := mapM_eq_error herror
  obtain ⟨rfl, hnil⟩ := resolve_noInstanceFound hresolve
  have hcwd := horder.mem hsorted
  rw [h.registered t, List.append_eq_nil_iff, List.map_eq_nil_iff, List.filter_eq_nil_iff] at hnil
  rcases present_of_dependenciesArePresent cwds c.symbols hpresent hcwd hdep with hlisted | hold
  · obtain ⟨d, hd, hdt⟩ := List.mem_map.mp hlisted
    have hsymbol : d.id ∈ cwd.symbols := by
      rw [hdt]
      exact List.mem_map_of_mem (f := DependencyId.symbol) hdep
    have hbefore := (horder.after done cwd todo hsorted d hd hsymbol).1
    rw [← h.constructed] at hbefore
    obtain ⟨k, hk, rfl⟩ := List.mem_map.mp hbefore
    exact hnil.2 k hk (by simpa using hdt)
  · exact getAll_ne_nil hold hnil.1

/-- A class that is constructed is given its dependencies, and adds to none that has been given. -/
theorem Injects.push {done todo : List ClassWithDependencies} {cwd : ClassWithDependencies}
    {r : Instantiation ι} {args : List (Argument ι)} {inst : ι} (h : Injects new c done r)
    (horder : TopologicalOrder cwds sorted) (hsorted : sorted = done ++ cwd :: todo)
    (hargs : cwd.dependencies.mapM r.container.resolve = .ok args)
    (hinst : new r.constructed.length cwd.cls args = some inst) :
    Injects new c (done ++ [cwd]) { r with
      container := r.container.push cwd.id inst
      constructed := r.constructed ++ [{ cwd, args, inst }] } := by
  have hsame : ∀ k ∈ done ++ [cwd], ∀ (i : Nat) (dep : DependencyId),
      k.dependencies[i]? = some dep →
        (r.container.push cwd.id inst).getAll dep.symbol = r.container.getAll dep.symbol := by
    intro k hk i dep hi
    have hne : cwd.id ≠ dep.symbol := by
      intro heq
      apply horder.not_needs hsorted k hk
      rw [heq]
      exact List.mem_map_of_mem (f := DependencyId.symbol) (List.mem_of_getElem? hi)
    rw [getAll_push, if_neg hne, List.append_nil]
  have hdone : ∀ k ∈ r.constructed, k.cwd ∈ done ++ [cwd] := by
    intro k hk
    exact List.mem_append_left _ (h.constructed ▸ List.mem_map_of_mem hk)
  constructor
  case constructed => simp [h.constructed]
  case returned =>
    intro i k hk
    by_cases hi : i < r.constructed.length
    · rw [List.getElem?_append_left hi] at hk
      exact h.returned i k hk
    · obtain ⟨n, rfl⟩ := Nat.exists_eq_add_of_le (Nat.le_of_not_lt hi)
      rw [List.getElem?_append_right (Nat.le_add_right _ _), Nat.add_sub_cancel_left,
        List.getElem?_singleton] at hk
      obtain ⟨rfl, hk⟩ := Option.ite_none_right_eq_some.mp hk
      obtain rfl := Option.some.inj hk
      exact ⟨hinst, length_of_mapM hargs⟩
  case registered =>
    intro t
    show (r.container.push cwd.id inst).getAll t = _
    rw [getAll_push, h.registered t]
    by_cases ht : cwd.id = t <;> simp [ht]
  case collections =>
    intro k hk i t hi
    show k.args[i]? = some (.all ((r.container.push cwd.id inst).getAll t))
    rcases List.mem_append.mp hk with hk | hk
    · have hkept := hsame k.cwd (hdone k hk) i (.collection t) hi
      change (r.container.push cwd.id inst).getAll t = r.container.getAll t at hkept
      rw [hkept]
      exact h.collections k hk i t hi
    · obtain rfl := List.mem_singleton.mp hk
      have hkept := hsame cwd (List.mem_append_right _ (List.mem_singleton_self _)) i _ hi
      change (r.container.push cwd.id inst).getAll t = r.container.getAll t at hkept
      rw [hkept]
      obtain ⟨arg, harg, hget⟩ := mapM_eq_ok hargs hi
      cases harg
      exact hget
  case singles =>
    intro k hk i t hi
    show ∃ inst', k.args[i]? = some (.one inst') ∧
      (r.container.push cwd.id inst).getAll t = [inst']
    rcases List.mem_append.mp hk with hk | hk
    · have hkept := hsame k.cwd (hdone k hk) i (.single t) hi
      change (r.container.push cwd.id inst).getAll t = r.container.getAll t at hkept
      rw [hkept]
      exact h.singles k hk i t hi
    · obtain rfl := List.mem_singleton.mp hk
      have hkept := hsame cwd (List.mem_append_right _ (List.mem_singleton_self _)) i _ hi
      change (r.container.push cwd.id inst).getAll t = r.container.getAll t at hkept
      rw [hkept]
      obtain ⟨arg, harg, hget⟩ := mapM_eq_ok hargs hi
      obtain ⟨inst', rfl, hall⟩ := resolve_single_eq_ok harg
      exact ⟨inst', hget, hall⟩

/-- The loop over the sorted classes, from any of them on. -/
theorem construct_spec (horder : TopologicalOrder cwds sorted)
    (hpresent : dependenciesArePresent cwds c.symbols = .ok ()) :
    ∀ todo done r, sorted = done ++ todo → Injects new c done r → r.error = none →
      ∃ done', done' <+: sorted ∧ Injects new c done' (construct new todo r) ∧
        Ends new sorted done' (construct new todo r) := by
  intro todo
  induction todo with
  | nil =>
      intro done r hsorted h herror
      refine ⟨done, by simp [hsorted], h, ?_⟩
      rw [construct, Ends, herror]
      simp [hsorted]
  | cons cwd todo ih =>
      intro done r hsorted h herror
      have hstop : ∀ e, Stops new r cwd e →
          ∃ done', done' <+: sorted ∧ Injects new c done' { r with error := some e } ∧
            Ends new sorted done' { r with error := some e } := by
        intro e he
        refine ⟨done, hsorted ▸ List.prefix_append _ _, ⟨h.1, h.2, h.3, h.4, h.5⟩, cwd, todo,
          hsorted, ?_⟩
        cases he with
        | constructorThrows args hargs hnew => exact .constructorThrows args hargs hnew
        | multipleInstancesFound t hdep hmany => exact .multipleInstancesFound t hdep hmany
      rw [construct]
      split
      · next e hargs =>
        apply hstop
        obtain ⟨dep, hdep, hresolve⟩ := mapM_eq_error hargs
        obtain ⟨t, rfl, rfl | ⟨rfl, hmany⟩⟩ := resolve_eq_error hresolve
        · exact absurd hargs (h.resolves horder hsorted hpresent t)
        · exact .multipleInstancesFound t hdep hmany
      · next args hargs =>
        split
        · next hnew => exact hstop _ (.constructorThrows args hargs hnew)
        · next inst hinst =>
          exact ih (done ++ [cwd]) _ (by simp [hsorted]) (h.push horder hsorted hargs hinst) herror

/-- **What `instantiate` does.** For an acyclic list of decorated classes that passes both
validators, the sort is a topological order of the list; no dependency is without an instance; each
class that is constructed is given, for a collection, every instance of its interface, those
registered earlier first; and unless a constructor throws or a single dependency has several
instances, all classes are constructed. -/
theorem instantiate_spec (metadata : WithConstructor → Option Metadata) (new : Constructors ι)
    (classes : List WithConstructor) (c : Container ι)
    (hdecorated : ∀ cls ∈ classes, (metadata cls).isSome)
    (hacyclic : Acyclic (Edge (classesWithDeps metadata classes)))
    (hpresent : dependenciesArePresent (classesWithDeps metadata classes) c.symbols = .ok ())
    (hcircular : noCircularDependencies (classesWithDeps metadata classes) c.symbols =
      some (.ok ()))
    (fuel : Nat) (hfuel : (classesWithDeps metadata classes).length < fuel) :
    ∃ sorted r, sortDependencies fuel (classesWithDeps metadata classes) = some sorted ∧
      TopologicalOrder (classesWithDeps metadata classes) sorted ∧
      c.instantiate metadata new fuel classes = some r ∧
      (∀ t, r.error ≠ some (.noInstanceFound t)) ∧
      ∃ done, done <+: sorted ∧ Injects new c done r ∧ Ends new sorted done r := by
  obtain ⟨sorted, hsorted, horder⟩ :=
    sortDependencies_spec (decorated_classesWithDeps metadata classes) hacyclic hfuel
  have hall : (classes.filter fun cls => (metadata cls).isNone) = [] := by
    rw [List.filter_eq_nil_iff]
    intro cls hcls hnone
    have hsome := hdecorated cls hcls
    rw [Option.isNone_iff_eq_none] at hnone
    rw [hnone] at hsome
    cases hsome
  have hrun : c.instantiate metadata new fuel classes =
      some (construct new sorted ⟨c, [], none⟩) := by
    simp [Container.instantiate, hall, hpresent, hcircular, hsorted]
  have hempty : Injects new c [] (⟨c, [], none⟩ : Instantiation ι) := by
    constructor
    case constructed => rfl
    case returned =>
      intro i k hk
      cases hk
    case registered => simp
    case collections =>
      intro k hk
      cases hk
    case singles =>
      intro k hk
      cases hk
  obtain ⟨done, hdone, hinjects, hends⟩ :=
    construct_spec horder hpresent sorted [] ⟨c, [], none⟩ rfl hempty rfl
  refine ⟨sorted, _, hsorted, horder, hrun, ?_, done, hdone, hinjects, hends⟩
  intro t herror
  rw [Ends, herror] at hends
  obtain ⟨cwd, todo, -, hstops⟩ := hends
  cases hstops

/-- A third interface, with a class that depends on all of the second one and on the first, and a
class of the second one that depends on nothing. -/
def symbolC : Symbol := ⟨2, "C"⟩
def classC : WithConstructor := ⟨3, "CImpl"⟩
def classB2 : WithConstructor := ⟨4, "BImpl2"⟩

def threeMetadata (cls : WithConstructor) : Option Metadata :=
  if cls = classC then some ⟨symbolC, [.collection symbolB, .single symbolA]⟩
  else if cls = classB2 then some ⟨symbolB, []⟩
  else sampleMetadata cls

/-- The classes, each in front of what it depends on. -/
def threeClasses : List WithConstructor := [classC, classB, classA1, classB2]

/-- A container in which an instance of the second interface is registered. -/
def withB : Container Nat := empty.push symbolB 100

/-- The collection is given the registered instance first, and then those that are constructed. -/
theorem instantiate_spec_of_collection :
    ∃ sorted r, sortDependencies 5 (classesWithDeps threeMetadata threeClasses) = some sorted ∧
      TopologicalOrder (classesWithDeps threeMetadata threeClasses) sorted ∧
      withB.instantiate threeMetadata (fun call _ _ => some call) 5 threeClasses = some r ∧
      Injects (fun call _ _ => some call) withB sorted r ∧ r.error = none ∧
      r.constructed =
        [⟨⟨classA1, symbolA, []⟩, [], 0⟩, ⟨⟨classB, symbolB, [.single symbolA]⟩, [.one 0], 1⟩,
          ⟨⟨classB2, symbolB, []⟩, [], 2⟩,
          ⟨⟨classC, symbolC, [.collection symbolB, .single symbolA]⟩,
            [.all [100, 1, 2], .one 0], 3⟩] := by
  have hdown : ∀ c ∈ classesWithDeps threeMetadata threeClasses,
      ∀ d ∈ classesWithDeps threeMetadata threeClasses,
        d.id ∈ c.symbols → d.id.uid < c.id.uid := by decide
  have hacyclic : Acyclic (Edge (classesWithDeps threeMetadata threeClasses)) := by
    apply Acyclic.of_lt (f := fun c : ClassWithDependencies => c.id.uid)
    rintro c d ⟨hc, hd, hdep⟩
    exact hdown c hc d hd hdep
  obtain ⟨sorted, r, hsorted, horder, hr, -, done, -, hinjects, hends⟩ :=
    instantiate_spec threeMetadata (fun call _ _ => some call) threeClasses withB (by decide)
      hacyclic rfl rfl 5 (by decide)
  have hresult : (withB.instantiate threeMetadata (fun call _ _ => some call) 5 threeClasses).map
      (fun r => (r.error, r.constructed)) = some (none, _) := rfl
  rw [hr] at hresult
  obtain ⟨herror, hconstructed⟩ := Prod.mk.inj (Option.some.inj hresult)
  rw [Ends, herror] at hends
  exact ⟨sorted, r, hsorted, horder, hr, hends ▸ hinjects, herror, hconstructed⟩

end KhulnasoftLsp.Di
