import KhulnasoftLsp.OrderedMap

/-!
# The dependency injection container

A `Container` holds the instances of each interface. `instantiate` is given decorated classes: two
validators look at them, `sortDependencies` puts them in an order in which dependencies come first,
and then each class is constructed with the instances of its dependencies. A dependency is a single
interface or the collection of all instances of one.

The two recursions of the source take a fuel here: their value is `none` where the fuel does not
suffice.
-/

namespace KhulnasoftLsp.Di

/-- The symbol of an interface. -/
structure Symbol where
  uid : Nat
  description : String
  deriving DecidableEq, Repr

/-- A class: the decorator knows it by its identity. -/
structure WithConstructor where
  uid : Nat
  name : String
  deriving DecidableEq, Repr

/-- `DependencyId`: an `InterfaceId`, or a `CollectionId` with its `baseId`. -/
inductive DependencyId where
  | single (symbol : Symbol)
  | collection (baseId : Symbol)
  deriving DecidableEq, Repr

namespace DependencyId

def isCollectionToken : DependencyId → Bool
  | .single _ => false
  | .collection _ => true

/-- The interface that the dependency is about. -/
def symbol : DependencyId → Symbol
  | .single symbol => symbol
  | .collection baseId => baseId

end DependencyId

/-- What `@Injectable` records of a class. -/
structure Metadata where
  id : Symbol
  dependencies : List DependencyId
  deriving DecidableEq, Repr

structure ClassWithDependencies where
  cls : WithConstructor
  id : Symbol
  dependencies : List DependencyId
  deriving DecidableEq, Repr

/-- The interfaces that the class depends on, directly or through a collection. -/
def ClassWithDependencies.symbols (c : ClassWithDependencies) : List Symbol :=
  c.dependencies.map DependencyId.symbol

/-- Why `instantiate` throws. -/
inductive InstantiateError where
  | undecorated (names : List String)
  | unmetDependencies (message : String)
  | dependencyIdMissing (symbol : Symbol)
  | circularDependency (inStack : List Symbol) (start : Symbol) (cls : WithConstructor)
  | noInstanceFound (symbol : Symbol)
  | multipleInstancesFound (symbol : Symbol)
  /-- The constructor of a class throws. -/
  | constructorThrows (cls : WithConstructor)
  deriving DecidableEq, Repr

/-- An array in a template literal. -/
def joinNames (names : List String) : String := ",".intercalate names

def InstantiateError.message : InstantiateError → String
  | .undecorated names =>
    "Classes [" ++ joinNames names ++ "] are not decorated with @Injectable."
  | .unmetDependencies message => message
  | .dependencyIdMissing symbol => "assertion error: dependency ID missing " ++ symbol.description
  | .circularDependency inStack start cls =>
    "Circular dependency detected between interfaces (" ++
      joinNames (inStack.map Symbol.description) ++ "), starting with '" ++ start.description ++
      "' (class: " ++ cls.name ++ ")."
  | .noInstanceFound symbol => "No instance found for " ++ symbol.description ++
      ". This should not have been shown, the static validation should have handled this case."
  | .multipleInstancesFound symbol =>
    "Multiple instances found for " ++ symbol.description ++ " when exactly one was expected"
  | .constructorThrows cls => "The constructor of " ++ cls.name ++ " throws."

/-! ## The validators -/

section Validators

variable (cwds : List ClassWithDependencies) (present : List Symbol)

/-- The dependencies of a class that are neither listed nor present. A collection may be empty, so
that it is never unmet. -/
def unmetDependencies (cwd : ClassWithDependencies) : List Symbol :=
  (cwd.dependencies.filter fun dep => !dep.isCollectionToken &&
    decide (dep.symbol ∉ cwds.map ClassWithDependencies.id ++ present)).map DependencyId.symbol

/-- `dependenciesArePresent`, where `present` are the interfaces with an instance -/
def dependenciesArePresent : Except InstantiateError Unit :=
  let cwdsWithUnmetDeps := cwds.filter fun cwd => !(unmetDependencies cwds present cwd).isEmpty
  if cwdsWithUnmetDeps.isEmpty then .ok ()
  else
    let messages := cwdsWithUnmetDeps.map fun cwd =>
      "Class " ++ cwd.cls.name ++ " (interface " ++ cwd.id.description ++
        ") depends on interfaces [" ++
        joinNames ((unmetDependencies cwds present cwd).map Symbol.description) ++
        "] that weren't added to the init method."
    .error (.unmetDependencies ("\n".intercalate messages))

/-- What the search for a cycle finds: the interfaces that are in the stack when it meets one of
them again, or nothing, or a dependency that is missing. It is `none` if the fuel runs out. -/
abbrev Search := Option (Except InstantiateError (Option (List Symbol)))

/-- The first outcome of a list of searches that is not "nothing found". -/
def firstFound {α : Type} (search : α → Search) : List α → Search
  | [] => some (.ok none)
  | a :: as =>
    match search a with
    | some (.ok none) => firstFound search as
    | found => found

/-- `hasCircularDependency`, with the interfaces that are in the stack. -/
def hasCircularDependency : Nat → List Symbol → Symbol → Search
  | 0, _, _ => none
  | fuel + 1, inStack, symbol =>
    if symbol ∈ inStack then some (.ok (some inStack))
    else
      -- only the first class of an interface is looked at
      match cwds.find? (·.id = symbol) with
      | none =>
        if symbol ∈ present then some (.ok none) else some (.error (.dependencyIdMissing symbol))
      | some cwd =>
        firstFound (fun dep : DependencyId =>
          hasCircularDependency fuel (inStack ++ [symbol]) dep.symbol) cwd.dependencies

/-- `noCircularDependencies`. No stack is longer than the list. -/
def noCircularDependencies : Option (Except InstantiateError Unit) :=
  (firstFound (fun cwd : ClassWithDependencies =>
    match hasCircularDependency cwds present (cwds.length + 1) [] cwd.id with
    | some (.ok (some inStack)) => some (.error (.circularDependency inStack cwd.id cwd.cls))
    | found => found) cwds).map fun found => found.map fun _ => ()

end Validators

/-! ## The sort -/

structure Sorting where
  sortedClasses : List ClassWithDependencies
  processedClasses : List WithConstructor
  deriving DecidableEq, Repr

def Sorting.new : Sorting := ⟨[], []⟩

def Sorting.push (cwd : ClassWithDependencies) (s : Sorting) : Sorting where
  sortedClasses := s.sortedClasses ++ [cwd]
  processedClasses := s.processedClasses ++ [cwd.cls]

/-- `topologicalSort` of an interface. The classes to sort are collected before the first of them
is. -/
def topologicalSort (classes : List ClassWithDependencies) : Nat → Symbol → Sorting → Option Sorting
  | 0, _, _ => none
  | fuel + 1, symbol, s =>
    let cwds := classes.filter fun c => decide (c.id = symbol) && !(c.cls ∈ s.processedClasses)
    cwds.foldlM (fun s cwd =>
      (cwd.dependencies.foldlM (fun s (dep : DependencyId) =>
        topologicalSort classes fuel dep.symbol s) s).map (Sorting.push cwd)) s

def sortDependencies (fuel : Nat) (classes : List ClassWithDependencies) :
    Option (List ClassWithDependencies) :=
  (classes.foldlM (fun s (cwd : ClassWithDependencies) =>
    topologicalSort classes fuel cwd.id s) Sorting.new).map Sorting.sortedClasses

/-! ## The container -/

/-- The instances of each interface. An interface that is there has an instance. -/
structure Container (ι : Type) where
  instances : OrderedMap Symbol (List ι)
  nonempty : ∀ s, instances.get s ≠ some []

/-- An argument of a constructor. -/
inductive Argument (ι : Type) where
  | one (inst : ι)
  | all (instances : List ι)
  deriving DecidableEq, Repr

namespace Container

variable {ι : Type}

def empty : Container ι where
  instances := .empty
  nonempty := by
    intro s h
    cases h

def getAll (id : Symbol) (c : Container ι) : List ι := (c.instances.get id).getD []

/-- The interfaces with an instance. -/
def symbols (c : Container ι) : List Symbol := c.instances.entries.map Prod.fst

/-- Register an instance of an interface behind those there are. -/
def push (id : Symbol) (inst : ι) (c : Container ι) : Container ι where
  instances := c.instances.set id (c.getAll id ++ [inst])
  nonempty := by
    intro s
    rw [OrderedMap.get_set]
    split
    · simp
    · exact c.nonempty s

/-- `addInstances`, where `metadata` is what `brandInstance` has recorded. It throws at the first
instance that is not branded. -/
def addInstances (metadata : ι → Option Metadata) : List ι → Container ι → Container ι × Bool
  | [], c => (c, true)
  | inst :: instances, c =>
    match metadata inst with
    | none => (c, false)
    | some m => addInstances metadata instances (c.push m.id inst)

/-- The argument for a dependency. -/
def resolve (c : Container ι) : DependencyId → Except InstantiateError (Argument ι)
  | .collection baseId => .ok (.all (c.getAll baseId))
  | .single symbol =>
    match c.getAll symbol with
    | [] => .error (.noInstanceFound symbol)
    | [inst] => .ok (.one inst)
    | _ => .error (.multipleInstancesFound symbol)

/-- A constructor that has been called, its arguments and the instance it returned. -/
structure Construction (ι : Type) where
  cwd : ClassWithDependencies
  args : List (Argument ι)
  inst : ι
  deriving DecidableEq, Repr

/-- What a call of `instantiate` leaves: the container, what was constructed, and the error if it
has thrown one. -/
structure Instantiation (ι : Type) where
  container : Container ι
  constructed : List (Construction ι)
  error : Option InstantiateError

/-- What the constructor of a class does: it throws, or returns an instance. The number is that of
the call. -/
abbrev Constructors (ι : Type) := Nat → WithConstructor → List (Argument ι) → Option ι

/-- The loop over the sorted classes. -/
def construct (new : Constructors ι) :
    List ClassWithDependencies → Instantiation ι → Instantiation ι
  | [], r => r
  | cwd :: cwds, r =>
    match cwd.dependencies.mapM r.container.resolve with
    | .error e => { r with error := some e }
    | .ok args =>
      match new r.constructed.length cwd.cls args with
      | none => { r with error := some (.constructorThrows cwd.cls) }
      | some inst =>
        construct new cwds
          { r with
            container := r.container.push cwd.id inst
            constructed := r.constructed ++ [{ cwd, args, inst }] }

/-- The classes with what `@Injectable` has recorded of them. -/
def classesWithDeps (metadata : WithConstructor → Option Metadata)
    (classes : List WithConstructor) : List ClassWithDependencies :=
  classes.filterMap fun cls => (metadata cls).map fun m =>
    { cls := cls, id := m.id, dependencies := m.dependencies }

/-- `instantiate` -/
def instantiate (metadata : WithConstructor → Option Metadata) (new : Constructors ι) (fuel : Nat)
    (classes : List WithConstructor) (c : Container ι) : Option (Instantiation ι) := do
  let throwing (e : InstantiateError) : Instantiation ι := ⟨c, [], some e⟩
  let undecorated := classes.filter fun cls => (metadata cls).isNone
  if !undecorated.isEmpty then
    return throwing (.undecorated (undecorated.map WithConstructor.name))
  let cwds := classesWithDeps metadata classes
  match dependenciesArePresent cwds c.symbols with
  | .error e => return throwing e
  | .ok () =>
    match ← noCircularDependencies cwds c.symbols with
    | .error e => return throwing e
    | .ok () =>
      let sorted ← sortDependencies fuel cwds
      return construct new sorted ⟨c, [], none⟩

end Container
end KhulnasoftLsp.Di
