import KhulnasoftLsp.OrderedMap
import Mathlib.Data.List.Pairwise

/-!
# The endpoints of a controller

The decorators `notification` and `request` leave the description of an endpoint on a method.
`getEndpoints` walks the chain of prototypes of an instance and collects what it finds at every
level; the handler it looks up by name on the instance, so that the most derived method answers.

A method that is decorated where it is defined and again where it is overridden is found twice.
`mostDerived_iff` says that this is all that can go wrong.
-/

namespace KhulnasoftLsp

/-- A schema of the validation library, or one of the two that the decorators fill in:
`NO_PARAMS` and `NO_RESPONSE`. -/
inductive Schema (σ : Type) where
  | noParams
  | noResponse
  | custom (schema : σ)
  deriving DecidableEq, Repr

inductive MessageType (σ : Type) where
  | notification
  | request (responseSchema : Schema σ)
  deriving DecidableEq, Repr

structure Message (σ : Type) where
  type : MessageType σ
  methodName : String
  paramsSchema : Schema σ
  deriving DecidableEq, Repr

/-- A function that is a method of a class, with its own metadata. -/
structure MethodFunction (σ β : Type) where
  body : β
  endpointMetadata : Option (Message σ)
  deriving DecidableEq, Repr

/-! ## Decorators -/

section Decorators

variable {σ β : Type}

/-- The property that holds the metadata can be defined once. -/
def setEndpointMetadata (metadata : Message σ) (target : MethodFunction σ β) :
    Except String (MethodFunction σ β) :=
  match target.endpointMetadata with
  | none => .ok { target with endpointMetadata := some metadata }
  | some _ => .error "Cannot redefine property: Symbol(endpoint)"

def notification (methodName : String) (paramsSchema : Option (Schema σ)) :
    MethodFunction σ β → Except String (MethodFunction σ β) :=
  setEndpointMetadata
    { type := .notification, methodName, paramsSchema := paramsSchema.getD .noParams }

def request (methodName : String) (paramsSchema responseSchema : Option (Schema σ)) :
    MethodFunction σ β → Except String (MethodFunction σ β) :=
  setEndpointMetadata
    { type := .request (responseSchema.getD .noResponse), methodName,
      paramsSchema := paramsSchema.getD .noParams }

/-- A decorator decorates, and a method is decorated once at most. -/
theorem setEndpointMetadata_eq_ok {metadata : Message σ} {target decorated : MethodFunction σ β} :
    setEndpointMetadata metadata target = .ok decorated ↔
      target.endpointMetadata = none ∧ decorated = ⟨target.body, some metadata⟩ := by
  obtain ⟨body, own⟩ := target
  cases own with
  | none => simp [setEndpointMetadata, eq_comm]
  | some _ => simp [setEndpointMetadata]

end Decorators

/-! ## Classes -/

/-- What a class has under a name: a method, or an accessor with what it gives when it is read. -/
inductive ClassProperty (σ β : Type) where
  | method (function : MethodFunction σ β)
  | accessor (function : Option (MethodFunction σ β))
  deriving DecidableEq, Repr

namespace ClassProperty

variable {σ β : Type}

/-- `descriptor.value`, where it is a function -/
def descriptorValue : ClassProperty σ β → Option (MethodFunction σ β)
  | method function => some function
  | accessor _ => none

/-- What reading the property of an instance gives, where it is a function. -/
def read : ClassProperty σ β → Option (MethodFunction σ β)
  | method function => some function
  | accessor function => function

end ClassProperty

structure ControllerOptions where
  route : Option String
  deriving DecidableEq, Repr

/-- One class of a chain: its metadata, and the properties of its prototype. -/
structure ClassBody (σ β : Type) where
  name : String
  controllerMetadata : Option ControllerOptions
  properties : OrderedMap String (ClassProperty σ β)

/-- A class with the classes it extends, the nearest first and `Controller` last. -/
structure ControllerClass (σ β : Type) where
  body : ClassBody σ β
  bases : List (ClassBody σ β)

structure ControllerInstance (σ β : Type) where
  id : Nat
  constructor : ControllerClass σ β

structure ControllerEndpointMetadata (σ : Type) where
  message : Message σ
  classMethodName : String
  deriving DecidableEq, Repr

/-- `method.bind(this)` -/
structure BoundMethod (σ β : Type) where
  method : MethodFunction σ β
  this : ControllerInstance σ β

structure Endpoint (σ β : Type) where
  metadata : ControllerEndpointMetadata σ
  handle : BoundMethod σ β

variable {σ β : Type}

/-- `withNamespace` of one message -/
def Message.withNamespace (namespaceName : String) (m : Message σ) : Message σ :=
  { m with methodName := s!"{namespaceName}/{m.methodName}" }

namespace ClassBody

/-- `getEndpointMetadata(descriptor.value)` of a property of the prototype -/
def propertyMetadata (property : ClassProperty σ β) : Option (Message σ) :=
  property.descriptorValue.bind (·.endpointMetadata)

/-- The message of the decorator, where the class decorates a method of this name. -/
def decorated (name : String) (c : ClassBody σ β) : Option (Message σ) :=
  (c.properties.get name).bind propertyMetadata

/-- The part of the loop that looks at one prototype. -/
def endpoints (c : ClassBody σ β) : List (ControllerEndpointMetadata σ) :=
  c.properties.entries.filterMap fun entry =>
    (propertyMetadata entry.2).map fun metadata =>
      { message := metadata, classMethodName := entry.1 }

theorem mem_endpoints {c : ClassBody σ β} {e : ControllerEndpointMetadata σ} :
    e ∈ c.endpoints ↔ c.decorated e.classMethodName = some e.message := by
  rw [decorated, Option.bind_eq_some_iff, endpoints, List.mem_filterMap]
  constructor
  · intro h
    obtain ⟨⟨name, property⟩, hentry, he⟩ := h
    obtain ⟨metadata, hmetadata, rfl⟩ := Option.map_eq_some_iff.mp he
    exact ⟨property, OrderedMap.get_eq_some_iff.mpr hentry, hmetadata⟩
  · intro h
    obtain ⟨property, hget, hmetadata⟩ := h
    refine ⟨(e.classMethodName, property), OrderedMap.get_eq_some_iff.mp hget, ?_⟩
    simp [hmetadata]

/-- A class has one property of a name. -/
theorem nodup_endpoints (c : ClassBody σ β) : (c.endpoints.map (·.classMethodName)).Nodup := by
  refine List.Nodup.sublist ?_ c.properties.nodup
  rw [endpoints]
  induction c.properties.entries with
  | nil => simp
  | cons entry entries ih =>
      cases h : propertyMetadata entry.2 with
      | none => simpa [h] using ih.cons entry.1
      | some metadata => simpa [h] using ih

end ClassBody

namespace ControllerClass

/-- The prototypes from the class up to `Controller` -/
def levels (c : ControllerClass σ β) : List (ClassBody σ β) := c.body :: c.bases

/-- `getControllerMetadata(target)`: a class inherits the static properties of its base class. -/
def controllerMetadata (c : ControllerClass σ β) : Option ControllerOptions :=
  c.levels.findSome? (·.controllerMetadata)

/-- The route, unless it is empty. -/
def route (c : ControllerClass σ β) : Option String :=
  (c.controllerMetadata.bind (·.route)).filter (!·.isEmpty)

def withRoute (c : ControllerClass σ β) (m : Message σ) : Message σ :=
  match c.route with
  | some route => m.withNamespace route
  | none => m

/-- `endpoints` at the end of the walk -/
def walk (levels : List (ClassBody σ β)) : List (ControllerEndpointMetadata σ) :=
  levels.flatMap (·.endpoints)

def getControllerEndpointMetadata (c : ControllerClass σ β) :
    List (ControllerEndpointMetadata σ) :=
  (walk c.levels).map fun e => { e with message := c.withRoute e.message }

/-- The message of the most derived definition of a name that is decorated. -/
def mostDerivedDecorated (c : ControllerClass σ β) (name : String) : Option (Message σ) :=
  c.levels.findSome? (·.decorated name)

/-- What `this[name]` is, where it is a function: the most derived property counts. -/
def method (c : ControllerClass σ β) (name : String) : Option (MethodFunction σ β) :=
  (c.levels.findSome? (·.properties.get name)).bind (·.read)

/-- No method name is decorated in two classes of the chain. -/
def DecoratedOnce (c : ControllerClass σ β) : Prop :=
  c.levels.Pairwise fun derived base =>
    ∀ name, derived.decorated name = none ∨ base.decorated name = none

/-- Where a decorated method is hidden, a function hides it. -/
def DecoratedCallable (c : ControllerClass σ β) : Prop :=
  ∀ level ∈ c.levels, ∀ name, level.decorated name ≠ none → c.method name ≠ none

/-- The classes have methods only, as the compiler demands of what overrides a method. -/
def MethodsOnly (c : ControllerClass σ β) : Prop :=
  ∀ level ∈ c.levels, ∀ entry ∈ level.properties.entries, entry.2.descriptorValue ≠ none

end ControllerClass

namespace ControllerInstance

def endpoint (this : ControllerInstance σ β) (metadata : ControllerEndpointMetadata σ) :
    Except String (Endpoint σ β) :=
  match this.constructor.method metadata.classMethodName with
  | some method => .ok { metadata, handle := ⟨method, this⟩ }
  | none =>
    let className := this.constructor.body.name
    .error s!"Handler \"{metadata.classMethodName}\" is not a function in {className}"

/-- `Controller.getEndpoints` -/
def getEndpoints (this : ControllerInstance σ β) : Except String (List (Endpoint σ β)) :=
  this.constructor.getControllerEndpointMetadata.mapM this.endpoint

end ControllerInstance

/-! ## The walk -/

namespace ControllerClass

variable {c : ControllerClass σ β}

theorem mem_walk {levels : List (ClassBody σ β)} {e : ControllerEndpointMetadata σ} :
    e ∈ walk levels ↔ ∃ level ∈ levels, level.decorated e.classMethodName = some e.message := by
  simp [walk, ClassBody.mem_endpoints]

/-- The names of the walk, as often as they are found. -/
theorem mem_names_walk {levels : List (ClassBody σ β)} {name : String} :
    name ∈ (walk levels).map (·.classMethodName) ↔
      ∃ level ∈ levels, level.decorated name ≠ none := by
  rw [List.mem_map]
  constructor
  · intro h
    obtain ⟨e, he, rfl⟩ := h
    obtain ⟨level, hlevel, hdecorated⟩ := mem_walk.mp he
    exact ⟨level, hlevel, by simp [hdecorated]⟩
  · intro h
    obtain ⟨level, hlevel, hname⟩ := h
    obtain ⟨m, hm⟩ := Option.ne_none_iff_exists'.mp hname
    exact ⟨⟨m, name⟩, mem_walk.mpr ⟨level, hlevel, hm⟩, rfl⟩

/-- A name is found twice exactly when two levels decorate it. -/
theorem nodup_names_walk (levels : List (ClassBody σ β)) :
    ((walk levels).map (·.classMethodName)).Nodup ↔
      levels.Pairwise fun derived base =>
        ∀ name, derived.decorated name = none ∨ base.decorated name = none := by
  induction levels with
  | nil => simp [walk]
  | cons derived bases ih =>
      have hwalk : walk (derived :: bases) = derived.endpoints ++ walk bases := rfl
      rw [hwalk, List.map_append, List.nodup_append', List.pairwise_cons, ih]
      have hdisjoint : List.Disjoint (derived.endpoints.map (·.classMethodName))
          ((walk bases).map (·.classMethodName)) ↔
          ∀ base ∈ bases, ∀ name, derived.decorated name = none ∨ base.decorated name = none := by
        have hderived : derived.endpoints = walk [derived] := by simp [walk]
        simp only [List.Disjoint, hderived, mem_names_walk]
        grind
      grind [derived.nodup_endpoints]

/-- Of a name that is decorated once, that definition is the most derived one. -/
theorem mostDerivedDecorated_of_once {levels : List (ClassBody σ β)} {name : String} {m : Message σ}
    (h : levels.Pairwise fun derived base =>
      ∀ name, derived.decorated name = none ∨ base.decorated name = none)
    (hmem : ∃ level ∈ levels, level.decorated name = some m) :
    levels.findSome? (·.decorated name) = some m := by
  induction levels with
  | nil => simp at hmem
  | cons derived bases ih =>
      rw [List.pairwise_cons] at h
      obtain ⟨level, hlevel, hm⟩ := hmem
      rw [List.findSome?_cons]
      rcases List.mem_cons.mp hlevel with rfl | hbase
      · rw [hm]
      · have hnone : derived.decorated name = none := by
          have := h.1 level hbase name
          grind
        rw [hnone]
        exact ih h.2 ⟨level, hbase, hm⟩

/-- The compiler sees to it that what hides a decorated method can be called. -/
theorem decoratedCallable_of_methodsOnly (h : c.MethodsOnly) : c.DecoratedCallable := by
  intro level hlevel name hname
  rw [method]
  cases hfind : c.levels.findSome? (·.properties.get name) with
  | none =>
      rw [List.findSome?_eq_none_iff] at hfind
      simp [ClassBody.decorated, hfind level hlevel] at hname
  | some property =>
      obtain ⟨l, hl, hget⟩ := List.exists_of_findSome?_eq_some hfind
      have := h l hl (name, property) (OrderedMap.get_eq_some_iff.mp hget)
      cases property with
      | method function => simp [ClassProperty.read]
      | accessor function => exact absurd rfl this

end ControllerClass

/-! ## The endpoints -/

namespace ControllerInstance

variable {this : ControllerInstance σ β} {endpoints : List (Endpoint σ β)}

theorem endpoint_eq_ok {metadata : ControllerEndpointMetadata σ} {e : Endpoint σ β} :
    this.endpoint metadata = .ok e ↔
      e.metadata = metadata ∧ e.handle.this = this ∧
        this.constructor.method metadata.classMethodName = some e.handle.method := by
  obtain ⟨metadata', ⟨method', this'⟩⟩ := e
  unfold endpoint
  cases this.constructor.method metadata.classMethodName with
  | none => simp
  | some method =>
      simp only [Except.ok.injEq, Endpoint.mk.injEq, BoundMethod.mk.injEq, Option.some.injEq]
      grind

/-- What comes of describing endpoints one after the other. -/
def Describes (this : ControllerInstance σ β) (metadatas : List (ControllerEndpointMetadata σ))
    (endpoints : List (Endpoint σ β)) : Prop :=
  endpoints.map (·.metadata) = metadatas ∧ ∀ e ∈ endpoints, e.handle.this = this ∧
    this.constructor.method e.metadata.classMethodName = some e.handle.method

theorem describes_cons {metadata : ControllerEndpointMetadata σ}
    {metadatas : List (ControllerEndpointMetadata σ)} :
    this.Describes (metadata :: metadatas) endpoints ↔
      ∃ e es, endpoints = e :: es ∧ this.endpoint metadata = .ok e ∧
        this.Describes metadatas es := by
  cases endpoints with
  | nil => simp [Describes]
  | cons e es =>
      simp only [Describes, List.map_cons, List.cons.injEq, List.forall_mem_cons, endpoint_eq_ok]
      grind

theorem mapM_endpoint_eq_ok {metadatas : List (ControllerEndpointMetadata σ)} :
    metadatas.mapM this.endpoint = .ok endpoints ↔ this.Describes metadatas endpoints := by
  induction metadatas generalizing endpoints with
  | nil =>
      have hnil : this.Describes [] endpoints ↔ endpoints = [] := by
        cases endpoints <;> simp [Describes]
      rw [hnil, List.mapM_nil]
      show Except.ok [] = Except.ok endpoints ↔ _
      grind
  | cons metadata metadatas ih =>
      rw [describes_cons, List.mapM_cons]
      show ((this.endpoint metadata).bind fun e =>
        (metadatas.mapM this.endpoint).bind fun es => .ok (e :: es)) = _ ↔ _
      cases this.endpoint metadata with
      | error message => simp [Except.bind]
      | ok e =>
          cases hrest : metadatas.mapM this.endpoint with
          | error message => simp [Except.bind, ← ih, hrest]
          | ok rest => simp [Except.bind, ← ih, hrest, eq_comm]

theorem exists_describes_iff {metadatas : List (ControllerEndpointMetadata σ)} :
    (∃ endpoints, this.Describes metadatas endpoints) ↔
      ∀ m ∈ metadatas, this.constructor.method m.classMethodName ≠ none := by
  induction metadatas with
  | nil => exact iff_of_true ⟨[], rfl, by simp⟩ (by simp)
  | cons m ms ih =>
      rw [List.forall_mem_cons, ← ih]
      constructor
      · intro h
        obtain ⟨endpoints, hdescribes⟩ := h
        obtain ⟨e, es, -, he, hes⟩ := describes_cons.mp hdescribes
        exact ⟨by simp [(endpoint_eq_ok.mp he).2.2], es, hes⟩
      · intro h
        obtain ⟨hm, es, hes⟩ := h
        obtain ⟨method, hmethod⟩ := Option.ne_none_iff_exists'.mp hm
        exact ⟨⟨m, method, this⟩ :: es,
          describes_cons.mpr ⟨_, es, rfl, endpoint_eq_ok.mpr ⟨rfl, rfl, hmethod⟩, hes⟩⟩

/-- The names of the endpoints are those of the walk. -/
theorem names_of_describes
    (h : this.Describes this.constructor.getControllerEndpointMetadata endpoints) :
    endpoints.map (·.metadata.classMethodName) =
      (ControllerClass.walk this.constructor.levels).map (·.classMethodName) := by
  have hnames := congrArg (List.map (·.classMethodName)) h.1
  simpa [ControllerClass.getControllerEndpointMetadata, Function.comp_def] using hnames

/-- A call goes through when there is a function for every endpoint. -/
theorem exists_getEndpoints_iff :
    (∃ endpoints, this.getEndpoints = .ok endpoints) ↔ this.constructor.DecoratedCallable := by
  simp only [getEndpoints, mapM_endpoint_eq_ok, exists_describes_iff,
    ControllerClass.getControllerEndpointMetadata, List.forall_mem_map]
  constructor
  · intro h level hlevel name hname
    obtain ⟨m, hm⟩ := Option.ne_none_iff_exists'.mp hname
    exact h ⟨m, name⟩ (ControllerClass.mem_walk.mpr ⟨level, hlevel, hm⟩)
  · intro h e he
    obtain ⟨level, hlevel, hm⟩ := ControllerClass.mem_walk.mp he
    exact h level hlevel e.classMethodName (by simp [hm])

/-- What the endpoints of an instance are to be: one for each decorated name, with what the most
derived decorator says, and with the most derived method bound to the instance. -/
structure MostDerived (this : ControllerInstance σ β) (endpoints : List (Endpoint σ β)) : Prop where
  once : (endpoints.map (·.metadata.classMethodName)).Nodup
  complete : ∀ name, name ∈ endpoints.map (·.metadata.classMethodName) ↔
    this.constructor.mostDerivedDecorated name ≠ none
  message : ∀ e ∈ endpoints,
    (this.constructor.mostDerivedDecorated e.metadata.classMethodName).map
      this.constructor.withRoute = some e.metadata.message
  handle : ∀ e ∈ endpoints, e.handle.this = this ∧
    this.constructor.method e.metadata.classMethodName = some e.handle.method

/-- **When the endpoints of a controller are right.** `getEndpoints` returns, once for each
decorated name, the description of the most derived decorator with the most derived method as its
handler, if and only if no name is decorated in two classes of the chain and no decorated method is
hidden by something that is not a function. -/
theorem mostDerived_iff (this : ControllerInstance σ β) :
    (∃ endpoints, this.getEndpoints = .ok endpoints ∧ this.MostDerived endpoints) ↔
      this.constructor.DecoratedOnce ∧ this.constructor.DecoratedCallable := by
  rw [← exists_getEndpoints_iff, ControllerClass.DecoratedOnce,
    ← ControllerClass.nodup_names_walk]
  constructor
  · intro h
    obtain ⟨endpoints, hget, hright⟩ := h
    refine ⟨?_, endpoints, hget⟩
    rw [← names_of_describes (mapM_endpoint_eq_ok.mp hget)]
    exact hright.once
  · intro h
    obtain ⟨hnodup, endpoints, hget⟩ := h
    have hdescribes := mapM_endpoint_eq_ok.mp hget
    have hnames := names_of_describes hdescribes
    have honce := (ControllerClass.nodup_names_walk _).mp hnodup
    refine ⟨endpoints, hget, ?_, ?_, ?_, hdescribes.2⟩
    · rw [hnames]
      exact hnodup
    · intro name
      rw [hnames, ControllerClass.mem_names_walk, ControllerClass.mostDerivedDecorated, Ne,
        List.findSome?_eq_none_iff]
      push Not
      rfl
    · intro e he
      have hmem : e.metadata ∈ this.constructor.getControllerEndpointMetadata := by
        rw [← hdescribes.1]
        exact List.mem_map_of_mem he
      obtain ⟨found, hfound, hmetadata⟩ := List.mem_map.mp hmem
      have hmost := ControllerClass.mostDerivedDecorated_of_once honce
        (ControllerClass.mem_walk.mp hfound)
      rw [← hmetadata, ControllerClass.mostDerivedDecorated, hmost, Option.map_some]

/-! ### A method that is decorated twice -/

def sampleClass (name body : String) : ClassBody Unit String where
  name
  controllerMetadata := none
  properties := OrderedMap.empty.set "run"
    (.method ⟨body, some ⟨.request .noResponse, "run", .noParams⟩⟩)

/-- `Derived` overrides the `run` of `Base` under the same decorator. -/
def sampleInstance : ControllerInstance Unit String :=
  ⟨0, sampleClass "Derived" "derived", [sampleClass "Base" "base"]⟩

theorem decorated_override_found_twice :
    ∃ endpoints, sampleInstance.getEndpoints = .ok endpoints ∧
      endpoints.map (·.metadata.classMethodName) = ["run", "run"] ∧
      ¬ ∃ endpoints, sampleInstance.getEndpoints = .ok endpoints ∧
        sampleInstance.MostDerived endpoints := by
  refine ⟨_, rfl, rfl, ?_⟩
  intro h
  obtain ⟨endpoints, hget, hright⟩ := h
  cases hget
  exact absurd hright.once (by decide)

end ControllerInstance

end KhulnasoftLsp
