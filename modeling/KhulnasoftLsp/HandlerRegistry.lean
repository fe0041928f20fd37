import KhulnasoftLsp.Transition
import KhulnasoftLsp.OrderedMap

/-!
# The handler registries

`SimpleRegistry` keeps one handler for each key, and `HashedRegistry` does the same for keys that
are hashed first. `register` returns a disposable, which deletes the *key*: it does not look whether
the handler under the key is still the one that it was returned for.
-/

namespace KhulnasoftLsp

open Transition

/-- What a handler may throw, as far as `resolveError` looks at it. -/
inductive HandlerThrown where
  | error (message : String)
  | string (value : String)
  | other
  deriving DecidableEq, Repr

/-- `HandlerNotFoundError` and `UnhandledHandlerError`, the latter with the message of its
`originalError`. -/
inductive HandlerError where
  | handlerNotFound (key : String)
  | unhandledHandler (handlerId originalError : String)
  deriving DecidableEq, Repr

def HandlerError.message : HandlerError → String
  | .handlerNotFound key => s!"Handler not found for key {key}"
  | .unhandledHandler handlerId originalError =>
    s!"Unhandled error in handler '{handlerId}': {originalError}"

/-- The message of `resolveError(e)` -/
def resolveError : HandlerThrown → String
  | .error message => message
  | .string value => value
  | .other => "Unknown error"

/-! ## The registries -/

structure SimpleRegistry (H : Type) where
  handlers : OrderedMap String H

namespace SimpleRegistry

variable {H R : Type}

def new : SimpleRegistry H := ⟨.empty⟩

def size (r : SimpleRegistry H) : Nat := r.handlers.entries.length

def register (key : String) (handler : H) (r : SimpleRegistry H) : SimpleRegistry H :=
  ⟨r.handlers.set key handler⟩

/-- What the disposable does that `register` returned for this key. -/
def disposeKey (key : String) (r : SimpleRegistry H) : SimpleRegistry H := ⟨r.handlers.delete key⟩

def has (key : String) (r : SimpleRegistry H) : Bool := (r.handlers.get key).isSome

/-- `dispose()` of the registry itself -/
def dispose (_ : SimpleRegistry H) : SimpleRegistry H := ⟨.empty⟩

/-- `handle`, with what a handler returns or throws when it is called. -/
def handle (call : H → Except HandlerThrown R) (key : String) (r : SimpleRegistry H) :
    Except HandlerError R :=
  match r.handlers.get key with
  | none => .error (.handlerNotFound key)
  | some handler => (call handler).mapError fun e => .unhandledHandler key (resolveError e)

end SimpleRegistry

/-- A `HashedRegistry`, whose hash function is a parameter. -/
structure HashedRegistry (H : Type) where
  basicRegistry : SimpleRegistry H

namespace HashedRegistry

variable {K H R : Type} (hashFunc : K → String)

def new : HashedRegistry H := ⟨.new⟩

def register (key : K) (handler : H) (r : HashedRegistry H) : HashedRegistry H :=
  ⟨r.basicRegistry.register (hashFunc key) handler⟩

/-- What the disposable does that `register` returned for this key. -/
def disposeKey (key : K) (r : HashedRegistry H) : HashedRegistry H :=
  ⟨r.basicRegistry.disposeKey (hashFunc key)⟩

def has (key : K) (r : HashedRegistry H) : Bool := r.basicRegistry.has (hashFunc key)

def handle (call : H → Except HandlerThrown R) (key : K) (r : HashedRegistry H) :
    Except HandlerError R :=
  r.basicRegistry.handle call (hashFunc key)

end HashedRegistry

/-! ## Registering and disposing -/

/-- A registry with its history: the calls of `register` so far, whose places are the numbers of the
disposables that they returned, and which of these were disposed of. If keys are their own hashes,
it is a `SimpleRegistry`. -/
structure Registrations (K H : Type) where
  registry : HashedRegistry H
  registered : List (K × H)
  disposed : List Nat

namespace Registrations

variable {K H R : Type} (hashFunc : K → String)

inductive Event (K H : Type) where
  | register (key : K) (handler : H)
  /-- `dispose()` of the disposable that the call number `i` of `register` returned. -/
  | dispose (i : Nat)
  deriving DecidableEq, Repr

def new : Registrations K H where
  registry := .new
  registered := []
  disposed := []

def step (s : Registrations K H) : Event K H → Option (Registrations K H)
  | .register key handler => some { s with
      registry := s.registry.register hashFunc key handler
      registered := s.registered ++ [(key, handler)] }
  | .dispose i => s.registered[i]?.map fun r => { s with
      registry := s.registry.disposeKey hashFunc r.1
      disposed := i :: s.disposed }

/-- The last registration under a hash, with its number. -/
def last (hash : String) (s : Registrations K H) : Option ((K × H) × Nat) :=
  s.registered.zipIdx.reverse.find? fun r => hashFunc r.1.1 = hash

/-- The registration that a hash stands for: the last one, if it was not disposed of. -/
def current (hash : String) (s : Registrations K H) : Option ((K × H) × Nat) :=
  (s.last hashFunc hash).filter fun r => r.2 ∉ s.disposed

/-- Under each hash the registry has the handler of the registration that the hash stands for. -/
def RemovesOwn (s : Registrations K H) : Prop :=
  ∀ hash, s.registry.basicRegistry.handlers.get hash =
    (s.current hashFunc hash).map fun r => r.1.2

/-- The registration that is disposed of is the one that its key stands for, unless the key stands
for none. -/
def DisposesCurrent (s : Registrations K H) : Event K H → Prop
  | .register _ _ => True
  | .dispose i => ∀ r ∈ s.registered[i]?, ∀ c ∈ s.current hashFunc (hashFunc r.1), c.2 = i

instance (s : Registrations K H) : DecidablePred (DisposesCurrent hashFunc s)
  | .register _ _ => isTrue trivial
  | .dispose i => inferInstanceAs (Decidable (∀ r ∈ s.registered[i]?, _))

/-- So the handler that is called for a key is that of the registration it stands for. -/
theorem handle_of_removesOwn {s : Registrations K H} (h : s.RemovesOwn hashFunc)
    (call : H → Except HandlerThrown R) (key : K) :
    s.registry.handle hashFunc call key =
      match s.current hashFunc (hashFunc key) with
      | none => .error (.handlerNotFound (hashFunc key))
      | some r =>
        (call r.1.2).mapError fun e => .unhandledHandler (hashFunc key) (resolveError e) := by
  show SimpleRegistry.handle call (hashFunc key) s.registry.basicRegistry = _
  rw [SimpleRegistry.handle, h (hashFunc key)]
  cases s.current hashFunc (hashFunc key) <;> rfl

/-! ## What a step does to the current registrations -/

variable {hashFunc}

/-- Only registrations that were made have been disposed of. -/
def Made (s : Registrations K H) : Prop := ∀ i ∈ s.disposed, i < s.registered.length

theorem last_eq_some {s : Registrations K H} {hash : String} {r : (K × H) × Nat}
    (h : s.last hashFunc hash = some r) :
    s.registered[r.2]? = some r.1 ∧ hashFunc r.1.1 = hash := by
  refine ⟨?_, by simpa using List.find?_some h⟩
  have hmem := List.mem_reverse.mp (List.mem_of_find?_eq_some h)
  exact List.mem_zipIdx_iff_getElem?.mp hmem

variable (hashFunc) in
theorem current_register (s : Registrations K H) (hmade : s.Made) (key : K) (handler : H)
    (registry : HashedRegistry H) (hash : String) :
    current hashFunc hash
        { s with registry, registered := s.registered ++ [(key, handler)] } =
      if hash = hashFunc key then some ((key, handler), s.registered.length)
      else s.current hashFunc hash := by
  have hlast : last hashFunc hash
      { s with registry, registered := s.registered ++ [(key, handler)] } =
        if hash = hashFunc key then some ((key, handler), s.registered.length)
        else s.last hashFunc hash := by
    simp only [last, List.zipIdx_append, List.reverse_append, List.zipIdx_singleton,
      List.reverse_singleton, List.singleton_append, List.find?_cons, Nat.zero_add]
    by_cases h : hash = hashFunc key
    · simp [h]
    · simp [h, Ne.symm h]
  have hnew : s.registered.length ∉ s.disposed := fun h => absurd (hmade _ h) (Nat.lt_irrefl _)
  rw [current, hlast]
  split
  · simp [hnew]
  · rfl

/-- A disposal leaves at most its own registration no longer current. -/
theorem current_dispose (s : Registrations K H) {i : Nat} (registry : HashedRegistry H)
    (hash : String) :
    current hashFunc hash { s with registry, disposed := i :: s.disposed } =
      (s.current hashFunc hash).filter fun r => r.2 ≠ i := by
  show (s.last hashFunc hash).filter _ = ((s.last hashFunc hash).filter _).filter _
  rw [Option.filter_filter]
  congr 1
  funext r
  simp [Bool.and_comm]

theorem Made.step {s t : Registrations K H} {e : Event K H} (h : s.Made)
    (hs : step hashFunc s e = some t) : t.Made := by
  cases e with
  | register key handler =>
      cases hs
      intro i hi
      have := h i hi
      simp
      omega
  | dispose i =>
      obtain ⟨r, hr, rfl⟩ := Option.map_eq_some_iff.mp hs
      intro j hj
      rcases List.mem_cons.mp hj with rfl | hj
      · exact (List.getElem?_eq_some_iff.mp hr).1
      · exact h j hj

/-- A disposal removes its own registration and no other exactly if it disposes of the current
one. -/
theorem removesOwn_step_iff {s t : Registrations K H} {e : Event K H} (hmade : s.Made)
    (h : s.RemovesOwn hashFunc) (hs : step hashFunc s e = some t) :
    t.RemovesOwn hashFunc ↔ s.DisposesCurrent hashFunc e := by
  cases e with
  | register key handler =>
      cases hs
      refine iff_of_true ?_ trivial
      intro hash
      rw [current_register hashFunc s hmade]
      show (s.registry.basicRegistry.handlers.set (hashFunc key) handler).get hash = _
      rw [OrderedMap.get_set, h hash]
      split <;> rfl
  | dispose i =>
      obtain ⟨r, hr, rfl⟩ := Option.map_eq_some_iff.mp hs
      have hget : ∀ hash, (s.registry.disposeKey hashFunc r.1).basicRegistry.handlers.get hash =
          if hash = hashFunc r.1 then none else (s.current hashFunc hash).map fun r => r.1.2 := by
        intro hash
        show (s.registry.basicRegistry.handlers.delete (hashFunc r.1)).get hash = _
        rw [OrderedMap.get_delete, h hash]
      have hdisposes : s.DisposesCurrent hashFunc (.dispose i) ↔
          ∀ c ∈ s.current hashFunc (hashFunc r.1), c.2 = i := by
        simp [DisposesCurrent, hr]
      rw [hdisposes]
      constructor
      · intro hown c hc
        have := hown (hashFunc r.1)
        rw [hget, if_pos rfl, current_dispose] at this
        have hnone := Option.map_eq_none_iff.mp this.symm
        rw [Option.filter_eq_none_iff] at hnone
        by_contra hne
        exact absurd (hnone c hc) (by simpa using hne)
      · intro hcurrent hash
        show (s.registry.disposeKey hashFunc r.1).basicRegistry.handlers.get hash = _
        rw [hget, current_dispose]
        by_cases hhash : hash = hashFunc r.1
        · rw [if_pos hhash, eq_comm, Option.map_eq_none_iff, Option.filter_eq_none_iff, hhash]
          intro c hc
          simpa using hcurrent c hc
        · rw [if_neg hhash]
          cases hc : s.current hashFunc hash with
          | none => rfl
          | some c =>
              have hne : c.2 ≠ i := by
                rintro rfl
                obtain ⟨hc', hkey⟩ := last_eq_some (Option.filter_eq_some_iff.mp hc).1
                rw [hr] at hc'
                exact hhash (Option.some.inj hc' ▸ hkey.symm)
              rw [Option.filter_some, if_pos (by simpa using hne)]

/-- **What a disposal removes.** In every state of a run of calls of `register` and of disposals, a
key is handled by the last handler that was registered for it, if its registration was not disposed
of, and by none otherwise; this holds if and only if no disposable is disposed of while a later
registration of its key is current. -/
theorem removesOwn_iff (es : List (Event K H)) (s : Registrations K H)
    (hrun : run (step hashFunc) new es = some s) :
    Always (step hashFunc) (RemovesOwn hashFunc) new es ↔
      Guarded (step hashFunc) (DisposesCurrent hashFunc) new es := by
  have hnew : (new : Registrations K H).RemovesOwn hashFunc := fun _ => rfl
  have hmade : (new : Registrations K H).Made := by
    intro i hi
    cases hi
  apply always_iff_guarded (I := Made) _ _ hmade hnew hrun
  · exact fun _ _ _ hmade _ _ hs => hmade.step hs
  · exact fun _ _ _ hmade h hs => removesOwn_step_iff hmade h hs

/-- A registration is disposed of twice, and then its key is registered again. The keys of a
`SimpleRegistry` are their own hashes. -/
theorem removesOwn_of_disposed_twice : ∃ s,
    run (step id) new [.register "a" 0, .register "b" 1, .dispose 0, .dispose 0, .register "a" 2] =
      some s ∧
    Always (step id) (RemovesOwn id) new
      [.register "a" 0, .register "b" 1, .dispose 0, .dispose 0, .register "a" 2] := by
  refine ⟨?s, ?run, (removesOwn_iff _ ?s ?run).mpr ?_⟩
  case run => rfl
  decide

/-- The handler that was registered last is removed with the one before it. -/
theorem not_removesOwn_of_registered_again : ∃ s,
    run (step id) new [.register "a" 0, .register "a" 1, .dispose 0] = some s ∧
      s.registry.has id "a" = false ∧ ¬ s.RemovesOwn id := by
  refine ⟨_, rfl, by decide, ?_⟩
  intro h
  exact absurd (h "a") (by decide)

end Registrations
end KhulnasoftLsp
