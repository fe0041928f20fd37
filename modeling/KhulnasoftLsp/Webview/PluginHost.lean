import KhulnasoftLsp.HandlerRegistry

/-!
# The plugins and their messages

`DefaultPluginManager` sets plugins up, one for each id, and gives each of them a message bus to the
extension. The buses share one registry of handlers for notifications and one for requests, with the
id of the plugin and the type of the message joined by a colon as the key. A message is handled if
it has an id and a type; the connection has one subscription for all plugins.

`hosted_of_run` says what a plugin can rely on in any run: a message is handled by the handler that
was registered last for its key, unless that key was disposed of since; this is a handler of the
plugin that the message names, for the type that it names, if neither has a colon in it; and if no
disposable throws, a plugin is set up and torn down in turns.
-/

namespace KhulnasoftLsp.Webview

open Transition

structure ExtensionMessageHandlerKey where
  pluginId : String
  type : String
  deriving DecidableEq, Repr

/-- The hash function of `ExtensionMessageHandlerRegistry` -/
def ExtensionMessageHandlerKey.hash (key : ExtensionMessageHandlerKey) : String :=
  String.ofList (key.pluginId.toList ++ ':' :: key.type.toList)

inductive RpcKind where
  | notification
  | request
  deriving DecidableEq, Repr

/-- What comes over the connection. A message without an id or a type is invalid. -/
inductive ExtensionMessage where
  | invalid
  | message (key : ExtensionMessageHandlerKey)
  deriving DecidableEq, Repr

/-- What is done to the registry of a kind. Handlers are numbered. -/
inductive HandlerEvent where
  | registered (kind : RpcKind) (key : ExtensionMessageHandlerKey) (handler : Nat)
  | disposed (kind : RpcKind) (key : ExtensionMessageHandlerKey)
  deriving DecidableEq, Repr

/-- A valid message that was received. -/
structure Received where
  kind : RpcKind
  key : ExtensionMessageHandlerKey
  /-- How much had been done to the registries. -/
  after : Nat
  /-- The handler that was called. -/
  handler : Option Nat
  deriving DecidableEq, Repr

/-- How a request ends, if it is a valid message and its handler returns or throws this. -/
inductive Reply (V : Type) where
  | invalidFormat
  | handled (result : Except HandlerError V)

structure PluginHost (V : Type) where
  /-- The plugins that were set up, by their ids. -/
  setUps : List String
  /-- The set-up that is registered under an id. -/
  registeredPlugins : OrderedMap String Nat
  /-- The set-ups whose disposables were disposed of. -/
  disposals : List Nat
  /-- The plugins for which a context was created. -/
  contexts : List String
  notificationHandlers : HashedRegistry Nat
  requestHandlers : HashedRegistry Nat
  /-- The registrations so far, of which the positions are the handlers. -/
  registrations : List (RpcKind × ExtensionMessageHandlerKey)
  history : List HandlerEvent
  received : List Received
  replies : List (Reply V)

inductive PluginAction (V : Type) where
  /-- `setup` returns or throws. -/
  | registerPlugin (pluginId : String) (setupThrows : Bool)
  /-- `onNotification` or `onRequest` of the bus of a context -/
  | onMessage (context : Nat) (kind : RpcKind) (type : String)
  | disposeHandler (registration : Nat)
  /-- The disposable that `registerPlugin` returned for this set-up. -/
  | disposePlugin (setUp : Nat) (throws : Bool)
  /-- `dispose` of the manager, of which the disposable at a position may throw -/
  | dispose (throwsAt : Option Nat)
  /-- A message, and what its handler returns or throws. -/
  | receive (kind : RpcKind) (message : ExtensionMessage) (result : Except HandlerThrown V)

namespace PluginHost

variable {V : Type}

def new : PluginHost V where
  setUps := []
  registeredPlugins := .empty
  disposals := []
  contexts := []
  notificationHandlers := .new
  requestHandlers := .new
  registrations := []
  history := []
  received := []
  replies := []

def handlers (s : PluginHost V) : RpcKind → HashedRegistry Nat
  | .notification => s.notificationHandlers
  | .request => s.requestHandlers

def setHandlers (kind : RpcKind) (registry : HashedRegistry Nat) (s : PluginHost V) :
    PluginHost V :=
  match kind with
  | .notification => { s with notificationHandlers := registry }
  | .request => { s with requestHandlers := registry }

/-- A plugin whose id is registered is not set up. -/
def registerPlugin (pluginId : String) (setupThrows : Bool) (s : PluginHost V) : PluginHost V :=
  if (s.registeredPlugins.get pluginId).isSome then s
  else
    let s := { s with contexts := s.contexts ++ [pluginId] }
    if setupThrows then s
    else { s with
      setUps := s.setUps ++ [pluginId]
      registeredPlugins := s.registeredPlugins.set pluginId s.setUps.length }

/-- `onNotification` and `onRequest` -/
def onMessage (pluginId : String) (kind : RpcKind) (type : String) (s : PluginHost V) :
    PluginHost V :=
  let key : ExtensionMessageHandlerKey := ⟨pluginId, type⟩
  let handler := s.registrations.length
  let registry := (s.handlers kind).register ExtensionMessageHandlerKey.hash key handler
  { s.setHandlers kind registry with
    registrations := s.registrations ++ [(kind, key)]
    history := s.history ++ [.registered kind key handler] }

def disposeHandler (kind : RpcKind) (key : ExtensionMessageHandlerKey) (s : PluginHost V) :
    PluginHost V :=
  let registry := (s.handlers kind).disposeKey ExtensionMessageHandlerKey.hash key
  { s.setHandlers kind registry with history := s.history ++ [.disposed kind key] }

/-- `#unregisterPlugin` -/
def unregisterPlugin (pluginId : String) (throws : Bool) (s : PluginHost V) : PluginHost V :=
  match s.registeredPlugins.get pluginId with
  | none => s
  | some setUp =>
    let s := { s with disposals := s.disposals ++ [setUp] }
    if throws then s
    else { s with registeredPlugins := s.registeredPlugins.delete pluginId }

def dispose (throwsAt : Option Nat) (s : PluginHost V) : PluginHost V :=
  let registered := s.registeredPlugins.entries.map Prod.snd
  match throwsAt with
  | some i => { s with disposals := s.disposals ++ registered.take (i + 1) }
  | none => { s with disposals := s.disposals ++ registered, registeredPlugins := .empty }

/-- The handler that `handle` calls, which is what it returns if each handler returns itself. -/
def calledHandler (kind : RpcKind) (key : ExtensionMessageHandlerKey) (s : PluginHost V) :
    Option Nat :=
  ((s.handlers kind).handle ExtensionMessageHandlerKey.hash .ok key).toOption

/-- `handleNotificationMessage` and `handleRequestMessage`: an error is logged, and thrown to
whoever sent a request. -/
def receive (kind : RpcKind) (message : ExtensionMessage) (result : Except HandlerThrown V)
    (s : PluginHost V) : PluginHost V :=
  match message with
  | .invalid =>
    match kind with
    | .notification => s
    | .request => { s with replies := s.replies ++ [.invalidFormat] }
  | .message key =>
    let handled := (s.handlers kind).handle ExtensionMessageHandlerKey.hash (fun _ => result) key
    let s := { s with
      received := s.received ++ [
        { kind := kind
          key := key
          after := s.history.length
          handler := s.calledHandler kind key }] }
    match kind with
    | .notification => s
    | .request => { s with replies := s.replies ++ [.handled handled] }

def step (s : PluginHost V) : PluginAction V → Option (PluginHost V)
  | .registerPlugin pluginId setupThrows => some (s.registerPlugin pluginId setupThrows)
  | .onMessage context kind type =>
    s.contexts[context]?.map fun pluginId => s.onMessage pluginId kind type
  | .disposeHandler registration =>
    s.registrations[registration]?.map fun r => s.disposeHandler r.1 r.2
  | .disposePlugin setUp throws =>
    s.setUps[setUp]?.map fun pluginId => s.unregisterPlugin pluginId throws
  | .dispose throwsAt => some (s.dispose throwsAt)
  | .receive kind message result => some (s.receive kind message result)

/-! ## What a message is handled by -/

end PluginHost

namespace HandlerEvent

/-- The registry of the kind that the event is about, and the hash in it. -/
def place : HandlerEvent → RpcKind × String
  | registered kind key _ => (kind, key.hash)
  | disposed kind key => (kind, key.hash)

/-- What stands under the hash after the event. -/
def leaves : HandlerEvent → Option Nat
  | registered _ _ handler => some handler
  | disposed _ _ => none

/-- What stands at a place after a part of the history. -/
def current (place : RpcKind × String) (history : List HandlerEvent) : Option Nat :=
  (history.reverse.find? fun event => event.place = place).bind leaves

theorem current_concat (place : RpcKind × String) (history : List HandlerEvent)
    (event : HandlerEvent) :
    current place (history ++ [event]) =
      if event.place = place then event.leaves else current place history := by
  rw [current, List.reverse_append, List.reverse_singleton, List.singleton_append, List.find?_cons]
  by_cases h : event.place = place
  · simp [h]
  · simp [h, current]

/-- It is the handler of the last registration there, and nothing was done there since. -/
theorem current_eq_some_iff {place : RpcKind × String} {history : List HandlerEvent}
    {handler : Nat} :
    current place history = some handler ↔
      ∃ before key after, history = before ++ registered place.1 key handler :: after ∧
        key.hash = place.2 ∧ ∀ event ∈ after, event.place ≠ place := by
  constructor
  · intro h
    obtain ⟨event, hfind, hleaves⟩ := Option.bind_eq_some_iff.mp h
    obtain ⟨hplace, after, before, hhistory, hafter⟩ := List.find?_eq_some_iff_append.mp hfind
    have hhistory : history = before.reverse ++ event :: after.reverse := by
      rw [← List.reverse_reverse history, hhistory]
      simp
    cases event with
    | disposed kind key => cases hleaves
    | registered kind key i =>
        cases hleaves
        have hplace : (kind, key.hash) = place := of_decide_eq_true hplace
        refine ⟨before.reverse, key, after.reverse, ?_, ?_, ?_⟩
        · rw [hhistory, ← hplace]
        · rw [← hplace]
        · intro event hevent
          simpa using hafter event (List.mem_reverse.mp hevent)
  · rintro ⟨before, key, after, rfl, hhash, hafter⟩
    have hnone : after.reverse.find? (fun event => event.place = place) = none := by
      rw [List.find?_eq_none]
      intro event hevent
      simpa using hafter event (List.mem_reverse.mp hevent)
    have hplace : (registered place.1 key handler).place = place := by
      rw [HandlerEvent.place, hhash]
    simp [current, List.find?_append, hnone, hplace, leaves]

end HandlerEvent

/-! ## The hash -/

/-- Without colons in a key, no other key has its hash. -/
theorem ExtensionMessageHandlerKey.hash_injective {key key' : ExtensionMessageHandlerKey}
    (hid : ':' ∉ key.pluginId.toList) (htype : ':' ∉ key.type.toList) (h : key.hash = key'.hash) :
    key = key' := by
  obtain ⟨id, type⟩ := key
  obtain ⟨id', type'⟩ := key'
  have hlist : id.toList ++ ':' :: type.toList = id'.toList ++ ':' :: type'.toList := by
    simpa [hash] using congrArg String.toList h
  have heq : id.toList = id'.toList ∧ type.toList = type'.toList := by
    obtain ⟨rest, hid', hrest⟩ | ⟨rest, hid', hrest⟩ := List.append_eq_append_iff.mp hlist
    · -- a colon of the other id would be in the type
      cases rest with
      | nil => simpa [hid'] using hrest
      | cons c rest =>
          rw [List.cons_append, List.cons.injEq] at hrest
          exact absurd (by simp [hrest.2]) htype
    · cases rest with
      | nil => simpa [hid', eq_comm] using hrest
      | cons c rest =>
          rw [List.cons_append, List.cons.injEq] at hrest
          exact absurd (by simp [hid', ← hrest.1]) hid
  rw [String.toList_inj.mp heq.1, String.toList_inj.mp heq.2]

namespace PluginHost

variable {V : Type}

/-- What stands under the hashes in the registries is what the history left there. -/
structure Recorded (s : PluginHost V) : Prop where
  current : ∀ kind hash, (s.handlers kind).basicRegistry.handlers.get hash =
    HandlerEvent.current (kind, hash) s.history
  registered : ∀ kind key handler, .registered kind key handler ∈ s.history →
    s.registrations[handler]? = some (kind, key)
  contexts : ∀ r ∈ s.registrations, r.2.pluginId ∈ s.contexts
  received : ∀ m ∈ s.received, m.after ≤ s.history.length ∧
    m.handler = HandlerEvent.current (m.kind, m.key.hash) (s.history.take m.after)

theorem recorded_new : Recorded (new : PluginHost V) where
  current := by
    intro kind hash
    cases kind <;> rfl
  registered := by simp [new]
  contexts := by simp [new]
  received := by simp [new]

variable {s t : PluginHost V}

@[simp] theorem handlers_setHandlers (kind kind' : RpcKind) (registry : HashedRegistry Nat) :
    (s.setHandlers kind registry).handlers kind' =
      if kind' = kind then registry else s.handlers kind' := by
  cases kind <;> cases kind' <;> rfl

/-- Something more is done to a registry. -/
theorem Recorded.received_concat (h : s.Recorded) (event : HandlerEvent) :
    ∀ m ∈ s.received, m.after ≤ (s.history ++ [event]).length ∧
      m.handler =
        HandlerEvent.current (m.kind, m.key.hash) ((s.history ++ [event]).take m.after) := by
  intro m hm
  obtain ⟨hafter, hhandler⟩ := h.received m hm
  refine ⟨?_, ?_⟩
  · rw [List.length_append]
    exact Nat.le_add_right_of_le hafter
  · rw [List.take_append_of_le_length hafter]
    exact hhandler

theorem Recorded.registerPlugin (h : s.Recorded) (pluginId : String) (setupThrows : Bool) :
    (s.registerPlugin pluginId setupThrows).Recorded := by
  have hcontexts : ∀ r ∈ s.registrations, r.2.pluginId ∈ s.contexts ++ [pluginId] :=
    fun r hr => List.mem_append_left _ (h.contexts r hr)
  rw [PluginHost.registerPlugin]
  split_ifs
  · exact h
  · exact ⟨h.current, h.registered, hcontexts, h.received⟩
  · exact ⟨h.current, h.registered, hcontexts, h.received⟩

/-- A registry that changes at one hash as the history says. -/
theorem Recorded.current_concat (h : s.Recorded) (event : HandlerEvent)
    (registry : HashedRegistry Nat)
    (hregistry : ∀ hash, registry.basicRegistry.handlers.get hash =
      if hash = event.place.2 then event.leaves
      else (s.handlers event.place.1).basicRegistry.handlers.get hash) (kind : RpcKind)
    (hash : String) :
    ((s.setHandlers event.place.1 registry).handlers kind).basicRegistry.handlers.get hash =
      HandlerEvent.current (kind, hash) (s.history ++ [event]) := by
  rw [HandlerEvent.current_concat, handlers_setHandlers]
  by_cases hkind : kind = event.place.1
  · subst hkind
    rw [if_pos rfl, hregistry, h.current]
    simp only [Prod.ext_iff, true_and, eq_comm]
  · rw [if_neg hkind, h.current, if_neg]
    rintro hplace
    exact hkind (by rw [hplace])

@[simp] theorem setHandlers_fields (kind : RpcKind) (registry : HashedRegistry Nat) :
    (s.setHandlers kind registry).contexts = s.contexts ∧
      (s.setHandlers kind registry).registrations = s.registrations ∧
      (s.setHandlers kind registry).received = s.received := by
  cases kind <;> exact ⟨rfl, rfl, rfl⟩

theorem Recorded.onMessage (h : s.Recorded) {pluginId : String} (hid : pluginId ∈ s.contexts)
    (kind : RpcKind) (type : String) : (s.onMessage pluginId kind type).Recorded := by
  obtain ⟨hcontexts, -, hreceived⟩ := s.setHandlers_fields kind
    ((s.handlers kind).register ExtensionMessageHandlerKey.hash ⟨pluginId, type⟩
      s.registrations.length)
  refine ⟨?_, ?_, ?_, ?_⟩
  · apply h.current_concat (.registered kind ⟨pluginId, type⟩ s.registrations.length)
    intro hash
    exact OrderedMap.get_set _ _ _ _
  · intro kind' key handler hmem
    obtain hmem | hmem := List.mem_append.mp hmem
    · exact List.getElem?_append_left (List.getElem?_eq_some_iff.mp
        (h.registered kind' key handler hmem)).1 ▸ h.registered kind' key handler hmem
    · cases List.mem_singleton.mp hmem
      exact List.getElem?_concat_length
  · intro r hr
    show r.2.pluginId ∈ (s.setHandlers kind _).contexts
    rw [hcontexts]
    obtain hr | hr := List.mem_append.mp hr
    · exact h.contexts r hr
    · rw [List.mem_singleton.mp hr]
      exact hid
  · intro m hm
    have hm : m ∈ (s.setHandlers kind _).received := hm
    rw [hreceived] at hm
    exact h.received_concat _ m hm

theorem Recorded.disposeHandler (h : s.Recorded) (kind : RpcKind)
    (key : ExtensionMessageHandlerKey) : (s.disposeHandler kind key).Recorded := by
  obtain ⟨hcontexts, hregistrations, hreceived⟩ := s.setHandlers_fields kind
    ((s.handlers kind).disposeKey ExtensionMessageHandlerKey.hash key)
  refine ⟨?_, ?_, ?_, ?_⟩
  · apply h.current_concat (.disposed kind key)
    intro hash
    exact OrderedMap.get_delete _ _ _
  · intro kind' key' handler hmem
    show (s.setHandlers kind _).registrations[handler]? = _
    rw [hregistrations]
    obtain hmem | hmem := List.mem_append.mp hmem
    · exact h.registered kind' key' handler hmem
    · cases List.mem_singleton.mp hmem
  · intro r hr
    have hr : r ∈ (s.setHandlers kind _).registrations := hr
    rw [hregistrations] at hr
    show r.2.pluginId ∈ (s.setHandlers kind _).contexts
    rw [hcontexts]
    exact h.contexts r hr
  · intro m hm
    have hm : m ∈ (s.setHandlers kind _).received := hm
    rw [hreceived] at hm
    exact h.received_concat _ m hm

theorem calledHandler_eq (kind : RpcKind) (key : ExtensionMessageHandlerKey) :
    s.calledHandler kind key = (s.handlers kind).basicRegistry.handlers.get key.hash := by
  rw [calledHandler, HashedRegistry.handle, SimpleRegistry.handle]
  cases (s.handlers kind).basicRegistry.handlers.get key.hash with
  | none => rfl
  | some handler => rfl

theorem Recorded.receive (h : s.Recorded) (kind : RpcKind) (message : ExtensionMessage)
    (result : Except HandlerThrown V) : (s.receive kind message result).Recorded := by
  cases message with
  | invalid =>
      cases kind with
      | notification => exact h
      | request => exact ⟨h.current, h.registered, h.contexts, h.received⟩
  | message key =>
      have hreceived : ∀ m ∈ s.received ++ [({
          kind := kind
          key := key
          after := s.history.length
          handler := s.calledHandler kind key } : Received)],
          m.after ≤ s.history.length ∧
            m.handler = HandlerEvent.current (m.kind, m.key.hash) (s.history.take m.after) := by
        intro m hm
        obtain hm | hm := List.mem_append.mp hm
        · exact h.received m hm
        · rw [List.mem_singleton.mp hm]
          refine ⟨Nat.le_refl _, ?_⟩
          rw [List.take_length, calledHandler_eq]
          exact h.current kind key.hash
      cases kind with
      | notification => exact ⟨h.current, h.registered, h.contexts, hreceived⟩
      | request => exact ⟨h.current, h.registered, h.contexts, hreceived⟩

theorem Recorded.step {a : PluginAction V} (h : s.Recorded) (hstep : s.step a = some t) :
    t.Recorded := by
  cases a with
  | registerPlugin pluginId setupThrows =>
      cases hstep
      exact h.registerPlugin pluginId setupThrows
  | onMessage context kind type =>
      obtain ⟨pluginId, hcontext, rfl⟩ := Option.map_eq_some_iff.mp hstep
      exact h.onMessage (List.mem_of_getElem? hcontext) kind type
  | disposeHandler registration =>
      obtain ⟨r, -, rfl⟩ := Option.map_eq_some_iff.mp hstep
      exact h.disposeHandler r.1 r.2
  | disposePlugin setUp throws =>
      obtain ⟨pluginId, -, rfl⟩ := Option.map_eq_some_iff.mp hstep
      rw [PluginHost.unregisterPlugin]
      split
      · exact h
      · split_ifs
        · exact ⟨h.current, h.registered, h.contexts, h.received⟩
        · exact ⟨h.current, h.registered, h.contexts, h.received⟩
  | dispose throwsAt =>
      cases hstep
      cases throwsAt with
      | none => exact ⟨h.current, h.registered, h.contexts, h.received⟩
      | some i => exact ⟨h.current, h.registered, h.contexts, h.received⟩
  | receive kind message result =>
      cases hstep
      exact h.receive kind message result

/-! ## Setting up and tearing down -/

/-- No disposable throws. -/
def Quiet : PluginAction V → Prop
  | .disposePlugin _ throws => throws = false
  | .dispose throwsAt => throwsAt = none
  | _ => True

instance : DecidablePred (Quiet (V := V))
  | .disposePlugin _ throws => inferInstanceAs (Decidable (throws = false))
  | .dispose throwsAt => inferInstanceAs (Decidable (throwsAt = none))
  | .registerPlugin _ _ => .isTrue trivial
  | .onMessage _ _ _ => .isTrue trivial
  | .disposeHandler _ => .isTrue trivial
  | .receive _ _ _ => .isTrue trivial

/-- Every set-up is registered until its disposable is disposed of, which is done once. -/
structure Balanced (s : PluginHost V) : Prop where
  once : s.disposals.Nodup
  setUp : ∀ n ∈ s.disposals, n < s.setUps.length
  live : ∀ pluginId n, s.registeredPlugins.get pluginId = some n ↔
    s.setUps[n]? = some pluginId ∧ n ∉ s.disposals

theorem balanced_new : Balanced (new : PluginHost V) where
  once := List.nodup_nil
  setUp := by simp [new]
  live := by simp [new]

/-- What does not touch the plugins. -/
theorem Balanced.congr (h : s.Balanced) (hsetUps : t.setUps = s.setUps)
    (hregistered : t.registeredPlugins = s.registeredPlugins)
    (hdisposals : t.disposals = s.disposals) : t.Balanced := by
  refine ⟨?_, ?_, ?_⟩
  · rw [hdisposals]
    exact h.once
  · rw [hdisposals, hsetUps]
    exact h.setUp
  · rw [hdisposals, hsetUps, hregistered]
    exact h.live

theorem Balanced.registerPlugin (h : s.Balanced) (pluginId : String) (setupThrows : Bool) :
    (s.registerPlugin pluginId setupThrows).Balanced := by
  rw [PluginHost.registerPlugin]
  split_ifs with hregistered
  · exact h
  · exact h.congr rfl rfl rfl
  · have hnone : s.registeredPlugins.get pluginId = none := by simpa using hregistered
    refine ⟨h.once, ?_, ?_⟩
    · intro n hn
      show n < (s.setUps ++ [pluginId]).length
      rw [List.length_append]
      exact Nat.lt_add_right _ (h.setUp n hn)
    · intro id n
      show (s.registeredPlugins.set pluginId s.setUps.length).get id = some n ↔
        (s.setUps ++ [pluginId])[n]? = some id ∧ n ∉ s.disposals
      rw [OrderedMap.get_set]
      obtain hlt | rfl | hgt := Nat.lt_trichotomy n s.setUps.length
      · rw [List.getElem?_append_left hlt, ← h.live]
        split_ifs with hid
        · rw [hid, hnone]
          simp [Nat.ne_of_gt hlt]
        · rfl
      · have hnot : s.setUps.length ∉ s.disposals := fun hmem => Nat.lt_irrefl _ (h.setUp _ hmem)
        have hold : s.registeredPlugins.get id ≠ some s.setUps.length := by
          intro hget
          simpa using ((h.live id _).mp hget).1
        rw [List.getElem?_concat_length]
        split_ifs with hid
        · simp [hid, hnot]
        · simp [hold, Ne.symm hid]
      · have hold : s.registeredPlugins.get id ≠ some n := by
          intro hget
          have := (List.getElem?_eq_some_iff.mp ((h.live id _).mp hget).1).1
          omega
        have hout : (s.setUps ++ [pluginId])[n]? = none := by
          rw [List.getElem?_eq_none_iff, List.length_append, List.length_singleton]
          omega
        rw [hout]
        split_ifs with hid
        · simp [Nat.ne_of_lt hgt]
        · simp [hold]

theorem Balanced.unregisterPlugin (h : s.Balanced) (pluginId : String) :
    (s.unregisterPlugin pluginId false).Balanced := by
  rw [PluginHost.unregisterPlugin]
  split
  · exact h
  · rename_i n hn
    rw [if_neg Bool.false_ne_true]
    obtain ⟨hsetUp, hnot⟩ := (h.live pluginId n).mp hn
    refine ⟨?_, ?_, ?_⟩
    · exact List.nodup_append.mpr ⟨h.once, List.nodup_singleton n, by
        intro a ha b hb hab
        rw [List.mem_singleton.mp hb] at hab
        exact hnot (hab ▸ ha)⟩
    · intro m hm
      obtain hm | hm := List.mem_append.mp hm
      · exact h.setUp m hm
      · rw [List.mem_singleton.mp hm]
        exact (List.getElem?_eq_some_iff.mp hsetUp).1
    · intro id m
      show (s.registeredPlugins.delete pluginId).get id = some m ↔
        s.setUps[m]? = some id ∧ m ∉ s.disposals ++ [n]
      rw [OrderedMap.get_delete, List.mem_append, List.mem_singleton, not_or]
      split_ifs with hid
      · subst hid
        have hone : s.setUps[m]? = some id → m ∉ s.disposals → m = n := by
          intro hm hdisposed
          have hget := (h.live id m).mpr ⟨hm, hdisposed⟩
          rw [hn] at hget
          exact (Option.some.inj hget).symm
        constructor
        · intro hfalse
          cases hfalse
        · rintro ⟨hm, hdisposed, hne⟩
          exact absurd (hone hm hdisposed) hne
      · rw [h.live]
        constructor
        · rintro ⟨hm, hdisposed⟩
          refine ⟨hm, hdisposed, ?_⟩
          rintro rfl
          rw [hsetUp] at hm
          exact hid (Option.some.inj hm).symm
        · rintro ⟨hm, hdisposed, -⟩
          exact ⟨hm, hdisposed⟩

/-- What is registered is live, and each set-up is registered under its own id. -/
theorem Balanced.mem_registered_iff (h : s.Balanced) {n : Nat} :
    n ∈ s.registeredPlugins.entries.map Prod.snd ↔ n < s.setUps.length ∧ n ∉ s.disposals := by
  rw [List.mem_map]
  constructor
  · rintro ⟨⟨pluginId, n⟩, hmem, rfl⟩
    obtain ⟨hsetUp, hnot⟩ := (h.live pluginId n).mp (OrderedMap.get_eq_some_iff.mpr hmem)
    exact ⟨(List.getElem?_eq_some_iff.mp hsetUp).1, hnot⟩
  · rintro ⟨hlt, hnot⟩
    have hget := (h.live (s.setUps[n]) n).mpr ⟨List.getElem?_eq_getElem hlt, hnot⟩
    exact ⟨(s.setUps[n], n), OrderedMap.get_eq_some_iff.mp hget, rfl⟩

theorem Balanced.nodup_registered (h : s.Balanced) :
    (s.registeredPlugins.entries.map Prod.snd).Nodup := by
  apply List.Nodup.map_on
  · rintro ⟨id, n⟩ hid ⟨id', n'⟩ hid' hn
    obtain rfl : n = n' := hn
    have hset := ((h.live id n).mp (OrderedMap.get_eq_some_iff.mpr hid)).1
    have hset' := ((h.live id' n).mp (OrderedMap.get_eq_some_iff.mpr hid')).1
    rw [hset, Option.some.injEq] at hset'
    rw [hset']
  · exact List.Nodup.of_map Prod.fst s.registeredPlugins.nodup

theorem Balanced.dispose (h : s.Balanced) : (s.dispose none).Balanced := by
  refine ⟨?_, ?_, ?_⟩
  · refine List.nodup_append.mpr ⟨h.once, h.nodup_registered, ?_⟩
    intro a ha b hb hab
    exact (h.mem_registered_iff.mp hb).2 (hab ▸ ha)
  · intro n hn
    obtain hn | hn := List.mem_append.mp hn
    · exact h.setUp n hn
    · exact (h.mem_registered_iff.mp hn).1
  · intro id n
    show none = some n ↔ s.setUps[n]? = some id ∧ n ∉ s.disposals ++ _
    constructor
    · intro hfalse
      cases hfalse
    · rintro ⟨hsetUp, hnot⟩
      rw [List.mem_append, not_or] at hnot
      have hlt := (List.getElem?_eq_some_iff.mp hsetUp).1
      exact absurd (h.mem_registered_iff.mpr ⟨hlt, hnot.1⟩) hnot.2

theorem Balanced.step {a : PluginAction V} (h : s.Balanced) (hquiet : Quiet a)
    (hstep : s.step a = some t) : t.Balanced := by
  cases a with
  | registerPlugin pluginId setupThrows =>
      cases hstep
      exact h.registerPlugin pluginId setupThrows
  | onMessage context kind type =>
      obtain ⟨pluginId, -, rfl⟩ := Option.map_eq_some_iff.mp hstep
      cases kind with
      | notification => exact h.congr rfl rfl rfl
      | request => exact h.congr rfl rfl rfl
  | disposeHandler registration =>
      obtain ⟨⟨kind, key⟩, -, rfl⟩ := Option.map_eq_some_iff.mp hstep
      cases kind with
      | notification => exact h.congr rfl rfl rfl
      | request => exact h.congr rfl rfl rfl
  | disposePlugin setUp throws =>
      obtain ⟨pluginId, -, rfl⟩ := Option.map_eq_some_iff.mp hstep
      obtain rfl : throws = false := hquiet
      exact h.unregisterPlugin pluginId
  | dispose throwsAt =>
      cases hstep
      obtain rfl : throwsAt = none := hquiet
      exact h.dispose
  | receive kind message result =>
      cases hstep
      cases message with
      | invalid =>
          cases kind with
          | notification => exact h
          | request => exact h.congr rfl rfl rfl
      | message key =>
          cases kind with
          | notification => exact h.congr rfl rfl rfl
          | request => exact h.congr rfl rfl rfl

/-! ## The messages of a run -/

/-- The valid message that arrives with an action, if there is one. -/
def validMessage : PluginAction V → Option (RpcKind × ExtensionMessageHandlerKey)
  | .receive kind (.message key) _ => some (kind, key)
  | _ => none

theorem received_step {a : PluginAction V} (h : s.step a = some t) :
    t.received.map (fun m => (m.kind, m.key)) =
      s.received.map (fun m => (m.kind, m.key)) ++ (validMessage a).toList := by
  cases a with
  | registerPlugin pluginId setupThrows =>
      cases h
      rw [PluginHost.registerPlugin]
      split_ifs <;> exact (List.append_nil _).symm
  | onMessage context kind type =>
      obtain ⟨pluginId, -, rfl⟩ := Option.map_eq_some_iff.mp h
      cases kind <;> exact (List.append_nil _).symm
  | disposeHandler registration =>
      obtain ⟨⟨kind, key⟩, -, rfl⟩ := Option.map_eq_some_iff.mp h
      cases kind <;> exact (List.append_nil _).symm
  | disposePlugin setUp throws =>
      obtain ⟨pluginId, -, rfl⟩ := Option.map_eq_some_iff.mp h
      rw [PluginHost.unregisterPlugin]
      split
      · exact (List.append_nil _).symm
      · split_ifs <;> exact (List.append_nil _).symm
  | dispose throwsAt =>
      cases h
      cases throwsAt <;> exact (List.append_nil _).symm
  | receive kind message result =>
      cases h
      cases message with
      | invalid => cases kind <;> exact (List.append_nil _).symm
      | message key => cases kind <;> exact List.map_append

/-- Each valid message is taken down when it arrives. -/
theorem received_run {as : List (PluginAction V)} (h : run step new as = some s) :
    s.received.map (fun m => (m.kind, m.key)) = as.filterMap validMessage := by
  refine run_trace (I := fun as (s : PluginHost V) =>
    s.received.map (fun m => (m.kind, m.key)) = as.filterMap validMessage) rfl ?_ h
  intro as s a t hs hstep
  rw [received_step hstep, hs, List.filterMap_append]
  cases hmessage : validMessage a with
  | none => rw [List.filterMap_cons_none hmessage]; rfl
  | some message => rw [List.filterMap_cons_some hmessage]; rfl

/-! ## All runs -/

/-- The handler was registered last for the key of the message, or one with the same hash, and it is
a handler of the plugin that the message names. -/
structure Handles (s : PluginHost V) (m : Received) (handler : Nat) : Prop where
  last : ∃ before key after, s.history.take m.after =
    before ++ .registered m.kind key handler :: after ∧ key.hash = m.key.hash ∧
      ∀ event ∈ after, event.place ≠ (m.kind, m.key.hash)
  own : ∀ key, s.registrations[handler]? = some (m.kind, key) → ':' ∉ key.pluginId.toList →
    ':' ∉ key.type.toList → m.key = key ∧ m.key.pluginId ∈ s.contexts

theorem Recorded.handler_eq_some_iff (h : s.Recorded) {m : Received} (hm : m ∈ s.received)
    {handler : Nat} : m.handler = some handler ↔ s.Handles m handler := by
  rw [(h.received m hm).2, HandlerEvent.current_eq_some_iff]
  constructor
  · rintro ⟨before, key, after, hhistory, hhash, hafter⟩
    refine ⟨⟨before, key, after, hhistory, hhash, hafter⟩, ?_⟩
    intro key' hkey' hid htype
    have hmem : .registered m.kind key handler ∈ s.history :=
      List.mem_of_mem_take (hhistory ▸ List.mem_append_right before List.mem_cons_self)
    have hkey := h.registered m.kind key handler hmem
    rw [hkey] at hkey'
    cases hkey'
    obtain rfl := ExtensionMessageHandlerKey.hash_injective hid htype hhash
    exact ⟨rfl, h.contexts _ (List.mem_of_getElem? hkey)⟩
  · intro hhandles
    exact hhandles.last

/-- **Plugins in any run.** Each valid message is handled by the handler that was registered last for
its key, if nothing was done there since; without colons in the key that is a handler of the plugin
that the message names. And if no disposable throws, every set-up is torn down at most once, and is
registered until then. -/
theorem hosted_of_run {as : List (PluginAction V)} (h : run step new as = some s) :
    s.received.map (fun m => (m.kind, m.key)) = as.filterMap validMessage ∧
      (∀ m ∈ s.received, ∀ handler, m.handler = some handler ↔ s.Handles m handler) ∧
      ((∀ a ∈ as, Quiet a) → s.Balanced) := by
  refine ⟨received_run h, ?_, ?_⟩
  · have hrecorded : s.Recorded :=
      run_invariant (fun s a t hs hstep => Recorded.step hs hstep) recorded_new h
    intro m hm handler
    exact hrecorded.handler_eq_some_iff hm
  · intro hquiet
    have htrue : Guarded step (fun _ _ => True) (new : PluginHost V) as := guarded_true new as
    have hguarded := htrue.and_forall hquiet
    exact guarded_invariant (fun s a t hs hok hstep => Balanced.step hs hok.2 hstep) balanced_new
      hguarded h

/-- A plugin that handles a request is set up, torn down, and set up again. -/
def samplePlugin : List (PluginAction Nat) :=
  [.registerPlugin "chat" false, .onMessage 0 .request "focus",
    .receive .request (.message ⟨"chat", "focus"⟩) (.ok 1), .disposePlugin 0 false,
    .registerPlugin "chat" false]

theorem hosted_of_run_of_samplePlugin : ∃ s, run step (new : PluginHost Nat) samplePlugin = some s ∧
    s.received.map (fun m => (m.kind, m.key)) = samplePlugin.filterMap validMessage ∧
      (∀ m ∈ s.received, ∀ handler, m.handler = some handler ↔ s.Handles m handler) ∧
      ((∀ a ∈ samplePlugin, Quiet a) → s.Balanced) := by
  obtain ⟨s, hs⟩ : ∃ s, run step (new : PluginHost Nat) samplePlugin = some s := ⟨_, rfl⟩
  exact ⟨s, hs, hosted_of_run hs⟩

end PluginHost

end KhulnasoftLsp.Webview
