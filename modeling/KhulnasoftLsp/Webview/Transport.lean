import KhulnasoftLsp.OrderedMap
import KhulnasoftLsp.Transition
import KhulnasoftLsp.Webview.Messages

/-!
# The routing of plugin messages to transports

`DefaultWebviewTransportService` keeps one `WebviewRuntimeTransportMediator` for each registered
transport. A mediator listens to its transport, to learn which instances it manages, and to the
runtime bus, from which it hands the messages of plugins to the transport. Disposing of a mediator
ends the first and not the second.

The service, its mediators and their subscriptions are one state with one step per event. The
state of the transports is part of it: the addresses that each has created and not destroyed,
whether somebody listens to it or not.
-/

namespace KhulnasoftLsp.Webview

open Transition

/-- The messages of plugins on the runtime bus. -/
inductive PluginMessageType where
  | notification
  | request
  | response
  deriving DecidableEq, Repr

/-- The event under which a mediator publishes a message to its transport. -/
def PluginMessageType.transportEvent : PluginMessageType → String
  | .notification => "webview_instance_notification"
  | .request => "webview_instance_request"
  | .response => "webview_instance_response"

/-- A message of a plugin: its address, and the rest that is passed on as it is. -/
structure PluginMessage (μ : Type) extends WebviewAddress where
  content : μ
  deriving DecidableEq, Repr

/-- A `WebviewRuntimeTransportMediator` -/
structure Mediator (T : Type) where
  transport : T
  managedInstances : List String
  /-- Its subscriptions at the transport are disposed of. -/
  disposed : Bool
  deriving DecidableEq, Repr

structure TransportService (T : Type) where
  /-- Every mediator that was ever made. -/
  mediators : List (Mediator T)
  /-- The subscriptions on the runtime bus, each of one mediator. -/
  subscriptions : List (PluginMessageType × Nat)
  managedTransports : OrderedMap T Nat
  /-- What the transports have created and not destroyed. -/
  instances : List (T × WebviewAddress)

inductive TransportEvent (T μ : Type) where
  | registerTransport (transport : T)
  /-- A disposable that some registration of the transport has returned. -/
  | disposeRegistration (transport : T)
  | dispose
  | instanceCreated (transport : T) (address : WebviewAddress)
  | instanceDestroyed (transport : T) (address : WebviewAddress)
  | pluginMessage (type : PluginMessageType) (message : PluginMessage μ)
  deriving DecidableEq, Repr

/-- A call of `publish` on a transport. -/
structure Handover (T μ : Type) where
  mediator : Nat
  transport : T
  event : String
  message : PluginMessage μ
  deriving DecidableEq, Repr

variable {T μ : Type}

/-! ## The mediator -/

namespace Mediator

def new (transport : T) : Mediator T where
  transport
  managedInstances := []
  disposed := false

/-- `createIsManagedFunc`, for events that are addresses -/
def isManaged (m : Mediator T) (event : WebviewAddress) : Bool :=
  event.webviewInstanceId ∈ m.managedInstances

/-- `#onInstanceCreated`, unless the subscription is disposed of -/
def onInstanceCreated [DecidableEq T] (transport : T) (address : WebviewAddress)
    (m : Mediator T) : Mediator T :=
  if m.transport = transport ∧ m.disposed = false then
    { m with managedInstances := m.managedInstances.insert address.webviewInstanceId }
  else m

/-- `#onInstanceDestroyed`, unless the subscription is disposed of -/
def onInstanceDestroyed [DecidableEq T] (transport : T) (address : WebviewAddress)
    (m : Mediator T) : Mediator T :=
  if m.transport = transport ∧ m.disposed = false then
    { m with managedInstances :=
        m.managedInstances.filter fun i => i != address.webviewInstanceId }
  else m

@[simp] theorem onInstanceCreated_transport [DecidableEq T] (t : T) (a : WebviewAddress)
    (m : Mediator T) : (m.onInstanceCreated t a).transport = m.transport := by
  unfold onInstanceCreated
  split <;> rfl

@[simp] theorem onInstanceCreated_disposed [DecidableEq T] (t : T) (a : WebviewAddress)
    (m : Mediator T) : (m.onInstanceCreated t a).disposed = m.disposed := by
  unfold onInstanceCreated
  split <;> rfl

@[simp] theorem onInstanceDestroyed_transport [DecidableEq T] (t : T) (a : WebviewAddress)
    (m : Mediator T) : (m.onInstanceDestroyed t a).transport = m.transport := by
  unfold onInstanceDestroyed
  split <;> rfl

@[simp] theorem onInstanceDestroyed_disposed [DecidableEq T] (t : T) (a : WebviewAddress)
    (m : Mediator T) : (m.onInstanceDestroyed t a).disposed = m.disposed := by
  unfold onInstanceDestroyed
  split <;> rfl

def dispose (m : Mediator T) : Mediator T := { m with disposed := true }

/-- `#onPluginNotification`, `#onPluginRequest` and `#onPluginResponse`, behind the filter -/
def onPluginMessage (m : Mediator T) (self : Nat) (type : PluginMessageType)
    (message : PluginMessage μ) : Option (Handover T μ) :=
  if m.isManaged message.toWebviewAddress then
    some { mediator := self, transport := m.transport, event := type.transportEvent, message }
  else none

end Mediator

/-! ## The service -/

namespace TransportService

variable [DecidableEq T]

def new : TransportService T where
  mediators := []
  subscriptions := []
  managedTransports := .empty
  instances := []

/-- `#setupTransport`: the constructor of the mediator subscribes it to the bus. -/
def setupTransport (transport : T) (s : TransportService T) : TransportService T :=
  let mediator := s.mediators.length
  { s with
    mediators := s.mediators ++ [.new transport]
    subscriptions := s.subscriptions ++
      [(.notification, mediator), (.request, mediator), (.response, mediator)]
    managedTransports := s.managedTransports.set transport mediator }

/-- A transport that is registered already is not registered again; the error is logged. -/
def registerTransport (transport : T) (s : TransportService T) : TransportService T :=
  if (s.managedTransports.get transport).isSome then s else s.setupTransport transport

/-- The `dispose` that `#setupTransport` returns. -/
def disposeRegistration (transport : T) (s : TransportService T) : TransportService T :=
  match s.managedTransports.get transport with
  | some mediator =>
    { s with
      mediators := s.mediators.modify mediator .dispose
      managedTransports := s.managedTransports.delete transport }
  | none => s

def dispose (s : TransportService T) : TransportService T :=
  { s with
    mediators := s.managedTransports.entries.foldl
      (fun mediators entry => mediators.modify entry.2 .dispose) s.mediators
    managedTransports := .empty }

def instanceCreated (transport : T) (address : WebviewAddress) (s : TransportService T) :
    TransportService T :=
  { s with
    mediators := s.mediators.map (.onInstanceCreated transport address)
    instances := s.instances.insert (transport, address) }

def instanceDestroyed (transport : T) (address : WebviewAddress) (s : TransportService T) :
    TransportService T :=
  { s with
    mediators := s.mediators.map (.onInstanceDestroyed transport address)
    instances := s.instances.filter fun e => e != (transport, address) }

/-- `publish` of the runtime bus: the listeners of the type are called in order. -/
def publish (s : TransportService T) (type : PluginMessageType) (message : PluginMessage μ) :
    List (Handover T μ) :=
  s.subscriptions.filterMap fun subscription =>
    if subscription.1 = type then
      s.mediators[subscription.2]?.bind fun m => m.onPluginMessage subscription.2 type message
    else none

/-- One event. The disposable of a registration is there once the transport was registered. -/
def step (s : TransportService T) : TransportEvent T μ → Option (TransportService T)
  | .registerTransport t => some (s.registerTransport t)
  | .disposeRegistration t =>
    if ∃ m ∈ s.mediators, m.transport = t then some (s.disposeRegistration t) else none
  | .dispose => some s.dispose
  | .instanceCreated t address => some (s.instanceCreated t address)
  | .instanceDestroyed t address => some (s.instanceDestroyed t address)
  | .pluginMessage _ _ => some s

/-! ## What routing is for -/

def Registered (s : TransportService T) (transport : T) : Prop :=
  (s.managedTransports.get transport).isSome

instance (s : TransportService T) (transport : T) : Decidable (s.Registered transport) :=
  inferInstanceAs (Decidable (_ = true))

/-- A registered transport has created the address and not destroyed it. -/
def Reachable (s : TransportService T) (address : WebviewAddress) : Prop :=
  ∃ e ∈ s.instances, s.Registered e.1 ∧ e.2 = address

instance (s : TransportService T) (address : WebviewAddress) :
    Decidable (s.Reachable address) :=
  inferInstanceAs (Decidable (∃ e ∈ s.instances, s.Registered e.1 ∧ e.2 = address))

/-- The message is handed to a transport exactly once if its address can be reached, and to none
otherwise; never by a mediator that is disposed of. -/
structure Routes (s : TransportService T) (type : PluginMessageType)
    (message : PluginMessage μ) : Prop where
  once : s.Reachable message.toWebviewAddress → ∃ h, s.publish type message = [h] ∧
    h.event = type.transportEvent ∧ h.message = message ∧
    s.Registered h.transport ∧ (h.transport, message.toWebviewAddress) ∈ s.instances
  never : ¬ s.Reachable message.toWebviewAddress → s.publish type message = []
  alive : ∀ h ∈ s.publish type message, ∀ m, s.mediators[h.mediator]? = some m →
    m.disposed = false

/-- The event finds no instance in its way: a transport is registered or let go while it has no
instances, and of the instances of registered transports no two share an instance id, nor do the
address of the event and another one. -/
def Separate (s : TransportService T) : TransportEvent T μ → Prop
  | .registerTransport t => s.Registered t ∨ ∀ e ∈ s.instances, e.1 ≠ t
  | .disposeRegistration t => s.Registered t → ∀ e ∈ s.instances, e.1 ≠ t
  | .dispose => ∀ e ∈ s.instances, ¬ s.Registered e.1
  | .instanceCreated t address => s.Registered t → ∀ e ∈ s.instances, s.Registered e.1 →
      e.2.webviewInstanceId = address.webviewInstanceId → e = (t, address)
  | .instanceDestroyed t address => s.Registered t → ∀ e ∈ s.instances, e.1 = t →
      e.2.webviewInstanceId = address.webviewInstanceId → e.2 = address
  | .pluginMessage _ message => ∀ e ∈ s.instances, s.Registered e.1 →
      e.2.webviewInstanceId = message.webviewInstanceId → e.2 = message.toWebviewAddress

instance (s : TransportService T) : ∀ e : TransportEvent T μ, Decidable (s.Separate e)
  | .registerTransport _ => inferInstanceAs (Decidable (_ ∨ _))
  | .disposeRegistration _ => inferInstanceAs (Decidable (_ → _))
  | .dispose => inferInstanceAs (Decidable (∀ _ ∈ _, _))
  | .instanceCreated _ _ => inferInstanceAs (Decidable (_ → _))
  | .instanceDestroyed _ _ => inferInstanceAs (Decidable (_ → _))
  | .pluginMessage _ _ => inferInstanceAs (Decidable (∀ _ ∈ _, _))

/-! ## Mediators and registrations -/

/-- What holds after every run: a transport is registered with the one mediator of it that is not
disposed of, and every mediator listens to every type of message. -/
structure WellFormed (s : TransportService T) : Prop where
  managed_iff : ∀ t k, s.managedTransports.get t = some k ↔
    ∃ m : Mediator T, s.mediators[k]? = some m ∧ m.transport = t ∧ m.disposed = false
  subscribed : ∀ type, (s.subscriptions.filter fun x => x.1 = type).map Prod.snd =
    List.range s.mediators.length

theorem wellFormed_new : WellFormed (new : TransportService T) where
  managed_iff := by simp [new]
  subscribed := by simp [new]

theorem WellFormed.registered_iff {s : TransportService T} (h : s.WellFormed) {t : T} :
    s.Registered t ↔
      ∃ (k : Nat) (m : Mediator T),
        s.mediators[k]? = some m ∧ m.transport = t ∧ m.disposed = false := by
  rw [Registered, Option.isSome_iff_exists]
  exact exists_congr fun k => h.managed_iff t k

omit [DecidableEq T] in
theorem getElem?_mediators_append {ms : List (Mediator T)} {m : Mediator T} {k : Nat} :
    (ms ++ [m])[k]? = if k = ms.length then some m else ms[k]? := by
  split
  · rename_i hk
    rw [hk, List.getElem?_concat_length]
  · rename_i hk
    grind

theorem WellFormed.setupTransport {s : TransportService T} (h : s.WellFormed) {t : T}
    (ht : ¬ s.Registered t) : (s.setupTransport t).WellFormed where
  managed_iff := by
    intro t' k
    show (s.managedTransports.set t s.mediators.length).get t' = some k ↔
      ∃ m : Mediator T,
        (s.mediators ++ [.new t])[k]? = some m ∧ m.transport = t' ∧ m.disposed = false
    have hold := h.managed_iff t' k
    rw [OrderedMap.get_set, getElem?_mediators_append]
    by_cases ht' : t' = t
    · -- Of the mediators there were, none is the one of `t`.
      subst ht'
      have hnone : s.managedTransports.get t' = none := Option.not_isSome_iff_eq_none.mp ht
      rw [hnone] at hold
      by_cases hk : k = s.mediators.length
      · simp [hk, Mediator.new]
      · simpa [hk, Ne.symm hk] using hold
    · by_cases hk : k = s.mediators.length
      · subst hk
        have hlen : s.mediators[s.mediators.length]? = none := by simp
        rw [hlen] at hold
        simpa [ht', Mediator.new, Ne.symm ht'] using hold
      · simpa [ht', hk] using hold
  subscribed := by
    intro type
    show ((s.subscriptions ++ _).filter _).map _ = List.range (s.mediators ++ [_]).length
    rw [List.filter_append, List.map_append, h.subscribed, List.length_append,
      List.length_singleton, List.range_succ]
    cases type <;> rfl

/-- What is done to single mediators keeps what they are for and who listens. -/
theorem WellFormed.of_map {s t : TransportService T} (h : s.WellFormed)
    (hsubscriptions : t.subscriptions = s.subscriptions)
    (hlength : t.mediators.length = s.mediators.length)
    (hmanaged : ∀ u k, t.managedTransports.get u = some k ↔
      ∃ m : Mediator T, t.mediators[k]? = some m ∧ m.transport = u ∧ m.disposed = false) :
    t.WellFormed where
  managed_iff := hmanaged
  subscribed := by
    intro type
    rw [hsubscriptions, hlength]
    exact h.subscribed type

theorem WellFormed.disposeRegistration {s : TransportService T} (h : s.WellFormed) (t : T) :
    (s.disposeRegistration t).WellFormed := by
  unfold TransportService.disposeRegistration
  split
  · rename_i k hk
    obtain ⟨m, hm, rfl, hdisposed⟩ := (h.managed_iff t k).mp hk
    refine h.of_map rfl ?_ fun u j => ?_
    · show (s.mediators.modify k .dispose).length = s.mediators.length
      rw [List.length_modify]
    · have hold := h.managed_iff u j
      show (s.managedTransports.delete m.transport).get u = some j ↔
        ∃ n : Mediator T, (s.mediators.modify k .dispose)[j]? = some n ∧
          n.transport = u ∧ n.disposed = false
      rw [OrderedMap.get_delete, List.getElem?_modify]
      by_cases hj : k = j
      · subst hj
        have hother : u ≠ m.transport → s.managedTransports.get u ≠ some k := by
          intro hne hu
          obtain ⟨n, hn, hnu, -⟩ := hold.mp hu
          grind
        by_cases hu : u = m.transport <;> simp [hu, hm, Mediator.dispose, hother]
      · by_cases hu : u = m.transport
        · subst hu
          rw [hk] at hold
          simpa [hj] using hold
        · simpa [hj, hu] using hold
  · exact h

omit [DecidableEq T] in
theorem getElem?_disposeAll (es : List (T × Nat)) (ms : List (Mediator T)) (k : Nat) :
    (es.foldl (fun ms e => ms.modify e.2 .dispose) ms)[k]? =
      ms[k]?.map fun m => if k ∈ es.map Prod.snd then m.dispose else m := by
  induction es generalizing ms with
  | nil => simp
  | cons e es ih =>
      rw [List.foldl_cons, ih, List.getElem?_modify, Option.map_eq_map, Option.map_map,
        List.map_cons]
      congr 1
      funext m
      show (if k ∈ es.map Prod.snd then (if e.2 = k then m.dispose else m).dispose
        else if e.2 = k then m.dispose else m) = _
      by_cases hk : e.2 = k
      · by_cases hes : k ∈ es.map Prod.snd <;> simp [hk, hes, Mediator.dispose]
      · have hk' : ¬ k = e.2 := fun h => hk h.symm
        by_cases hes : k ∈ es.map Prod.snd <;> simp [hk, hk', hes]

omit [DecidableEq T] in
theorem length_disposeAll (es : List (T × Nat)) (ms : List (Mediator T)) :
    (es.foldl (fun ms e => ms.modify e.2 .dispose) ms).length = ms.length := by
  induction es generalizing ms with
  | nil => rfl
  | cons e es ih => rw [List.foldl_cons, ih, List.length_modify]

theorem WellFormed.dispose {s : TransportService T} (h : s.WellFormed) : s.dispose.WellFormed := by
  refine h.of_map rfl ?_ fun u k => ?_
  · exact length_disposeAll s.managedTransports.entries s.mediators
  · show (OrderedMap.empty : OrderedMap T Nat).get u = some k ↔
      ∃ m : Mediator T, (List.foldl _ s.mediators _)[k]? = some m ∧ _
    rw [getElem?_disposeAll]
    have hnone : ∀ m, s.mediators[k]? = some m → m.disposed = false →
        k ∈ s.managedTransports.entries.map Prod.snd := by
      intro m hm hdisposed
      have hget := (h.managed_iff m.transport k).mpr ⟨m, hm, rfl, hdisposed⟩
      exact List.mem_map_of_mem (OrderedMap.get_eq_some_iff.mp hget)
    simp only [OrderedMap.get_empty, Option.map_eq_some_iff, false_iff, reduceCtorEq]
    rintro ⟨m, ⟨n, hn, rfl⟩, -, hdisposed⟩
    split at hdisposed
    · cases hdisposed
    · rename_i hmem
      exact hmem (hnone n hn hdisposed)

theorem WellFormed.map {s t : TransportService T} (h : s.WellFormed) {f : Mediator T → Mediator T}
    (htransport : ∀ m, (f m).transport = m.transport) (hdisposed : ∀ m, (f m).disposed = m.disposed)
    (hmediators : t.mediators = s.mediators.map f)
    (hsubscriptions : t.subscriptions = s.subscriptions)
    (hmanaged : t.managedTransports = s.managedTransports) : t.WellFormed := by
  apply h.of_map hsubscriptions
  · rw [hmediators, List.length_map]
  · intro u k
    rw [hmanaged, hmediators, List.getElem?_map, h.managed_iff]
    constructor
    · rintro ⟨m, hm, hu, hd⟩
      exact ⟨f m, by rw [hm, Option.map_some], by rw [htransport, hu], by rw [hdisposed, hd]⟩
    · rintro ⟨n, hn, hu, hd⟩
      obtain ⟨m, hm, rfl⟩ := Option.map_eq_some_iff.mp hn
      exact ⟨m, hm, by rw [← htransport, hu], by rw [← hdisposed, hd]⟩

theorem wellFormed_step {s t : TransportService T} (h : s.WellFormed) {e : TransportEvent T μ}
    (hstep : s.step e = some t) : t.WellFormed := by
  cases e with
  | registerTransport u =>
      cases hstep
      unfold registerTransport
      split
      · exact h
      · rename_i hu
        exact h.setupTransport hu
  | disposeRegistration u =>
      obtain ⟨-, rfl⟩ := Option.ite_some_none_eq_some.mp hstep
      exact h.disposeRegistration u
  | dispose =>
      cases hstep
      exact h.dispose
  | instanceCreated u a =>
      cases hstep
      exact h.map (Mediator.onInstanceCreated_transport u a)
        (Mediator.onInstanceCreated_disposed u a) rfl rfl rfl
  | instanceDestroyed u a =>
      cases hstep
      exact h.map (Mediator.onInstanceDestroyed_transport u a)
        (Mediator.onInstanceDestroyed_disposed u a) rfl rfl rfl
  | pluginMessage type message =>
      cases hstep
      exact h

/-! ## What the mediators manage -/

/-- What holds after a run of separate events: a mediator manages the instances of its transport,
and none once it is disposed of; and no two instances of registered transports share an id. -/
structure Coherent (s : TransportService T) : Prop extends WellFormed s where
  manages_iff : ∀ (k : Nat) (m : Mediator T), s.mediators[k]? = some m → ∀ i,
    i ∈ m.managedInstances ↔ m.disposed = false ∧
      ∃ e ∈ s.instances, e.1 = m.transport ∧ e.2.webviewInstanceId = i
  unique : ∀ e ∈ s.instances, ∀ e' ∈ s.instances, s.Registered e.1 → s.Registered e'.1 →
    e.2.webviewInstanceId = e'.2.webviewInstanceId → e = e'

theorem coherent_new : Coherent (new : TransportService T) where
  toWellFormed := wellFormed_new
  manages_iff := by simp [new]
  unique := by simp [new]

theorem WellFormed.registered_of_mediator {s : TransportService T} (h : s.WellFormed) {k : Nat}
    {m : Mediator T} (hm : s.mediators[k]? = some m) (hdisposed : m.disposed = false) :
    s.Registered m.transport :=
  h.registered_iff.mpr ⟨k, m, hm, rfl, hdisposed⟩

theorem Coherent.setupTransport {s : TransportService T} (h : s.Coherent) {t : T}
    (ht : ¬ s.Registered t) (hnone : ∀ e ∈ s.instances, e.1 ≠ t) :
    (s.setupTransport t).Coherent where
  toWellFormed := h.toWellFormed.setupTransport ht
  manages_iff := by
    intro k m hm i
    replace hm : (s.mediators ++ [.new t])[k]? = some m := hm
    show _ ↔ _ ∧ ∃ e ∈ s.instances, _
    rw [getElem?_mediators_append] at hm
    split at hm
    · cases hm
      have hlist : ¬ ∃ e ∈ s.instances, e.1 = t ∧ e.2.webviewInstanceId = i := by
        rintro ⟨e, he, het, -⟩
        exact hnone e he het
      constructor
      · intro hi
        cases hi
      · intro hi
        exact absurd hi.2 hlist
    · exact h.manages_iff k m hm i
  unique := by
    have hold : ∀ e ∈ s.instances, (s.setupTransport t).Registered e.1 → s.Registered e.1 := by
      intro e he hr
      unfold Registered TransportService.setupTransport at hr
      rwa [OrderedMap.get_set_other _ _ (hnone e he)] at hr
    intro e he e' he' hr hr' heq
    exact h.unique e he e' he' (hold e he hr) (hold e' he' hr') heq

/-- Nothing is lost when mediators are disposed of whose transports have no instances. -/
theorem Coherent.of_disposed {s t : TransportService T} (h : s.Coherent) (hwell : t.WellFormed)
    (hinstances : t.instances = s.instances)
    (hregistered : ∀ u, t.Registered u → s.Registered u)
    (hmediators : ∀ (k : Nat) (n : Mediator T), t.mediators[k]? = some n →
      ∃ m, s.mediators[k]? = some m ∧
        (n = m ∨ n = m.dispose ∧ ∀ e ∈ s.instances, e.1 ≠ m.transport)) : t.Coherent where
  toWellFormed := hwell
  manages_iff := by
    intro k n hn i
    obtain ⟨m, hm, hnm⟩ := hmediators k n hn
    have hold := h.manages_iff k m hm i
    rw [hinstances]
    rcases hnm with rfl | ⟨rfl, hnone⟩
    · exact hold
    · have hi : i ∉ m.managedInstances := by
        intro hi
        obtain ⟨-, e, he, het, -⟩ := hold.mp hi
        exact hnone e he het
      simpa [Mediator.dispose] using hi
  unique := by
    rw [hinstances]
    intro e he e' he' hr hr' heq
    exact h.unique e he e' he' (hregistered _ hr) (hregistered _ hr') heq

theorem Coherent.disposeRegistration {s : TransportService T} (h : s.Coherent) {t : T}
    (hnone : s.Registered t → ∀ e ∈ s.instances, e.1 ≠ t) : (s.disposeRegistration t).Coherent := by
  have hwell := h.toWellFormed.disposeRegistration t
  unfold TransportService.disposeRegistration at hwell ⊢
  split at hwell
  · rename_i k hk
    obtain ⟨m, hm, rfl, hdisposed⟩ := (h.managed_iff t k).mp hk
    apply h.of_disposed hwell rfl
    · intro u hu
      unfold Registered at hu ⊢
      rw [OrderedMap.get_delete] at hu
      split at hu
      · cases hu
      · exact hu
    · intro j n hn
      rw [List.getElem?_modify] at hn
      obtain ⟨m', hm', rfl⟩ := Option.map_eq_some_iff.mp hn
      refine ⟨m', hm', ?_⟩
      split
      · rename_i hkj
        subst hkj
        obtain rfl : m = m' := Option.some.inj (hm.symm.trans hm')
        right
        exact ⟨rfl, hnone (h.registered_of_mediator hm hdisposed)⟩
      · left
        rfl
  · exact h

theorem Coherent.dispose {s : TransportService T} (h : s.Coherent)
    (hnone : ∀ e ∈ s.instances, ¬ s.Registered e.1) : s.dispose.Coherent := by
  apply h.of_disposed h.toWellFormed.dispose rfl
  · intro u hu
    cases hu
  · intro k n hn
    replace hn : (List.foldl _ s.mediators s.managedTransports.entries)[k]? = some n := hn
    rw [getElem?_disposeAll] at hn
    obtain ⟨m, hm, rfl⟩ := Option.map_eq_some_iff.mp hn
    refine ⟨m, hm, ?_⟩
    split
    · rename_i hk
      obtain ⟨⟨u, k'⟩, hmem, rfl⟩ := List.mem_map.mp hk
      have hget := OrderedMap.get_eq_some_iff.mpr hmem
      obtain ⟨m', hm', rfl, hdisposed⟩ := (h.managed_iff u k').mp hget
      obtain rfl : m' = m := Option.some.inj (hm'.symm.trans hm)
      right
      refine ⟨rfl, fun e he het => hnone e he ?_⟩
      rw [het]
      exact h.registered_of_mediator hm hdisposed
    · left
      rfl

theorem Coherent.instanceCreated {s : TransportService T} (h : s.Coherent) {t : T}
    {a : WebviewAddress} (hclear : s.Registered t → ∀ e ∈ s.instances, s.Registered e.1 →
      e.2.webviewInstanceId = a.webviewInstanceId → e = (t, a)) :
    (s.instanceCreated t a).Coherent where
  toWellFormed := h.toWellFormed.map (Mediator.onInstanceCreated_transport t a)
    (Mediator.onInstanceCreated_disposed t a) rfl rfl rfl
  manages_iff := by
    intro k n hn i
    replace hn : (s.mediators.map (.onInstanceCreated t a))[k]? = some n := hn
    rw [List.getElem?_map] at hn
    obtain ⟨m, hm, rfl⟩ := Option.map_eq_some_iff.mp hn
    have hold := h.manages_iff k m hm i
    show _ ↔ _ ∧ ∃ e ∈ s.instances.insert (t, a), _
    unfold Mediator.onInstanceCreated
    split
    · rename_i hlisten
      obtain ⟨rfl, hdisposed⟩ := hlisten
      constructor
      · intro hi
        rcases List.mem_insert_iff.mp hi with rfl | hi
        · exact ⟨hdisposed, (m.transport, a), List.mem_insert_self, rfl, rfl⟩
        · obtain ⟨-, e, he, het, hei⟩ := hold.mp hi
          exact ⟨hdisposed, e, List.mem_insert_of_mem he, het, hei⟩
      · rintro ⟨-, e, he, het, rfl⟩
        rcases List.mem_insert_iff.mp he with rfl | he
        · exact List.mem_insert_self
        · exact List.mem_insert_of_mem (hold.mpr ⟨hdisposed, e, he, het, rfl⟩)
    · rename_i hdeaf
      rw [hold]
      apply and_congr_right
      intro hdisposed
      apply exists_congr
      intro e
      have hne : m.transport ≠ t := fun ht => hdeaf ⟨ht, hdisposed⟩
      rw [List.mem_insert_iff]
      grind
  unique := by
    intro e he e' he' hr hr' heq
    replace he : e ∈ s.instances.insert (t, a) := he
    replace he' : e' ∈ s.instances.insert (t, a) := he'
    replace hr : s.Registered e.1 := hr
    replace hr' : s.Registered e'.1 := hr'
    rcases List.mem_insert_iff.mp he with rfl | hmem
    · rcases List.mem_insert_iff.mp he' with rfl | hmem'
      · rfl
      · exact (hclear hr e' hmem' hr' heq.symm).symm
    · rcases List.mem_insert_iff.mp he' with rfl | hmem'
      · exact hclear hr' e hmem hr heq
      · exact h.unique e hmem e' hmem' hr hr' heq

theorem Coherent.instanceDestroyed {s : TransportService T} (h : s.Coherent) {t : T}
    {a : WebviewAddress} (hclear : s.Registered t → ∀ e ∈ s.instances, e.1 = t →
      e.2.webviewInstanceId = a.webviewInstanceId → e.2 = a) :
    (s.instanceDestroyed t a).Coherent where
  toWellFormed := h.toWellFormed.map (Mediator.onInstanceDestroyed_transport t a)
    (Mediator.onInstanceDestroyed_disposed t a) rfl rfl rfl
  manages_iff := by
    intro k n hn i
    replace hn : (s.mediators.map (.onInstanceDestroyed t a))[k]? = some n := hn
    rw [List.getElem?_map] at hn
    obtain ⟨m, hm, rfl⟩ := Option.map_eq_some_iff.mp hn
    have hold := h.manages_iff k m hm i
    show _ ↔ _ ∧ ∃ e ∈ s.instances.filter fun e => e != (t, a), _
    unfold Mediator.onInstanceDestroyed
    split
    · rename_i hlisten
      obtain ⟨rfl, hdisposed⟩ := hlisten
      have hr := h.registered_of_mediator hm hdisposed
      rw [List.mem_filter, hold]
      constructor
      · rintro ⟨⟨-, e, he, het, rfl⟩, hne⟩
        have hne' : e ≠ (m.transport, a) := by
          rintro rfl
          simp at hne
        exact ⟨hdisposed, e, List.mem_filter.mpr ⟨he, by simpa using hne'⟩, het, rfl⟩
      · rintro ⟨-, e, hmem, het, rfl⟩
        obtain ⟨he, hne⟩ := List.mem_filter.mp hmem
        refine ⟨⟨hdisposed, e, he, het, rfl⟩, ?_⟩
        have hne' : e.2.webviewInstanceId ≠ a.webviewInstanceId := by
          intro hid
          have heq : e = (m.transport, a) := Prod.ext het (hclear hr e he het hid)
          simp [heq] at hne
        simpa using hne'
    · rename_i hdeaf
      rw [hold]
      apply and_congr_right
      intro hdisposed
      apply exists_congr
      intro e
      have hne : m.transport ≠ t := fun ht => hdeaf ⟨ht, hdisposed⟩
      rw [List.mem_filter]
      grind
  unique := by
    intro e he e' he' hr hr' heq
    exact h.unique e (List.mem_of_mem_filter he) e' (List.mem_of_mem_filter he') hr hr' heq

theorem coherent_step {s t : TransportService T} (h : s.Coherent) {e : TransportEvent T μ}
    (hsep : s.Separate e) (hstep : s.step e = some t) : t.Coherent := by
  cases e with
  | registerTransport u =>
      cases hstep
      unfold registerTransport
      split
      · exact h
      · rename_i hu
        exact h.setupTransport hu (hsep.resolve_left hu)
  | disposeRegistration u =>
      obtain ⟨-, rfl⟩ := Option.ite_some_none_eq_some.mp hstep
      exact h.disposeRegistration hsep
  | dispose =>
      cases hstep
      exact h.dispose hsep
  | instanceCreated u a =>
      cases hstep
      exact h.instanceCreated hsep
  | instanceDestroyed u a =>
      cases hstep
      exact h.instanceDestroyed hsep
  | pluginMessage type message =>
      cases hstep
      exact h

/-! ## Who is handed a message -/

theorem WellFormed.publish_eq {s : TransportService T} (h : s.WellFormed)
    (type : PluginMessageType) (message : PluginMessage μ) :
    s.publish type message = (List.range s.mediators.length).filterMap fun k =>
      s.mediators[k]?.bind fun m => m.onPluginMessage k type message := by
  rw [← h.subscribed type, List.filterMap_map, List.filterMap_filter]
  unfold publish
  congr 1
  funext subscription
  by_cases htype : subscription.1 = type <;> simp [htype]

omit [DecidableEq T] in
theorem mem_range_mediators {s : TransportService T} {k : Nat} {m : Mediator T}
    (hm : s.mediators[k]? = some m) : k ∈ List.range s.mediators.length :=
  List.mem_range.mpr (List.getElem?_eq_some_iff.mp hm).1

/-- The mediators that hand a message over are the ones that manage its instance. -/
theorem WellFormed.mem_publish_iff {s : TransportService T} (h : s.WellFormed)
    {type : PluginMessageType} {message : PluginMessage μ} {x : Handover T μ} :
    x ∈ s.publish type message ↔ ∃ m : Mediator T, s.mediators[x.mediator]? = some m ∧
      message.webviewInstanceId ∈ m.managedInstances ∧
      x = ⟨x.mediator, m.transport, type.transportEvent, message⟩ := by
  rw [h.publish_eq, List.mem_filterMap]
  constructor
  · rintro ⟨k, -, hk⟩
    obtain ⟨m, hm, hx⟩ := Option.bind_eq_some_iff.mp hk
    obtain ⟨hmanaged, rfl⟩ := Option.ite_some_none_eq_some.mp hx
    exact ⟨m, hm, of_decide_eq_true hmanaged, rfl⟩
  · rintro ⟨m, hm, hmanaged, hx⟩
    refine ⟨x.mediator, mem_range_mediators hm, ?_⟩
    rw [hm, Option.bind_some, Mediator.onPluginMessage, Mediator.isManaged,
      if_pos (decide_eq_true hmanaged), ← hx]

theorem WellFormed.mem_publish {s : TransportService T} (h : s.WellFormed) {k : Nat}
    {m : Mediator T} (type : PluginMessageType) (message : PluginMessage μ)
    (hm : s.mediators[k]? = some m)
    (hmanaged : message.webviewInstanceId ∈ m.managedInstances) :
    ⟨k, m.transport, type.transportEvent, message⟩ ∈ s.publish type message :=
  h.mem_publish_iff.mpr ⟨m, hm, hmanaged, rfl⟩

/-- A list of numbers of which one alone is mapped to something. -/
theorem filterMap_range_eq_singleton {β : Type} {f : Nat → Option β} {n k : Nat} {b : β}
    (hk : k < n) (hb : f k = some b) (hother : ∀ j, j ≠ k → f j = none) :
    (List.range n).filterMap f = [b] := by
  induction n with
  | zero => cases hk
  | succ n ih =>
      rw [List.range_succ, List.filterMap_append]
      by_cases hkn : k = n
      · subst hkn
        have hbefore : (List.range k).filterMap f = [] := by
          rw [List.filterMap_eq_nil_iff]
          intro j hj
          exact hother j (Nat.ne_of_lt (List.mem_range.mp hj))
        simp [hbefore, hb]
      · simp [ih (by omega), hother n (Ne.symm hkn)]

theorem Coherent.routes {s : TransportService T} (h : s.Coherent) {type : PluginMessageType}
    {message : PluginMessage μ} (hclear : ∀ e ∈ s.instances, s.Registered e.1 →
      e.2.webviewInstanceId = message.webviewInstanceId → e.2 = message.toWebviewAddress) :
    s.Routes type message where
  once := by
    rintro ⟨⟨t, a⟩, hmem, hr, rfl⟩
    obtain ⟨k, m, hm, rfl, hdisposed⟩ := h.registered_iff.mp hr
    have hmanaged : message.webviewInstanceId ∈ m.managedInstances :=
      (h.manages_iff k m hm _).mpr ⟨hdisposed, _, hmem, rfl, rfl⟩
    refine ⟨⟨k, m.transport, type.transportEvent, message⟩, ?_, rfl, rfl, hr, hmem⟩
    rw [h.publish_eq]
    apply filterMap_range_eq_singleton (List.mem_range.mp (mem_range_mediators hm))
    · rw [hm, Option.bind_some, Mediator.onPluginMessage, Mediator.isManaged,
        if_pos (decide_eq_true hmanaged)]
    · intro j hj
      rw [Option.bind_eq_none_iff]
      intro m' hm'
      apply if_neg
      intro hlistens
      obtain ⟨hdisposed', e, he, het, hid⟩ :=
        (h.manages_iff j m' hm' _).mp (of_decide_eq_true hlistens)
      have hr' : s.Registered e.1 := by
        rw [het]
        exact h.registered_of_mediator hm' hdisposed'
      have heq := h.unique e he _ hmem hr' hr hid
      have hj' := (h.managed_iff e.1 j).mpr ⟨m', hm', het.symm, hdisposed'⟩
      have hk' := (h.managed_iff e.1 k).mpr ⟨m, hm, by rw [heq], hdisposed⟩
      exact hj (Option.some.inj (hj'.symm.trans hk'))
  never := by
    intro hnot
    rw [List.eq_nil_iff_forall_not_mem]
    intro x hx
    obtain ⟨m, hm, hmanaged, -⟩ := h.mem_publish_iff.mp hx
    obtain ⟨hdisposed, e, he, het, hid⟩ := (h.manages_iff _ m hm _).mp hmanaged
    have hr : s.Registered e.1 := by
      rw [het]
      exact h.registered_of_mediator hm hdisposed
    exact hnot ⟨e, he, hr, hclear e he hr hid⟩
  alive := by
    intro x hx m hm
    obtain ⟨m', hm', hmanaged, -⟩ := h.mem_publish_iff.mp hx
    obtain rfl : m' = m := Option.some.inj (hm'.symm.trans hm)
    exact ((h.manages_iff _ m' hm _).mp hmanaged).1

/-- In a run of separate events every message of a plugin is routed. -/
theorem routes_of_separate {es before after : List (TransportEvent T μ)}
    {type : PluginMessageType} {message : PluginMessage μ} {s : TransportService T}
    (hsep : Guarded step Separate new es)
    (hsplit : es = before ++ .pluginMessage type message :: after)
    (hrun : run step new before = some s) : s.Routes type message := by
  subst hsplit
  obtain ⟨hbefore, hmessage⟩ := (guarded_append hrun).mp hsep
  have hcoherent : s.Coherent :=
    guarded_invariant (I := Coherent) (fun _ _ _ h hok hs => coherent_step h hok hs) coherent_new
      hbefore hrun
  exact hcoherent.routes hmessage.1

def sampleAddress : WebviewAddress := ⟨"duo-chat", "1"⟩

/-- A transport is registered again after its instance was destroyed. -/
def sampleRegistrations : List (TransportEvent Nat Unit) :=
  [.registerTransport 0, .instanceCreated 0 sampleAddress, .instanceDestroyed 0 sampleAddress,
    .disposeRegistration 0, .registerTransport 0, .instanceCreated 0 sampleAddress]

theorem routes_of_registration_again :
    ∃ s, run step new sampleRegistrations = some s ∧
      s.Routes .request ⟨sampleAddress, ()⟩ := by
  obtain ⟨s, hs⟩ : ∃ s, run step new sampleRegistrations = some s :=
    Option.isSome_iff_exists.mp (by decide +kernel)
  have hsep : Guarded step Separate new
      (sampleRegistrations ++ [.pluginMessage .request ⟨sampleAddress, ()⟩]) := by decide +kernel
  exact ⟨s, hs, routes_of_separate hsep rfl hs⟩

/-- A transport is let go while it has an instance, and registered again. -/
def sampleDisposal : List (TransportEvent Nat Unit) :=
  [.registerTransport 0, .instanceCreated 0 sampleAddress, .disposeRegistration 0]

/-- The mediator that is disposed of hands the message over. -/
theorem not_routes_of_disposal :
    ∃ s, run step new sampleDisposal = some s ∧
      ¬ s.Registered 0 ∧
      s.publish .request ⟨sampleAddress, ()⟩ =
        [⟨0, 0, "webview_instance_request", ⟨sampleAddress, ()⟩⟩] ∧
      ¬ s.Routes .request ⟨sampleAddress, ()⟩ := by
  obtain ⟨s, hs⟩ : ∃ s, run step new sampleDisposal = some s :=
    Option.isSome_iff_exists.mp (by decide +kernel)
  have hfacts : ∀ s ∈ run step new sampleDisposal, ¬ s.Registered 0 ∧
      s.publish .request ⟨sampleAddress, ()⟩ =
        [⟨0, 0, "webview_instance_request", ⟨sampleAddress, ()⟩⟩] ∧
      ¬ s.Reachable sampleAddress := by decide +kernel
  obtain ⟨hregistered, hpublish, hreachable⟩ := hfacts s hs
  refine ⟨s, hs, hregistered, hpublish, fun hroutes => ?_⟩
  rw [hroutes.never hreachable] at hpublish
  cases hpublish

/-! ## What a disposed mediator goes on to do -/

theorem deaf_step {s t : TransportService T} {e : TransportEvent T μ} {k : Nat} {m : Mediator T}
    (hm : s.mediators[k]? = some m) (hdisposed : m.disposed = true) (hstep : s.step e = some t) :
    t.mediators[k]? = some m := by
  have hdispose : m.dispose = m := by
    obtain ⟨transport, managed, disposed⟩ := m
    cases hdisposed
    rfl
  cases e with
  | registerTransport u =>
      cases hstep
      unfold registerTransport
      split
      · exact hm
      · show (s.mediators ++ [_])[k]? = some m
        rw [List.getElem?_append_left (List.getElem?_eq_some_iff.mp hm).1]
        exact hm
  | disposeRegistration u =>
      obtain ⟨-, rfl⟩ := Option.ite_some_none_eq_some.mp hstep
      unfold disposeRegistration
      split
      · show (s.mediators.modify _ _)[k]? = some m
        rw [List.getElem?_modify, hm]
        split <;> simp [hdispose]
      · exact hm
  | dispose =>
      cases hstep
      show (List.foldl _ s.mediators s.managedTransports.entries)[k]? = some m
      rw [getElem?_disposeAll, hm]
      split <;> simp [hdispose]
  | instanceCreated u a =>
      cases hstep
      show (s.mediators.map _)[k]? = some m
      simp [List.getElem?_map, hm, Mediator.onInstanceCreated, hdisposed]
  | instanceDestroyed u a =>
      cases hstep
      show (s.mediators.map _)[k]? = some m
      simp [List.getElem?_map, hm, Mediator.onInstanceDestroyed, hdisposed]
  | pluginMessage type message =>
      cases hstep
      exact hm

theorem not_routes_of_disposed {s : TransportService T} (h : s.WellFormed) {k : Nat}
    {m : Mediator T} {type : PluginMessageType} {message : PluginMessage μ}
    (hm : s.mediators[k]? = some m) (hdisposed : m.disposed = true)
    (hmanaged : message.webviewInstanceId ∈ m.managedInstances) : ¬ s.Routes type message := by
  intro hroutes
  have halive := hroutes.alive _ (h.mem_publish type message hm hmanaged) m hm
  rw [halive] at hdisposed
  cases hdisposed

/-- A mediator that manages an instance when it is disposed of misroutes all further messages to
it, whatever is created, destroyed and registered from then on. -/
theorem not_routes_after_disposal {s t : TransportService T} {es : List (TransportEvent T μ)}
    {k : Nat} {m : Mediator T} {type : PluginMessageType} {message : PluginMessage μ}
    (hwell : s.WellFormed) (hm : s.mediators[k]? = some m) (hdisposed : m.disposed = true)
    (hmanaged : message.webviewInstanceId ∈ m.managedInstances) (hrun : run step s es = some t) :
    ¬ t.Routes type message := by
  have hkept : t.WellFormed ∧ t.mediators[k]? = some m :=
    run_invariant (I := fun t : TransportService T => t.WellFormed ∧ t.mediators[k]? = some m)
      (fun _ _ _ h hs => ⟨wellFormed_step h.1 hs, deaf_step h.2 hdisposed hs⟩) ⟨hwell, hm⟩ hrun
  exact not_routes_of_disposed hkept.1 hkept.2 hdisposed hmanaged

/-! ## Events that are not separate -/

/-- Some further events lead to a message that is not routed. -/
def Misroutes (s : TransportService T) (c : μ) : Prop :=
  ∃ (es : List (TransportEvent T μ)) (t : TransportService T) (a : WebviewAddress),
    run step s es = some t ∧ ¬ t.Routes .notification ⟨a, c⟩

theorem Coherent.exists_mediator {s : TransportService T} (h : s.Coherent)
    {e : T × WebviewAddress} (he : e ∈ s.instances) (hr : s.Registered e.1) :
    ∃ (k : Nat) (m : Mediator T), s.mediators[k]? = some m ∧ m.transport = e.1 ∧
      m.disposed = false ∧ e.2.webviewInstanceId ∈ m.managedInstances := by
  obtain ⟨k, m, hm, ht, hd⟩ := h.registered_iff.mp hr
  exact ⟨k, m, hm, ht, hd, (h.manages_iff k m hm _).mpr ⟨hd, e, he, ht.symm, rfl⟩⟩

/-- Two mediators that manage the instance hand its messages over twice. -/
theorem not_routes_of_two {s : TransportService T} (h : s.WellFormed) {j k : Nat}
    {m n : Mediator T} {a : WebviewAddress} {c : μ} (hjk : j ≠ k) (hj : s.mediators[j]? = some m)
    (hk : s.mediators[k]? = some n) (hm : a.webviewInstanceId ∈ m.managedInstances)
    (hn : a.webviewInstanceId ∈ n.managedInstances) (hreachable : s.Reachable a) :
    ¬ s.Routes .notification ⟨a, c⟩ := by
  intro hroutes
  obtain ⟨x, hx, -⟩ := hroutes.once hreachable
  have hone : ∀ y ∈ s.publish .notification (⟨a, c⟩ : PluginMessage μ), y = x := by simp [hx]
  have h1 := hone _ (h.mem_publish .notification ⟨a, c⟩ hj hm)
  have h2 := hone _ (h.mem_publish .notification ⟨a, c⟩ hk hn)
  exact hjk (congrArg Handover.mediator (h1.trans h2.symm))

/-- A message to an address that can be reached has to be handed over by the mediator of a transport
that has the address. -/
theorem not_routes_of_unmanaged {s : TransportService T} (h : s.WellFormed) {a : WebviewAddress}
    {c : μ} (hreachable : s.Reachable a)
    (hnone : ∀ (k : Nat) (m : Mediator T), s.mediators[k]? = some m →
      a.webviewInstanceId ∈ m.managedInstances → (m.transport, a) ∉ s.instances) :
    ¬ s.Routes .notification ⟨a, c⟩ := by
  intro hroutes
  obtain ⟨x, hx, -, -, -, hmem⟩ := hroutes.once hreachable
  have hpublished : x ∈ s.publish .notification (⟨a, c⟩ : PluginMessage μ) := by simp [hx]
  obtain ⟨m, hm, hmanaged, hxm⟩ := h.mem_publish_iff.mp hpublished
  rw [hxm] at hmem
  exact hnone x.mediator m hm hmanaged hmem

/-- All that manage the instance of an address that can be reached. -/
theorem Coherent.manager_eq {s : TransportService T} (h : s.Coherent) {e : T × WebviewAddress}
    (he : e ∈ s.instances) (hr : s.Registered e.1) {k : Nat} {m : Mediator T}
    (hm : s.mediators[k]? = some m) (hmanaged : e.2.webviewInstanceId ∈ m.managedInstances) :
    m.transport = e.1 ∧ m.disposed = false := by
  obtain ⟨hdisposed, e', he', ht, hid⟩ := (h.manages_iff k m hm _).mp hmanaged
  have hr' : s.Registered e'.1 := by
    rw [ht]
    exact h.registered_of_mediator hm hdisposed
  have heq := h.unique e' he' e he hr' hr hid
  exact ⟨by rw [← ht, heq], hdisposed⟩

/-- The mediator of a transport forgets an instance id with the first address of that id which the
transport destroys. -/
theorem not_routes_after_destroyed {s : TransportService T} (h : s.WellFormed) {t : T}
    {a b : WebviewAddress} {c : μ} (hab : b.webviewInstanceId = a.webviewInstanceId)
    (hmanagers : ∀ (k : Nat) (m : Mediator T), s.mediators[k]? = some m →
      b.webviewInstanceId ∈ m.managedInstances → m.transport = t ∧ m.disposed = false)
    (hreachable : (s.instanceDestroyed t a).Reachable b) :
    ¬ (s.instanceDestroyed t a).Routes .notification ⟨b, c⟩ := by
  have hwell : (s.instanceDestroyed t a).WellFormed :=
    h.map (Mediator.onInstanceDestroyed_transport t a) (Mediator.onInstanceDestroyed_disposed t a)
      rfl rfl rfl
  apply not_routes_of_unmanaged hwell hreachable
  intro k n hn hmanaged
  replace hn : (s.mediators.map (.onInstanceDestroyed t a))[k]? = some n := hn
  rw [List.getElem?_map] at hn
  obtain ⟨m, hm, rfl⟩ := Option.map_eq_some_iff.mp hn
  exfalso
  unfold Mediator.onInstanceDestroyed at hmanaged
  split at hmanaged
  · have hne := (List.mem_filter.mp hmanaged).2
    simp [hab] at hne
  · rename_i hdeaf
    exact hdeaf (hmanagers k m hm hmanaged)

/-- A transport is registered that has addresses: its mediator does not know them. -/
theorem Coherent.misroutes_registerTransport {s : TransportService T} (h : s.Coherent) (c : μ)
    {v : T} {a : WebviewAddress} (hv : ¬ s.Registered v) (hmem : (v, a) ∈ s.instances)
    (hwell : (s.setupTransport v).WellFormed) : (s.setupTransport v).Misroutes c := by
  have hregistered : (s.setupTransport v).Registered v := by
    simp [Registered, TransportService.setupTransport]
  by_cases hfound : ∃ (k : Nat) (m : Mediator T), s.mediators[k]? = some m ∧
      a.webviewInstanceId ∈ m.managedInstances ∧ (m.transport, a) ∈ s.instances
  · -- The message goes to another transport, until that destroys the address.
    obtain ⟨k, m, hm, hmanaged, hmem'⟩ := hfound
    have hdisposed := ((h.manages_iff k m hm _).mp hmanaged).1
    have hr := h.registered_of_mediator hm hdisposed
    refine ⟨[.instanceDestroyed m.transport a], _, a, rfl, ?_⟩
    apply not_routes_after_destroyed hwell rfl
    · intro j n hn hn'
      replace hn : (s.mediators ++ [.new v])[j]? = some n := hn
      rw [getElem?_mediators_append] at hn
      split at hn
      · cases hn
        cases hn'
      · exact h.manager_eq hmem' hr hn hn'
    · have hne : v ≠ m.transport := fun hvm => hv (hvm ▸ hr)
      exact ⟨(v, a), List.mem_filter.mpr ⟨hmem, by simp [hne]⟩, hregistered, rfl⟩
  · refine ⟨[], _, a, rfl, not_routes_of_unmanaged hwell ⟨_, hmem, hregistered, rfl⟩ ?_⟩
    intro j n hn hmanaged hmem'
    replace hn : (s.mediators ++ [.new v])[j]? = some n := hn
    rw [getElem?_mediators_append] at hn
    split at hn
    · cases hn
      cases hmanaged
    · exact hfound ⟨j, n, hn, hmanaged, hmem'⟩

/-- The mediator of a transport with an address is disposed of. -/
theorem Coherent.misroutes_of_disposed {s t : TransportService T} (h : s.Coherent) (c : μ)
    {e : T × WebviewAddress} (hmem : e ∈ s.instances) (hu : s.Registered e.1) (hwell : t.WellFormed)
    (hdisposed : ∀ (k : Nat) (m : Mediator T), s.managedTransports.get e.1 = some k →
      s.mediators[k]? = some m → t.mediators[k]? = some m.dispose) : t.Misroutes c := by
  obtain ⟨k, m, hm, ht, hd, hmanaged⟩ := h.exists_mediator hmem hu
  have hk := (h.managed_iff e.1 k).mpr ⟨m, hm, ht, hd⟩
  exact ⟨[], t, e.2, rfl, not_routes_of_disposed hwell (hdisposed k m hk hm) rfl hmanaged⟩

/-- A transport creates an address, and another address has its instance id. -/
theorem Coherent.misroutes_instanceCreated {s : TransportService T} (h : s.Coherent) (c : μ)
    {u : T} {a : WebviewAddress} {e : T × WebviewAddress} (hu : s.Registered u)
    (hmem : e ∈ s.instances) (hr : s.Registered e.1)
    (hid : e.2.webviewInstanceId = a.webviewInstanceId) (hne : e ≠ (u, a))
    (hwell : (s.instanceCreated u a).WellFormed) : (s.instanceCreated u a).Misroutes c := by
  have hmem' : (u, a) ∈ s.instances.insert (u, a) := List.mem_insert_self
  by_cases ht : e.1 = u
  · -- Both addresses are reached, until one of them is destroyed.
    refine ⟨[.instanceDestroyed u e.2], _, a, rfl, ?_⟩
    apply not_routes_after_destroyed hwell hid.symm
    · intro k n hn hmanaged
      replace hn : (s.mediators.map (.onInstanceCreated u a))[k]? = some n := hn
      rw [List.getElem?_map] at hn
      obtain ⟨m, hm, rfl⟩ := Option.map_eq_some_iff.mp hn
      unfold Mediator.onInstanceCreated at hmanaged ⊢
      split
      · rename_i hlisten
        exact hlisten
      · rename_i hdeaf
        rw [if_neg hdeaf, ← hid] at hmanaged
        rw [← ht]
        exact h.manager_eq hmem hr hm hmanaged
    · refine ⟨(u, a), List.mem_filter.mpr ⟨hmem', ?_⟩, hu, rfl⟩
      have hne' : (u, a) ≠ (u, e.2) := fun heq => hne (by rw [heq, ← ht])
      simpa using hne'
  · -- Two mediators manage the instance.
    obtain ⟨k, m, hm, htm, hd, hmanaged⟩ := h.exists_mediator hmem hr
    obtain ⟨j, n, hn, htn, hd'⟩ := h.registered_iff.mp hu
    have hjk : j ≠ k := by
      rintro rfl
      obtain rfl : n = m := Option.some.inj (hn.symm.trans hm)
      exact ht (htm.symm.trans htn)
    refine ⟨[], _, a, rfl, ?_⟩
    apply not_routes_of_two (j := j) (k := k) (m := n.onInstanceCreated u a) (n := m) hwell hjk
    · show (s.mediators.map _)[j]? = _
      rw [List.getElem?_map, hn, Option.map_some]
    · show (s.mediators.map _)[k]? = _
      have hdeaf : ¬ (m.transport = u ∧ m.disposed = false) := by
        rw [htm]
        exact fun hlisten => ht hlisten.1
      rw [List.getElem?_map, hm, Option.map_some, Mediator.onInstanceCreated, if_neg hdeaf]
    · rw [Mediator.onInstanceCreated, if_pos ⟨htn, hd'⟩]
      exact List.mem_insert_self
    · rw [← hid]
      exact hmanaged
    · exact ⟨_, hmem', hu, rfl⟩

/-- **Exactness.** Every event that is not separate leads to a message that is not routed, at once
or after one more event. -/
theorem Coherent.misroutes {s t : TransportService T} (h : s.Coherent) {e : TransportEvent T μ}
    (c : μ) (hnot : ¬ s.Separate e) (hstep : s.step e = some t) : t.Misroutes c := by
  have hwell := wellFormed_step h.toWellFormed hstep
  cases e with
  | registerTransport u =>
      cases hstep
      simp only [Separate, not_or, not_forall, not_not] at hnot
      obtain ⟨hu, ⟨v, a⟩, hmem, rfl⟩ := hnot
      have heq : s.registerTransport v = s.setupTransport v := if_neg hu
      rw [heq] at hwell ⊢
      exact h.misroutes_registerTransport c hu hmem hwell
  | disposeRegistration u =>
      obtain ⟨-, rfl⟩ := Option.ite_some_none_eq_some.mp hstep
      simp only [Separate, not_forall, not_not] at hnot
      obtain ⟨hu, e, hmem, rfl⟩ := hnot
      apply h.misroutes_of_disposed c hmem hu hwell
      intro k m hk hm
      unfold TransportService.disposeRegistration
      rw [hk]
      show (s.mediators.modify k .dispose)[k]? = some m.dispose
      simp [hm]
  | dispose =>
      cases hstep
      simp only [Separate, not_forall, not_not] at hnot
      obtain ⟨e, hmem, hu⟩ := hnot
      apply h.misroutes_of_disposed c hmem hu hwell
      intro k m hk hm
      show (List.foldl _ s.mediators s.managedTransports.entries)[k]? = some m.dispose
      have hentry : k ∈ s.managedTransports.entries.map Prod.snd :=
        List.mem_map_of_mem (OrderedMap.get_eq_some_iff.mp hk)
      rw [getElem?_disposeAll, hm, Option.map_some, if_pos hentry]
  | instanceCreated u a =>
      cases hstep
      simp only [Separate, not_forall] at hnot
      obtain ⟨hu, e, hmem, hr, hid, hne⟩ := hnot
      exact h.misroutes_instanceCreated c hu hmem hr hid hne hwell
  | instanceDestroyed u a =>
      cases hstep
      simp only [Separate, not_forall] at hnot
      obtain ⟨hu, ⟨v, b⟩, hmem, rfl, hid, hne⟩ := hnot
      refine ⟨[], _, b, rfl, ?_⟩
      apply not_routes_after_destroyed h.toWellFormed hid
      · intro k m hm hmanaged
        exact h.manager_eq hmem hu hm hmanaged
      · exact ⟨(v, b), List.mem_filter.mpr ⟨hmem, by simpa using hne⟩, hu, rfl⟩
  | pluginMessage type message =>
      cases hstep
      simp only [Separate, not_forall] at hnot
      obtain ⟨e, hmem, hr, hid, hne⟩ := hnot
      obtain ⟨k, m, hm, -, -, hmanaged⟩ := h.exists_mediator hmem hr
      rw [hid] at hmanaged
      refine ⟨[], _, message.toWebviewAddress, rfl, fun hroutes => ?_⟩
      have hunreachable : ¬ s.Reachable message.toWebviewAddress := by
        rintro ⟨e', hmem', hr', heq⟩
        exact hne (by rw [h.unique e hmem e' hmem' hr hr' (by rw [hid, heq]), heq])
      have hpublished := h.mem_publish .notification ⟨message.toWebviewAddress, c⟩ hm hmanaged
      rw [hroutes.never hunreachable] at hpublished
      cases hpublished

end TransportService
end KhulnasoftLsp.Webview
