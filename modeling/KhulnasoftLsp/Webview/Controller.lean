import KhulnasoftLsp.OrderedMap
import KhulnasoftLsp.Transition
import KhulnasoftLsp.Webview.Messages
import Mathlib.Data.List.Flatten
import Mathlib.Data.List.Nodup
import Mathlib.Logic.Function.Basic

/-!
# The handlers of connected webview instances

A `WebviewController` calls the handlers of a plugin for each instance of its webview: in
`#handleConnected` all handlers for the new instance, in `onInstanceConnected` the new handler for
all instances. A handler may call `onInstanceConnected` itself, so that a loop is entered while
others are underway. A step is what happens up to the next call of a handler, or from there on when
the handler returns, and the loops that wait for a handler to return are a stack. A handler that
throws would end the loops at once; that is not among the events.
-/

namespace KhulnasoftLsp.Webview

open Transition

/-- A loop that has called a handler, and where it is. -/
inductive HandlerLoop (H : Type) where
  /-- `#handlers.forEach` of `#handleConnected`, for a connection -/
  | handlers (connection : Nat) (position : Nat)
  /-- The loop over `#instanceInfos` of `onInstanceConnected` -/
  | instances (handler : H) (position : Nat)
  deriving DecidableEq, Repr

/-- Connections are numbered. The number stands for what is made for one connection: its message
bus and its `pluginCallbackDisposables`. -/
structure WebviewController (H D : Type) where
  webviewId : String
  /-- `#compositeDisposable` is not disposed of. -/
  subscribed : Bool
  /-- `#handlers`, in the order of insertion -/
  handlers : List H
  instanceInfos : OrderedMap String Nat
  pluginCallbackDisposables : Nat → List D
  connections : Nat
  loops : List (HandlerLoop H)
  /-- The calls of handlers so far, what they returned and what was disposed of. -/
  calls : List (H × Nat)
  returned : List (Nat × D)
  disposals : List D
  /-- The calls that are due: a handler and a connection that were there together. -/
  due : List (H × Nat)

inductive ControllerEvent (H D : Type) where
  /-- A registration; if a handler is running it makes it. -/
  | onInstanceConnected (handler : H)
  /-- The handler that is running returns, perhaps something disposable. -/
  | returned (disposable : Option D)
  | connect (address : WebviewAddress)
  | disconnect (address : WebviewAddress)
  | dispose
  deriving DecidableEq, Repr

/-- `add` of a `Set` -/
def addToSet {α : Type} [DecidableEq α] (x : α) (xs : List α) : List α :=
  if x ∈ xs then xs else xs ++ [x]

def HandlerLoop.next {H : Type} : HandlerLoop H → HandlerLoop H
  | .handlers c i => .handlers c (i + 1)
  | .instances h i => .instances h (i + 1)

namespace WebviewController

variable {H D : Type}

def new (webviewId : String) : WebviewController H D where
  webviewId
  subscribed := true
  handlers := []
  instanceInfos := .empty
  pluginCallbackDisposables := fun _ => []
  connections := 0
  loops := []
  calls := []
  returned := []
  disposals := []
  due := []

/-- The connections in the order of `#instanceInfos`. -/
def connected (s : WebviewController H D) : List Nat := s.instanceInfos.entries.map Prod.snd

/-- The call that a loop makes where it is. -/
def callAt (s : WebviewController H D) : HandlerLoop H → Option (H × Nat)
  | .handlers c i => s.handlers[i]?.map fun h => (h, c)
  | .instances h i => s.connected[i]?.map fun c => (h, c)

/-- A loop goes on with a call, or is over. -/
def continueLoop (loop : HandlerLoop H) (s : WebviewController H D) : WebviewController H D :=
  match s.callAt loop with
  | some call => { s with loops := loop :: s.loops, calls := s.calls ++ [call] }
  | none => s

def onInstanceConnected [DecidableEq H] (handler : H) (s : WebviewController H D) :
    WebviewController H D :=
  continueLoop (.instances handler 0) { s with
    handlers := addToSet handler s.handlers
    due := s.due ++ s.connected.map fun c => (handler, c) }

/-- The handler that the loop has called returns; what is disposable is kept. -/
def handlerReturned [DecidableEq D] (loop : HandlerLoop H) (disposable : Option D)
    (s : WebviewController H D) : WebviewController H D :=
  match s.callAt loop, disposable with
  | some (_, c), some d =>
    continueLoop loop.next { s with
      pluginCallbackDisposables :=
        Function.update s.pluginCallbackDisposables c (addToSet d (s.pluginCallbackDisposables c))
      returned := s.returned ++ [(c, d)] }
  | _, _ => continueLoop loop.next s

/-- `#handleConnected`, behind its subscription and its filter -/
def handleConnected (address : WebviewAddress) (s : WebviewController H D) :
    WebviewController H D :=
  if s.subscribed ∧ address.webviewId = s.webviewId then
    if (s.instanceInfos.get address.webviewInstanceId).isSome then s
    else continueLoop (.handlers s.connections 0) { s with
      instanceInfos := s.instanceInfos.set address.webviewInstanceId s.connections
      pluginCallbackDisposables := Function.update s.pluginCallbackDisposables s.connections []
      connections := s.connections + 1
      due := s.due ++ s.handlers.map fun h => (h, s.connections) }
  else s

/-- `#handleDisconnected`, behind its subscription and its filter -/
def handleDisconnected (address : WebviewAddress) (s : WebviewController H D) :
    WebviewController H D :=
  if s.subscribed ∧ address.webviewId = s.webviewId then
    match s.instanceInfos.get address.webviewInstanceId with
    | some c =>
      { s with
        disposals := s.disposals ++ s.pluginCallbackDisposables c
        pluginCallbackDisposables := Function.update s.pluginCallbackDisposables c []
        instanceInfos := s.instanceInfos.delete address.webviewInstanceId }
    | none => s
  else s

def dispose (s : WebviewController H D) : WebviewController H D :=
  { s with subscribed := false, instanceInfos := .empty }

/-- One event. Instances come and go while no handler is running. -/
def step [DecidableEq H] [DecidableEq D] (s : WebviewController H D) :
    ControllerEvent H D → Option (WebviewController H D)
  | .onInstanceConnected handler => some (s.onInstanceConnected handler)
  | .returned disposable =>
    match s.loops with
    | loop :: loops => some (handlerReturned loop disposable { s with loops })
    | [] => none
  | .connect address => if s.loops = [] then some (s.handleConnected address) else none
  | .disconnect address => if s.loops = [] then some (s.handleDisconnected address) else none
  | .dispose => if s.loops = [] then some s.dispose else none

/-! ## What the calls are for -/

/-- Each handler has been called once for each connection it is due for, and what the calls have
returned has been disposed of once when the connection is over, and not before. -/
structure Served [DecidableEq H] [DecidableEq D] (s : WebviewController H D) : Prop where
  called : ∀ h c, s.calls.count (h, c) = if (h, c) ∈ s.due then 1 else 0
  disposed : ∀ c d, (c, d) ∈ s.returned →
    s.disposals.count d = if c ∈ s.connected then 0 else 1

/-- No handler is running. -/
def Idle (s : WebviewController H D) : Prop := s.loops = []

/-- The event leaves nothing to be called twice, or to be disposed of twice, too early or never. -/
def Careful (s : WebviewController H D) : ControllerEvent H D → Prop
  | .onInstanceConnected handler =>
    (∀ c i, HandlerLoop.handlers c i ∉ s.loops) ∧ (handler ∈ s.handlers → s.connected = [])
  | .returned disposable => ∀ d ∈ disposable, d ∉ s.disposals
  | .connect _ => True
  | .disconnect address => s.subscribed → address.webviewId = s.webviewId →
    ∀ c ∈ s.instanceInfos.get address.webviewInstanceId, ∀ c' ∈ s.connected, c' ≠ c →
      ∀ d ∈ s.pluginCallbackDisposables c, d ∉ s.pluginCallbackDisposables c'
  | .dispose => ∀ c ∈ s.connected, s.pluginCallbackDisposables c = []

/-! ## The calls that are made and the calls to come -/

/-- The calls that a loop makes from where it is. -/
def upcoming (s : WebviewController H D) : HandlerLoop H → List (H × Nat)
  | .handlers c i => (s.handlers.drop i).map fun h => (h, c)
  | .instances h i => (s.connected.drop i).map fun c => (h, c)

/-- The calls so far, and those that the loops underway will make. -/
def scheduled (s : WebviewController H D) : List (H × Nat) :=
  s.calls ++ s.loops.flatMap fun loop => s.upcoming loop.next

theorem Idle.not_mem {s : WebviewController H D} (h : s.Idle) {loop : HandlerLoop H} :
    loop ∉ s.loops := by
  rw [show s.loops = [] from h]
  exact List.not_mem_nil

theorem scheduled_of_idle {s : WebviewController H D} (h : s.Idle) : s.scheduled = s.calls := by
  have hloops : s.loops = [] := h
  rw [scheduled, hloops, List.flatMap_nil, List.append_nil]

theorem upcoming_of_callAt {s : WebviewController H D} {loop : HandlerLoop H} {call : H × Nat}
    (h : s.callAt loop = some call) : s.upcoming loop = call :: s.upcoming loop.next := by
  cases loop with
  | handlers c i =>
      obtain ⟨x, hx, rfl⟩ := Option.map_eq_some_iff.mp h
      obtain ⟨hi, rfl⟩ := List.getElem?_eq_some_iff.mp hx
      show (s.handlers.drop i).map _ = _ :: (s.handlers.drop (i + 1)).map _
      rw [List.drop_eq_getElem_cons hi, List.map_cons]
  | instances x i =>
      obtain ⟨c, hc, rfl⟩ := Option.map_eq_some_iff.mp h
      obtain ⟨hi, rfl⟩ := List.getElem?_eq_some_iff.mp hc
      show (s.connected.drop i).map _ = _ :: (s.connected.drop (i + 1)).map _
      rw [List.drop_eq_getElem_cons hi, List.map_cons]

theorem upcoming_of_callAt_none {s : WebviewController H D} {loop : HandlerLoop H}
    (h : s.callAt loop = none) : s.upcoming loop = [] := by
  cases loop with
  | handlers c i =>
      show (s.handlers.drop i).map _ = []
      rw [List.drop_eq_nil_of_le (List.getElem?_eq_none_iff.mp (Option.map_eq_none_iff.mp h)),
        List.map_nil]
  | instances x i =>
      show (s.connected.drop i).map _ = []
      rw [List.drop_eq_nil_of_le (List.getElem?_eq_none_iff.mp (Option.map_eq_none_iff.mp h)),
        List.map_nil]

/-- All that `continueLoop` does. -/
theorem continueLoop_cases (loop : HandlerLoop H) (s : WebviewController H D) :
    (∃ call, s.callAt loop = some call ∧
      s.continueLoop loop = { s with loops := loop :: s.loops, calls := s.calls ++ [call] }) ∨
    (s.callAt loop = none ∧ s.continueLoop loop = s) := by
  unfold continueLoop
  cases hcall : s.callAt loop with
  | some call => exact .inl ⟨call, rfl, rfl⟩
  | none => exact .inr ⟨rfl, rfl⟩

theorem scheduled_continueLoop (loop : HandlerLoop H) (s : WebviewController H D) :
    (s.continueLoop loop).scheduled.Perm (s.scheduled ++ s.upcoming loop) := by
  rcases continueLoop_cases loop s with ⟨call, hcall, heq⟩ | ⟨hcall, heq⟩
  · rw [heq, upcoming_of_callAt hcall]
    show (s.calls ++ [call] ++ (s.upcoming loop.next ++
      s.loops.flatMap fun loop => s.upcoming loop.next)).Perm _
    unfold scheduled
    rw [List.append_assoc, List.append_assoc]
    apply List.Perm.append_left
    show ((call :: s.upcoming loop.next) ++ _).Perm (_ ++ call :: s.upcoming loop.next)
    exact List.perm_append_comm
  · rw [heq, upcoming_of_callAt_none hcall, List.append_nil]

/-! ## What holds after every run -/

structure Valid (s : WebviewController H D) : Prop where
  handlers_nodup : s.handlers.Nodup
  connected_nodup : s.connected.Nodup
  connected_lt : ∀ c ∈ s.connected, c < s.connections
  returned_lt : ∀ r ∈ s.returned, r.1 < s.connections
  due_handler : ∀ x ∈ s.due, x.1 ∈ s.handlers
  due_lt : ∀ x ∈ s.due, x.2 < s.connections
  due_of_connected : ∀ h ∈ s.handlers, ∀ c ∈ s.connected, (h, c) ∈ s.due
  loop_called : ∀ loop ∈ s.loops, (s.callAt loop).isSome
  loop_connected : ∀ c i, HandlerLoop.handlers c i ∈ s.loops → c ∈ s.connected
  kept_iff : ∀ c ∈ s.connected, ∀ d, d ∈ s.pluginCallbackDisposables c ↔ (c, d) ∈ s.returned
  kept_nodup : ∀ c, (s.pluginCallbackDisposables c).Nodup

theorem valid_new (webviewId : String) : (new webviewId : WebviewController H D).Valid where
  handlers_nodup := List.nodup_nil
  connected_nodup := List.nodup_nil
  connected_lt := by simp [new, connected, OrderedMap.empty]
  returned_lt := by simp [new]
  due_handler := by simp [new]
  due_lt := by simp [new]
  due_of_connected := by simp [new]
  loop_called := by simp [new]
  loop_connected := by simp [new]
  kept_iff := by simp [new]
  kept_nodup := by simp [new]

/-- The calls that are due are the ones that are made or to come. -/
def Complete (s : WebviewController H D) : Prop := ∀ x, x ∈ s.scheduled ↔ x ∈ s.due

theorem complete_iff_of_idle {s : WebviewController H D} (h : s.Idle) :
    s.Complete ↔ ∀ x, x ∈ s.calls ↔ x ∈ s.due := by
  unfold Complete
  rw [scheduled_of_idle h]

theorem complete_new (webviewId : String) : (new webviewId : WebviewController H D).Complete := by
  intro x
  simp [scheduled, new]

theorem Valid.continueLoop {s : WebviewController H D} (h : s.Valid) {loop : HandlerLoop H}
    (hloop : ∀ c i, loop = .handlers c i → c ∈ s.connected) : (s.continueLoop loop).Valid := by
  rcases continueLoop_cases loop s with ⟨call, hcall, heq⟩ | ⟨-, heq⟩
  · rw [heq]
    refine { h with loop_called := ?_, loop_connected := ?_ }
    · intro loop' hloop'
      rcases List.mem_cons.mp hloop' with rfl | hmem
      · show (s.callAt _).isSome
        rw [hcall, Option.isSome_some]
      · exact h.loop_called loop' hmem
    · intro c i hmem
      rcases List.mem_cons.mp hmem with rfl | hmem
      · exact hloop c i rfl
      · exact h.loop_connected c i hmem
  · rw [heq]
    exact h

/-! ## A registration -/

section

variable [DecidableEq H]

theorem mem_addToSet {x y : H} {xs : List H} : y ∈ addToSet x xs ↔ y = x ∨ y ∈ xs := by
  unfold addToSet
  split <;> grind

theorem nodup_addToSet {x : H} {xs : List H} (h : xs.Nodup) : (addToSet x xs).Nodup := by
  unfold addToSet
  split
  · exact h
  · rename_i hx
    exact List.nodup_append.mpr ⟨h, List.nodup_singleton x, by grind⟩

/-- The state in which the loop of `onInstanceConnected` begins. -/
def registered (handler : H) (s : WebviewController H D) : WebviewController H D :=
  { s with
    handlers := addToSet handler s.handlers
    due := s.due ++ s.connected.map fun c => (handler, c) }

theorem upcoming_registered_of_mem {s : WebviewController H D} {h : H} (hmem : h ∈ s.handlers)
    (loop : HandlerLoop H) : (s.registered h).upcoming loop = s.upcoming loop := by
  have hhandlers : (s.registered h).handlers = s.handlers := if_pos hmem
  cases loop with
  | handlers c i => rw [upcoming, hhandlers, upcoming]
  | instances h' i => rfl

theorem upcoming_registered_sublist (s : WebviewController H D) (h : H) (loop : HandlerLoop H) :
    (s.upcoming loop).Sublist ((s.registered h).upcoming loop) := by
  cases loop with
  | handlers c i =>
      have hhandlers : s.handlers.Sublist (addToSet h s.handlers) := by
        unfold addToSet
        split
        · exact List.Sublist.refl _
        · exact List.sublist_append_left _ _
      exact (hhandlers.drop i).map _
  | instances h' i => exact List.Sublist.refl _

theorem mem_upcoming_registered {s : WebviewController H D} {h : H} {loop : HandlerLoop H}
    {x : H × Nat} (hx : x ∈ (s.registered h).upcoming loop) :
    x ∈ s.upcoming loop ∨ ∃ c i, loop = .handlers c i ∧ x = (h, c) := by
  cases loop with
  | handlers c i =>
      obtain ⟨h', hh', rfl⟩ := List.mem_map.mp hx
      by_cases hmem : h ∈ s.handlers
      · left
        rwa [upcoming_registered_of_mem hmem] at hx
      · have hdrop : h' ∈ (s.handlers ++ [h]).drop i := by
          have hhandlers : (s.registered h).handlers = s.handlers ++ [h] := if_neg hmem
          rwa [hhandlers] at hh'
        rw [List.drop_append] at hdrop
        rcases List.mem_append.mp hdrop with hold | hnew
        · left
          exact List.mem_map_of_mem hold
        · right
          obtain rfl : h' = h := List.mem_singleton.mp (List.mem_of_mem_drop hnew)
          exact ⟨c, i, rfl, rfl⟩
  | instances h' i => exact .inl hx

theorem scheduled_registered_sublist (s : WebviewController H D) (h : H) :
    s.scheduled.Sublist (s.registered h).scheduled := by
  apply List.Sublist.append (List.Sublist.refl _)
  apply List.Sublist.flatMap_right
  intro loop _
  exact upcoming_registered_sublist s h loop.next

theorem mem_scheduled_registered {s : WebviewController H D} (hvalid : s.Valid) {h : H}
    {x : H × Nat} (hx : x ∈ (s.registered h).scheduled) :
    x ∈ s.scheduled ∨ ∃ c ∈ s.connected, x = (h, c) := by
  rcases List.mem_append.mp hx with hcalls | hloops
  · left
    exact List.mem_append_left _ hcalls
  · obtain ⟨loop, hloop, hmem⟩ := List.mem_flatMap.mp hloops
    rcases mem_upcoming_registered hmem with hold | ⟨c, i, hnext, rfl⟩
    · left
      exact List.mem_append_right _ (List.mem_flatMap.mpr ⟨loop, hloop, hold⟩)
    · right
      cases loop with
      | handlers c' i' =>
          obtain ⟨rfl, -⟩ := HandlerLoop.handlers.inj hnext
          exact ⟨c', hvalid.loop_connected c' i' hloop, rfl⟩
      | instances h' i' => cases hnext

/-- A handler that is new while a handler is running for a connection is called by that loop. -/
theorem mem_scheduled_registered_of_loop {s : WebviewController H D} (hvalid : s.Valid) {h : H}
    {c i : Nat} (hloop : HandlerLoop.handlers c i ∈ s.loops) (hnew : h ∉ s.handlers) :
    (h, c) ∈ (s.registered h).scheduled := by
  obtain ⟨call, hcall⟩ := Option.isSome_iff_exists.mp (hvalid.loop_called _ hloop)
  obtain ⟨h', hh', -⟩ := Option.map_eq_some_iff.mp hcall
  have hi : i < s.handlers.length := (List.getElem?_eq_some_iff.mp hh').1
  apply List.mem_append_right
  apply List.mem_flatMap.mpr
  refine ⟨.handlers c i, hloop, ?_⟩
  show (h, c) ∈ ((addToSet h s.handlers).drop (i + 1)).map fun h => (h, c)
  rw [addToSet, if_neg hnew, List.drop_append_of_le_length hi]
  exact List.mem_map_of_mem (List.mem_append_right _ List.mem_cons_self)

theorem scheduled_onInstanceConnected (s : WebviewController H D) (h : H) :
    (s.onInstanceConnected h).scheduled.Perm
      ((s.registered h).scheduled ++ s.connected.map fun c => (h, c)) :=
  scheduled_continueLoop (.instances h 0) (s.registered h)

theorem Valid.registered {s : WebviewController H D} (h : s.Valid) (x : H) :
    (s.registered x).Valid := by
  refine { h with
    handlers_nodup := nodup_addToSet h.handlers_nodup
    due_handler := ?_
    due_lt := ?_
    due_of_connected := ?_
    loop_called := ?_ }
  · intro y hy
    rcases List.mem_append.mp hy with hold | hnew
    · exact mem_addToSet.mpr (.inr (h.due_handler y hold))
    · obtain ⟨c, -, rfl⟩ := List.mem_map.mp hnew
      exact mem_addToSet.mpr (.inl rfl)
  · intro y hy
    rcases List.mem_append.mp hy with hold | hnew
    · exact h.due_lt y hold
    · obtain ⟨c, hc, rfl⟩ := List.mem_map.mp hnew
      exact h.connected_lt c hc
  · intro y hy c hc
    rcases mem_addToSet.mp hy with rfl | hmem
    · exact List.mem_append_right _ (List.mem_map_of_mem hc)
    · exact List.mem_append_left _ (h.due_of_connected y hmem c hc)
  · intro loop hloop
    have hcalled := h.loop_called loop hloop
    cases loop with
    | handlers c i =>
        have hi : i < s.handlers.length := by simpa [callAt] using hcalled
        have hlength : s.handlers.length ≤ (addToSet x s.handlers).length := by
          unfold addToSet
          split <;> simp
        have hi' : i < (s.registered x).handlers.length := Nat.lt_of_lt_of_le hi hlength
        simpa [callAt] using hi'
    | instances y i => exact hcalled

theorem Valid.onInstanceConnected {s : WebviewController H D} (h : s.Valid) (x : H) :
    (s.onInstanceConnected x).Valid :=
  (h.registered x).continueLoop fun _ _ hloop => nomatch hloop

theorem complete_onInstanceConnected {s : WebviewController H D} (hvalid : s.Valid)
    (h : s.Complete) (x : H) : (s.onInstanceConnected x).Complete := by
  have hdue : (s.onInstanceConnected x).due = s.due ++ s.connected.map fun c => (x, c) := by
    rcases continueLoop_cases (.instances x 0) (s.registered x) with ⟨call, -, heq⟩ | ⟨-, heq⟩ <;>
      exact congrArg WebviewController.due heq
  intro y
  rw [(scheduled_onInstanceConnected s x).mem_iff, hdue, List.mem_append, List.mem_append]
  constructor
  · rintro (hold | hnew)
    · rcases mem_scheduled_registered hvalid hold with hmem | ⟨c, hc, rfl⟩
      · exact .inl ((h y).mp hmem)
      · exact .inr (List.mem_map_of_mem hc)
    · exact .inr hnew
  · rintro (hold | hnew)
    · exact .inl ((scheduled_registered_sublist s x).subset ((h y).mpr hold))
    · exact .inr hnew

/-- Nothing is called twice exactly if the registration is careful. -/
theorem nodup_onInstanceConnected_iff {s : WebviewController H D} (hvalid : s.Valid)
    (hcomplete : s.Complete) (hnodup : s.scheduled.Nodup) (x : H) :
    (s.onInstanceConnected x).scheduled.Nodup ↔
      s.Careful (.onInstanceConnected x : ControllerEvent H D) := by
  have hmap : (s.connected.map fun c => (x, c)).Nodup :=
    hvalid.connected_nodup.map fun c c' heq => (Prod.mk.inj heq).2
  rw [(scheduled_onInstanceConnected s x).nodup_iff, List.nodup_append]
  constructor
  · rintro ⟨-, -, hdisjoint⟩
    have hknown : x ∈ s.handlers → s.connected = [] := by
      intro hx
      rw [List.eq_nil_iff_forall_not_mem]
      intro c hc
      have hsched := (hcomplete (x, c)).mpr (hvalid.due_of_connected x hx c hc)
      exact hdisjoint (x, c) ((scheduled_registered_sublist s x).subset hsched) (x, c)
        (List.mem_map_of_mem hc) rfl
    refine ⟨?_, hknown⟩
    intro c i hloop
    have hc := hvalid.loop_connected c i hloop
    by_cases hx : x ∈ s.handlers
    · rw [hknown hx] at hc
      cases hc
    · exact hdisjoint (x, c) (mem_scheduled_registered_of_loop hvalid hloop hx) (x, c)
        (List.mem_map_of_mem hc) rfl
  · rintro ⟨hloops, hknown⟩
    have hsame : (s.registered x).scheduled = s.scheduled := by
      apply congrArg (s.calls ++ ·)
      apply List.flatMap_congr
      intro loop hloop
      cases loop with
      | handlers c i => exact absurd hloop (hloops c i)
      | instances y i => rfl
    rw [hsame]
    refine ⟨hnodup, hmap, ?_⟩
    rintro y hy z hz rfl
    obtain ⟨c, hc, rfl⟩ := List.mem_map.mp hz
    have hx : x ∈ s.handlers := hvalid.due_handler _ ((hcomplete (x, c)).mp hy)
    rw [hknown hx] at hc
    cases hc

/-! ## A handler returns -/

variable [DecidableEq D]

/-- The loop is taken from the stack, and what the handler returned is kept. -/
def kept (disposable : Option D) (c : Nat) (s : WebviewController H D) : WebviewController H D :=
  match disposable with
  | some d => { s with
      pluginCallbackDisposables :=
        Function.update s.pluginCallbackDisposables c (addToSet d (s.pluginCallbackDisposables c))
      returned := s.returned ++ [(c, d)] }
  | none => s

omit [DecidableEq H] in
theorem handlerReturned_eq {s : WebviewController H D} {loop : HandlerLoop H} {h : H} {c : Nat}
    (hcall : s.callAt loop = some (h, c)) (disposable : Option D) :
    s.handlerReturned loop disposable = (s.kept disposable c).continueLoop loop.next := by
  unfold handlerReturned
  rw [hcall]
  cases disposable <;> rfl

omit [DecidableEq H] in
theorem Valid.kept {s : WebviewController H D} (h : s.Valid) (disposable : Option D) {c : Nat}
    (hc : c ∈ s.connected) : (s.kept disposable c).Valid := by
  cases disposable with
  | none => exact h
  | some d =>
      refine { h with returned_lt := ?_, kept_iff := ?_, kept_nodup := ?_ }
      · intro r hr
        rcases List.mem_append.mp hr with hold | hnew
        · exact h.returned_lt r hold
        · obtain rfl := List.mem_singleton.mp hnew
          exact h.connected_lt c hc
      · intro c' hc' d'
        show d' ∈ Function.update s.pluginCallbackDisposables c _ c' ↔
          (c', d') ∈ s.returned ++ [(c, d)]
        have hold := h.kept_iff c' hc' d'
        by_cases heq : c' = c
        · subst heq
          rw [Function.update_self, mem_addToSet, hold]
          simp [or_comm]
        · rw [Function.update_of_ne heq, hold]
          simp [heq]
      · intro c'
        show (Function.update s.pluginCallbackDisposables c _ c').Nodup
        by_cases heq : c' = c
        · subst heq
          rw [Function.update_self]
          exact nodup_addToSet (h.kept_nodup c')
        · rw [Function.update_of_ne heq]
          exact h.kept_nodup c'

omit [DecidableEq H] [DecidableEq D] in
theorem Valid.popped {s : WebviewController H D} (h : s.Valid) {loop : HandlerLoop H}
    {loops : List (HandlerLoop H)} (hloops : s.loops = loop :: loops) :
    ({ s with loops } : WebviewController H D).Valid := by
  have hsub : ∀ l ∈ loops, l ∈ s.loops := by
    intro l hl
    rw [hloops]
    exact List.mem_cons_of_mem _ hl
  exact { h with
    loop_called := fun l hl => h.loop_called l (hsub l hl)
    loop_connected := fun c i hl => h.loop_connected c i (hsub _ hl) }

omit [DecidableEq H] [DecidableEq D] in
/-- The connection for which the handler was called. -/
theorem Valid.exists_call {s : WebviewController H D} (h : s.Valid) {loop : HandlerLoop H}
    (hloop : loop ∈ s.loops) : ∃ x c, s.callAt loop = some (x, c) ∧ c ∈ s.connected := by
  obtain ⟨call, hcall⟩ := Option.isSome_iff_exists.mp (h.loop_called loop hloop)
  refine ⟨call.1, call.2, hcall, ?_⟩
  cases loop with
  | handlers c i =>
      obtain ⟨y, -, rfl⟩ := Option.map_eq_some_iff.mp hcall
      exact h.loop_connected c i hloop
  | instances y i =>
      obtain ⟨c, hc, rfl⟩ := Option.map_eq_some_iff.mp hcall
      exact List.mem_of_getElem? hc

/-- What a step does when a handler returns. -/
theorem step_returned {s t : WebviewController H D} (h : s.Valid) {disposable : Option D}
    (hstep : s.step (.returned disposable) = some t) :
    ∃ loop loops c, s.loops = loop :: loops ∧ c ∈ s.connected ∧
      t = (({ s with loops } : WebviewController H D).kept disposable c).continueLoop loop.next ∧
      ∀ c' i, loop.next = .handlers c' i → c' ∈ s.connected := by
  have hfound : ∃ loop loops, s.loops = loop :: loops ∧
      handlerReturned loop disposable { s with loops } = t := by
    cases hloops : s.loops with
    | nil => simp [step, hloops] at hstep
    | cons loop loops => exact ⟨loop, loops, rfl, by simpa [step, hloops] using hstep⟩
  obtain ⟨loop, loops, hloops, rfl⟩ := hfound
  have hmem : loop ∈ s.loops := by
    rw [hloops]
    exact List.mem_cons_self
  obtain ⟨x, c, hcall, hc⟩ := h.exists_call hmem
  have hcall' : ({ s with loops } : WebviewController H D).callAt loop = some (x, c) := by
    cases loop <;> exact hcall
  refine ⟨loop, loops, c, hloops, hc, handlerReturned_eq hcall' disposable, ?_⟩
  intro c' i hnext
  cases loop with
  | handlers c'' i' =>
      obtain ⟨rfl, -⟩ := HandlerLoop.handlers.inj hnext
      exact h.loop_connected c'' i' hmem
  | instances y i' => cases hnext

omit [DecidableEq H] in
theorem scheduled_kept (s : WebviewController H D) (disposable : Option D) (c : Nat) :
    (s.kept disposable c).scheduled = s.scheduled := by
  cases disposable with
  | none => rfl
  | some d =>
      apply congrArg (s.calls ++ ·)
      apply List.flatMap_congr
      intro loop _
      cases loop <;> rfl

omit [DecidableEq H] in
theorem upcoming_kept (s : WebviewController H D) (disposable : Option D) (c : Nat)
    (loop : HandlerLoop H) : (s.kept disposable c).upcoming loop = s.upcoming loop := by
  cases disposable <;> cases loop <;> rfl

omit [DecidableEq H] in
/-- The calls to come are made in the same loops when a handler returns. -/
theorem scheduled_of_returned {s : WebviewController H D} {loop : HandlerLoop H}
    {loops : List (HandlerLoop H)} (hloops : s.loops = loop :: loops) (disposable : Option D)
    (c : Nat) : ((({ s with loops } : WebviewController H D).kept disposable c).continueLoop
      loop.next).scheduled.Perm s.scheduled := by
  refine (scheduled_continueLoop loop.next _).trans ?_
  rw [scheduled_kept, upcoming_kept]
  show (s.calls ++ (loops.flatMap fun loop => s.upcoming loop.next) ++
    s.upcoming loop.next).Perm (s.calls ++ s.loops.flatMap fun loop => s.upcoming loop.next)
  rw [hloops, List.flatMap_cons, List.append_assoc]
  exact List.Perm.append_left _ List.perm_append_comm

end

/-! ## Instances come and go -/

/-- The state in which the loop of `#handleConnected` begins. -/
def accepted (webviewInstanceId : String) (s : WebviewController H D) : WebviewController H D :=
  { s with
    instanceInfos := s.instanceInfos.set webviewInstanceId s.connections
    pluginCallbackDisposables := Function.update s.pluginCallbackDisposables s.connections []
    connections := s.connections + 1
    due := s.due ++ s.handlers.map fun h => (h, s.connections) }

theorem handleConnected_cases (address : WebviewAddress) (s : WebviewController H D) :
    s.handleConnected address = s ∨
    (s.instanceInfos.get address.webviewInstanceId = none ∧ s.handleConnected address =
      (s.accepted address.webviewInstanceId).continueLoop (.handlers s.connections 0)) := by
  unfold handleConnected
  split
  · split
    · exact .inl rfl
    · rename_i hnone
      exact .inr ⟨Option.not_isSome_iff_eq_none.mp hnone, rfl⟩
  · exact .inl rfl

theorem connected_accepted {s : WebviewController H D} {id : String}
    (h : s.instanceInfos.get id = none) :
    (s.accepted id).connected = s.connected ++ [s.connections] := by
  show (s.instanceInfos.set id s.connections).entries.map Prod.snd = _
  rw [OrderedMap.entries_set_of_get_eq_none _ h, List.map_append]
  rfl

theorem Valid.accepted {s : WebviewController H D} (h : s.Valid) (hidle : s.Idle) {id : String}
    (hid : s.instanceInfos.get id = none) : (s.accepted id).Valid where
  handlers_nodup := h.handlers_nodup
  connected_nodup := by
    rw [connected_accepted hid]
    refine List.nodup_append.mpr ⟨h.connected_nodup, List.nodup_singleton _, ?_⟩
    intro c hc c' hc'
    rw [List.mem_singleton.mp hc']
    exact Nat.ne_of_lt (h.connected_lt c hc)
  connected_lt := by
    intro c hc
    rw [connected_accepted hid] at hc
    show c < s.connections + 1
    rcases List.mem_append.mp hc with hold | hnew
    · exact Nat.lt_succ_of_lt (h.connected_lt c hold)
    · rw [List.mem_singleton.mp hnew]
      exact Nat.lt_succ_self _
  returned_lt := fun r hr => Nat.lt_succ_of_lt (h.returned_lt r hr)
  due_handler := by
    intro x hx
    rcases List.mem_append.mp hx with hold | hnew
    · exact h.due_handler x hold
    · obtain ⟨y, hy, rfl⟩ := List.mem_map.mp hnew
      exact hy
  due_lt := by
    intro x hx
    show x.2 < s.connections + 1
    rcases List.mem_append.mp hx with hold | hnew
    · exact Nat.lt_succ_of_lt (h.due_lt x hold)
    · obtain ⟨y, -, rfl⟩ := List.mem_map.mp hnew
      exact Nat.lt_succ_self _
  due_of_connected := by
    intro x hx c hc
    rw [connected_accepted hid] at hc
    rcases List.mem_append.mp hc with hold | hnew
    · exact List.mem_append_left _ (h.due_of_connected x hx c hold)
    · rw [List.mem_singleton.mp hnew]
      exact List.mem_append_right _ (List.mem_map_of_mem hx)
  loop_called := fun _ hloop => absurd hloop hidle.not_mem
  loop_connected := fun _ _ hloop => absurd hloop hidle.not_mem
  kept_iff := by
    intro c hc d
    rw [connected_accepted hid] at hc
    show d ∈ Function.update s.pluginCallbackDisposables s.connections [] c ↔ (c, d) ∈ s.returned
    rcases List.mem_append.mp hc with hold | hnew
    · rw [Function.update_of_ne (Nat.ne_of_lt (h.connected_lt c hold))]
      exact h.kept_iff c hold d
    · rw [List.mem_singleton.mp hnew, Function.update_self]
      constructor
      · intro hd
        cases hd
      · intro hd
        exact absurd (h.returned_lt _ hd) (Nat.lt_irrefl _)
  kept_nodup := by
    intro c
    show (Function.update s.pluginCallbackDisposables s.connections [] c).Nodup
    by_cases heq : c = s.connections
    · rw [heq, Function.update_self]
      exact List.nodup_nil
    · rw [Function.update_of_ne heq]
      exact h.kept_nodup c

/-- The state after an instance has gone. -/
def parted (webviewInstanceId : String) (c : Nat) (s : WebviewController H D) :
    WebviewController H D :=
  { s with
    disposals := s.disposals ++ s.pluginCallbackDisposables c
    pluginCallbackDisposables := Function.update s.pluginCallbackDisposables c []
    instanceInfos := s.instanceInfos.delete webviewInstanceId }

theorem handleDisconnected_of_some {s : WebviewController H D} {address : WebviewAddress} {c : Nat}
    (hsub : s.subscribed ∧ address.webviewId = s.webviewId)
    (hc : s.instanceInfos.get address.webviewInstanceId = some c) :
    s.handleDisconnected address = s.parted address.webviewInstanceId c := by
  rw [handleDisconnected, if_pos hsub]
  simp only [hc]
  rfl

theorem handleDisconnected_of_not {s : WebviewController H D} {address : WebviewAddress}
    (hnot : ¬ ∃ c, (s.subscribed ∧ address.webviewId = s.webviewId) ∧
      s.instanceInfos.get address.webviewInstanceId = some c) :
    s.handleDisconnected address = s := by
  unfold handleDisconnected
  split
  · rename_i hsub
    split
    · rename_i c hc
      exact absurd ⟨c, hsub, hc⟩ hnot
    · rfl
  · rfl

theorem mem_connected_iff {s : WebviewController H D} {c : Nat} :
    c ∈ s.connected ↔ ∃ id, s.instanceInfos.get id = some c := by
  constructor
  · intro hc
    obtain ⟨⟨id, c'⟩, he, rfl⟩ := List.mem_map.mp hc
    exact ⟨id, OrderedMap.get_eq_some_iff.mpr he⟩
  · rintro ⟨id, hid⟩
    exact List.mem_map_of_mem (OrderedMap.get_eq_some_iff.mp hid)

theorem mem_connected_parted {s : WebviewController H D} (h : s.Valid) {id : String} {c c' : Nat}
    (hid : s.instanceInfos.get id = some c) :
    c' ∈ (s.parted id c).connected ↔ c' ∈ s.connected ∧ c' ≠ c := by
  -- An instance has one connection, and a connection one instance.
  have hinj : ∀ id', s.instanceInfos.get id' = some c → id' = id := by
    intro id' hid'
    have hnodup := h.connected_nodup
    have heq := List.inj_on_of_nodup_map hnodup (OrderedMap.get_eq_some_iff.mp hid')
      (OrderedMap.get_eq_some_iff.mp hid) rfl
    exact congrArg Prod.fst heq
  have hdelete : ∀ id', (s.parted id c).instanceInfos.get id' =
      if id' = id then none else s.instanceInfos.get id' :=
    OrderedMap.get_delete s.instanceInfos id
  rw [mem_connected_iff, mem_connected_iff]
  constructor
  · rintro ⟨id', hid'⟩
    rw [hdelete] at hid'
    split at hid'
    · cases hid'
    · rename_i hne
      refine ⟨⟨id', hid'⟩, ?_⟩
      rintro rfl
      exact hne (hinj id' hid')
  · rintro ⟨⟨id', hid'⟩, hne⟩
    refine ⟨id', ?_⟩
    have hne' : id' ≠ id := by
      rintro rfl
      exact hne (Option.some.inj (hid'.symm.trans hid))
    rw [hdelete, if_neg hne', hid']

theorem Valid.parted {s : WebviewController H D} (h : s.Valid) (hidle : s.Idle) {id : String}
    {c : Nat} (hid : s.instanceInfos.get id = some c) : (s.parted id c).Valid where
  handlers_nodup := h.handlers_nodup
  connected_nodup := h.connected_nodup.sublist (List.filter_sublist.map _)
  connected_lt := fun c' hc' => h.connected_lt c' ((mem_connected_parted h hid).mp hc').1
  returned_lt := h.returned_lt
  due_handler := h.due_handler
  due_lt := h.due_lt
  due_of_connected := fun x hx c' hc' =>
    h.due_of_connected x hx c' ((mem_connected_parted h hid).mp hc').1
  loop_called := fun _ hloop => absurd hloop hidle.not_mem
  loop_connected := fun _ _ hloop => absurd hloop hidle.not_mem
  kept_iff := by
    intro c' hc' d
    obtain ⟨hc', hne⟩ := (mem_connected_parted h hid).mp hc'
    show d ∈ Function.update s.pluginCallbackDisposables c [] c' ↔ _
    rw [Function.update_of_ne hne]
    exact h.kept_iff c' hc' d
  kept_nodup := by
    intro c'
    show (Function.update s.pluginCallbackDisposables c [] c').Nodup
    by_cases heq : c' = c
    · rw [heq, Function.update_self]
      exact List.nodup_nil
    · rw [Function.update_of_ne heq]
      exact h.kept_nodup c'

theorem Valid.dispose {s : WebviewController H D} (h : s.Valid) (hidle : s.Idle) :
    s.dispose.Valid where
  handlers_nodup := h.handlers_nodup
  connected_nodup := List.nodup_nil
  connected_lt := fun _ hc => nomatch hc
  returned_lt := h.returned_lt
  due_handler := h.due_handler
  due_lt := h.due_lt
  due_of_connected := fun _ _ _ hc => nomatch hc
  loop_called := fun _ hloop => absurd hloop hidle.not_mem
  loop_connected := fun _ _ hloop => absurd hloop hidle.not_mem
  kept_iff := fun _ hc => nomatch hc
  kept_nodup := h.kept_nodup

/-! ## Every step -/

@[simp] theorem continueLoop_due (loop : HandlerLoop H) (s : WebviewController H D) :
    (s.continueLoop loop).due = s.due := by
  rcases continueLoop_cases loop s with ⟨call, -, heq⟩ | ⟨-, heq⟩ <;> rw [heq]

@[simp] theorem continueLoop_returned (loop : HandlerLoop H) (s : WebviewController H D) :
    (s.continueLoop loop).returned = s.returned := by
  rcases continueLoop_cases loop s with ⟨call, -, heq⟩ | ⟨-, heq⟩ <;> rw [heq]

@[simp] theorem continueLoop_disposals (loop : HandlerLoop H) (s : WebviewController H D) :
    (s.continueLoop loop).disposals = s.disposals := by
  rcases continueLoop_cases loop s with ⟨call, -, heq⟩ | ⟨-, heq⟩ <;> rw [heq]

@[simp] theorem continueLoop_connected (loop : HandlerLoop H) (s : WebviewController H D) :
    (s.continueLoop loop).connected = s.connected := by
  rcases continueLoop_cases loop s with ⟨call, -, heq⟩ | ⟨-, heq⟩
  · rw [heq]
    rfl
  · rw [heq]

theorem scheduled_connect {s : WebviewController H D} (hidle : s.Idle) (id : String) :
    ((s.accepted id).continueLoop (.handlers s.connections 0)).scheduled.Perm
      (s.scheduled ++ s.handlers.map fun h => (h, s.connections)) := by
  have hsame : (s.accepted id).scheduled = s.scheduled := by
    rw [scheduled_of_idle hidle]
    exact scheduled_of_idle (s := s.accepted id) hidle
  have hperm := scheduled_continueLoop (.handlers s.connections 0) (s.accepted id)
  rw [hsame] at hperm
  exact hperm

variable [DecidableEq H] [DecidableEq D]

theorem valid_step {s t : WebviewController H D} (h : s.Valid) {e : ControllerEvent H D}
    (hstep : s.step e = some t) : t.Valid := by
  cases e with
  | onInstanceConnected x =>
      cases hstep
      exact h.onInstanceConnected x
  | returned disposable =>
      obtain ⟨loop, loops, c, hloops, hc, rfl, hnext⟩ := step_returned h hstep
      have hpopped := (h.popped hloops).kept disposable hc
      apply hpopped.continueLoop
      intro c' i heq
      cases disposable <;> exact hnext c' i heq
  | connect address =>
      obtain ⟨hidle, rfl⟩ := Option.ite_some_none_eq_some.mp hstep
      rcases handleConnected_cases address s with heq | ⟨hnone, heq⟩
      · rw [heq]
        exact h
      · rw [heq]
        apply (h.accepted hidle hnone).continueLoop
        intro c i heq
        obtain ⟨rfl, -⟩ := HandlerLoop.handlers.inj heq
        rw [connected_accepted hnone]
        exact List.mem_append_right _ List.mem_cons_self
  | disconnect address =>
      obtain ⟨hidle, rfl⟩ := Option.ite_some_none_eq_some.mp hstep
      by_cases hfound : ∃ c, (s.subscribed ∧ address.webviewId = s.webviewId) ∧
          s.instanceInfos.get address.webviewInstanceId = some c
      · obtain ⟨c, hsub, hc⟩ := hfound
        rw [handleDisconnected_of_some hsub hc]
        exact h.parted hidle hc
      · rw [handleDisconnected_of_not hfound]
        exact h
  | dispose =>
      obtain ⟨hidle, rfl⟩ := Option.ite_some_none_eq_some.mp hstep
      exact h.dispose hidle

theorem complete_step {s t : WebviewController H D} (hvalid : s.Valid) (h : s.Complete)
    {e : ControllerEvent H D} (hstep : s.step e = some t) : t.Complete := by
  cases e with
  | onInstanceConnected x =>
      cases hstep
      exact complete_onInstanceConnected hvalid h x
  | returned disposable =>
      obtain ⟨loop, loops, c, hloops, -, rfl, -⟩ := step_returned hvalid hstep
      intro x
      rw [(scheduled_of_returned hloops disposable c).mem_iff, h x, continueLoop_due]
      cases disposable <;> rfl
  | connect address =>
      obtain ⟨hidle, rfl⟩ := Option.ite_some_none_eq_some.mp hstep
      rcases handleConnected_cases address s with heq | ⟨-, heq⟩
      · rw [heq]
        exact h
      · intro x
        rw [heq, (scheduled_connect hidle _).mem_iff, continueLoop_due, List.mem_append, h x]
        exact List.mem_append.symm
  | disconnect address =>
      obtain ⟨hidle, rfl⟩ := Option.ite_some_none_eq_some.mp hstep
      by_cases hfound : ∃ c, (s.subscribed ∧ address.webviewId = s.webviewId) ∧
          s.instanceInfos.get address.webviewInstanceId = some c
      · obtain ⟨c, hsub, hc⟩ := hfound
        rw [handleDisconnected_of_some hsub hc]
        exact (complete_iff_of_idle (s := s.parted _ c) hidle).mpr
          ((complete_iff_of_idle hidle).mp h)
      · rw [handleDisconnected_of_not hfound]
        exact h
  | dispose =>
      obtain ⟨hidle, rfl⟩ := Option.ite_some_none_eq_some.mp hstep
      exact (complete_iff_of_idle (s := s.dispose) hidle).mpr
        ((complete_iff_of_idle hidle).mp h)

/-- `Served`, with the calls to come counted as made. -/
structure OnTrack (s : WebviewController H D) : Prop where
  nodup : s.scheduled.Nodup
  disposed : ∀ c d, (c, d) ∈ s.returned →
    s.disposals.count d = if c ∈ s.connected then 0 else 1

theorem served_iff {s : WebviewController H D} (h : s.Complete) (hidle : s.Idle) :
    s.Served ↔ s.OnTrack := by
  have hmem := (complete_iff_of_idle hidle).mp h
  constructor
  · intro hserved
    refine ⟨?_, hserved.disposed⟩
    rw [scheduled_of_idle hidle, List.nodup_iff_count_le_one]
    intro x
    rw [hserved.called x.1 x.2]
    split <;> omega
  · intro htrack
    refine ⟨?_, htrack.disposed⟩
    have hnodup := htrack.nodup
    rw [scheduled_of_idle hidle] at hnodup
    intro x c
    rw [hnodup.count]
    simp only [hmem]

omit [DecidableEq H] in
theorem onTrack_congr {s t : WebviewController H D} (hperm : t.scheduled.Perm s.scheduled)
    (hreturned : t.returned = s.returned) (hdisposals : t.disposals = s.disposals)
    (hconnected : t.connected = s.connected) : t.OnTrack ↔ s.OnTrack := by
  constructor
  · rintro ⟨hnodup, hdisposed⟩
    rw [hreturned, hdisposals, hconnected] at hdisposed
    exact ⟨hperm.nodup_iff.mp hnodup, hdisposed⟩
  · rintro ⟨hnodup, hdisposed⟩
    rw [← hreturned, ← hdisposals, ← hconnected] at hdisposed
    exact ⟨hperm.nodup_iff.mpr hnodup, hdisposed⟩

/-- A handler returns something that is not disposed of yet. -/
theorem onTrack_returned_iff {s t : WebviewController H D} (hvalid : s.Valid) (h : s.OnTrack)
    {disposable : Option D} (hstep : s.step (.returned disposable) = some t) :
    t.OnTrack ↔ s.Careful (.returned disposable : ControllerEvent H D) := by
  obtain ⟨loop, loops, c, hloops, hc, rfl, -⟩ := step_returned hvalid hstep
  have hperm := scheduled_of_returned hloops disposable c
  cases disposable with
  | none =>
      have hsame : (({ s with loops } : WebviewController H D).kept none c).continueLoop
          loop.next |>.OnTrack := by
        apply (onTrack_congr hperm _ _ _).mpr h
        · rw [continueLoop_returned]
          rfl
        · rw [continueLoop_disposals]
          rfl
        · rw [continueLoop_connected]
          rfl
      simp [hsame, Careful]
  | some d =>
      constructor
      · intro htrack d' hd'
        obtain rfl := Option.mem_some.mp hd'
        have hcount := htrack.disposed c d
        rw [continueLoop_returned, continueLoop_disposals, continueLoop_connected] at hcount
        have hzero : s.disposals.count d = 0 :=
          (hcount (List.mem_append_right _ List.mem_cons_self)).trans (if_pos hc)
        exact List.count_eq_zero.mp hzero
      · intro hfresh
        refine ⟨hperm.nodup_iff.mpr h.nodup, ?_⟩
        rw [continueLoop_returned, continueLoop_disposals, continueLoop_connected]
        intro c' d' hmem
        show s.disposals.count d' = if c' ∈ s.connected then 0 else 1
        rcases List.mem_append.mp hmem with hold | hnew
        · exact h.disposed c' d' hold
        · obtain ⟨rfl, rfl⟩ := Prod.mk.inj (List.mem_singleton.mp hnew)
          rw [if_pos hc, List.count_eq_zero]
          exact hfresh d' rfl

theorem onTrack_onInstanceConnected_iff {s : WebviewController H D} (hvalid : s.Valid)
    (hcomplete : s.Complete) (h : s.OnTrack) (x : H) :
    (s.onInstanceConnected x).OnTrack ↔
      s.Careful (.onInstanceConnected x : ControllerEvent H D) := by
  rw [← nodup_onInstanceConnected_iff hvalid hcomplete h.nodup]
  constructor
  · intro htrack
    exact htrack.nodup
  · intro hnodup
    refine ⟨hnodup, ?_⟩
    unfold onInstanceConnected
    rw [continueLoop_returned, continueLoop_disposals, continueLoop_connected]
    exact h.disposed

omit [DecidableEq H] in
theorem onTrack_handleConnected {s : WebviewController H D} (hvalid : s.Valid)
    (hcomplete : s.Complete) (hidle : s.Idle) (h : s.OnTrack) (address : WebviewAddress) :
    (s.handleConnected address).OnTrack := by
  rcases handleConnected_cases address s with heq | ⟨hnone, heq⟩
  · rw [heq]
    exact h
  · rw [heq]
    constructor
    · rw [(scheduled_connect hidle _).nodup_iff, List.nodup_append]
      refine ⟨h.nodup, hvalid.handlers_nodup.map fun x y hxy => (Prod.mk.inj hxy).1, ?_⟩
      rintro x hx y hy rfl
      obtain ⟨z, -, rfl⟩ := List.mem_map.mp hy
      exact absurd (hvalid.due_lt _ ((hcomplete _).mp hx)) (Nat.lt_irrefl _)
    · rw [continueLoop_returned, continueLoop_disposals, continueLoop_connected,
        connected_accepted hnone]
      intro c d hmem
      have hlt : c < s.connections := hvalid.returned_lt _ hmem
      have hiff : c ∈ s.connected ++ [s.connections] ↔ c ∈ s.connected := by
        simp [Nat.ne_of_lt hlt]
      simp only [hiff]
      exact h.disposed c d hmem

omit [DecidableEq H] in
/-- What a connection has kept is disposed of when its instance goes. -/
theorem onTrack_parted_iff {s : WebviewController H D} (hvalid : s.Valid) (hidle : s.Idle)
    (h : s.OnTrack) {id : String} {c : Nat} (hid : s.instanceInfos.get id = some c) :
    (s.parted id c).OnTrack ↔ ∀ c' ∈ s.connected, c' ≠ c →
      ∀ d ∈ s.pluginCallbackDisposables c, d ∉ s.pluginCallbackDisposables c' := by
  have hc : c ∈ s.connected := mem_connected_iff.mpr ⟨id, hid⟩
  have hcount : ∀ d, (s.parted id c).disposals.count d =
      s.disposals.count d + if d ∈ s.pluginCallbackDisposables c then 1 else 0 := by
    intro d
    show (s.disposals ++ s.pluginCallbackDisposables c).count d = _
    rw [List.count_append, (hvalid.kept_nodup c).count]
  constructor
  · intro htrack c' hc' hne d hd hd'
    have hreturned : (c', d) ∈ s.returned := (hvalid.kept_iff c' hc' d).mp hd'
    have hzero := htrack.disposed c' d hreturned
    rw [hcount, if_pos hd, if_pos ((mem_connected_parted hvalid hid).mpr ⟨hc', hne⟩)] at hzero
    omega
  · intro hapart
    constructor
    · rw [scheduled_of_idle (s := s.parted id c) hidle]
      have hnodup := h.nodup
      rwa [scheduled_of_idle hidle] at hnodup
    · intro c' d hmem
      replace hmem : (c', d) ∈ s.returned := hmem
      have hold := h.disposed c' d hmem
      rw [hcount]
      simp only [mem_connected_parted hvalid hid]
      by_cases heq : c' = c
      · subst heq
        have hd := (hvalid.kept_iff c' hc d).mpr hmem
        rw [hold, if_pos hc, if_pos hd]
        simp
      · have hd : d ∉ s.pluginCallbackDisposables c := by
          intro hd
          by_cases hc' : c' ∈ s.connected
          · exact hapart c' hc' heq d hd ((hvalid.kept_iff c' hc' d).mpr hmem)
          · -- What is disposed of already is not kept for a connection.
            have hzero := h.disposed c d ((hvalid.kept_iff c hc d).mp hd)
            rw [if_pos hc] at hzero
            rw [if_neg hc'] at hold
            omega
        rw [if_neg hd, hold]
        simp [heq]

omit [DecidableEq H] in
theorem onTrack_dispose_iff {s : WebviewController H D} (hvalid : s.Valid) (hidle : s.Idle)
    (h : s.OnTrack) :
    s.dispose.OnTrack ↔ ∀ c ∈ s.connected, s.pluginCallbackDisposables c = [] := by
  constructor
  · intro htrack c hc
    rw [List.eq_nil_iff_forall_not_mem]
    intro d hd
    have hmem := (hvalid.kept_iff c hc d).mp hd
    have hzero := h.disposed c d hmem
    have hone := htrack.disposed c d hmem
    rw [if_pos hc] at hzero
    replace hone : s.disposals.count d = 1 := hone
    omega
  · intro hempty
    constructor
    · rw [scheduled_of_idle (s := s.dispose) hidle]
      have hnodup := h.nodup
      rwa [scheduled_of_idle hidle] at hnodup
    · intro c d hmem
      have hnot : c ∉ s.connected := by
        intro hc
        have hd := (hvalid.kept_iff c hc d).mpr hmem
        rw [hempty c hc] at hd
        cases hd
      have hold := h.disposed c d hmem
      rw [if_neg hnot] at hold
      exact hold

theorem onTrack_step_iff {s t : WebviewController H D} (hvalid : s.Valid) (hcomplete : s.Complete)
    (h : s.OnTrack) {e : ControllerEvent H D} (hstep : s.step e = some t) :
    t.OnTrack ↔ s.Careful e := by
  cases e with
  | onInstanceConnected x =>
      cases hstep
      exact onTrack_onInstanceConnected_iff hvalid hcomplete h x
  | returned disposable => exact onTrack_returned_iff hvalid h hstep
  | connect address =>
      obtain ⟨hidle, rfl⟩ := Option.ite_some_none_eq_some.mp hstep
      simp [Careful, onTrack_handleConnected hvalid hcomplete hidle h address]
  | disconnect address =>
      obtain ⟨hidle, rfl⟩ := Option.ite_some_none_eq_some.mp hstep
      by_cases hfound : ∃ c, (s.subscribed ∧ address.webviewId = s.webviewId) ∧
          s.instanceInfos.get address.webviewInstanceId = some c
      · obtain ⟨c, hsub, hc⟩ := hfound
        rw [handleDisconnected_of_some hsub hc, onTrack_parted_iff hvalid hidle h hc]
        simp [Careful, hsub, hc]
      · rw [handleDisconnected_of_not hfound]
        have hcareful : s.Careful (.disconnect address : ControllerEvent H D) := by
          intro hsub hweb c hc
          exact absurd ⟨c, ⟨hsub, hweb⟩, hc⟩ hfound
        simp [h, hcareful]
  | dispose =>
      obtain ⟨hidle, rfl⟩ := Option.ite_some_none_eq_some.mp hstep
      exact onTrack_dispose_iff hvalid hidle h

/-- What a handler that is running does cannot put things right. -/
theorem onTrack_of_step {s t : WebviewController H D} (hvalid : s.Valid) (hbusy : ¬ s.Idle)
    {e : ControllerEvent H D} (hstep : s.step e = some t) (h : t.OnTrack) : s.OnTrack := by
  cases e with
  | onInstanceConnected x =>
      cases hstep
      constructor
      · have hnodup := (scheduled_onInstanceConnected s x).nodup_iff.mp h.nodup
        exact (List.nodup_append.mp hnodup).1.sublist (scheduled_registered_sublist s x)
      · have hdisposed := h.disposed
        unfold onInstanceConnected at hdisposed
        rw [continueLoop_returned, continueLoop_disposals, continueLoop_connected] at hdisposed
        exact hdisposed
  | returned disposable =>
      obtain ⟨loop, loops, c, hloops, -, rfl, -⟩ := step_returned hvalid hstep
      constructor
      · exact (scheduled_of_returned hloops disposable c).nodup_iff.mp h.nodup
      · have hdisposed := h.disposed
        rw [continueLoop_returned, continueLoop_disposals, continueLoop_connected] at hdisposed
        intro c' d hmem
        cases disposable with
        | none => exact hdisposed c' d hmem
        | some d' => exact hdisposed c' d (List.mem_append_left _ hmem)
  | connect address => exact absurd (Option.ite_some_none_eq_some.mp hstep).1 hbusy
  | disconnect address => exact absurd (Option.ite_some_none_eq_some.mp hstep).1 hbusy
  | dispose => exact absurd (Option.ite_some_none_eq_some.mp hstep).1 hbusy

/-- **Handlers and what they return.** In a run after which no handler is running, every call and
every disposal is right whenever no handler is running, if and only if every event is careful. -/
theorem served_iff_careful {webviewId : String} {es : List (ControllerEvent H D)}
    {t : WebviewController H D} (hrun : run step (new webviewId) es = some t) (hidle : t.Idle) :
    Always step (fun s => s.Idle → s.Served) (new webviewId) es ↔
      Guarded step Careful (new webviewId) es := by
  have hstep : ∀ (s : WebviewController H D) e t, s.Valid ∧ s.Complete → s.step e = some t →
      t.Valid ∧ t.Complete :=
    fun s e t h hs => ⟨valid_step h.1 hs, complete_step h.1 h.2 hs⟩
  have hnew : (new webviewId : WebviewController H D).Valid ∧
      (new webviewId : WebviewController H D).Complete :=
    ⟨valid_new webviewId, complete_new webviewId⟩
  have htrack : (new webviewId : WebviewController H D).OnTrack :=
    ⟨List.nodup_nil, fun _ _ h => nomatch h⟩
  rw [← always_iff_guarded (fun s e t h _ _ hs => hstep s e t h hs)
    (fun s e t h hs => onTrack_step_iff h.1 h.2 hs) hnew htrack hrun]
  rw [always_iff_always_when (Q := Idle) hstep
    (fun s e t h hbusy hs => onTrack_of_step h.1 hbusy hs) hnew hrun hidle]
  apply always_congr hstep _ hnew
  intro s h
  exact imp_congr_right fun hidle => served_iff h.2 hidle

/-- Two handlers, one of them registered while the instance is connected. -/
def sampleConnection : List (ControllerEvent Nat Nat) :=
  [.onInstanceConnected 0, .connect ⟨"duo-chat", "1"⟩, .returned (some 7),
    .onInstanceConnected 1, .returned none, .disconnect ⟨"duo-chat", "1"⟩, .dispose]

theorem served_iff_careful_of_disconnect :
    Always step (fun s => s.Idle → s.Served) (new "duo-chat") sampleConnection ↔
      Guarded step Careful (new "duo-chat") sampleConnection := by
  obtain ⟨t, ht⟩ : ∃ t, run step (new "duo-chat") sampleConnection = some t :=
    Option.isSome_iff_exists.mp (by decide +kernel)
  have hidle : ∀ t ∈ run step (new "duo-chat") sampleConnection, t.loops = [] := by
    decide +kernel
  exact served_iff_careful ht (hidle t ht)

/-- The controller is disposed of while an instance is connected. -/
def sampleDisposedController : List (ControllerEvent Nat Nat) :=
  [.onInstanceConnected 0, .connect ⟨"duo-chat", "1"⟩, .returned (some 7), .dispose]

/-- What the handler returned is never disposed of. -/
theorem not_served_of_dispose :
    ∃ t, run step (new "duo-chat") sampleDisposedController = some t ∧ t.Idle ∧
      t.returned = [(0, 7)] ∧ t.connected = [] ∧ t.disposals = [] ∧ ¬ t.Served := by
  obtain ⟨t, ht⟩ : ∃ t, run step (new "duo-chat") sampleDisposedController = some t :=
    Option.isSome_iff_exists.mp (by decide +kernel)
  have hfacts : ∀ t ∈ run step (new "duo-chat") sampleDisposedController, t.loops = [] ∧
      t.returned = [(0, 7)] ∧ t.connected = [] ∧ t.disposals = [] := by decide +kernel
  obtain ⟨hidle, hreturned, hconnected, hdisposals⟩ := hfacts t ht
  refine ⟨t, ht, hidle, hreturned, hconnected, hdisposals, fun hserved => ?_⟩
  have hone := hserved.disposed 0 7 (by simp [hreturned])
  simp [hconnected, hdisposals] at hone

/-- A handler registers another one when it is called for a new instance. -/
def sampleNestedRegistration : List (ControllerEvent Nat Nat) :=
  [.onInstanceConnected 0, .connect ⟨"duo-chat", "1"⟩, .onInstanceConnected 1, .returned none,
    .returned none, .returned none]

/-- Both loops call the new handler. -/
theorem not_served_of_nested_registration :
    ∃ t, run step (new "duo-chat") sampleNestedRegistration = some t ∧ t.Idle ∧
      t.calls = [(0, 0), (1, 0), (1, 0)] ∧ ¬ t.Served := by
  obtain ⟨t, ht⟩ : ∃ t, run step (new "duo-chat") sampleNestedRegistration = some t :=
    Option.isSome_iff_exists.mp (by decide +kernel)
  have hfacts : ∀ t ∈ run step (new "duo-chat") sampleNestedRegistration, t.loops = [] ∧
      t.calls = [(0, 0), (1, 0), (1, 0)] ∧ (1, 0) ∈ t.due := by decide +kernel
  obtain ⟨hidle, hcalls, hdue⟩ := hfacts t ht
  refine ⟨t, ht, hidle, hcalls, fun hserved => ?_⟩
  have hone := hserved.called 1 0
  rw [hcalls, if_pos hdue] at hone
  revert hone
  decide

end WebviewController
end KhulnasoftLsp.Webview
