import KhulnasoftLsp.Transition
import Mathlib.Tactic.Common

/-!
# The cable of the workflow runner

`DesktopWorkflowRunner` subscribes to the updates of a workflow on a cable that it connects for the
purpose. It keeps one cable in a field, which a call assigns after it has awaited the connection.
What disconnects a cable reads that field: the calls that come later, and the listeners of the
channels.
-/

namespace KhulnasoftLsp.DuoWorkflow

open Transition

inductive DuoWorkflowStatus where
  | CREATED
  | RUNNING
  | PAUSED
  | FINISHED
  | FAILED
  | STOPPED
  deriving DecidableEq, Repr

structure DuoWorkflowEvent where
  checkpoint : String
  errors : List String
  metadata : String
  workflowGoal : String
  workflowStatus : DuoWorkflowStatus
  deriving DecidableEq, Repr

/-- The workflow that a channel asks for. -/
def channelWorkflowId (workflowId : String) : String :=
  "gid://gitlab/Ai::DuoWorkflows::Workflow/" ++ workflowId

/-- The state of the cable that a call connects. -/
inductive CableState where
  | connecting
  | connected
  | disconnected
  | failed
  deriving DecidableEq, Repr

def CableState.disconnect : CableState → CableState
  | .connected => .disconnected
  | state => state

/-- A call of `subscribeToUpdates`. -/
structure SubscribeCall where
  channel : String
  cableState : CableState
  /-- The cable on which the channel is subscribed. -/
  subscribedOn : Option Nat
  deriving DecidableEq, Repr

/-- The cables are known by the calls that connect them, and these by their numbers. -/
structure DesktopWorkflowRunner where
  cable : Option Nat
  calls : List SubscribeCall
  /-- The messages that were passed on, with the numbers of the calls. -/
  messages : List (Nat × DuoWorkflowEvent)
  /-- The channels with a checkpoint that disconnected a cable, and the channels of the calls that
  had connected it. -/
  ended : List (String × String)
  deriving DecidableEq, Repr

inductive RunnerEvent where
  | subscribeToUpdates (workflowId : String)
  | connected (call : Nat)
  | connectFailed (call : Nat)
  /-- A message of the channel of a call. -/
  | checkpoint (call : Nat) (msg : DuoWorkflowEvent)
  | disconnectCable
  deriving DecidableEq, Repr

namespace DesktopWorkflowRunner

def new : DesktopWorkflowRunner := ⟨none, [], [], []⟩

def modifyCall (call : Nat) (f : SubscribeCall → SubscribeCall) (s : DesktopWorkflowRunner) :
    DesktopWorkflowRunner :=
  { s with calls := s.calls.modify call f }

def disconnectCable (s : DesktopWorkflowRunner) : DesktopWorkflowRunner :=
  match s.cable with
  | none => s
  | some cable =>
    s.modifyCall cable fun call => { call with cableState := call.cableState.disconnect }

/-- The cable is connected. -/
def Connected (s : DesktopWorkflowRunner) (cable : Nat) : Prop :=
  ∃ call ∈ s.calls[cable]?, call.cableState = .connected

instance (s : DesktopWorkflowRunner) (cable : Nat) : Decidable (s.Connected cable) :=
  decidable_of_iff (s.calls[cable]?.any fun call => call.cableState == .connected) (by
    cases h : s.calls[cable]? <;> simp [Connected, h])

/-- The channel of the call whose cable is disconnected now, if there is one. -/
def connectedChannel (s : DesktopWorkflowRunner) : Option String := do
  let cable ← s.cable
  let call ← s.calls[cable]?
  if call.cableState = .connected then some call.channel else none

/-- The listener of a channel -/
def onCheckpoint (call : Nat) (channel : String) (msg : DuoWorkflowEvent)
    (s : DesktopWorkflowRunner) : DesktopWorkflowRunner :=
  let s := if msg.workflowStatus = .FINISHED then
      { s.disconnectCable with
        ended := s.ended ++ (s.connectedChannel.toList.map fun other => (channel, other)) }
    else s
  { s with messages := s.messages ++ [(call, msg)] }

def step (s : DesktopWorkflowRunner) : RunnerEvent → Option DesktopWorkflowRunner
  | .subscribeToUpdates workflowId =>
    let s := s.disconnectCable
    some { s with calls := s.calls ++ [⟨channelWorkflowId workflowId, .connecting, none⟩] }
  | .connected call => do
    let { cableState, .. } ← s.calls[call]?
    if cableState = .connecting then
      let s := { s with cable := some call }
      some (s.modifyCall call fun subscribed =>
        { subscribed with cableState := .connected, subscribedOn := s.cable })
    else none
  | .connectFailed call => do
    let { cableState, .. } ← s.calls[call]?
    if cableState = .connecting then
      some (s.modifyCall call fun failed => { failed with cableState := .failed })
    else none
  | .checkpoint call msg => do
    let { channel, subscribedOn, .. } ← s.calls[call]?
    let cable ← subscribedOn
    -- nothing comes over a cable that is disconnected
    if s.Connected cable then some (s.onCheckpoint call channel msg) else none
  | .disconnectCable => some s.disconnectCable

/-! ## What is claimed of the cables -/

/-- The channels are subscribed on the cables of their own calls, at most one cable is connected,
and only checkpoints of the same workflow have disconnected a cable. -/
structure Separate (s : DesktopWorkflowRunner) : Prop where
  own : ∀ (i : Nat) call, s.calls[i]? = some call → ∀ cable ∈ call.subscribedOn, cable = i
  one : ∀ i j, s.Connected i → s.Connected j → i = j
  ended : ∀ x ∈ s.ended, x.1 = x.2

/-- When a connection is established, the cable that was kept before is disconnected. -/
def OneByOne (s : DesktopWorkflowRunner) : RunnerEvent → Prop
  | .connected _ => ∀ cable ∈ s.cable, ¬ s.Connected cable
  | _ => True

/-! ## What the steps change -/

/-- What holds while no cable is replaced that is connected: it is the one that is kept. -/
def Kept (s : DesktopWorkflowRunner) : Prop := ∀ i, s.Connected i → s.cable = some i

theorem disconnect_ne_connected (state : CableState) : state.disconnect ≠ .connected := by
  cases state <;> decide

theorem getElem?_modifyCall (s : DesktopWorkflowRunner) (call : Nat)
    (f : SubscribeCall → SubscribeCall) (i : Nat) :
    (s.modifyCall call f).calls[i]? = s.calls[i]?.map fun c => if call = i then f c else c :=
  List.getElem?_modify f call s.calls i

/-- Disconnecting changes the state of the cable that is kept, and nothing else. -/
theorem getElem?_disconnectCable (s : DesktopWorkflowRunner) (i : Nat) :
    s.disconnectCable.calls[i]? = s.calls[i]?.map fun call =>
      if s.cable = some i then { call with cableState := call.cableState.disconnect }
      else call := by
  unfold disconnectCable
  split
  · next h => simp [h]
  · next cable h =>
    rw [getElem?_modifyCall]
    simp [h]

@[simp] theorem ended_disconnectCable (s : DesktopWorkflowRunner) :
    s.disconnectCable.ended = s.ended := by
  unfold disconnectCable
  split <;> rfl

theorem connected_disconnectCable {s : DesktopWorkflowRunner} {i : Nat} :
    s.disconnectCable.Connected i ↔ s.Connected i ∧ s.cable ≠ some i := by
  unfold Connected
  rw [getElem?_disconnectCable]
  by_cases h : s.cable = some i
  · simp [h, disconnect_ne_connected]
  · simp [h]

theorem own_disconnectCable {s : DesktopWorkflowRunner}
    (h : ∀ (i : Nat) call, s.calls[i]? = some call → ∀ cable ∈ call.subscribedOn, cable = i) :
    ∀ (i : Nat) call, s.disconnectCable.calls[i]? = some call →
      ∀ cable ∈ call.subscribedOn, cable = i := by
  intro i call hcall cable hcable
  rw [getElem?_disconnectCable] at hcall
  obtain ⟨before, hbefore, rfl⟩ := Option.map_eq_some_iff.mp hcall
  apply h i before hbefore
  split at hcable <;> exact hcable

/-- If only the cable that is kept is connected, none is after it is disconnected. -/
theorem not_connected_disconnectCable {s : DesktopWorkflowRunner}
    (h : ∀ i, s.Connected i → s.cable = some i) (i : Nat) : ¬ s.disconnectCable.Connected i := by
  rw [connected_disconnectCable]
  rintro ⟨hconnected, hne⟩
  exact hne (h i hconnected)

theorem separate_disconnectCable {s : DesktopWorkflowRunner} (h : s.Separate) (hkept : s.Kept) :
    s.disconnectCable.Separate where
  own := own_disconnectCable h.own
  one := fun i _ hi _ => absurd hi (not_connected_disconnectCable hkept i)
  ended := by
    rw [ended_disconnectCable]
    exact h.ended

theorem kept_disconnectCable {s : DesktopWorkflowRunner} (hkept : s.Kept) :
    s.disconnectCable.Kept :=
  fun i hi => absurd hi (not_connected_disconnectCable hkept i)

theorem getElem?_concat_cases {α : Type*} {l : List α} {a b : α} {i : Nat}
    (h : (l ++ [a])[i]? = some b) : l[i]? = some b ∨ b = a := by
  rw [List.getElem?_append] at h
  split at h
  · exact Or.inl h
  · exact Or.inr (List.mem_singleton.mp (List.mem_of_getElem? h))

theorem step_subscribeToUpdates {s t : DesktopWorkflowRunner} {workflowId : String}
    (h : s.Separate) (hkept : s.Kept) (hstep : s.step (.subscribeToUpdates workflowId) = some t) :
    t.Separate ∧ t.Kept := by
  obtain rfl := Option.some.inj hstep
  have hbefore := separate_disconnectCable h hkept
  have hnone : ∀ i, ¬ ({ s.disconnectCable with
      calls := s.disconnectCable.calls ++ [⟨channelWorkflowId workflowId, .connecting, none⟩] } :
        DesktopWorkflowRunner).Connected i := by
    rintro i ⟨call, hcall, hconnected⟩
    rcases getElem?_concat_cases hcall with hold | rfl
    · exact not_connected_disconnectCable hkept i ⟨call, hold, hconnected⟩
    · nomatch hconnected
  refine ⟨⟨?_, ?_, hbefore.ended⟩, ?_⟩
  · intro i call hcall cable hcable
    rcases getElem?_concat_cases hcall with hold | rfl
    · exact hbefore.own i call hold cable hcable
    · nomatch hcable
  · intro i _ hi _
    exact absurd hi (hnone i)
  · intro i hi
    exact absurd hi (hnone i)

theorem own_modifyCall {s : DesktopWorkflowRunner} {call : Nat} {f : SubscribeCall → SubscribeCall}
    (h : ∀ (i : Nat) c, s.calls[i]? = some c → ∀ cable ∈ c.subscribedOn, cable = i)
    (hf : ∀ c ∈ s.calls[call]?, ∀ cable ∈ (f c).subscribedOn, cable = call) :
    ∀ (i : Nat) c, (s.modifyCall call f).calls[i]? = some c →
      ∀ cable ∈ c.subscribedOn, cable = i := by
  intro i c hc cable hcable
  rw [getElem?_modifyCall] at hc
  obtain ⟨before, hbefore, rfl⟩ := Option.map_eq_some_iff.mp hc
  split at hcable
  · next heq =>
    subst heq
    exact hf before hbefore cable hcable
  · exact h i before hbefore cable hcable

theorem connected_modifyCall {s : DesktopWorkflowRunner} {call i : Nat}
    {f : SubscribeCall → SubscribeCall} {before : SubscribeCall}
    (hbefore : s.calls[call]? = some before) :
    (s.modifyCall call f).Connected i ↔
      if call = i then (f before).cableState = .connected else s.Connected i := by
  unfold Connected
  rw [getElem?_modifyCall]
  by_cases h : call = i
  · subst h
    simp [hbefore]
  · simp [h]

/-- A connection is established: there is one more connected cable, and it is the one that is
kept. -/
theorem step_connected {s t : DesktopWorkflowRunner} {call : Nat} (h : s.Separate)
    (hkept : s.Kept) (hstep : s.step (.connected call) = some t) :
    (t.Separate ↔ s.OneByOne (.connected call)) ∧ (s.OneByOne (.connected call) → t.Kept) := by
  obtain ⟨before, hbefore, hrest⟩ := Option.bind_eq_some_iff.mp hstep
  obtain ⟨hconnecting, hrest⟩ := Option.ite_none_right_eq_some.mp hrest
  obtain rfl := Option.some.inj hrest
  have hconnected : ∀ i, (({ s with cable := some call } : DesktopWorkflowRunner).modifyCall call
      fun subscribed => { subscribed with cableState := .connected, subscribedOn := some call }
      ).Connected i ↔ i = call ∨ s.Connected i := by
    intro i
    rw [connected_modifyCall (s := { s with cable := some call }) hbefore]
    by_cases heq : call = i
    · simp [heq]
    · simp only [heq, if_false, Ne.symm heq, false_or]
      rfl
  have hone : s.OneByOne (.connected call) ↔ ∀ i, ¬ s.Connected i := by
    constructor
    · intro hok i hi
      exact hok i (hkept i hi) hi
    · intro hnone cable _
      exact hnone cable
  constructor
  · rw [hone]
    constructor
    · intro hseparate i hi
      obtain rfl : i = call := hseparate.one i call ((hconnected i).mpr (Or.inr hi))
        ((hconnected call).mpr (Or.inl rfl))
      obtain ⟨before', hbefore', hstate⟩ := hi
      rw [Option.some.inj (hbefore.symm.trans hbefore')] at hconnecting
      rw [hconnecting] at hstate
      nomatch hstate
    · intro hnone
      refine ⟨?_, ?_, h.ended⟩
      · apply own_modifyCall h.own
        intro _ _ cable hcable
        exact (Option.some.inj hcable).symm
      · intro i j hi hj
        rw [((hconnected i).mp hi).resolve_right (hnone i),
          ((hconnected j).mp hj).resolve_right (hnone j)]
  · intro hok i hi
    rw [((hconnected i).mp hi).resolve_right (hone.mp hok i)]
    rfl

theorem step_connectFailed {s t : DesktopWorkflowRunner} {call : Nat} (h : s.Separate)
    (hkept : s.Kept) (hstep : s.step (.connectFailed call) = some t) : t.Separate ∧ t.Kept := by
  obtain ⟨before, hbefore, hrest⟩ := Option.bind_eq_some_iff.mp hstep
  obtain ⟨-, hrest⟩ := Option.ite_none_right_eq_some.mp hrest
  obtain rfl := Option.some.inj hrest
  have hconnected : ∀ i, (s.modifyCall call fun failed =>
      { failed with cableState := .failed }).Connected i → s.Connected i := by
    intro i
    rw [connected_modifyCall hbefore]
    split
    · intro hstate
      nomatch hstate
    · exact id
  refine ⟨⟨?_, ?_, h.ended⟩, ?_⟩
  · apply own_modifyCall h.own
    exact h.own call
  · intro i j hi hj
    exact h.one i j (hconnected i hi) (hconnected j hj)
  · intro i hi
    exact hkept i (hconnected i hi)

theorem connectedChannel_of_connected {s : DesktopWorkflowRunner} {i : Nat} {call : SubscribeCall}
    (hcable : s.cable = some i) (hcall : s.calls[i]? = some call)
    (hconnected : call.cableState = .connected) : s.connectedChannel = some call.channel := by
  simp [connectedChannel, hcable, hcall, hconnected]

/-- The cable that a final checkpoint disconnects is the one over which it has come. -/
theorem step_checkpoint {s t : DesktopWorkflowRunner} {i : Nat} {msg : DuoWorkflowEvent}
    (h : s.Separate) (hkept : s.Kept) (hstep : s.step (.checkpoint i msg) = some t) :
    t.Separate ∧ t.Kept := by
  obtain ⟨call, hcall, hrest⟩ := Option.bind_eq_some_iff.mp hstep
  obtain ⟨cable, hcable, hrest⟩ := Option.bind_eq_some_iff.mp hrest
  obtain ⟨hconnected, hrest⟩ := Option.ite_none_right_eq_some.mp hrest
  obtain rfl := Option.some.inj hrest
  obtain rfl : cable = i := h.own i call hcall cable hcable
  obtain ⟨call', hcall', hstate⟩ := hconnected
  obtain rfl : call = call' := Option.some.inj (hcall.symm.trans hcall')
  have hkeeps := hkept cable ⟨call, hcall, hstate⟩
  unfold onCheckpoint
  split
  · have hbefore := separate_disconnectCable h hkept
    rw [connectedChannel_of_connected hkeeps hcall hstate]
    refine ⟨⟨hbefore.own, hbefore.one, ?_⟩, kept_disconnectCable hkept⟩
    intro x hx
    rcases List.mem_append.mp hx with hold | hnew
    · exact h.ended x hold
    · rw [List.mem_singleton.mp hnew]
  · exact ⟨⟨h.own, h.one, h.ended⟩, hkept⟩

/-! ## Runs -/

theorem separate_new : new.Separate := by
  refine ⟨?_, ?_, ?_⟩
  · intro i call hcall
    nomatch hcall
  · rintro i j ⟨call, hcall, -⟩
    nomatch hcall
  · intro x hx
    nomatch hx

theorem kept_new : new.Kept := by
  rintro i ⟨call, hcall, -⟩
  nomatch hcall

theorem separate_step_iff {s t : DesktopWorkflowRunner} {e : RunnerEvent} (h : s.Separate)
    (hkept : s.Kept) (hstep : s.step e = some t) :
    (t.Separate ↔ s.OneByOne e) ∧ (s.OneByOne e → t.Kept) := by
  cases e with
  | subscribeToUpdates workflowId =>
    obtain ⟨hseparate, hkept'⟩ := step_subscribeToUpdates h hkept hstep
    exact ⟨iff_of_true hseparate trivial, fun _ => hkept'⟩
  | connected call => exact step_connected h hkept hstep
  | connectFailed call =>
    obtain ⟨hseparate, hkept'⟩ := step_connectFailed h hkept hstep
    exact ⟨iff_of_true hseparate trivial, fun _ => hkept'⟩
  | checkpoint call msg =>
    obtain ⟨hseparate, hkept'⟩ := step_checkpoint h hkept hstep
    exact ⟨iff_of_true hseparate trivial, fun _ => hkept'⟩
  | disconnectCable =>
    obtain rfl := Option.some.inj hstep
    exact ⟨iff_of_true (separate_disconnectCable h hkept) trivial,
      fun _ => kept_disconnectCable hkept⟩

/-- **When the workflows keep apart.** A call disconnects the cable that is kept when it begins. So
all is well unless another connection has been established by the time its own is. -/
theorem separate_iff_oneByOne {es : List RunnerEvent} {t : DesktopWorkflowRunner}
    (hrun : run step new es = some t) :
    Always step Separate new es ↔ Guarded step OneByOne new es := by
  apply always_iff_guarded _ _ kept_new separate_new hrun
  · intro s e t hkept h hok hstep
    exact (separate_step_iff h hkept hstep).2 hok
  · intro s e t hkept h hstep
    exact (separate_step_iff h hkept hstep).1

def finished : DuoWorkflowEvent where
  checkpoint := ""
  errors := []
  metadata := ""
  workflowGoal := ""
  workflowStatus := .FINISHED

/-- One workflow after the other. -/
def sampleSequence : List RunnerEvent :=
  [.subscribeToUpdates "1", .connected 0, .subscribeToUpdates "2", .connected 1,
    .checkpoint 1 finished]

theorem separate_iff_oneByOne_of_sequence :
    Always step Separate new sampleSequence ↔ Guarded step OneByOne new sampleSequence := by
  obtain ⟨t, ht⟩ : ∃ t, run step new sampleSequence = some t :=
    Option.isSome_iff_exists.mp (by decide +kernel)
  exact separate_iff_oneByOne ht

/-- The second call begins before the first has its cable. -/
def sampleOverlap : List RunnerEvent :=
  [.subscribeToUpdates "1", .subscribeToUpdates "2", .connected 0, .connected 1,
    .checkpoint 0 finished]

/-- Two cables are connected, and the first workflow disconnects that of the second. -/
theorem not_separate_of_overlap :
    ∃ s t, run step new (sampleOverlap.take 4) = some s ∧ run step new sampleOverlap = some t ∧
      s.Connected 0 ∧ s.Connected 1 ∧ t.Connected 0 ∧ ¬ t.Connected 1 ∧
      t.ended = [("gid://gitlab/Ai::DuoWorkflows::Workflow/1",
        "gid://gitlab/Ai::DuoWorkflows::Workflow/2")] ∧
      ¬ s.Separate ∧ ¬ t.Separate := by
  obtain ⟨s, hs⟩ : ∃ s, run step new (sampleOverlap.take 4) = some s :=
    Option.isSome_iff_exists.mp (by decide +kernel)
  obtain ⟨t, ht⟩ : ∃ t, run step new sampleOverlap = some t :=
    Option.isSome_iff_exists.mp (by decide +kernel)
  have hbefore : ∀ s ∈ run step new (sampleOverlap.take 4), s.Connected 0 ∧ s.Connected 1 := by
    decide +kernel
  have hafter : ∀ t ∈ run step new sampleOverlap, t.Connected 0 ∧ ¬ t.Connected 1 ∧
      t.ended = [("gid://gitlab/Ai::DuoWorkflows::Workflow/1",
        "gid://gitlab/Ai::DuoWorkflows::Workflow/2")] := by
    decide +kernel
  obtain ⟨hfirst, hsecond⟩ := hbefore s hs
  obtain ⟨hfirst', hsecond', hended⟩ := hafter t ht
  refine ⟨s, t, hs, ht, hfirst, hsecond, hfirst', hsecond', hended, ?_, ?_⟩
  · intro h
    nomatch h.one 0 1 hfirst hsecond
  · intro h
    have heq := h.ended _ (hended ▸ List.mem_cons_self)
    revert heq
    decide +kernel

end DesktopWorkflowRunner
end KhulnasoftLsp.DuoWorkflow
