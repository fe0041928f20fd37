import Mathlib.Logic.Function.Basic

/-!
# The Snowplow service

The service hands each event to an emitter, which queues it. A queue is drained when it is full, by
the emitter's timer and when the emitter is stopped; only then does the service ask whether
telemetry is enabled. A new endpoint gets an emitter of its own. Two reconfigurations that overlap
stop the same emitter twice, so that the one of the first is left running.

`onlyPosts_track_iff` and its siblings say of each operation when it posts nothing but events of
a given kind.
-/

namespace KhulnasoftLsp.Tracking

variable {ε : Type}

inductive EmitterState where
  | started
  | stopping
  | stopped
  deriving DecidableEq, Repr

structure Emitter (ε : Type) where
  trackingQueue : List ε
  maxItems : Nat
  currentState : EmitterState
  /-- A timeout is armed. -/
  timeout : Bool
  /-- The callback of the timeout waits for what it has drained. -/
  draining : Bool

namespace Emitter

def new (maxItems : Nat) : Emitter ε := ⟨[], maxItems, .stopped, false, false⟩

def start (e : Emitter ε) : Emitter ε := { e with timeout := true, currentState := .started }

/-- What is drained goes to the callback. -/
def drainQueue (e : Emitter ε) : Option (List ε) × Emitter ε :=
  if 0 < e.trackingQueue.length then (some e.trackingQueue, { e with trackingQueue := [] })
  else (none, e)

def add (data : ε) (e : Emitter ε) : Option (List ε) × Emitter ε :=
  let e := { e with trackingQueue := e.trackingQueue ++ [data] }
  if e.maxItems ≤ e.trackingQueue.length then e.drainQueue else (none, e)

def stop (e : Emitter ε) : Option (List ε) × Emitter ε :=
  ({ e with currentState := .stopping, timeout := false } : Emitter ε).drainQueue

/-- The callback of the timeout drains the queue. -/
def timedOut (e : Emitter ε) : Option (List ε) × Emitter ε :=
  ({ e with timeout := false, draining := true } : Emitter ε).drainQueue

/-- It goes on. -/
def drained (e : Emitter ε) : Emitter ε :=
  let e := { e with draining := false }
  if e.currentState ≠ .stopping then e.start else e

end Emitter

/-- A request to the endpoint. -/
structure Post (ε : Type) where
  endpoint : String
  events : List ε
  /-- What `enabled()` returned. -/
  enabled : Bool

structure SnowplowService (ε : Type) where
  endpoint : String
  disabled : Bool
  /-- All emitters there have been. -/
  emitters : Nat → Emitter ε
  /-- `#emitter` -/
  emitter : Nat
  /-- The endpoints of the reconfigurations that wait for an emitter to stop. -/
  reconfiguring : List String
  unanswered : Nat
  posts : List (Post ε)

/-- What happens to the service by itself. -/
inductive ServiceAction where
  | timeout (emitter : Nat)
  | drained (emitter : Nat)
  /-- The emitter of a reconfiguration has stopped. -/
  | stopped (reconfiguration : Nat)
  | stop
  /-- A request is answered, or the host cannot be resolved. -/
  | answered (notFound : Bool)
  deriving DecidableEq, Repr

namespace SnowplowService

def DEFAULT_TRACKING_ENDPOINT : String := "https://snowplowprd.trx.gitlab.net"

/-- `maxItems` of `DEFAULT_SNOWPLOW_OPTIONS` -/
def maxItems : Nat := 10

def configure (endpoint : String) (s : SnowplowService ε) : SnowplowService ε :=
  { s with
    endpoint
    emitter := s.emitter + 1
    emitters := Function.update s.emitters (s.emitter + 1) (Emitter.new maxItems).start }

def new : SnowplowService ε :=
  configure DEFAULT_TRACKING_ENDPOINT
    { endpoint := ""
      disabled := false
      emitters := fun _ => Emitter.new maxItems
      emitter := 0
      reconfiguring := []
      unanswered := 0
      posts := [] }

def sendEvent (enabled : Bool) (events : List ε) (s : SnowplowService ε) : SnowplowService ε :=
  if !enabled || s.disabled then s
  else
    { s with
      unanswered := s.unanswered + 1
      posts := s.posts ++ [⟨s.endpoint, events, enabled⟩] }

/-- An emitter has changed, and may have called back. -/
def emit (enabled : Bool) (emitter : Nat) (emitted : Option (List ε) × Emitter ε)
    (s : SnowplowService ε) : SnowplowService ε :=
  let s := { s with emitters := Function.update s.emitters emitter emitted.2 }
  match emitted.1 with
  | some events => s.sendEvent enabled events
  | none => s

def trackStructuredEvent (enabled : Bool) (event : ε) (s : SnowplowService ε) :
    SnowplowService ε :=
  s.emit enabled s.emitter ((s.emitters s.emitter).add event)

/-- Several events, one after the other. -/
def trackAll (enabled : Bool) (events : List ε) (s : SnowplowService ε) : SnowplowService ε :=
  events.foldl (fun s event => s.trackStructuredEvent enabled event) s

def stop (enabled : Bool) (s : SnowplowService ε) : SnowplowService ε :=
  s.emit enabled s.emitter (s.emitters s.emitter).stop

/-- All options but the endpoint stay as they are. -/
def reconfigure (enabled : Bool) (endpoint : String) (s : SnowplowService ε) :
    SnowplowService ε :=
  if endpoint ≠ s.endpoint then
    ({ s with reconfiguring := s.reconfiguring ++ [endpoint] } : SnowplowService ε).stop enabled
  else s

def step (enabled : Bool) (s : SnowplowService ε) : ServiceAction → Option (SnowplowService ε)
  | .timeout i =>
    if (s.emitters i).timeout then some (s.emit enabled i (s.emitters i).timedOut) else none
  | .drained i =>
    if (s.emitters i).draining then
      some { s with emitters := Function.update s.emitters i (s.emitters i).drained }
    else none
  | .stopped n =>
    s.reconfiguring[n]?.map fun endpoint =>
      ({ s with reconfiguring := s.reconfiguring.eraseIdx n } : SnowplowService ε).configure
        endpoint
  | .stop => some (s.stop enabled)
  | .answered notFound =>
    if 0 < s.unanswered then
      some { s with
        unanswered := s.unanswered - 1
        disabled := s.disabled || notFound }
    else none

def queue (s : SnowplowService ε) (emitter : Nat) : List ε := (s.emitters emitter).trackingQueue

/-- The queue is full when so many events more have been tracked. -/
def Fills (s : SnowplowService ε) (events : Nat) : Prop :=
  0 < events ∧ (s.emitters s.emitter).maxItems ≤ (s.queue s.emitter).length + events

/-- The queue that is drained by what happens to the service. -/
def drains (s : SnowplowService ε) : ServiceAction → Option Nat
  | .timeout emitter => some emitter
  | .stop => some s.emitter
  | _ => none

/-- What is drained is posted. -/
def Sends (s : SnowplowService ε) (enabled : Bool) : Prop := enabled = true ∧ s.disabled = false

/-- Only events of a kind are posted, and only while telemetry is enabled. -/
def OnlyPosts (ok : ε → Prop) (s : SnowplowService ε) : Prop :=
  ∀ post ∈ s.posts, post.enabled = true ∧ ∀ event ∈ post.events, ok event

/-- All events that are queued are of a kind. -/
def OnlyQueues (ok : ε → Prop) (s : SnowplowService ε) : Prop :=
  ∀ emitter, ∀ event ∈ s.queue emitter, ok event

end SnowplowService

/-! ## What an emitter drains -/

namespace Emitter

variable {e : Emitter ε}

theorem drainQueue_queue : e.drainQueue.2.trackingQueue = [] := by
  rw [drainQueue]
  split
  · rfl
  · next hempty =>
    rw [Nat.pos_iff_ne_zero, ne_eq, not_not, List.length_eq_zero_iff] at hempty
    exact hempty

theorem drainQueue_maxItems : e.drainQueue.2.maxItems = e.maxItems := by
  rw [drainQueue]
  split <;> rfl

theorem drained_queue : e.drained.trackingQueue = e.trackingQueue := by
  rw [drained]
  dsimp only
  split <;> rfl

theorem mem_drainQueue {event : ε} :
    (∃ events, e.drainQueue.1 = some events ∧ event ∈ events) ↔ event ∈ e.trackingQueue := by
  rw [drainQueue]
  split
  · simp
  · next hempty =>
    rw [Nat.pos_iff_ne_zero, ne_eq, not_not, List.length_eq_zero_iff] at hempty
    simp [hempty]

theorem add_of_full {data : ε} (h : e.maxItems ≤ e.trackingQueue.length + 1) :
    e.add data = { e with trackingQueue := e.trackingQueue ++ [data] }.drainQueue := by
  rw [add]
  apply if_pos
  rw [List.length_append, List.length_singleton]
  exact h

theorem add_of_not_full {data : ε} (h : ¬ e.maxItems ≤ e.trackingQueue.length + 1) :
    e.add data = (none, { e with trackingQueue := e.trackingQueue ++ [data] }) := by
  rw [add]
  apply if_neg
  rw [List.length_append, List.length_singleton]
  exact h

end Emitter

/-! ## What the service posts -/

namespace SnowplowService

variable {s t : SnowplowService ε} {ok : ε → Prop} {enabled : Bool} {emitter : Nat}
  {emitted : Option (List ε) × Emitter ε}

theorem onlyPosts_sendEvent_iff {events : List ε} :
    (s.sendEvent enabled events).OnlyPosts ok ↔
      s.OnlyPosts ok ∧ (s.Sends enabled → ∀ event ∈ events, ok event) := by
  rw [sendEvent]
  split
  · next hdropped =>
    have hsends : ¬ s.Sends enabled := by
      intro hsends
      simp [hsends.1, hsends.2] at hdropped
    simp [hsends]
  · next hposted =>
    have hsends : s.Sends enabled := by simpa [Sends] using hposted
    rw [imp_iff_right hsends]
    simp [OnlyPosts, or_imp, forall_and, hsends.1, and_assoc]

theorem onlyPosts_emit_iff : (s.emit enabled emitter emitted).OnlyPosts ok ↔
    s.OnlyPosts ok ∧ (s.Sends enabled →
      ∀ event, (∃ events, emitted.1 = some events ∧ event ∈ events) → ok event) := by
  rw [emit]
  cases hevents : emitted.1 with
  | none =>
    show s.OnlyPosts ok ↔ _
    simp
  | some events =>
    show (SnowplowService.sendEvent _ _ _).OnlyPosts ok ↔ _
    rw [onlyPosts_sendEvent_iff]
    show s.OnlyPosts ok ∧ (s.Sends enabled → _) ↔ _
    simp

theorem sendEvent_eq (events : List ε) : ∃ unanswered posts,
    s.sendEvent enabled events = { s with unanswered, posts } := by
  rw [sendEvent]
  split
  · exact ⟨_, _, rfl⟩
  · exact ⟨_, _, rfl⟩

/-- Only the emitter has changed. -/
theorem emit_eq (s : SnowplowService ε) (enabled : Bool) (emitter : Nat)
    (emitted : Option (List ε) × Emitter ε) :
    ∃ unanswered posts, s.emit enabled emitter emitted =
    { s with
      emitters := Function.update s.emitters emitter emitted.2
      unanswered
      posts } := by
  rw [emit]
  cases emitted.1 with
  | none => exact ⟨_, _, rfl⟩
  | some events => exact sendEvent_eq events

theorem emitters_emit : (s.emit enabled emitter emitted).emitters =
    Function.update s.emitters emitter emitted.2 := by
  obtain ⟨unanswered, posts, heq⟩ := s.emit_eq enabled emitter emitted
  rw [heq]

theorem disabled_emit : (s.emit enabled emitter emitted).disabled = s.disabled := by
  obtain ⟨unanswered, posts, heq⟩ := s.emit_eq enabled emitter emitted
  rw [heq]

theorem emitter_emit {i : Nat} : (s.emit enabled i emitted).emitter = s.emitter := by
  obtain ⟨unanswered, posts, heq⟩ := s.emit_eq enabled i emitted
  rw [heq]

theorem reconfiguring_emit :
    (s.emit enabled emitter emitted).reconfiguring = s.reconfiguring := by
  obtain ⟨unanswered, posts, heq⟩ := s.emit_eq enabled emitter emitted
  rw [heq]

theorem sends_emit : (s.emit enabled emitter emitted).Sends enabled ↔ s.Sends enabled := by
  rw [Sends, Sends, disabled_emit]

theorem onlyQueues_emit (h : s.OnlyQueues ok)
    (hemitted : ∀ event ∈ emitted.2.trackingQueue, ok event) :
    (s.emit enabled emitter emitted).OnlyQueues ok := by
  intro i event hevent
  rw [queue, emitters_emit, Function.update_apply] at hevent
  split at hevent
  · exact hemitted event hevent
  · exact h i event hevent

/-! ### Tracking -/

theorem onlyPosts_trackStructuredEvent_iff {event : ε} (hevent : enabled = true → ok event) :
    (s.trackStructuredEvent enabled event).OnlyPosts ok ↔
      s.OnlyPosts ok ∧ (s.Sends enabled → s.Fills 1 → ∀ e ∈ s.queue s.emitter, ok e) := by
  rw [trackStructuredEvent, onlyPosts_emit_iff]
  apply and_congr_right
  intro _
  apply imp_congr_right
  intro hsends
  by_cases hfull : (s.emitters s.emitter).maxItems ≤ (s.queue s.emitter).length + 1
  · have hfills : s.Fills 1 := ⟨Nat.one_pos, hfull⟩
    rw [Emitter.add_of_full hfull, imp_iff_right hfills]
    simp only [Emitter.mem_drainQueue, List.mem_append, List.mem_singleton, or_imp, forall_and,
      forall_eq]
    exact and_iff_left (hevent hsends.1)
  · rw [Emitter.add_of_not_full hfull]
    simp [Fills, hfull]

theorem queue_trackStructuredEvent_of_fills {event : ε} (h : s.Fills 1) :
    (s.trackStructuredEvent enabled event).queue s.emitter = [] := by
  rw [queue, trackStructuredEvent, emitters_emit, Function.update_self, Emitter.add_of_full h.2]
  exact Emitter.drainQueue_queue

theorem queue_trackStructuredEvent_of_not_fills {event : ε} (h : ¬ s.Fills 1) :
    (s.trackStructuredEvent enabled event).queue s.emitter = s.queue s.emitter ++ [event] := by
  have hfull : ¬ (s.emitters s.emitter).maxItems ≤ (s.queue s.emitter).length + 1 :=
    fun hfull => h ⟨Nat.one_pos, hfull⟩
  rw [queue, trackStructuredEvent, emitters_emit, Function.update_self,
    Emitter.add_of_not_full hfull]
  rfl

theorem maxItems_trackStructuredEvent {event : ε} :
    ((s.trackStructuredEvent enabled event).emitters s.emitter).maxItems =
      (s.emitters s.emitter).maxItems := by
  rw [trackStructuredEvent, emitters_emit, Function.update_self, Emitter.add]
  split
  · exact Emitter.drainQueue_maxItems
  · rfl

theorem onlyQueues_trackStructuredEvent {event : ε} (h : s.OnlyQueues ok) (hevent : ok event) :
    (s.trackStructuredEvent enabled event).OnlyQueues ok := by
  apply onlyQueues_emit h
  intro e he
  rw [Emitter.add] at he
  split at he
  · rw [Emitter.drainQueue_queue] at he
    cases he
  · rcases List.mem_append.mp he with hqueued | hnew
    · exact h s.emitter e hqueued
    · rw [List.mem_singleton.mp hnew]
      exact hevent

theorem onlyPosts_trackAll_iff {events : List ε}
    (hevents : enabled = true → ∀ event ∈ events, ok event) :
    (s.trackAll enabled events).OnlyPosts ok ↔ s.OnlyPosts ok ∧
      (s.Sends enabled → s.Fills events.length → ∀ e ∈ s.queue s.emitter, ok e) := by
  induction events generalizing s with
  | nil => simp [trackAll, Fills]
  | cons event events ih =>
    have hevent : enabled = true → ok event := fun h => hevents h event List.mem_cons_self
    have hrest : enabled = true → ∀ e ∈ events, ok e :=
      fun h e he => hevents h e (List.mem_cons_of_mem event he)
    have hemitter : (s.trackStructuredEvent enabled event).emitter = s.emitter := emitter_emit
    have hsends : (s.trackStructuredEvent enabled event).Sends enabled ↔ s.Sends enabled :=
      sends_emit
    show (SnowplowService.trackAll enabled events _).OnlyPosts ok ↔ _
    rw [ih hrest, onlyPosts_trackStructuredEvent_iff hevent, hsends, hemitter, and_assoc]
    apply and_congr_right
    intro _
    rw [← imp_and]
    apply imp_congr_right
    intro hsends
    by_cases hfills : s.Fills 1
    · -- the queue has just been drained
      have hall : s.Fills (event :: events).length := by
        refine ⟨Nat.succ_pos _, ?_⟩
        have hfull := hfills.2
        rw [List.length_cons]
        omega
      rw [queue_trackStructuredEvent_of_fills hfills, imp_iff_right hfills, imp_iff_right hall]
      simp
    · have hrestFills : (s.trackStructuredEvent enabled event).Fills events.length ↔
          s.Fills (event :: events).length := by
        rw [Fills, Fills, hemitter, maxItems_trackStructuredEvent,
          queue_trackStructuredEvent_of_not_fills hfills, List.length_append, List.length_cons]
        rw [Fills] at hfills
        simp only [List.length_cons, List.length_nil]
        omega
      rw [hrestFills, queue_trackStructuredEvent_of_not_fills hfills]
      have hnew := hevent hsends.1
      simp [hfills, or_imp, forall_and, hnew]

theorem onlyQueues_trackAll {events : List ε} (h : s.OnlyQueues ok)
    (hevents : ∀ event ∈ events, ok event) : (s.trackAll enabled events).OnlyQueues ok := by
  induction events generalizing s with
  | nil => exact h
  | cons event events ih =>
    apply ih
    · exact onlyQueues_trackStructuredEvent h (hevents event List.mem_cons_self)
    · exact fun e he => hevents e (List.mem_cons_of_mem event he)

/-! ### Draining -/

theorem onlyPosts_stop_iff : (s.stop enabled).OnlyPosts ok ↔
    s.OnlyPosts ok ∧ (s.Sends enabled → ∀ e ∈ s.queue s.emitter, ok e) := by
  rw [stop, onlyPosts_emit_iff]
  simp only [Emitter.stop, Emitter.mem_drainQueue]
  rfl

theorem onlyQueues_stop (h : s.OnlyQueues ok) : (s.stop enabled).OnlyQueues ok := by
  apply onlyQueues_emit h
  rw [Emitter.stop, Emitter.drainQueue_queue]
  apply List.forall_mem_nil

theorem onlyPosts_reconfigure_iff {endpoint : String} :
    (s.reconfigure enabled endpoint).OnlyPosts ok ↔ s.OnlyPosts ok ∧
      (endpoint ≠ s.endpoint → s.Sends enabled → ∀ e ∈ s.queue s.emitter, ok e) := by
  rw [reconfigure]
  split
  · next hnew =>
    rw [onlyPosts_stop_iff, imp_iff_right hnew]
    rfl
  · next hsame => simp [hsame]

theorem onlyQueues_reconfigure {endpoint : String} (h : s.OnlyQueues ok) :
    (s.reconfigure enabled endpoint).OnlyQueues ok := by
  rw [reconfigure]
  split
  · exact onlyQueues_stop h
  · exact h

theorem onlyQueues_configure {endpoint : String} (h : s.OnlyQueues ok) :
    (s.configure endpoint).OnlyQueues ok := by
  intro i event hevent
  rw [queue, configure] at hevent
  dsimp only at hevent
  rw [Function.update_apply] at hevent
  split at hevent
  · cases hevent
  · exact h i event hevent

theorem onlyPosts_step_iff {a : ServiceAction} (h : s.step enabled a = some t) :
    t.OnlyPosts ok ↔ s.OnlyPosts ok ∧
      (s.Sends enabled → ∀ i, s.drains a = some i → ∀ e ∈ s.queue i, ok e) := by
  cases a with
  | timeout i =>
    obtain ⟨-, heq⟩ := Option.ite_none_right_eq_some.mp h
    cases heq
    rw [onlyPosts_emit_iff]
    simp only [Emitter.timedOut, Emitter.mem_drainQueue, drains, Option.some.injEq, forall_eq']
    rfl
  | drained i =>
    obtain ⟨-, heq⟩ := Option.ite_none_right_eq_some.mp h
    cases heq
    show s.OnlyPosts ok ↔ _
    simp [drains]
  | stopped n =>
    obtain ⟨endpoint, -, rfl⟩ := Option.map_eq_some_iff.mp h
    show s.OnlyPosts ok ↔ _
    simp [drains]
  | stop =>
    cases h
    rw [onlyPosts_stop_iff]
    simp [drains]
  | answered notFound =>
    obtain ⟨-, heq⟩ := Option.ite_none_right_eq_some.mp h
    cases heq
    show s.OnlyPosts ok ↔ _
    simp [drains]

theorem onlyQueues_step {a : ServiceAction} (h : s.step enabled a = some t)
    (hs : s.OnlyQueues ok) : t.OnlyQueues ok := by
  cases a with
  | timeout i =>
    obtain ⟨-, heq⟩ := Option.ite_none_right_eq_some.mp h
    cases heq
    apply onlyQueues_emit hs
    rw [Emitter.timedOut, Emitter.drainQueue_queue]
    apply List.forall_mem_nil
  | drained i =>
    obtain ⟨-, heq⟩ := Option.ite_none_right_eq_some.mp h
    cases heq
    intro j event hevent
    rw [queue] at hevent
    dsimp only at hevent
    rw [Function.update_apply] at hevent
    split at hevent
    · exact hs i event (by rwa [Emitter.drained_queue] at hevent)
    · exact hs j event hevent
  | stopped n =>
    obtain ⟨endpoint, -, rfl⟩ := Option.map_eq_some_iff.mp h
    exact onlyQueues_configure hs
  | stop =>
    cases h
    exact onlyQueues_stop hs
  | answered notFound =>
    obtain ⟨-, heq⟩ := Option.ite_none_right_eq_some.mp h
    cases heq
    exact hs

end SnowplowService
end KhulnasoftLsp.Tracking
