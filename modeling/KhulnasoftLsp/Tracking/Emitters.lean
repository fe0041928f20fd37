import KhulnasoftLsp.Tracking.SnowplowService
import KhulnasoftLsp.Transition
import Mathlib.Data.List.Nodup

/-!
# Where a tracked event is

Every event that the tracker is handed waits in the queue of an emitter until that is drained. What
a flush will find is not lost: `Placed` says that each event is in one queue or has been passed on,
in every run. Whether a flush will come is another matter. A reconfiguration stops the emitter, and
takes the tracker away from it only once that has drained its queue, so that what is tracked in
between stays behind; and of two that overlap, the second does not stop the emitter of the first.
`events_accounted_iff` has these two slips as the only ones.
-/

namespace KhulnasoftLsp.Tracking

open Transition

/-- The service, and what it has been handed: the event `k` is the `k`-th. -/
structure SnowplowRun where
  service : SnowplowService Nat
  handed : Nat
  /-- What `#sendEvent` has been called with. -/
  passed : List Nat
  /-- The emitters that the reconfigurations wait for. -/
  stopping : List Nat

inductive SnowplowAction where
  | trackStructuredEvent (enabled : Bool)
  | configChange (enabled : Bool) (trackingUrl : Option String)
  | timeout (enabled : Bool) (emitter : Nat)
  | drained (emitter : Nat)
  | stopped (reconfiguration : Nat)
  | answered (notFound : Bool)
  deriving DecidableEq, Repr

namespace SnowplowRun

def init (trackingUrl : String) : SnowplowRun where
  service := { (SnowplowService.new : SnowplowService Nat) with endpoint := trackingUrl }
  handed := 0
  passed := []
  stopping := []

def emitters (s : SnowplowRun) : Nat → Emitter Nat := s.service.emitters

def queue (s : SnowplowRun) : Nat → List Nat := s.service.queue

def trackStructuredEvent (enabled : Bool) (s : SnowplowRun) : SnowplowRun :=
  { s with
    service := s.service.trackStructuredEvent enabled s.handed
    handed := s.handed + 1
    passed := s.passed ++ ((s.emitters s.service.emitter).add s.handed).1.getD [] }

def reconfigure (enabled : Bool) (endpoint : String) (s : SnowplowRun) : SnowplowRun :=
  if endpoint ≠ s.service.endpoint then
    { s with
      service := s.service.reconfigure enabled endpoint
      passed := s.passed ++ (s.emitters s.service.emitter).stop.1.getD []
      stopping := s.stopping ++ [s.service.emitter] }
  else s

def step (s : SnowplowRun) : SnowplowAction → Option SnowplowRun
  | .trackStructuredEvent enabled => some (s.trackStructuredEvent enabled)
  | .configChange enabled trackingUrl =>
    match trackingUrl with
    | some url => if url ≠ "" then some (s.reconfigure enabled url) else some s
    | none => some s
  | .timeout enabled i =>
    (s.service.step enabled (.timeout i)).map fun service =>
      { s with service, passed := s.passed ++ (s.emitters i).timedOut.1.getD [] }
  | .drained i =>
    (s.service.step true (.drained i)).map fun service => { s with service }
  | .stopped n =>
    (s.service.step true (.stopped n)).map fun service =>
      { s with service, stopping := s.stopping.eraseIdx n }
  | .answered notFound =>
    (s.service.step true (.answered notFound)).map fun service => { s with service }

/-- A flush of the queue is pending, or waits for what it has drained. -/
def Flushing (s : SnowplowRun) (i : Nat) : Prop :=
  (s.emitters i).timeout = true ∨ (s.emitters i).draining = true ∨ i ∈ s.stopping

/-- No reconfiguration waits for the emitter any longer. -/
def Stopped (s : SnowplowRun) (i : Nat) : Prop :=
  (s.emitters i).currentState ≠ .started ∧ i ∉ s.stopping

structure Accounted (s : SnowplowRun) : Prop where
  events : ∀ k < s.handed,
    (s.passed.count k = 1 ∧ ∀ i, k ∉ s.queue i) ∨
      (k ∉ s.passed ∧ ∃ i, k ∈ s.queue i ∧ s.Flushing i)
  stopped : ∀ i, s.Stopped i → s.queue i = []
  timer : ∀ i j, (s.emitters i).timeout = true → (s.emitters j).timeout = true → i = j

/-- A timer is armed only when there is no other, and the last reconfiguration that waits for an
emitter finds nothing in its queue. -/
def Keeps (s : SnowplowRun) : SnowplowAction → Prop
  | .drained i => (s.emitters i).currentState ≠ .stopping →
      ∀ j, j ≠ i → (s.emitters j).timeout = false
  | .stopped n => (∀ i, (s.emitters i).timeout = false) ∧
      ∀ e ∈ s.stopping[n]?, e ∉ s.stopping.eraseIdx n → s.queue e = []
  | _ => True

end SnowplowRun

/-! ## Things that move between places -/

/-- The first `n` numbers are in the places, each of them in one place and there once. -/
structure Placed {ι : Type} (n : Nat) (held : ι → List Nat) : Prop where
  nodup : ∀ i, (held i).Nodup
  alone : ∀ {k i j}, k ∈ held i → k ∈ held j → i = j
  lt_iff : ∀ k, k < n ↔ ∃ i, k ∈ held i

namespace Placed

variable {ι : Type} {n : Nat} {held held' : ι → List Nat}

theorem empty (h : ∀ i, held i = []) : Placed 0 held where
  nodup := by
    intro i
    rw [h i]
    exact List.nodup_nil
  alone := by
    intro k i j hi
    rw [h i] at hi
    cases hi
  lt_iff := by
    intro k
    simp [h]

/-- The next number is put in a place. -/
theorem put (h : Placed n held) (i : ι) (hi : held' i = held i ++ [n])
    (hother : ∀ j, j ≠ i → held' j = held j) : Placed (n + 1) held' := by
  have hnew : ∀ j, n ∉ held j := by
    intro j hj
    exact Nat.lt_irrefl n ((h.lt_iff n).mpr ⟨j, hj⟩)
  have hmem : ∀ k j, k ∈ held' j ↔ k ∈ held j ∨ (j = i ∧ k = n) := by
    intro k j
    by_cases hj : j = i
    · subst hj
      simp [hi]
    · simp [hother j hj, hj]
  refine ⟨?_, ?_, ?_⟩
  · intro j
    by_cases hj : j = i
    · subst hj
      rw [hi]
      exact (h.nodup j).append (List.nodup_singleton n)
        (List.disjoint_singleton.mpr (hnew j))
    · rw [hother j hj]
      exact h.nodup j
  · intro k j j' hj hj'
    rcases (hmem k j).mp hj with hj | ⟨hji, hk⟩
    · rcases (hmem k j').mp hj' with hj' | ⟨-, rfl⟩
      · exact h.alone hj hj'
      · exact absurd hj (hnew j)
    · rcases (hmem k j').mp hj' with hj' | ⟨hj'i, -⟩
      · rw [hk] at hj'
        exact absurd hj' (hnew j')
      · rw [hji, hj'i]
  · intro k
    simp only [hmem, exists_or, ← h.lt_iff, exists_eq_left]
    exact Nat.lt_succ_iff_lt_or_eq

/-- All that is in a place is moved to another. -/
theorem move (h : Placed n held) (i j : ι) (hij : i ≠ j) (hi : held' i = [])
    (hj : held' j = held j ++ held i) (hother : ∀ k, k ≠ i → k ≠ j → held' k = held k) :
    Placed n held' := by
  have hmem : ∀ k l, k ∈ held' l ↔ (l ≠ i ∧ k ∈ held l) ∨ (l = j ∧ k ∈ held i) := by
    intro k l
    by_cases hli : l = i
    · subst hli
      simp [hi, hij]
    · by_cases hlj : l = j
      · subst hlj
        simp [hj, hli]
      · simp [hother l hli hlj, hli, hlj]
  refine ⟨?_, ?_, ?_⟩
  · intro l
    by_cases hli : l = i
    · subst hli
      rw [hi]
      exact List.nodup_nil
    · by_cases hlj : l = j
      · subst hlj
        rw [hj]
        apply (h.nodup l).append (h.nodup i)
        intro k hl hi
        exact hli (h.alone hl hi)
      · rw [hother l hli hlj]
        exact h.nodup l
  · intro k l l' hl hl'
    rcases (hmem k l).mp hl with ⟨hli, hl⟩ | ⟨rfl, hl⟩
    · rcases (hmem k l').mp hl' with ⟨-, hl'⟩ | ⟨-, hl'⟩
      · exact h.alone hl hl'
      · exact absurd (h.alone hl hl') hli
    · rcases (hmem k l').mp hl' with ⟨hli', hl'⟩ | ⟨rfl, -⟩
      · exact absurd (h.alone hl' hl) hli'
      · rfl
  · intro k
    rw [h.lt_iff]
    simp only [hmem]
    constructor
    · rintro ⟨l, hl⟩
      by_cases hli : l = i
      · subst hli
        exact ⟨j, .inr ⟨rfl, hl⟩⟩
      · exact ⟨l, .inl ⟨hli, hl⟩⟩
    · rintro ⟨l, ⟨-, hl⟩ | ⟨-, hl⟩⟩
      · exact ⟨l, hl⟩
      · exact ⟨i, hl⟩

end Placed

/-! ## One emitter -/

namespace Emitter

variable {ε : Type} {e : Emitter ε}

/-- What holds of an emitter whatever is done to it. -/
structure Sound (e : Emitter ε) : Prop where
  armed : e.timeout = true → e.currentState = .started
  started : e.currentState = .started → e.timeout = true ∨ e.draining = true
  unused : e.currentState = .stopped → e.trackingQueue = [] ∧ e.draining = false

theorem drainQueue_snd : e.drainQueue.2 = { e with trackingQueue := [] } := by
  rw [drainQueue]
  split
  · rfl
  · next hempty =>
    have hqueue : e.trackingQueue = [] := by
      rw [Nat.pos_iff_ne_zero, ne_eq, not_not, List.length_eq_zero_iff] at hempty
      exact hempty
    rw [← hqueue]

theorem drainQueue_fst : e.drainQueue.1.getD [] = e.trackingQueue := by
  rw [drainQueue]
  split
  · rfl
  · next hempty =>
    rw [Nat.pos_iff_ne_zero, ne_eq, not_not, List.length_eq_zero_iff] at hempty
    exact hempty.symm

/-- Only the queue of the emitter changes. -/
theorem add_snd (data : ε) (e : Emitter ε) :
    ∃ queue, (e.add data).2 = { e with trackingQueue := queue } := by
  rw [add]
  dsimp only
  split
  · exact ⟨[], drainQueue_snd⟩
  · exact ⟨_, rfl⟩

theorem sound_stop : e.stop.2.Sound := by
  rw [stop, drainQueue_snd]
  refine ⟨?_, ?_, ?_⟩
  · intro harmed
    cases harmed
  · intro hstarted
    cases hstarted
  · intro hstopped
    cases hstopped

theorem Sound.add {data : ε} (h : e.Sound) (hstate : e.currentState ≠ .stopped) :
    (e.add data).2.Sound := by
  obtain ⟨queue, hadd⟩ := e.add_snd data
  rw [hadd]
  exact ⟨h.armed, h.started, fun hstopped => absurd hstopped hstate⟩

theorem Sound.timedOut (h : e.Sound) (htimeout : e.timeout = true) : e.timedOut.2.Sound := by
  have hstate : e.currentState = .started := h.armed htimeout
  rw [Emitter.timedOut, drainQueue_snd]
  refine ⟨?_, fun _ => .inr rfl, ?_⟩
  · intro harmed
    cases harmed
  · intro hstopped
    cases hstate.symm.trans hstopped

/-- A queue is drained by the timer of an emitter that has been started. -/
theorem Sound.state_of_draining (h : e.Sound) (hdraining : e.draining = true) :
    e.currentState = .started ∨ e.currentState = .stopping := by
  cases hstate : e.currentState with
  | started => exact .inl rfl
  | stopping => exact .inr rfl
  | stopped =>
    rw [(h.unused hstate).2] at hdraining
    cases hdraining

theorem drained_of_stopping (h : e.currentState = .stopping) :
    e.drained = { e with draining := false } := by
  rw [drained]
  exact if_neg (not_not.mpr h)

theorem drained_of_started (h : e.currentState = .started) :
    e.drained = { e with draining := false, timeout := true } := by
  have hstate : e.currentState ≠ .stopping := by
    intro hstopping
    cases h.symm.trans hstopping
  rw [drained]
  show (if e.currentState ≠ .stopping then _ else _) = _
  rw [if_pos hstate, start, ← h]

theorem Sound.drained (h : e.Sound) (hdraining : e.draining = true) :
    e.drained.Sound ∧ e.drained.currentState = e.currentState := by
  rcases h.state_of_draining hdraining with hstate | hstate
  · rw [drained_of_started hstate]
    refine ⟨⟨fun _ => hstate, fun _ => .inl rfl, ?_⟩, rfl⟩
    intro hstopped
    cases hstate.symm.trans hstopped
  · rw [drained_of_stopping hstate]
    refine ⟨⟨h.armed, ?_, ?_⟩, rfl⟩
    · intro hstarted
      cases hstate.symm.trans hstarted
    · intro hstopped
      cases hstate.symm.trans hstopped

end Emitter

/-! ## All emitters -/

namespace SnowplowRun

variable {s t : SnowplowRun}

/-- Where the events are: they have been passed on, or an emitter has them. -/
def held (s : SnowplowRun) : Option Nat → List Nat
  | none => s.passed
  | some i => s.queue i

/-- The invariant of all runs. The emitters that come after the last have not been made yet. -/
structure Wired (s : SnowplowRun) : Prop where
  placed : Placed s.handed s.held
  parallel : s.stopping.length = s.service.reconfiguring.length
  sound : ∀ i, (s.emitters i).Sound
  made : ∀ i, s.service.emitter < i → (s.emitters i).currentState = .stopped
  tracks : (s.emitters s.service.emitter).currentState ≠ .stopped
  swapped : (s.emitters s.service.emitter).currentState = .stopping →
    s.service.emitter ∈ s.stopping
  stopping : ∀ i ∈ s.stopping, (s.emitters i).currentState = .stopping

theorem init_wired (trackingUrl : String) : (init trackingUrl).Wired := by
  have hemitters : (init trackingUrl).emitters =
      Function.update (fun _ => Emitter.new 10) 1 (Emitter.new 10).start := rfl
  have hother : ∀ i, i ≠ 1 → (init trackingUrl).emitters i = Emitter.new 10 := by
    intro i hi
    rw [hemitters, Function.update_of_ne hi]
  have hqueue : ∀ i, (init trackingUrl).queue i = [] := by
    intro i
    show ((init trackingUrl).emitters i).trackingQueue = []
    by_cases hi : i = 1
    · subst hi
      rfl
    · rw [hother i hi]
      rfl
  refine ⟨?_, rfl, ?_, ?_, nofun, nofun, nofun⟩
  · apply Placed.empty
    rintro (_ | i)
    · rfl
    · exact hqueue i
  · intro i
    by_cases hi : i = 1
    · subst hi
      exact ⟨fun _ => rfl, fun _ => .inl rfl, nofun⟩
    · rw [hother i hi]
      exact ⟨nofun, nofun, fun _ => ⟨rfl, rfl⟩⟩
  · intro i hi
    rw [hother i (Nat.ne_of_gt hi)]
    rfl

/-- An emitter that is not flushed has been stopped, or has never been used. -/
theorem Wired.flushing_or_stopped (h : s.Wired) (i : Nat) : s.Flushing i ∨ s.Stopped i := by
  by_cases hi : i ∈ s.stopping
  · exact .inl (.inr (.inr hi))
  · by_cases hstate : (s.emitters i).currentState = .started
    · rcases (h.sound i).started hstate with htimeout | hdraining
      · exact .inl (.inl htimeout)
      · exact .inl (.inr (.inl hdraining))
    · exact .inr ⟨hstate, hi⟩

def NothingLeft (s : SnowplowRun) : Prop := ∀ i, s.Stopped i → s.queue i = []

def OneTimer (s : SnowplowRun) : Prop :=
  ∀ i j, (s.emitters i).timeout = true → (s.emitters j).timeout = true → i = j

/-- No event is lost or doubled in any case. -/
theorem Wired.accounted_iff (h : s.Wired) : s.Accounted ↔ s.NothingLeft ∧ s.OneTimer := by
  refine ⟨fun hs => ⟨hs.stopped, hs.timer⟩, ?_⟩
  rintro ⟨hstopped, htimer⟩
  refine ⟨?_, hstopped, htimer⟩
  intro k hk
  obtain ⟨place, hplace⟩ := (h.placed.lt_iff k).mp hk
  cases place with
  | none =>
    left
    refine ⟨List.count_eq_one_of_mem (h.placed.nodup none) hplace, ?_⟩
    intro i hi
    cases h.placed.alone hplace (show k ∈ s.held (some i) from hi)
  | some i =>
    right
    refine ⟨?_, i, hplace, ?_⟩
    · intro hpassed
      cases h.placed.alone hplace (show k ∈ s.held none from hpassed)
    · apply (h.flushing_or_stopped i).resolve_right
      intro hi
      rw [show s.held (some i) = [] from hstopped i hi] at hplace
      cases hplace

/-! ### What a step does to one emitter -/

section Update

variable {i : Nat} {e : Emitter Nat} (hemitters : t.emitters = Function.update s.emitters i e)

include hemitters

theorem queue_self : t.queue i = e.trackingQueue := by
  show (t.emitters i).trackingQueue = _
  rw [hemitters, Function.update_self]

theorem queue_other {j : Nat} (hj : j ≠ i) : t.queue j = s.queue j := by
  show (t.emitters j).trackingQueue = _
  rw [hemitters, Function.update_of_ne hj]
  rfl

theorem placed_drained (h : Placed s.handed s.held) (hqueue : e.trackingQueue = [])
    (hhanded : t.handed = s.handed) (hpassed : t.passed = s.passed ++ s.queue i) :
    Placed t.handed t.held := by
  rw [hhanded]
  apply h.move (some i) none nofun
  · exact (queue_self hemitters).trans hqueue
  · exact hpassed
  · rintro (_ | j) hj hnone
    · exact absurd rfl hnone
    · exact queue_other hemitters fun hji => hj (congrArg some hji)

theorem placed_queued (h : Placed s.handed s.held)
    (hqueue : e.trackingQueue = s.queue i ++ [s.handed]) (hhanded : t.handed = s.handed + 1)
    (hpassed : t.passed = s.passed) : Placed t.handed t.held := by
  rw [hhanded]
  apply h.put (some i)
  · exact (queue_self hemitters).trans hqueue
  · rintro (_ | j) hj
    · exact hpassed
    · exact queue_other hemitters fun hji => hj (congrArg some hji)

theorem placed_same (h : Placed s.handed s.held) (hqueue : e.trackingQueue = s.queue i)
    (hhanded : t.handed = s.handed) (hpassed : t.passed = s.passed) :
    Placed t.handed t.held := by
  have hheld : t.held = s.held := by
    funext place
    cases place with
    | none => exact hpassed
    | some j =>
      by_cases hj : j = i
      · subst hj
        exact (queue_self hemitters).trans hqueue
      · exact queue_other hemitters hj
  rw [hhanded, hheld]
  exact h

/-- The emitter stays in its state, and no reconfiguration takes part. -/
theorem Wired.update (h : s.Wired) (hplaced : Placed t.handed t.held) (hsound : e.Sound)
    (hstate : e.currentState = (s.emitters i).currentState)
    (hcurrent : t.service.emitter = s.service.emitter) (hstopping : t.stopping = s.stopping)
    (hreconfiguring : t.service.reconfiguring = s.service.reconfiguring) : t.Wired := by
  have hstates : ∀ j, (t.emitters j).currentState = (s.emitters j).currentState := by
    intro j
    rw [hemitters, Function.update_apply]
    split
    · next hj => rw [hj, hstate]
    · rfl
  refine ⟨hplaced, ?_, ?_, ?_, ?_, ?_, ?_⟩
  · rw [hstopping, hreconfiguring]
    exact h.parallel
  · intro j
    rw [hemitters, Function.update_apply]
    split
    · exact hsound
    · exact h.sound j
  · intro j hj
    rw [hstates]
    exact h.made j (hcurrent ▸ hj)
  · rw [hcurrent, hstates]
    exact h.tracks
  · rw [hcurrent, hstates, hstopping]
    exact h.swapped
  · intro j hj
    rw [hstates]
    exact h.stopping j (hstopping ▸ hj)

theorem nothingLeft_update (h : s.NothingLeft)
    (hstate : e.currentState = (s.emitters i).currentState) (hstopping : t.stopping = s.stopping)
    (hqueue : s.Stopped i → e.trackingQueue = []) : t.NothingLeft := by
  intro j hj
  by_cases hji : j = i
  · subst hji
    rw [queue_self hemitters]
    apply hqueue
    rw [Stopped, hemitters, Function.update_self, hstate, hstopping] at hj
    exact hj
  · rw [queue_other hemitters hji]
    apply h
    rw [Stopped, hemitters, Function.update_of_ne hji, hstopping] at hj
    exact hj

theorem oneTimer_update (h : s.OneTimer)
    (htimeout : e.timeout = true → (s.emitters i).timeout = true) : t.OneTimer := by
  have harmed : ∀ j, (t.emitters j).timeout = true → (s.emitters j).timeout = true := by
    intro j hj
    rw [hemitters, Function.update_apply] at hj
    split at hj
    · next hji =>
      rw [hji]
      exact htimeout hj
    · exact hj
  intro j k hj hk
  exact h j k (harmed j hj) (harmed k hk)

/-- A timer that is armed is the only one if no other emitter has one. -/
theorem oneTimer_armed_iff (htimeout : e.timeout = true) :
    t.OneTimer ↔ ∀ j, j ≠ i → (s.emitters j).timeout = false := by
  constructor
  · intro hone j hj
    rw [Bool.eq_false_iff]
    intro hother
    apply hj
    apply hone
    · rw [hemitters, Function.update_of_ne hj]
      exact hother
    · rw [hemitters, Function.update_self]
      exact htimeout
  · intro hnone
    have hself : ∀ j, (t.emitters j).timeout = true → j = i := by
      intro j hj
      by_contra hne
      rw [hemitters, Function.update_of_ne hne, hnone j hne] at hj
      cases hj
    intro j k hj hk
    rw [hself j hj, hself k hk]

end Update

/-! ### Tracking -/

theorem emitters_trackStructuredEvent (enabled : Bool) (s : SnowplowRun) :
    (s.trackStructuredEvent enabled).emitters = Function.update s.emitters s.service.emitter
      ((s.emitters s.service.emitter).add s.handed).2 :=
  SnowplowService.emitters_emit

theorem placed_trackStructuredEvent (enabled : Bool) (h : s.Wired) :
    Placed (s.trackStructuredEvent enabled).handed (s.trackStructuredEvent enabled).held := by
  have hemitters := emitters_trackStructuredEvent enabled s
  by_cases hfull : (s.emitters s.service.emitter).maxItems ≤
      (s.emitters s.service.emitter).trackingQueue.length + 1
  · -- the event is queued, and drained at once
    let queued : SnowplowRun := { s with
      service := { s.service with
        emitters := Function.update s.emitters s.service.emitter
          { s.emitters s.service.emitter with
            trackingQueue := s.queue s.service.emitter ++ [s.handed] } }
      handed := s.handed + 1 }
    have hqueued : Placed queued.handed queued.held :=
      placed_queued (t := queued) rfl h.placed rfl rfl rfl
    have hqueue : queued.queue s.service.emitter = s.queue s.service.emitter ++ [s.handed] :=
      queue_self (s := s) (t := queued) rfl
    rw [Emitter.add_of_full hfull] at hemitters
    have hdrained : (s.trackStructuredEvent enabled).emitters =
        Function.update queued.emitters s.service.emitter _ :=
      hemitters.trans (Function.update_idem _ _ _).symm
    apply placed_drained hdrained hqueued Emitter.drainQueue_queue rfl
    · show s.passed ++ _ = s.passed ++ _
      rw [Emitter.add_of_full hfull, Emitter.drainQueue_fst, hqueue]
      rfl
  · rw [Emitter.add_of_not_full hfull] at hemitters
    apply placed_queued hemitters h.placed rfl rfl
    show s.passed ++ _ = s.passed
    rw [Emitter.add_of_not_full hfull]
    exact List.append_nil _

theorem trackStructuredEvent_spec (enabled : Bool) (h : s.Wired) :
    (s.trackStructuredEvent enabled).Wired ∧
      (s.NothingLeft → (s.trackStructuredEvent enabled).NothingLeft) ∧
      (s.OneTimer → (s.trackStructuredEvent enabled).OneTimer) := by
  have hemitters := emitters_trackStructuredEvent enabled s
  obtain ⟨queue, hadd⟩ := (s.emitters s.service.emitter).add_snd s.handed
  have hstate : ((s.emitters s.service.emitter).add s.handed).2.currentState =
      (s.emitters s.service.emitter).currentState := by rw [hadd]
  refine ⟨?_, ?_, ?_⟩
  · exact h.update hemitters (placed_trackStructuredEvent enabled h)
      ((h.sound _).add h.tracks) hstate SnowplowService.emitter_emit rfl
      SnowplowService.reconfiguring_emit
  · intro hleft
    apply nothingLeft_update hemitters hleft hstate rfl
    -- the emitter of the tracker is started, or a reconfiguration waits for it
    rintro ⟨hstarted, hwaiting⟩
    cases hcurrent : (s.emitters s.service.emitter).currentState with
    | started => exact absurd hcurrent hstarted
    | stopping => exact absurd (h.swapped hcurrent) hwaiting
    | stopped => exact absurd hcurrent h.tracks
  · intro htimer
    apply oneTimer_update hemitters htimer
    rw [hadd]
    exact id

/-! ### Flushing -/

theorem timeout_spec {enabled : Bool} {i : Nat} (h : s.Wired)
    (hstep : s.step (.timeout enabled i) = some t) :
    t.Wired ∧ (s.NothingLeft → t.NothingLeft) ∧ (s.OneTimer → t.OneTimer) := by
  obtain ⟨service, hservice, rfl⟩ := Option.map_eq_some_iff.mp hstep
  obtain ⟨htimeout, hemit⟩ := Option.ite_none_right_eq_some.mp hservice
  cases hemit
  have hemitters : SnowplowRun.emitters { s with
      service := s.service.emit enabled i (s.service.emitters i).timedOut
      passed := s.passed ++ (s.emitters i).timedOut.1.getD [] } =
      Function.update s.emitters i (s.emitters i).timedOut.2 := SnowplowService.emitters_emit
  have hstate : (s.emitters i).timedOut.2.currentState = (s.emitters i).currentState := by
    rw [Emitter.timedOut, Emitter.drainQueue_snd]
  have hqueue : (s.emitters i).timedOut.2.trackingQueue = [] := Emitter.drainQueue_queue
  refine ⟨?_, ?_, ?_⟩
  · apply h.update hemitters _ ((h.sound i).timedOut htimeout) hstate
      SnowplowService.emitter_emit rfl SnowplowService.reconfiguring_emit
    apply placed_drained hemitters h.placed hqueue rfl
    show s.passed ++ _ = s.passed ++ _
    rw [Emitter.timedOut, Emitter.drainQueue_fst]
    rfl
  · intro hleft
    exact nothingLeft_update hemitters hleft hstate rfl fun _ => hqueue
  · intro htimer
    apply oneTimer_update hemitters htimer
    intro _
    exact htimeout

/-- The timer is armed again. -/
theorem drained_spec {i : Nat} (h : s.Wired) (hstep : s.step (.drained i) = some t) :
    t.Wired ∧ (s.NothingLeft → t.NothingLeft) ∧
      (s.OneTimer → (t.OneTimer ↔ s.Keeps (.drained i))) := by
  obtain ⟨service, hservice, rfl⟩ := Option.map_eq_some_iff.mp hstep
  obtain ⟨hdraining, hdrained⟩ := Option.ite_none_right_eq_some.mp hservice
  cases hdrained
  have hemitters : SnowplowRun.emitters { s with
      service := { s.service with
        emitters := Function.update s.service.emitters i (s.service.emitters i).drained } } =
      Function.update s.emitters i (s.emitters i).drained := rfl
  obtain ⟨hsound, hstate⟩ := (h.sound i).drained hdraining
  have hqueue : (s.emitters i).drained.trackingQueue = s.queue i := Emitter.drained_queue
  refine ⟨?_, ?_, ?_⟩
  · apply h.update hemitters _ hsound hstate rfl rfl rfl
    exact placed_same hemitters h.placed hqueue rfl rfl
  · intro hleft
    apply nothingLeft_update hemitters hleft hstate rfl
    intro hstopped
    rw [hqueue]
    exact hleft i hstopped
  · intro htimer
    rcases (h.sound i).state_of_draining hdraining with hstarted | hstopping
    · rw [Emitter.drained_of_started hstarted] at hemitters
      have hnot : (s.emitters i).currentState ≠ .stopping := by
        intro hstopping
        cases hstarted.symm.trans hstopping
      rw [oneTimer_armed_iff hemitters rfl]
      exact (imp_iff_right hnot).symm
    · rw [Emitter.drained_of_stopping hstopping] at hemitters
      refine iff_of_true (oneTimer_update hemitters htimer id) ?_
      intro hother
      exact absurd hstopping hother

/-! ### Reconfiguring -/

/-- A reconfiguration has stopped the emitter of the tracker, and waits for it. -/
theorem Wired.stop {e : Emitter Nat} (h : s.Wired)
    (hemitters : t.emitters = Function.update s.emitters s.service.emitter e)
    (he : e = (s.emitters s.service.emitter).stop.2)
    (hcurrent : t.service.emitter = s.service.emitter)
    (hstopping : t.stopping = s.stopping ++ [s.service.emitter])
    (hreconfiguring : t.service.reconfiguring.length = s.service.reconfiguring.length + 1)
    (hhanded : t.handed = s.handed)
    (hpassed : t.passed = s.passed ++ s.queue s.service.emitter) : t.Wired := by
  have hself : (t.emitters s.service.emitter).currentState = .stopping := by
    rw [hemitters, Function.update_self, he, Emitter.stop, Emitter.drainQueue_snd]
  have hqueue : e.trackingQueue = [] := by
    rw [he]
    exact Emitter.drainQueue_queue
  have hother : ∀ i, i ≠ s.service.emitter → t.emitters i = s.emitters i := by
    intro i hi
    rw [hemitters, Function.update_of_ne hi]
  refine ⟨?_, ?_, ?_, ?_, ?_, ?_, ?_⟩
  · exact placed_drained hemitters h.placed hqueue hhanded hpassed
  · rw [hstopping, hreconfiguring, List.length_append, h.parallel]
    rfl
  · intro i
    by_cases hi : i = s.service.emitter
    · rw [hi, hemitters, Function.update_self, he]
      exact Emitter.sound_stop
    · rw [hother i hi]
      exact h.sound i
  · intro i hi
    rw [hcurrent] at hi
    rw [hother i (Nat.ne_of_gt hi)]
    exact h.made i hi
  · rw [hcurrent, hself]
    intro hstopped
    cases hstopped
  · intro _
    rw [hcurrent, hstopping]
    exact List.mem_append_right _ List.mem_cons_self
  · intro i hi
    by_cases hcurrent : i = s.service.emitter
    · rw [hcurrent]
      exact hself
    · rw [hother i hcurrent]
      rw [hstopping, List.mem_append, List.mem_singleton] at hi
      exact h.stopping i (hi.resolve_right hcurrent)

theorem reconfigure_spec {enabled : Bool} {endpoint : String} (h : s.Wired) :
    (s.reconfigure enabled endpoint).Wired ∧
      (s.NothingLeft → (s.reconfigure enabled endpoint).NothingLeft) ∧
      (s.OneTimer → (s.reconfigure enabled endpoint).OneTimer) := by
  rw [reconfigure]
  split
  · next hendpoint =>
    rw [SnowplowService.reconfigure, if_pos hendpoint]
    have hemitters : SnowplowRun.emitters { s with
        service := SnowplowService.stop enabled { s.service with
          reconfiguring := s.service.reconfiguring ++ [endpoint] }
        passed := s.passed ++ (s.emitters s.service.emitter).stop.1.getD []
        stopping := s.stopping ++ [s.service.emitter] } =
        Function.update s.emitters s.service.emitter (s.emitters s.service.emitter).stop.2 :=
      SnowplowService.emitters_emit
    refine ⟨?_, ?_, ?_⟩
    · apply h.stop hemitters rfl SnowplowService.emitter_emit rfl _ rfl
      · show s.passed ++ _ = s.passed ++ _
        rw [Emitter.stop, Emitter.drainQueue_fst]
        rfl
      · show List.length (SnowplowService.emit _ _ _ _).reconfiguring = _
        rw [SnowplowService.reconfiguring_emit]
        exact List.length_append
    · intro hleft i hi
      have hwaits : i ∉ s.stopping ++ [s.service.emitter] := hi.2
      rw [List.mem_append, List.mem_singleton, not_or] at hwaits
      rw [Stopped, hemitters, Function.update_of_ne hwaits.2] at hi
      rw [queue_other hemitters hwaits.2]
      exact hleft i ⟨hi.1, hwaits.1⟩
    · intro htimer
      apply oneTimer_update hemitters htimer
      rw [Emitter.stop, Emitter.drainQueue_snd]
      intro harmed
      cases harmed
  · exact ⟨h, id, id⟩

/-- The tracker gets an emitter that is new, as the reconfigurations that are left go on. -/
theorem step_stopped {n : Nat} (hstep : s.step (.stopped n) = some t) :
    n < s.service.reconfiguring.length ∧
      t.emitters = Function.update s.emitters (s.service.emitter + 1) (Emitter.new 10).start ∧
      t.service.emitter = s.service.emitter + 1 ∧ t.stopping = s.stopping.eraseIdx n ∧
      t.service.reconfiguring = s.service.reconfiguring.eraseIdx n ∧ t.handed = s.handed ∧
      t.passed = s.passed := by
  obtain ⟨service, hservice, rfl⟩ := Option.map_eq_some_iff.mp hstep
  obtain ⟨endpoint, hendpoint, rfl⟩ := Option.map_eq_some_iff.mp hservice
  obtain ⟨hn, -⟩ := List.getElem?_eq_some_iff.mp hendpoint
  exact ⟨hn, rfl, rfl, rfl, rfl, rfl, rfl⟩

theorem Wired.next_unused (h : s.Wired) :
    (s.emitters (s.service.emitter + 1)).currentState = .stopped ∧
      s.queue (s.service.emitter + 1) = [] := by
  have hstate := h.made (s.service.emitter + 1) (Nat.lt_succ_self _)
  exact ⟨hstate, ((h.sound _).unused hstate).1⟩

theorem stopped_wired {n : Nat} (h : s.Wired) (hstep : s.step (.stopped n) = some t) :
    t.Wired := by
  obtain ⟨hn, hemitters, hcurrent, hstopping, hreconfiguring, hhanded, hpassed⟩ :=
    step_stopped hstep
  obtain ⟨hnext, hqueue⟩ := h.next_unused
  have hself : t.emitters t.service.emitter = (Emitter.new 10).start := by
    rw [hcurrent, hemitters, Function.update_self]
  have hother : ∀ i, i ≠ s.service.emitter + 1 → t.emitters i = s.emitters i := by
    intro i hi
    rw [hemitters, Function.update_of_ne hi]
  refine ⟨?_, ?_, ?_, ?_, ?_, ?_, ?_⟩
  · exact placed_same hemitters h.placed hqueue.symm hhanded hpassed
  · rw [hstopping, hreconfiguring, List.length_eraseIdx, List.length_eraseIdx, h.parallel]
  · intro i
    by_cases hi : i = s.service.emitter + 1
    · rw [hi, ← hcurrent, hself]
      exact ⟨fun _ => rfl, fun _ => .inl rfl, nofun⟩
    · rw [hother i hi]
      exact h.sound i
  · intro i hi
    rw [hcurrent] at hi
    rw [hother i (Nat.ne_of_gt hi)]
    exact h.made i (Nat.lt_of_succ_lt hi)
  · rw [hself]
    exact nofun
  · rw [hself]
    exact nofun
  · intro i hi
    rw [hstopping] at hi
    have hstate := h.stopping i (List.mem_of_mem_eraseIdx hi)
    have hi : i ≠ s.service.emitter + 1 := by
      rintro rfl
      rw [hnext] at hstate
      cases hstate
    rw [hother i hi]
    exact hstate

/-- A second timer is armed unless there was none. -/
theorem oneTimer_stopped_iff {n : Nat} (h : s.Wired) (hstep : s.step (.stopped n) = some t) :
    t.OneTimer ↔ ∀ i, (s.emitters i).timeout = false := by
  obtain ⟨-, hemitters, -⟩ := step_stopped hstep
  obtain ⟨hnext, -⟩ := h.next_unused
  have hunarmed : (s.emitters (s.service.emitter + 1)).timeout = false := by
    rw [Bool.eq_false_iff]
    intro htimeout
    rw [(h.sound _).armed htimeout] at hnext
    cases hnext
  rw [oneTimer_armed_iff hemitters rfl]
  constructor
  · intro hother i
    by_cases hi : i = s.service.emitter + 1
    · rw [hi]
      exact hunarmed
    · exact hother i hi
  · intro hnone i _
    exact hnone i

/-- An event that has come since the queue was drained is left in it. -/
theorem nothingLeft_stopped_iff {n : Nat} (h : s.Wired) (hleft : s.NothingLeft)
    (hstep : s.step (.stopped n) = some t) : t.NothingLeft ↔
      ∀ e ∈ s.stopping[n]?, e ∉ s.stopping.eraseIdx n → s.queue e = [] := by
  obtain ⟨hn, hemitters, -, hstopping, -⟩ := step_stopped hstep
  obtain ⟨hnext, -⟩ := h.next_unused
  have hsame : ∀ i, (s.emitters i).currentState = .stopping → i ≠ s.service.emitter + 1 := by
    rintro i hi rfl
    rw [hnext] at hi
    cases hi
  constructor
  · intro hleft e he hlast
    have hstate := h.stopping e (List.mem_of_getElem? he)
    have hother := hsame e hstate
    rw [← queue_other hemitters hother]
    apply hleft
    refine ⟨?_, by rwa [hstopping]⟩
    rw [hemitters, Function.update_of_ne hother, hstate]
    exact nofun
  · intro hempty i hi
    have hother : i ≠ s.service.emitter + 1 := by
      rintro rfl
      apply hi.1
      rw [hemitters, Function.update_self]
      rfl
    rw [Stopped, hemitters, Function.update_of_ne hother, hstopping] at hi
    rw [queue_other hemitters hother]
    by_cases hwaits : i ∈ s.stopping
    · -- it was the last reconfiguration that waited for the emitter
      obtain ⟨m, hm⟩ := List.mem_iff_getElem?.mp hwaits
      have hmn : m = n := by
        by_contra hmn
        exact hi.2 (List.mem_eraseIdx_iff_getElem?.mpr ⟨m, hmn, hm⟩)
      rw [hmn] at hm
      exact hempty i hm hi.2
    · exact hleft i ⟨hi.1, hwaits⟩

/-! ### Whole runs -/

theorem answered_spec {notFound : Bool} (h : s.Wired)
    (hstep : s.step (.answered notFound) = some t) :
    t.Wired ∧ (s.NothingLeft → t.NothingLeft) ∧ (s.OneTimer → t.OneTimer) := by
  obtain ⟨service, hservice, rfl⟩ := Option.map_eq_some_iff.mp hstep
  obtain ⟨-, hanswered⟩ := Option.ite_none_right_eq_some.mp hservice
  cases hanswered
  exact ⟨⟨h.placed, h.parallel, h.sound, h.made, h.tracks, h.swapped, h.stopping⟩, id, id⟩

theorem configChange_spec {enabled : Bool} {trackingUrl : Option String} (h : s.Wired)
    (hstep : s.step (.configChange enabled trackingUrl) = some t) :
    t.Wired ∧ (s.NothingLeft → t.NothingLeft) ∧ (s.OneTimer → t.OneTimer) := by
  cases trackingUrl with
  | none =>
    cases hstep
    exact ⟨h, id, id⟩
  | some url =>
    rw [step] at hstep
    split at hstep
    · cases hstep
      exact reconfigure_spec h
    · cases hstep
      exact ⟨h, id, id⟩

theorem step_wired {a : SnowplowAction} (h : s.Wired) (hstep : s.step a = some t) : t.Wired := by
  cases a with
  | trackStructuredEvent enabled =>
    cases hstep
    exact (trackStructuredEvent_spec enabled h).1
  | configChange enabled trackingUrl => exact (configChange_spec h hstep).1
  | timeout enabled i => exact (timeout_spec h hstep).1
  | drained i => exact (drained_spec h hstep).1
  | stopped n => exact stopped_wired h hstep
  | answered notFound => exact (answered_spec h hstep).1

/-- A step keeps account of the events exactly when it meets `Keeps`. -/
theorem step_accounted_iff {a : SnowplowAction} (h : s.Wired) (hs : s.Accounted)
    (hstep : s.step a = some t) : t.Accounted ↔ s.Keeps a := by
  rw [(step_wired h hstep).accounted_iff]
  obtain ⟨hleft, htimer⟩ := h.accounted_iff.mp hs
  cases a with
  | trackStructuredEvent enabled =>
    cases hstep
    obtain ⟨-, hleft', htimer'⟩ := trackStructuredEvent_spec enabled h
    exact iff_of_true ⟨hleft' hleft, htimer' htimer⟩ trivial
  | configChange enabled trackingUrl =>
    obtain ⟨-, hleft', htimer'⟩ := configChange_spec h hstep
    exact iff_of_true ⟨hleft' hleft, htimer' htimer⟩ trivial
  | timeout enabled i =>
    obtain ⟨-, hleft', htimer'⟩ := timeout_spec h hstep
    exact iff_of_true ⟨hleft' hleft, htimer' htimer⟩ trivial
  | drained i =>
    obtain ⟨-, hleft', htimer'⟩ := drained_spec h hstep
    rw [and_iff_right (hleft' hleft)]
    exact htimer' htimer
  | stopped n =>
    rw [oneTimer_stopped_iff h hstep, nothingLeft_stopped_iff h hleft hstep]
    exact and_comm
  | answered notFound =>
    obtain ⟨-, hleft', htimer'⟩ := answered_spec h hstep
    exact iff_of_true ⟨hleft' hleft, htimer' htimer⟩ trivial

theorem init_accounted (trackingUrl : String) : (init trackingUrl).Accounted := by
  rw [(init_wired trackingUrl).accounted_iff]
  constructor
  · intro i hi
    rcases Nat.lt_trichotomy i 1 with h | rfl | h
    · rw [Nat.lt_one_iff.mp h]
      rfl
    · exact absurd rfl hi.1
    · exact (((init_wired trackingUrl).sound i).unused ((init_wired trackingUrl).made i h)).1
  · have hself : ∀ i, ((init trackingUrl).emitters i).timeout = true → i = 1 := by
      intro i hi
      by_contra hne
      have hother : (init trackingUrl).emitters i = Emitter.new 10 :=
        Function.update_of_ne hne _ _
      rw [hother] at hi
      cases hi
    intro i j hi hj
    rw [hself i hi, hself j hj]

/-- **The tracker accounts for its events** in every state of a run exactly as long as a
reconfiguration ends with an emitter that is empty, and a timer is armed only where there is
none. -/
theorem events_accounted_iff {trackingUrl : String} {as : List SnowplowAction} {s : SnowplowRun}
    (h : run step (init trackingUrl) as = some s) :
    Always step Accounted (init trackingUrl) as ↔ Guarded step Keeps (init trackingUrl) as := by
  apply always_iff_guarded (I := Wired) _ _ (init_wired trackingUrl)
    (init_accounted trackingUrl) h
  · intro s a t hs _ _ hstep
    exact step_wired hs hstep
  · intro s a t hs hp hstep
    exact step_accounted_iff hs hp hstep

theorem events_accounted_iff_of_reconfigured : ∃ s,
    run step (init "https://snowplow") [.trackStructuredEvent true,
      .configChange true (some "https://collector"), .stopped 0, .trackStructuredEvent true] =
        some s ∧
    (Always step Accounted (init "https://snowplow") [.trackStructuredEvent true,
        .configChange true (some "https://collector"), .stopped 0, .trackStructuredEvent true] ↔
      Guarded step Keeps (init "https://snowplow") [.trackStructuredEvent true,
        .configChange true (some "https://collector"), .stopped 0,
        .trackStructuredEvent true]) := by
  obtain ⟨s, hs⟩ : ∃ s, run step (init "https://snowplow") [.trackStructuredEvent true,
      .configChange true (some "https://collector"), .stopped 0, .trackStructuredEvent true] =
        some s := ⟨_, rfl⟩
  exact ⟨s, hs, events_accounted_iff hs⟩

/-- An event that is tracked while the emitter stops is left in it. With two reconfigurations at
the same time, two emitters have a timer. -/
theorem not_events_accounted :
    (∃ s, run step (init "https://snowplow") [.trackStructuredEvent true,
        .configChange true (some "https://collector"), .trackStructuredEvent true,
        .stopped 0] = some s ∧ s.Stopped 1 ∧ s.queue 1 = [1] ∧ ¬ s.Accounted) ∧
      ∃ s, run step (init "https://snowplow") [.configChange true (some "https://first"),
        .configChange true (some "https://second"), .stopped 0, .stopped 0] = some s ∧
        (s.emitters 2).timeout = true ∧ (s.emitters 3).timeout = true ∧ ¬ s.Accounted := by
  constructor
  · refine ⟨_, rfl, ⟨nofun, nofun⟩, rfl, ?_⟩
    intro h
    exact absurd (h.stopped 1 ⟨nofun, nofun⟩) nofun
  · refine ⟨_, rfl, rfl, rfl, ?_⟩
    intro h
    exact absurd (h.timer 2 3 rfl rfl) nofun

end SnowplowRun
end KhulnasoftLsp.Tracking
