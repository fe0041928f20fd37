import KhulnasoftLsp.CircuitBreaker.FixedTime
import Mathlib.Algebra.Order.Floor.Semiring
import Mathlib.Data.List.Chain
import Mathlib.Data.Rat.Floor

/-!
# The circuit breaker with exponential back-off

`ExponentialBackoffCircuitBreaker` opens at the first error and closes when its timer fires; each
further error makes the next back-off longer, until `success()` sets the count back.

An error of an open breaker only counts: the breaker keeps its one timer. So an open breaker has
exactly one timer armed and a closed one none, and `'open'` and `'close'` take turns; `Sound` is
the invariant, and `Arms` says of a step which delay it arms a timer for.
-/

namespace KhulnasoftLsp.CircuitBreaker

open Transition

def defaultInitialBackoffMs : Nat := 1000

def defaultMaxBackoffMs : Nat := 60000

def defaultBackoffMultiplier : ℚ := 2

/-- The fields of the class, what it emitted to its listeners, and the timers it armed. -/
structure ExponentialBackoffCircuitBreaker where
  state : CircuitBreakerState
  initialBackoffMs : Nat
  maxBackoffMs : Nat
  backoffMultiplier : ℚ
  errorCount : Nat
  timeoutId : Option Nat
  emitted : List Emitted
  timers : Timers
  deriving DecidableEq, Repr

namespace ExponentialBackoffCircuitBreaker

/-- The constructor, at a time when the runtime's clock shows `now`. -/
def new (now : Nat) (initialBackoffMs : Nat := defaultInitialBackoffMs)
    (maxBackoffMs : Nat := defaultMaxBackoffMs)
    (backoffMultiplier : ℚ := defaultBackoffMultiplier) : ExponentialBackoffCircuitBreaker where
  state := .CLOSED
  initialBackoffMs := initialBackoffMs
  maxBackoffMs := maxBackoffMs
  backoffMultiplier := backoffMultiplier
  errorCount := 0
  timeoutId := none
  emitted := []
  timers := Timers.new now

def isOpen (b : ExponentialBackoffCircuitBreaker) : Bool := b.state == .OPEN

/-- `#getBackoffTime`, if `errorCount` errors have been counted. -/
def getBackoffTime (b : ExponentialBackoffCircuitBreaker) (errorCount : Nat) : ℚ :=
  min (b.initialBackoffMs * b.backoffMultiplier ^ (errorCount - 1)) b.maxBackoffMs

/-- What `setTimeout` makes of the back-off: it cuts off the fraction of a millisecond. -/
def backoffMs (b : ExponentialBackoffCircuitBreaker) (errorCount : Nat) : Nat :=
  ⌊b.getBackoffTime errorCount⌋₊

/-- `#open`: an open breaker keeps the timer it has. -/
def openCircuit (b : ExponentialBackoffCircuitBreaker) : ExponentialBackoffCircuitBreaker :=
  match b.state with
  | .OPEN => b
  | .CLOSED =>
    let (id, timers) := b.timers.setTimeout (b.backoffMs b.errorCount)
    { b with state := .OPEN, timeoutId := some id, timers := timers,
             emitted := b.emitted ++ [.opened] }

/-- `#close` -/
def closeCircuit (b : ExponentialBackoffCircuitBreaker) : ExponentialBackoffCircuitBreaker :=
  match b.state with
  | .CLOSED => b
  | .OPEN =>
    { b with state := .CLOSED, emitted := b.emitted ++ [.closed],
             timers := match b.timeoutId with
               | some id => b.timers.clearTimeout id
               | none => b.timers }

def error (b : ExponentialBackoffCircuitBreaker) : ExponentialBackoffCircuitBreaker :=
  { b with errorCount := b.errorCount + 1 }.openCircuit

def megaError (b : ExponentialBackoffCircuitBreaker) : ExponentialBackoffCircuitBreaker :=
  { b with errorCount := b.errorCount + 3 }.openCircuit

def success (b : ExponentialBackoffCircuitBreaker) : ExponentialBackoffCircuitBreaker :=
  { b with errorCount := 0 }.closeCircuit

/-- The clock of the runtime has moved on to `t`. -/
def wait (t : Nat) (b : ExponentialBackoffCircuitBreaker) :
    Option ExponentialBackoffCircuitBreaker :=
  (b.timers.wait t).map fun ts => { b with timers := ts }

/-- The timer `id` fires: its callback is `#close`. -/
def expire (id : Nat) (b : ExponentialBackoffCircuitBreaker) :
    Option ExponentialBackoffCircuitBreaker :=
  (b.timers.fire id).map fun ts => { b with timers := ts }.closeCircuit

/-! ## What the operations leave -/

theorem isOpen_iff {b : ExponentialBackoffCircuitBreaker} : b.isOpen = true ↔ b.state = .OPEN := by
  simp [isOpen]

theorem not_isOpen_iff {b : ExponentialBackoffCircuitBreaker} :
    b.isOpen = false ↔ b.state = .CLOSED := by
  unfold isOpen
  cases b.state <;> simp

theorem openCircuit_of_open {b : ExponentialBackoffCircuitBreaker} (h : b.state = .OPEN) :
    b.openCircuit = b := by
  unfold openCircuit
  rw [h]

theorem openCircuit_of_closed {b : ExponentialBackoffCircuitBreaker} (h : b.state = .CLOSED) :
    b.openCircuit = { b with
      state := .OPEN
      timeoutId := some b.timers.nextId
      timers := (b.timers.setTimeout (b.backoffMs b.errorCount)).2
      emitted := b.emitted ++ [.opened] } := by
  unfold openCircuit
  rw [h]
  rfl

@[simp] theorem errorCount_openCircuit (b : ExponentialBackoffCircuitBreaker) :
    b.openCircuit.errorCount = b.errorCount := by
  unfold openCircuit
  split <;> rfl

@[simp] theorem errorCount_closeCircuit (b : ExponentialBackoffCircuitBreaker) :
    b.closeCircuit.errorCount = b.errorCount := by
  unfold closeCircuit
  split <;> rfl

@[simp] theorem errorCount_error (b : ExponentialBackoffCircuitBreaker) :
    b.error.errorCount = b.errorCount + 1 := by
  simp [error]

/-- The limits of the back-off are set once, by the constructor. -/
def SameLimits (b c : ExponentialBackoffCircuitBreaker) : Prop :=
  c.initialBackoffMs = b.initialBackoffMs ∧ c.maxBackoffMs = b.maxBackoffMs ∧
    c.backoffMultiplier = b.backoffMultiplier

theorem SameLimits.backoffMs {b c : ExponentialBackoffCircuitBreaker} (h : SameLimits b c)
    (n : Nat) : c.backoffMs n = b.backoffMs n := by
  obtain ⟨h1, h2, h3⟩ := h
  rw [ExponentialBackoffCircuitBreaker.backoffMs, ExponentialBackoffCircuitBreaker.backoffMs,
    getBackoffTime, getBackoffTime, h1, h2, h3]

theorem sameLimits_openCircuit (b : ExponentialBackoffCircuitBreaker) :
    SameLimits b b.openCircuit := by
  unfold openCircuit
  split <;> exact ⟨rfl, rfl, rfl⟩

theorem sameLimits_closeCircuit (b : ExponentialBackoffCircuitBreaker) :
    SameLimits b b.closeCircuit := by
  unfold closeCircuit
  split <;> exact ⟨rfl, rfl, rfl⟩

theorem SameLimits.error {b c : ExponentialBackoffCircuitBreaker} (h : SameLimits b c) :
    SameLimits b c.error := by
  have hopen := sameLimits_openCircuit { c with errorCount := c.errorCount + 1 }
  exact ⟨hopen.1.trans h.1, hopen.2.1.trans h.2.1, hopen.2.2.trans h.2.2⟩

theorem SameLimits.closeCircuit {b c : ExponentialBackoffCircuitBreaker} (h : SameLimits b c) :
    SameLimits b c.closeCircuit := by
  have hclose := sameLimits_closeCircuit c
  exact ⟨hclose.1.trans h.1, hclose.2.1.trans h.2.1, hclose.2.2.trans h.2.2⟩

/-- Whole numbers make a back-off of whole milliseconds. -/
theorem backoffMs_natCast {b : ExponentialBackoffCircuitBreaker} {m : Nat}
    (h : b.backoffMultiplier = m) (n : Nat) :
    b.backoffMs n = min (b.initialBackoffMs * m ^ (n - 1)) b.maxBackoffMs := by
  have hcast : b.getBackoffTime n =
      ((min (b.initialBackoffMs * m ^ (n - 1)) b.maxBackoffMs : Nat) : ℚ) := by
    rw [getBackoffTime, h]
    push_cast
    rfl
  rw [backoffMs, hcast]
  exact Nat.floor_natCast _

/-- The timers that an error arms: one, due after the back-off of the errors counted by then, if
the breaker was closed, and otherwise none. -/
theorem live_error (b : ExponentialBackoffCircuitBreaker) :
    b.error.timers.live = b.timers.live ++
      if b.isOpen then []
      else [⟨b.timers.nextId, b.timers.now + b.backoffMs (b.errorCount + 1)⟩] := by
  show ({ b with errorCount := b.errorCount + 1 }.openCircuit).timers.live = _
  by_cases h : b.state = .OPEN
  · rw [openCircuit_of_open (b := { b with errorCount := b.errorCount + 1 }) h, isOpen_iff.mpr h]
    simp
  · have hc : b.state = .CLOSED := by
      cases hs : b.state <;> simp_all
    rw [openCircuit_of_closed (b := { b with errorCount := b.errorCount + 1 }) hc,
      not_isOpen_iff.mpr hc]
    rfl

/-! ## Runs of a breaker -/

/-- What may happen to a breaker: its three calls, the passing of time, and the firing of a timer
that it armed. -/
inductive Action where
  | error
  | megaError
  | success
  | wait (t : Nat)
  | expire (id : Nat)
  deriving DecidableEq, Repr

def step (b : ExponentialBackoffCircuitBreaker) :
    Action → Option ExponentialBackoffCircuitBreaker
  | .error => some b.error
  | .megaError => some b.megaError
  | .success => some b.success
  | .wait t => b.wait t
  | .expire id => b.expire id

/-- The errors counted after an action, if `n` were counted before it. -/
def Action.countErrors (n : Nat) : Action → Nat
  | .error => n + 1
  | .megaError => n + 3
  | .success => 0
  | .wait _ => n
  | .expire _ => n

/-- How many errors a run has reported since its last success, where a mega error is three. -/
def errorsSinceSuccess (as : List Action) : Nat := as.foldl Action.countErrors 0

theorem errorsSinceSuccess_concat (as : List Action) (a : Action) :
    errorsSinceSuccess (as ++ [a]) = a.countErrors (errorsSinceSuccess as) := by
  simp [errorsSinceSuccess]

theorem closeCircuit_of_closed {b : ExponentialBackoffCircuitBreaker} (h : b.state = .CLOSED) :
    b.closeCircuit = b := by
  unfold closeCircuit
  rw [h]

theorem closeCircuit_of_open {b : ExponentialBackoffCircuitBreaker} {id : Nat}
    (h : b.state = .OPEN) (hid : b.timeoutId = some id) :
    b.closeCircuit = { b with
      state := .CLOSED
      emitted := b.emitted ++ [.closed]
      timers := b.timers.clearTimeout id } := by
  unfold closeCircuit
  rw [h, hid]

/-- Every step is an opening or a closing, after the count and the clock have been set. -/
theorem step_cases {b c : ExponentialBackoffCircuitBreaker} {a : Action} (h : step b a = some c) :
    (b.errorCount < a.countErrors b.errorCount ∧
      c = { b with errorCount := a.countErrors b.errorCount }.openCircuit) ∨
    (a = .success ∧ c = { b with errorCount := 0 }.closeCircuit) ∨
    (∃ t, a = .wait t ∧ b.timers.now ≤ t ∧ c = { b with timers := { b.timers with now := t } }) ∨
    ∃ t ∈ b.timers.live, a = .expire t.id ∧ t.due ≤ b.timers.now ∧
      c = { b with timers := b.timers.clearTimeout t.id }.closeCircuit := by
  cases a with
  | error =>
      cases h
      exact .inl ⟨Nat.lt_succ_self _, rfl⟩
  | megaError =>
      cases h
      refine .inl ⟨?_, rfl⟩
      show b.errorCount < b.errorCount + 3
      omega
  | success =>
      cases h
      exact .inr (.inl ⟨rfl, rfl⟩)
  | wait t =>
      obtain ⟨ts, hts, rfl⟩ := Option.map_eq_some_iff.mp h
      obtain ⟨hle, rfl⟩ := Timers.wait_eq_some.mp hts
      exact .inr (.inr (.inl ⟨t, rfl, hle, rfl⟩))
  | expire id =>
      obtain ⟨ts, hts, rfl⟩ := Option.map_eq_some_iff.mp h
      obtain ⟨⟨t, ht, rfl, hdue⟩, rfl⟩ := Timers.fire_eq_some.mp hts
      exact .inr (.inr (.inr ⟨t, ht, rfl, hdue, rfl⟩))

/-! ## The invariant -/

/-- A breaker has emitted `'open'` and `'close'` in turns, `'open'` first. -/
def TakesTurns (l : List Emitted) : Prop :=
  l.IsChain (· ≠ ·) ∧ ∀ e ∈ l.head?, e = .opened

instance (l : List Emitted) : Decidable (TakesTurns l) := inferInstanceAs (Decidable (_ ∧ _))

/-- A closed breaker has no timer armed, and last emitted `'close'`, if anything; an open one has
exactly the timer whose handle it holds, and last emitted `'open'`. -/
structure Sound (b : ExponentialBackoffCircuitBreaker) : Prop where
  takesTurns : TakesTurns b.emitted
  closed : b.state = .CLOSED → b.timers.live = [] ∧ ∀ e ∈ b.emitted.getLast?, e = .closed
  opened : b.state = .OPEN → (∃ t, b.timers.live = [t] ∧ b.timeoutId = some t.id ∧
    t.id < b.timers.nextId) ∧ b.emitted.getLast? = some .opened

theorem sound_new (now init max : Nat) (m : ℚ) : Sound (new now init max m) where
  takesTurns := ⟨.nil, by simp [new]⟩
  closed := fun _ => ⟨rfl, by simp [new]⟩
  opened := fun h => by cases h

theorem TakesTurns.concat {l : List Emitted} {e : Emitted} (h : TakesTurns l)
    (hlast : ∀ x ∈ l.getLast?, x ≠ e) (hfirst : l = [] → e = .opened) :
    TakesTurns (l ++ [e]) := by
  refine ⟨h.1.append (.singleton e) ?_, ?_⟩
  · intro x hx y hy
    cases hy
    exact hlast x hx
  · cases l with
    | nil => simpa using hfirst rfl
    | cons x l => simpa using h.2

/-- Neither the count nor the clock matters to the invariant. -/
theorem Sound.of_eq {b c : ExponentialBackoffCircuitBreaker} (h : Sound b)
    (hs : c.state = b.state) (he : c.emitted = b.emitted) (hl : c.timers.live = b.timers.live)
    (hn : c.timers.nextId = b.timers.nextId) (hid : c.timeoutId = b.timeoutId) : Sound c where
  takesTurns := by
    rw [he]
    exact h.takesTurns
  closed := by
    rw [hs, hl, he]
    exact h.closed
  opened := by
    rw [hs, hl, he, hn, hid]
    exact h.opened

theorem Sound.openCircuit {b : ExponentialBackoffCircuitBreaker} (h : Sound b) :
    Sound b.openCircuit := by
  cases hs : b.state with
  | OPEN => rwa [openCircuit_of_open hs]
  | CLOSED =>
      obtain ⟨hlive, hlast⟩ := h.closed hs
      rw [openCircuit_of_closed hs]
      constructor
      · apply h.takesTurns.concat
        · intro x hx
          rw [hlast x hx]
          intro heq
          cases heq
        · intro _
          rfl
      · intro hc
        cases hc
      · intro _
        refine ⟨⟨⟨b.timers.nextId, b.timers.now + b.backoffMs b.errorCount⟩, ?_, rfl, ?_⟩, ?_⟩
        · simp [hlive]
        · exact Nat.lt_succ_self _
        · simp

/-- `#close` leaves no timer armed: the one that was, if any, is cleared or has just fired. -/
theorem Sound.closeCircuit {b c : ExponentialBackoffCircuitBreaker} (h : Sound b)
    (hs : c.state = b.state) (he : c.emitted = b.emitted) (hid : c.timeoutId = b.timeoutId)
    (hl : ∀ t ∈ c.timers.live, t ∈ b.timers.live) : Sound c.closeCircuit := by
  cases hst : b.state with
  | CLOSED =>
      obtain ⟨hlive, hlast⟩ := h.closed hst
      rw [closeCircuit_of_closed (hs.trans hst)]
      constructor
      · rw [he]
        exact h.takesTurns
      · intro _
        refine ⟨List.eq_nil_iff_forall_not_mem.mpr fun t ht => ?_, by rwa [he]⟩
        have hmem := hl t ht
        rw [hlive] at hmem
        cases hmem
      · intro ho
        rw [hs, hst] at ho
        cases ho
  | OPEN =>
      obtain ⟨⟨t, hlive, htid, -⟩, hlast⟩ := h.opened hst
      rw [closeCircuit_of_open (hs.trans hst) (hid.trans htid)]
      constructor
      · rw [he]
        apply h.takesTurns.concat
        · intro x hx
          rw [hlast] at hx
          cases hx
          intro heq
          cases heq
        · intro hnil
          rw [hnil] at hlast
          cases hlast
      · intro _
        refine ⟨List.eq_nil_iff_forall_not_mem.mpr fun u hu => ?_, by simp⟩
        obtain ⟨hu, hne⟩ := List.mem_filter.mp hu
        have hmem := hl u hu
        rw [hlive, List.mem_singleton] at hmem
        simp [hmem] at hne
      · intro ho
        cases ho

theorem Sound.step {b c : ExponentialBackoffCircuitBreaker} {a : Action} (h : Sound b)
    (hs : step b a = some c) : Sound c := by
  obtain ⟨-, rfl⟩ | ⟨-, rfl⟩ | ⟨t, -, -, rfl⟩ | ⟨t, -, -, -, rfl⟩ := step_cases hs
  · exact Sound.openCircuit (h.of_eq rfl rfl rfl rfl rfl)
  · exact h.closeCircuit rfl rfl rfl fun t ht => ht
  · exact h.of_eq rfl rfl rfl rfl rfl
  · exact h.closeCircuit rfl rfl rfl fun u hu => List.mem_of_mem_filter hu

theorem Sound.length_live {b : ExponentialBackoffCircuitBreaker} (h : Sound b) :
    b.timers.live.length = if b.isOpen then 1 else 0 := by
  cases hs : b.state with
  | CLOSED => simp [not_isOpen_iff.mpr hs, (h.closed hs).1]
  | OPEN =>
      obtain ⟨⟨t, hlive, -⟩, -⟩ := h.opened hs
      simp [isOpen_iff.mpr hs, hlive]

/-! ## The delays that are armed -/

/-- The action arms a timer, with a delay of `d` milliseconds. -/
def Arms (b : ExponentialBackoffCircuitBreaker) (a : Action) (d : Nat) : Prop :=
  ∃ c, step b a = some c ∧ ⟨b.timers.nextId, b.timers.now + d⟩ ∈ c.timers.live

/-- Only an opening arms a timer, after the count of the errors that led to it. -/
theorem Sound.arms {b : ExponentialBackoffCircuitBreaker} {a : Action} {d : Nat} (h : Sound b)
    (harms : Arms b a d) :
    0 < a.countErrors b.errorCount ∧ d = b.backoffMs (a.countErrors b.errorCount) := by
  obtain ⟨c, hc, hmem⟩ := harms
  -- no timer that is armed already has the next identifier
  have hold : ∀ t ∈ b.timers.live, t.id < b.timers.nextId := by
    intro t ht
    cases hs : b.state with
    | CLOSED =>
        rw [(h.closed hs).1] at ht
        cases ht
    | OPEN =>
        obtain ⟨⟨u, hlive, -, hu⟩, -⟩ := h.opened hs
        rw [hlive, List.mem_singleton] at ht
        rwa [ht]
  have hnot : ∀ {e : ExponentialBackoffCircuitBreaker}, (∀ t ∈ e.timers.live, t ∈ b.timers.live) →
      ⟨b.timers.nextId, b.timers.now + d⟩ ∉ e.closeCircuit.timers.live := by
    intro e he hmem
    have hin : ⟨b.timers.nextId, b.timers.now + d⟩ ∈ e.timers.live := by
      unfold ExponentialBackoffCircuitBreaker.closeCircuit at hmem
      grind [Timers.live_clearTimeout]
    exact Nat.lt_irrefl _ (hold _ (he _ hin))
  obtain ⟨hlt, rfl⟩ | ⟨-, rfl⟩ | ⟨t, -, -, rfl⟩ | ⟨t, -, -, -, rfl⟩ := step_cases hc
  · refine ⟨Nat.zero_lt_of_lt hlt, ?_⟩
    cases hs : b.state with
    | OPEN =>
        have hopen : { b with errorCount := a.countErrors b.errorCount }.state = .OPEN := hs
        rw [openCircuit_of_open hopen] at hmem
        exact absurd (hold _ hmem) (Nat.lt_irrefl _)
    | CLOSED =>
        have hclosed : { b with errorCount := a.countErrors b.errorCount }.state = .CLOSED := hs
        rw [openCircuit_of_closed hclosed, Timers.live_setTimeout, (h.closed hs).1] at hmem
        simpa [ExponentialBackoffCircuitBreaker.backoffMs, getBackoffTime] using hmem
  · exact absurd hmem (hnot fun t ht => ht)
  · exact absurd (hold _ hmem) (Nat.lt_irrefl _)
  · exact absurd hmem (hnot fun u hu => List.mem_of_mem_filter hu)

theorem backoffMs_le (b : ExponentialBackoffCircuitBreaker) (n : Nat) :
    b.backoffMs n ≤ b.maxBackoffMs := by
  rw [backoffMs, ← Nat.floor_natCast (R := ℚ) b.maxBackoffMs]
  exact Nat.floor_mono (min_le_right _ _)

/-- A longer row of errors makes no shorter back-off. -/
theorem backoffMs_mono {b : ExponentialBackoffCircuitBreaker} (hm : 1 ≤ b.backoffMultiplier)
    {n k : Nat} (h : n ≤ k) : b.backoffMs n ≤ b.backoffMs k := by
  have hpow : b.backoffMultiplier ^ (n - 1) ≤ b.backoffMultiplier ^ (k - 1) :=
    pow_le_pow_right₀ hm (Nat.sub_le_sub_right h 1)
  have hinit : (0 : ℚ) ≤ b.initialBackoffMs := Nat.cast_nonneg _
  apply Nat.floor_mono
  exact min_le_min (mul_le_mul_of_nonneg_left hpow hinit) le_rfl

/-- At some moment of the run, when `n` errors have been reported since the last success, a timer
is armed with a delay of `d` milliseconds. -/
def ArmedInRun (b : ExponentialBackoffCircuitBreaker) (as : List Action) (n d : Nat) : Prop :=
  ∃ before a after s, as = before ++ a :: after ∧ run step b before = some s ∧ Arms s a d ∧
    n = errorsSinceSuccess (before ++ [a])

/-- What a run keeps: the invariant, the count of the errors and the limits. -/
theorem sound_of_run {now init max : Nat} {m : ℚ} {as : List Action}
    {b : ExponentialBackoffCircuitBreaker} (hrun : run step (new now init max m) as = some b) :
    Sound b ∧ b.errorCount = errorsSinceSuccess as ∧ SameLimits (new now init max m) b := by
  apply run_trace (I := fun as b => Sound b ∧ b.errorCount = errorsSinceSuccess as ∧
    SameLimits (new now init max m) b) _ _ hrun
  · exact ⟨sound_new now init max m, rfl, rfl, rfl, rfl⟩
  · rintro as s a t ⟨hsound, hcount, hsame⟩ ht
    refine ⟨hsound.step ht, ?_⟩
    rw [errorsSinceSuccess_concat, ← hcount]
    obtain ⟨-, rfl⟩ | ⟨rfl, rfl⟩ | ⟨t, rfl, -, rfl⟩ | ⟨t, -, rfl, -, rfl⟩ := step_cases ht
    · refine ⟨errorCount_openCircuit _, ?_⟩
      have hopen := sameLimits_openCircuit { s with errorCount := a.countErrors s.errorCount }
      exact ⟨hopen.1.trans hsame.1, hopen.2.1.trans hsame.2.1, hopen.2.2.trans hsame.2.2⟩
    · exact ⟨errorCount_closeCircuit _,
        SameLimits.closeCircuit (c := { s with errorCount := 0 }) hsame⟩
    · exact ⟨rfl, hsame⟩
    · exact ⟨errorCount_closeCircuit _,
        SameLimits.closeCircuit (c := { s with timers := s.timers.clearTimeout t.id }) hsame⟩

theorem ArmedInRun.eq_backoffMs {now init max : Nat} {m : ℚ} {as : List Action} {n d : Nat}
    (h : ArmedInRun (new now init max m) as n d) : d = (new now init max m).backoffMs n := by
  obtain ⟨before, a, after, s, -, hrun, harms, rfl⟩ := h
  obtain ⟨hsound, hcount, hsame⟩ := sound_of_run hrun
  rw [errorsSinceSuccess_concat, ← hcount, ← hsame.backoffMs]
  exact (hsound.arms harms).2

/-- **The breaker's contract.** After any run from a new breaker, one timer is armed if the breaker
is open and none if it is closed, `'open'` and `'close'` have been emitted in turns, `'open'`
first, no timer was armed for longer than the maximal back-off, and of two that were, the one
after more errors since the last success was armed for no less. -/
theorem one_timer_and_growing_backoff (now init max : Nat) (m : ℚ) (hm : 1 ≤ m)
    (as : List Action) (b : ExponentialBackoffCircuitBreaker)
    (hrun : run step (new now init max m) as = some b) :
    b.timers.live.length = (if b.isOpen then 1 else 0) ∧ TakesTurns b.emitted ∧
      (∀ n d, ArmedInRun (new now init max m) as n d → d ≤ max) ∧
      ∀ n d k e, ArmedInRun (new now init max m) as n d → ArmedInRun (new now init max m) as k e →
        n ≤ k → d ≤ e := by
  have hsound := (sound_of_run hrun).1
  refine ⟨hsound.length_live, hsound.takesTurns, ?_, ?_⟩
  · intro n d harmed
    rw [harmed.eq_backoffMs]
    exact backoffMs_le _ n
  · intro n d k e hd he hnk
    rw [hd.eq_backoffMs, he.eq_backoffMs]
    exact backoffMs_mono hm hnk

/-- The contract at a breaker that opens twice, the second time for longer. -/
theorem one_timer_and_growing_backoff_twice :
    ∃ b, run step (new 0) [.error, .error, .wait 1000, .expire 0, .megaError] = some b ∧
      b.timers.live.length = (if b.isOpen then 1 else 0) ∧ TakesTurns b.emitted := by
  obtain ⟨b, hb⟩ : ∃ b, run step (new 0)
      [.error, .error, .wait 1000, .expire 0, .megaError] = some b :=
    Option.isSome_iff_exists.mp (by decide +kernel)
  have h := one_timer_and_growing_backoff 0 1000 60000 2 (by norm_num) _ b hb
  exact ⟨b, hb, h.1, h.2.1⟩

end ExponentialBackoffCircuitBreaker
end KhulnasoftLsp.CircuitBreaker
