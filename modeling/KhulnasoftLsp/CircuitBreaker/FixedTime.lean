import KhulnasoftLsp.Transition
import KhulnasoftLsp.Timers

/-!
# The fixed-time circuit breaker

`FixedTimeCircuitBreaker` opens once it has counted enough errors, and closes on `success()` or
when the timer armed by an opening fires. The wrapper `DefaultSuggestionApiErrorCheck` is the one
breaker that all code suggestion requests share.

Every error past the threshold opens the breaker *again*: it arms one more timer and overwrites
the only handle, so that a later close clears the newest timer and leaves the older ones armed.
`staysOpen_of_errors_while_closed` says what is left of the intended contract: it holds of the
runs that report no error while the breaker is open.
-/

namespace KhulnasoftLsp.CircuitBreaker

open Transition

def circuitBreakIntervalMs : Nat := 10000

def maxErrorsBeforeCircuitBreak : Nat := 4

inductive CircuitBreakerState where
  | OPEN
  | CLOSED
  deriving DecidableEq, Repr

/-- What the breaker's event emitter has emitted. -/
inductive Emitted where
  | opened
  | closed
  deriving DecidableEq, Repr

/-- The fields of the class, what it emitted to its listeners, and the runtime's timers. -/
structure FixedTimeCircuitBreaker where
  state : CircuitBreakerState
  maxErrorsBeforeBreaking : Nat
  breakTimeMs : Nat
  errorCount : Nat
  timeoutId : Option Nat
  emitted : List Emitted
  timers : Timers
  deriving DecidableEq, Repr

namespace FixedTimeCircuitBreaker

/-- The constructor, at a time when the runtime's clock shows `now`. -/
def new (now : Nat) (maxErrorsBeforeBreaking : Nat := maxErrorsBeforeCircuitBreak)
    (breakTimeMs : Nat := circuitBreakIntervalMs) : FixedTimeCircuitBreaker where
  state := .CLOSED
  maxErrorsBeforeBreaking := maxErrorsBeforeBreaking
  breakTimeMs := breakTimeMs
  errorCount := 0
  timeoutId := none
  emitted := []
  timers := Timers.new now

def isOpen (b : FixedTimeCircuitBreaker) : Bool := b.state == .OPEN

/-- `#open`: it does not look at the state first, nor at the timer already armed. -/
def openCircuit (b : FixedTimeCircuitBreaker) : FixedTimeCircuitBreaker :=
  -- the handle of a timer that is armed already is lost here
  let (id, timers) := b.timers.setTimeout b.breakTimeMs
  { b with state := .OPEN, timeoutId := some id, timers := timers,
           emitted := b.emitted ++ [.opened] }

/-- `#close` -/
def closeCircuit (b : FixedTimeCircuitBreaker) : FixedTimeCircuitBreaker :=
  match b.state with
  | .CLOSED => b
  | .OPEN =>
    { b with state := .CLOSED, emitted := b.emitted ++ [.closed],
             timers := match b.timeoutId with
               | some id => b.timers.clearTimeout id
               | none => b.timers }

def error (b : FixedTimeCircuitBreaker) : FixedTimeCircuitBreaker :=
  let b := { b with errorCount := b.errorCount + 1 }
  if b.maxErrorsBeforeBreaking ≤ b.errorCount then b.openCircuit else b

def success (b : FixedTimeCircuitBreaker) : FixedTimeCircuitBreaker :=
  { b with errorCount := 0 }.closeCircuit

/-- What may happen to a breaker: its two calls, the passing of time, and the firing of one of
the timers it armed (whose callback is `#close`). -/
inductive Action where
  | error
  | success
  | wait (t : Nat)
  | expire (id : Nat)
  deriving DecidableEq, Repr

def step (b : FixedTimeCircuitBreaker) : Action → Option FixedTimeCircuitBreaker
  | .error => some b.error
  | .success => some b.success
  | .wait t => (b.timers.wait t).map fun ts => { b with timers := ts }
  -- the callback closes whatever is open, be it the opening that armed the timer or a later one
  | .expire id => (b.timers.fire id).map fun ts => { b with timers := ts }.closeCircuit

/-! ## What the operations leave -/

theorem isOpen_iff {b : FixedTimeCircuitBreaker} : b.isOpen = true ↔ b.state = .OPEN := by
  simp [isOpen]

theorem not_isOpen_iff {b : FixedTimeCircuitBreaker} : b.isOpen = false ↔ b.state = .CLOSED := by
  unfold isOpen
  cases b.state <;> simp

@[simp] theorem isOpen_new (now max breakMs : Nat) : (new now max breakMs).isOpen = false := rfl

@[simp] theorem state_openCircuit (b : FixedTimeCircuitBreaker) : b.openCircuit.state = .OPEN := rfl

@[simp] theorem timers_openCircuit (b : FixedTimeCircuitBreaker) :
    b.openCircuit.timers = (b.timers.setTimeout b.breakTimeMs).2 := rfl

@[simp] theorem timeoutId_openCircuit (b : FixedTimeCircuitBreaker) :
    b.openCircuit.timeoutId = some b.timers.nextId := rfl

@[simp] theorem errorCount_openCircuit (b : FixedTimeCircuitBreaker) :
    b.openCircuit.errorCount = b.errorCount := rfl

/-- Closing an open breaker clears the timer whose handle it holds, and no other. -/
theorem closeCircuit_of_open {b : FixedTimeCircuitBreaker} (h : b.state = .OPEN) :
    b.closeCircuit = { b with
      state := .CLOSED
      emitted := b.emitted ++ [.closed]
      timers := b.timeoutId.elim b.timers fun id => b.timers.clearTimeout id } := by
  unfold closeCircuit
  rw [h]
  cases b.timeoutId <;> rfl

theorem closeCircuit_of_closed {b : FixedTimeCircuitBreaker} (h : b.state = .CLOSED) :
    b.closeCircuit = b := by
  unfold closeCircuit
  rw [h]

@[simp] theorem state_closeCircuit (b : FixedTimeCircuitBreaker) :
    b.closeCircuit.state = .CLOSED := by
  cases h : b.state with
  | OPEN => rw [closeCircuit_of_open h]
  | CLOSED => rw [closeCircuit_of_closed h, h]

@[simp] theorem errorCount_closeCircuit (b : FixedTimeCircuitBreaker) :
    b.closeCircuit.errorCount = b.errorCount := by
  cases h : b.state with
  | OPEN => rw [closeCircuit_of_open h]
  | CLOSED => rw [closeCircuit_of_closed h]

@[simp] theorem breakTimeMs_closeCircuit (b : FixedTimeCircuitBreaker) :
    b.closeCircuit.breakTimeMs = b.breakTimeMs := by
  cases h : b.state with
  | OPEN => rw [closeCircuit_of_open h]
  | CLOSED => rw [closeCircuit_of_closed h]

@[simp] theorem max_closeCircuit (b : FixedTimeCircuitBreaker) :
    b.closeCircuit.maxErrorsBeforeBreaking = b.maxErrorsBeforeBreaking := by
  cases h : b.state with
  | OPEN => rw [closeCircuit_of_open h]
  | CLOSED => rw [closeCircuit_of_closed h]

@[simp] theorem now_closeCircuit (b : FixedTimeCircuitBreaker) :
    b.closeCircuit.timers.now = b.timers.now := by
  cases h : b.state with
  | OPEN =>
      rw [closeCircuit_of_open h]
      cases b.timeoutId <;> rfl
  | CLOSED => rw [closeCircuit_of_closed h]

@[simp] theorem nextId_closeCircuit (b : FixedTimeCircuitBreaker) :
    b.closeCircuit.timers.nextId = b.timers.nextId := by
  cases h : b.state with
  | OPEN =>
      rw [closeCircuit_of_open h]
      cases b.timeoutId <;> rfl
  | CLOSED => rw [closeCircuit_of_closed h]

/-- Closing arms no timer. -/
theorem mem_live_closeCircuit {b : FixedTimeCircuitBreaker} {t : Timer}
    (h : t ∈ b.closeCircuit.timers.live) : t ∈ b.timers.live := by
  cases hs : b.state with
  | OPEN =>
      rw [closeCircuit_of_open hs] at h
      cases hid : b.timeoutId with
      | none => simpa [hid] using h
      | some id =>
          simp only [hid, Option.elim_some, Timers.live_clearTimeout] at h
          exact List.mem_of_mem_filter h
  | CLOSED => rwa [closeCircuit_of_closed hs] at h

/-- `error()` either stays below the threshold and only counts, or opens the breaker. -/
theorem error_cases (b : FixedTimeCircuitBreaker) :
    (b.errorCount + 1 < b.maxErrorsBeforeBreaking ∧
      b.error = { b with errorCount := b.errorCount + 1 }) ∨
    (b.maxErrorsBeforeBreaking ≤ b.errorCount + 1 ∧
      b.error = { b with errorCount := b.errorCount + 1 }.openCircuit) := by
  unfold error
  by_cases h : b.maxErrorsBeforeBreaking ≤ b.errorCount + 1
  · exact .inr ⟨h, by simp [h]⟩
  · exact .inl ⟨by omega, by simp [h]⟩

@[simp] theorem now_error (b : FixedTimeCircuitBreaker) : b.error.timers.now = b.timers.now := by
  rcases b.error_cases with ⟨-, h⟩ | ⟨-, h⟩ <;> simp [h]

@[simp] theorem breakTimeMs_error (b : FixedTimeCircuitBreaker) :
    b.error.breakTimeMs = b.breakTimeMs := by
  rcases b.error_cases with ⟨-, h⟩ | ⟨-, h⟩ <;> simp [h, openCircuit]

@[simp] theorem max_error (b : FixedTimeCircuitBreaker) :
    b.error.maxErrorsBeforeBreaking = b.maxErrorsBeforeBreaking := by
  rcases b.error_cases with ⟨-, h⟩ | ⟨-, h⟩ <;> simp [h, openCircuit]

@[simp] theorem errorCount_error (b : FixedTimeCircuitBreaker) :
    b.error.errorCount = b.errorCount + 1 := by
  rcases b.error_cases with ⟨-, h⟩ | ⟨-, h⟩ <;> simp [h]

@[simp] theorem errorCount_success (b : FixedTimeCircuitBreaker) : b.success.errorCount = 0 := by
  simp [success]

@[simp] theorem state_success (b : FixedTimeCircuitBreaker) : b.success.state = .CLOSED := by
  simp [success]

@[simp] theorem isOpen_success (b : FixedTimeCircuitBreaker) : b.success.isOpen = false := by
  simp [not_isOpen_iff]

/-! ## Time and identifiers only grow -/

/-- No step turns back the clock, re-uses an identifier, or changes the break time. -/
theorem step_grows {b c : FixedTimeCircuitBreaker} {a : Action} (h : step b a = some c) :
    b.timers.now ≤ c.timers.now ∧ b.timers.nextId ≤ c.timers.nextId ∧
      c.breakTimeMs = b.breakTimeMs := by
  cases a with
  | error =>
      cases h
      refine ⟨by simp, ?_, by simp⟩
      rcases b.error_cases with ⟨-, he⟩ | ⟨-, he⟩ <;> simp [he]
  | success =>
      cases h
      simp [success]
  | wait t =>
      obtain ⟨ts, hts, rfl⟩ := Option.map_eq_some_iff.mp h
      obtain ⟨hle, rfl⟩ := Timers.wait_eq_some.mp hts
      exact ⟨hle, Nat.le_refl _, rfl⟩
  | expire id =>
      obtain ⟨ts, hts, rfl⟩ := Option.map_eq_some_iff.mp h
      obtain ⟨-, rfl⟩ := Timers.fire_eq_some.mp hts
      simp

/-- Only the two calls count errors, and no step changes the threshold. -/
theorem step_count {b c : FixedTimeCircuitBreaker} {a : Action} (h : step b a = some c) :
    c.maxErrorsBeforeBreaking = b.maxErrorsBeforeBreaking ∧
      c.errorCount = match a with
        | .error => b.errorCount + 1
        | .success => 0
        | _ => b.errorCount := by
  cases a with
  | error =>
      cases h
      exact ⟨max_error b, errorCount_error b⟩
  | success =>
      cases h
      exact ⟨by simp [success], errorCount_success b⟩
  | wait t =>
      obtain ⟨ts, -, rfl⟩ := Option.map_eq_some_iff.mp h
      exact ⟨rfl, rfl⟩
  | expire id =>
      obtain ⟨ts, -, rfl⟩ := Option.map_eq_some_iff.mp h
      simp

/-- An error that reaches the threshold leaves the breaker open. -/
theorem isOpen_error {b : FixedTimeCircuitBreaker}
    (h : b.maxErrorsBeforeBreaking ≤ b.errorCount + 1) : b.error.isOpen = true := by
  rcases b.error_cases with ⟨hlt, -⟩ | ⟨-, he⟩
  · omega
  · rw [he]
    rfl

/-- A timer armed after a step was armed before it, or has a fresh identifier. -/
theorem step_live {b c : FixedTimeCircuitBreaker} {a : Action} (h : step b a = some c)
    {t : Timer} (ht : t ∈ c.timers.live) : t ∈ b.timers.live ∨ b.timers.nextId ≤ t.id := by
  cases a with
  | error =>
      cases h
      rcases b.error_cases with ⟨-, he⟩ | ⟨-, he⟩
      · rw [he] at ht
        exact .inl ht
      · rw [he, timers_openCircuit, Timers.live_setTimeout, List.mem_append] at ht
        rcases ht with ht | ht
        · exact .inl ht
        · rw [List.mem_singleton] at ht
          exact .inr (by simp [ht])
  | success =>
      cases h
      exact .inl (mem_live_closeCircuit (b := { b with errorCount := 0 }) ht)
  | wait u =>
      obtain ⟨ts, hts, rfl⟩ := Option.map_eq_some_iff.mp h
      obtain ⟨-, rfl⟩ := Timers.wait_eq_some.mp hts
      exact .inl ht
  | expire id =>
      obtain ⟨ts, hts, rfl⟩ := Option.map_eq_some_iff.mp h
      obtain ⟨-, rfl⟩ := Timers.fire_eq_some.mp hts
      exact .inl (List.mem_of_mem_filter (mem_live_closeCircuit ht))

/-! ## Errors that are reported while the breaker is closed

If no error is reported while the breaker is open, each opening arms one timer and each close
clears it: `OneTimer` is the invariant. -/

/-- An error is reported only while the breaker is closed. -/
def ErrorWhileClosed (b : FixedTimeCircuitBreaker) (a : Action) : Prop :=
  a = .error → b.isOpen = false

instance (b : FixedTimeCircuitBreaker) (a : Action) : Decidable (ErrorWhileClosed b a) :=
  inferInstanceAs (Decidable (_ → _))

/-- A closed breaker has no timer armed; an open one has exactly the timer it holds. -/
def OneTimer (b : FixedTimeCircuitBreaker) : Prop :=
  (b.state = .CLOSED ∧ b.timers.live = []) ∨
    ∃ t, b.state = .OPEN ∧ b.timers.live = [t] ∧ b.timeoutId = some t.id

theorem OneTimer.closeCircuit {b : FixedTimeCircuitBreaker} (h : OneTimer b) :
    OneTimer b.closeCircuit := by
  rcases h with ⟨hs, hl⟩ | ⟨t, hs, hl, hid⟩
  · rw [closeCircuit_of_closed hs]
    exact .inl ⟨hs, hl⟩
  · refine .inl ⟨state_closeCircuit b, ?_⟩
    rw [closeCircuit_of_open hs]
    simp [hid, hl]

/-- An opening of a closed breaker arms its one timer, due one break time from now. -/
theorem OneTimer.error {b : FixedTimeCircuitBreaker} (h : OneTimer b) (hc : b.isOpen = false) :
    OneTimer b.error ∧ (b.error.isOpen = true →
      b.error.timers.live = [⟨b.timers.nextId, b.timers.now + b.breakTimeMs⟩] ∧
        b.error.timeoutId = some b.timers.nextId) := by
  rw [not_isOpen_iff] at hc
  have hl : b.timers.live = [] := by
    rcases h with ⟨-, hl⟩ | ⟨t, hs, -, -⟩
    · exact hl
    · rw [hc] at hs
      cases hs
  rcases b.error_cases with ⟨-, he⟩ | ⟨-, he⟩
  · rw [he]
    refine ⟨.inl ⟨hc, hl⟩, ?_⟩
    intro ho
    rw [isOpen_iff] at ho
    rw [hc] at ho
    cases ho
  · rw [he]
    have hlive : { b with errorCount := b.errorCount + 1 }.openCircuit.timers.live =
        [⟨b.timers.nextId, b.timers.now + b.breakTimeMs⟩] := by
      simp [hl]
    exact ⟨.inr ⟨_, rfl, hlive, rfl⟩, fun _ => ⟨hlive, rfl⟩⟩

theorem OneTimer.step {b c : FixedTimeCircuitBreaker} {a : Action} (h : OneTimer b)
    (hok : ErrorWhileClosed b a) (hs : step b a = some c) : OneTimer c := by
  cases a with
  | error =>
      cases hs
      exact (h.error (hok rfl)).1
  | success =>
      cases hs
      have h' : OneTimer { b with errorCount := 0 } := h
      exact h'.closeCircuit
  | wait t =>
      obtain ⟨ts, hts, rfl⟩ := Option.map_eq_some_iff.mp hs
      obtain ⟨-, rfl⟩ := Timers.wait_eq_some.mp hts
      exact h
  | expire id =>
      obtain ⟨ts, hts, rfl⟩ := Option.map_eq_some_iff.mp hs
      obtain ⟨⟨t, ht, hid, -⟩, rfl⟩ := Timers.fire_eq_some.mp hts
      rcases h with ⟨-, hl⟩ | ⟨u, ho, hl, hu⟩
      · rw [hl] at ht
        cases ht
      -- the timer that fires is the one the breaker holds, so that none is left
      · rw [hl, List.mem_singleton] at ht
        subst ht
        refine .inl ⟨state_closeCircuit _, ?_⟩
        apply List.eq_nil_iff_forall_not_mem.mpr
        intro v hv
        have hv' := mem_live_closeCircuit hv
        simp [hl, hid] at hv'

theorem oneTimer_new (now max breakMs : Nat) : OneTimer (new now max breakMs) :=
  .inl ⟨rfl, rfl⟩

/-- The breaker is open and `t` is its only timer, unless `t` is already due. -/
def OpenUntil (t : Timer) (b : FixedTimeCircuitBreaker) : Prop :=
  t.due ≤ b.timers.now ∨ (b.isOpen = true ∧ b.timers.live = [t])

/-- An opening lasts through every step that neither reports an error while the breaker is open
nor calls `success()`. -/
theorem OpenUntil.step {t : Timer} {b c : FixedTimeCircuitBreaker} {a : Action}
    (h : OpenUntil t b) (hok : ErrorWhileClosed b a) (hne : a ≠ .success)
    (hs : step b a = some c) : OpenUntil t c := by
  rcases h with hpast | ⟨hopen, hlive⟩
  · exact .inl (Nat.le_trans hpast (step_grows hs).1)
  cases a with
  | error =>
      have hclosed := hok rfl
      rw [hopen] at hclosed
      cases hclosed
  | success => exact absurd rfl hne
  | wait u =>
      obtain ⟨ts, hts, rfl⟩ := Option.map_eq_some_iff.mp hs
      obtain ⟨-, rfl⟩ := Timers.wait_eq_some.mp hts
      exact .inr ⟨hopen, hlive⟩
  | expire id =>
      -- the timer that fires is `t`, and it is due
      obtain ⟨ts, hts, rfl⟩ := Option.map_eq_some_iff.mp hs
      obtain ⟨⟨v, hv, -, hvdue⟩, rfl⟩ := Timers.fire_eq_some.mp hts
      rw [hlive, List.mem_singleton] at hv
      subst hv
      exact .inl (by simpa using hvdue)

theorem OpenUntil.isOpen {t : Timer} {b : FixedTimeCircuitBreaker} (h : OpenUntil t b)
    (hdue : b.timers.now < t.due) : b.isOpen = true := by
  rcases h with hpast | ⟨hopen, -⟩
  · omega
  · exact hopen

/-- An opening of a closed breaker lasts for its break time. -/
theorem OneTimer.openUntil {b : FixedTimeCircuitBreaker} (h : OneTimer b)
    (hc : b.isOpen = false) (ho : b.error.isOpen = true) :
    OpenUntil ⟨b.timers.nextId, b.timers.now + b.breakTimeMs⟩ b.error :=
  .inr ⟨ho, ((h.error hc).2 ho).1⟩

/-! ## The contract of a run -/

/-- Whenever an `error()` of the run leaves the breaker open, it is open at every later moment of
the run, up to the next `success()` and until `breakTimeMs` has elapsed since that `error()`. -/
def StaysOpen (b : FixedTimeCircuitBreaker) (as : List Action) : Prop :=
  ∀ before during after, as = before ++ .error :: (during ++ after) →
    ∀ s t, run step b (before ++ [.error]) = some s → s.isOpen = true →
      run step s during = some t → .success ∉ during →
        t.timers.now < s.timers.now + s.breakTimeMs → t.isOpen = true

/-- No timer of the run that was armed before a moment at which the breaker is closed fires at a
later moment at which it is open. -/
def NoStaleClose (b : FixedTimeCircuitBreaker) (as : List Action) : Prop :=
  ∀ before during after id, as = before ++ (during ++ .expire id :: after) →
    ∀ s t, run step b before = some s → s.isOpen = false →
      run step s during = some t → t.isOpen = true → s.timers.nextId ≤ id

/-- Along a run that reports errors only while the breaker is closed, there is no second timer. -/
theorem oneTimer_of_run {b c : FixedTimeCircuitBreaker} {as : List Action} (hb : OneTimer b)
    (hg : Guarded step ErrorWhileClosed b as) (h : run step b as = some c) : OneTimer c :=
  guarded_invariant (fun _ _ _ hone hok hs => hone.step hok hs) hb hg h

theorem staysOpen_of_guarded {b : FixedTimeCircuitBreaker} {as : List Action} (hb : OneTimer b)
    (hg : Guarded step ErrorWhileClosed b as) : StaysOpen b as := by
  rintro before during after rfl s t hs ho ht hsuccess hnow
  obtain ⟨r, hr, hrs⟩ := run_concat_eq_some.mp hs
  obtain ⟨hgb, hgerr⟩ := (guarded_append hr).mp hg
  obtain ⟨hok, hgrest⟩ := (guarded_cons hrs).mp hgerr
  have hgd := ((guarded_append ht).mp hgrest).1
  have hr1 : OneTimer r := oneTimer_of_run hb hgb hr
  cases hrs
  have hgd' := hgd.and_forall (p := (· ≠ .success)) fun a ha hEq => hsuccess (hEq ▸ ha)
  have hopen := guarded_invariant (I := OpenUntil ⟨r.timers.nextId, r.timers.now + r.breakTimeMs⟩)
    (fun _ _ _ hi hok hs => hi.step hok.1 hok.2 hs) (hr1.openUntil (hok rfl) ho) hgd' ht
  exact hopen.isOpen (by simpa using hnow)

theorem noStaleClose_of_guarded {b : FixedTimeCircuitBreaker} {as : List Action} {u}
    (hb : OneTimer b) (hg : Guarded step ErrorWhileClosed b as) (h : run step b as = some u) :
    NoStaleClose b as := by
  rintro before during after id rfl s t hs hclosed ht -
  have hs1 : OneTimer s := oneTimer_of_run hb ((guarded_append hs).mp hg).1 hs
  have hlive : s.timers.live = [] := by
    rcases hs1 with ⟨-, hl⟩ | ⟨v, ho, -, -⟩
    · exact hl
    · rw [not_isOpen_iff] at hclosed
      rw [hclosed] at ho
      cases ho
  -- every timer armed after `s` is younger than `s`
  have hyoung : s.timers.nextId ≤ t.timers.nextId ∧
      ∀ v ∈ t.timers.live, s.timers.nextId ≤ v.id := by
    refine run_invariant (I := fun t => s.timers.nextId ≤ t.timers.nextId ∧
      ∀ v ∈ t.timers.live, s.timers.nextId ≤ v.id) ?_ ⟨Nat.le_refl _, by simp [hlive]⟩ ht
    rintro p a q ⟨hnext, hall⟩ hpq
    refine ⟨Nat.le_trans hnext (step_grows hpq).2.1, fun v hv => ?_⟩
    rcases step_live hpq hv with hv | hv
    · exact hall v hv
    · exact Nat.le_trans hnext hv
  -- cut the run at `s` and at `t`: the step after `t` fires the timer
  obtain ⟨w, hw, hrest⟩ := run_append_eq_some.mp h
  rw [hs] at hw
  cases hw
  obtain ⟨w, hw, hrest⟩ := run_append_eq_some.mp hrest
  rw [ht] at hw
  cases hw
  rw [run_cons, Option.bind_eq_some_iff] at hrest
  obtain ⟨x, hx, -⟩ := hrest
  obtain ⟨ts, hts, -⟩ := Option.map_eq_some_iff.mp hx
  obtain ⟨⟨v, hv, rfl, -⟩, -⟩ := Timers.fire_eq_some.mp hts
  exact hyoung.2 v hv

/-- **What the breaker keeps of its contract.** In every run that reports errors only while the
breaker is closed, an opening lasts until `success()` or the end of its break time, and no timer
outlives the opening that armed it. -/
theorem staysOpen_of_errors_while_closed (now max breakMs : Nat) (as : List Action)
    (u : FixedTimeCircuitBreaker) (hrun : run step (new now max breakMs) as = some u)
    (hg : Guarded step ErrorWhileClosed (new now max breakMs) as) :
    StaysOpen (new now max breakMs) as ∧ NoStaleClose (new now max breakMs) as :=
  ⟨staysOpen_of_guarded (oneTimer_new now max breakMs) hg,
    noStaleClose_of_guarded (oneTimer_new now max breakMs) hg hrun⟩

/-- The contract at a breaker that opens twice, once on each side of an expired break. -/
theorem staysOpen_of_two_openings :
    StaysOpen (new 0 2 1000) [.error, .error, .wait 1000, .expire 0, .error, .wait 1500] ∧
      NoStaleClose (new 0 2 1000) [.error, .error, .wait 1000, .expire 0, .error, .wait 1500] :=
  staysOpen_of_errors_while_closed 0 2 1000
    [.error, .error, .wait 1000, .expire 0, .error, .wait 1500] _ rfl (by decide)

/-- An error reported while the breaker is open breaks the contract: the timer of the first error
closes the breaker half a break time after the second. -/
theorem not_staysOpen_of_error_while_open :
    ¬ StaysOpen (new 0) [.error, .error, .error, .error, .wait 5000, .error, .wait 10000,
        .expire 0] := by
  intro h
  have hopen := h [.error, .error, .error, .error, .wait 5000] [.wait 10000, .expire 0] [] rfl
    _ _ rfl rfl rfl (by decide) (by decide)
  exact absurd hopen (by decide)

/-- The timer that an error arms on top of an opening is never the one that ends it: after
`success()` the older timer is still armed, ready to close a later opening. -/
theorem stale_timer_of_error_while_open {b : FixedTimeCircuitBreaker} {t : Timer}
    (hl : b.timers.live = [t]) (hid : t.id < b.timers.nextId)
    (hmax : b.maxErrorsBeforeBreaking ≤ b.errorCount + 1) :
    b.error.success.state = .CLOSED ∧ t ∈ b.error.success.timers.live := by
  refine ⟨state_success _, ?_⟩
  rcases b.error_cases with ⟨hlt, -⟩ | ⟨-, he⟩
  · omega
  · rw [he, success, closeCircuit_of_open rfl]
    simp [openCircuit, hl, Nat.ne_of_lt hid]

end FixedTimeCircuitBreaker

/-! ## The breaker shared by all code suggestion requests -/

/-- `DefaultSuggestionApiErrorCheck`: the state check `SUGGESTIONS_API_ERROR`, which is engaged
while its breaker is open. -/
structure DefaultSuggestionApiErrorCheck where
  circuitBreaker : FixedTimeCircuitBreaker
  deriving DecidableEq, Repr

namespace DefaultSuggestionApiErrorCheck

def new (now : Nat) : DefaultSuggestionApiErrorCheck := ⟨FixedTimeCircuitBreaker.new now⟩

def engaged (c : DefaultSuggestionApiErrorCheck) : Bool := c.circuitBreaker.isOpen

def id : String := "code-suggestions-api-error"

def details : String := "Error requesting suggestions from the API."

def error (c : DefaultSuggestionApiErrorCheck) : DefaultSuggestionApiErrorCheck :=
  ⟨c.circuitBreaker.error⟩

def success (c : DefaultSuggestionApiErrorCheck) : DefaultSuggestionApiErrorCheck :=
  ⟨c.circuitBreaker.success⟩

def isOpen (c : DefaultSuggestionApiErrorCheck) : Bool := c.circuitBreaker.isOpen

end DefaultSuggestionApiErrorCheck
end KhulnasoftLsp.CircuitBreaker
