import KhulnasoftLsp.SuggestionClient.DirectConnection

/-!
# The back-off of direct suggestion requests

The breaker counts every failure of a direct request, and a success should set the count back.
`getSuggestions` never says so to the breaker: only a reconfiguration of the API does. Without
one, a failure is punished for all failures that ever were, and `backoffSinceSuccess_iff` says in
which runs that makes no difference.
-/

namespace KhulnasoftLsp.SuggestionClient

open CircuitBreaker Transition

namespace Action

/-- The action is the end of a suggestion request that failed. -/
def isFailure : Action → Bool
  | .suggestions _ (.error _) => true
  | _ => false

/-- One more failure, or a success that sets the count back. -/
def countFailure (n : Nat) : Action → Nat
  | .suggestions _ (.error _) => n + 1
  | .suggestions _ (.ok _) => 0
  | _ => n

def isReconfiguration : Action → Bool
  | .apiReconfigured _ => true
  | _ => false

end Action

/-- How many suggestion requests of the run have failed. -/
def failures (as : List Action) : Nat := as.countP Action.isFailure

/-- How many have failed since the last one that succeeded. -/
def failuresSinceSuccess (as : List Action) : Nat := as.foldl Action.countFailure 0

theorem failuresSinceSuccess_concat (as : List Action) (a : Action) :
    failuresSinceSuccess (as ++ [a]) = a.countFailure (failuresSinceSuccess as) := by
  simp [failuresSinceSuccess]

theorem failures_concat (as : List Action) (a : Action) :
    failures (as ++ [a]) = failures as + if a.isFailure then 1 else 0 := by
  simp [failures, List.countP_append, List.countP_singleton]

theorem failuresSinceSuccess_le_failures (as : List Action) :
    failuresSinceSuccess as ≤ failures as := by
  induction as using List.reverseRecOn with
  | nil => exact Nat.le_refl 0
  | append_singleton as a ih =>
      rw [failuresSinceSuccess_concat, failures_concat]
      unfold Action.countFailure Action.isFailure
      grind

/-! ## The counter of the breaker -/

/-- The back-off of the `n`-th failure in a row: a second, then five times as long each time, up
to ten minutes. -/
def backoffOfFailures (n : Nat) : Nat := min (second * 5 ^ (n - 1)) (10 * minute)

/-- The first four back-offs differ, and from the fifth failure on it is ten minutes. -/
theorem backoffOfFailures_eq_iff {m n : Nat} (h : m ≤ n) :
    backoffOfFailures (n + 1) = backoffOfFailures (m + 1) ↔ n = m ∨ 4 ≤ m := by
  have hcap : ∀ k, 4 ≤ k → backoffOfFailures (k + 1) = 10 * minute := by
    intro k hk
    have hpow : 5 ^ 4 ≤ 5 ^ k := Nat.pow_le_pow_right (by decide) hk
    simp only [backoffOfFailures, second, minute, Nat.add_sub_cancel]
    omega
  constructor
  · intro heq
    by_contra hne
    obtain ⟨hnm, hm⟩ := not_or.mp hne
    -- below the cap the back-off still grows by a factor of five
    have hstep : 5 ^ (m + 1) ≤ 5 ^ n := Nat.pow_le_pow_right (by decide) (by omega)
    have hsmall : 5 ^ m ≤ 5 ^ 3 := Nat.pow_le_pow_right (by decide) (by omega)
    have hpos : 0 < 5 ^ m := Nat.pow_pos (by decide)
    rw [Nat.pow_succ] at hstep
    simp only [backoffOfFailures, second, minute, Nat.add_sub_cancel] at heq
    omega
  · rintro (rfl | hm)
    · rfl
    · rw [hcap m hm, hcap n (by omega)]

/-- The breaker of the suggestions has the limits that the client gave it, and has counted `n`
errors. -/
def Counted (n : Nat) (s : System) : Prop :=
  s.client.directConnectionCircuitBreaker.errorCount = n ∧
    ExponentialBackoffCircuitBreaker.SameLimits (.new 0 second (10 * minute) 5)
      s.client.directConnectionCircuitBreaker

theorem Counted.backoffMs {n : Nat} {s : System} (h : Counted n s) (k : Nat) :
    s.client.directConnectionCircuitBreaker.backoffMs k = backoffOfFailures k := by
  rw [h.2.backoffMs k]
  exact ExponentialBackoffCircuitBreaker.backoffMs_natCast (m := 5) (by simp [
    ExponentialBackoffCircuitBreaker.new]) k

/-- Without a reconfiguration, the breaker counts the failures and forgets none. -/
theorem Counted.step {n : Nat} {s t : System} {a : Action} (hs : Counted n s)
    (ha : a.isReconfiguration = false) (h : System.step s a = some t) :
    Counted (n + if a.isFailure then 1 else 0) t := by
  obtain ⟨hcount, hsame⟩ := hs
  cases a with
  | getSuggestions context =>
      cases h
      rw [Counted, System.client_getSuggestions]
      exact ⟨hcount, hsame⟩
  | details id result =>
      obtain ⟨r, -, -, rfl⟩ := System.step_details h
      cases result <;> exact ⟨hcount, hsame⟩
  | suggestions id result =>
      obtain rfl := System.step_suggestions h
      cases result with
      | ok response => exact ⟨hcount, hsame⟩
      | error e =>
          refine ⟨?_, hsame.error⟩
          show (s.client.directConnectionCircuitBreaker.error).errorCount = n + 1
          rw [ExponentialBackoffCircuitBreaker.errorCount_error, hcount]
  | apiReconfigured isInValidState => cases ha
  | wait u =>
      obtain ⟨details, direct, -, hdirect, rfl⟩ := System.step_wait h
      obtain ⟨ts, -, rfl⟩ := Option.map_eq_some_iff.mp hdirect
      exact ⟨hcount, hsame⟩
  | detailsExpire id =>
      obtain ⟨b, -, rfl⟩ := Option.map_eq_some_iff.mp h
      exact ⟨hcount, hsame⟩
  | directExpire id =>
      obtain ⟨b, hb, rfl⟩ := Option.map_eq_some_iff.mp h
      obtain ⟨ts, -, rfl⟩ := Option.map_eq_some_iff.mp hb
      constructor
      · show ExponentialBackoffCircuitBreaker.errorCount (.closeCircuit _) = n
        rw [ExponentialBackoffCircuitBreaker.errorCount_closeCircuit]
        exact hcount
      · exact ExponentialBackoffCircuitBreaker.SameLimits.closeCircuit
          (c := { s.client.directConnectionCircuitBreaker with timers := ts }) hsame

theorem counted_of_run {now : Nat} {as : List Action} {s : System}
    (hrun : run System.step (.new now) as = some s)
    (has : ∀ a ∈ as, a.isReconfiguration = false) : Counted (failures as) s := by
  revert has
  apply run_trace
    (I := fun as s => (∀ a ∈ as, a.isReconfiguration = false) → Counted (failures as) s) _ _ hrun
  · intro _
    exact ⟨rfl, rfl, rfl, rfl⟩
  · intro as s a t ih hstep has
    rw [failures_concat]
    apply Counted.step _ (has a (by simp)) hstep
    exact ih fun b hb => has b (List.mem_append_left _ hb)

/-! ## What a failure arms -/

/-- Every timer that a failed suggestion request of the run arms is due after the back-off for
the failures since the last success. -/
def BackoffSinceSuccess (now : Nat) (as : List Action) : Prop :=
  ∀ before id e after, as = before ++ .suggestions id (.error e) :: after →
    ∀ s t, run System.step (.new now) before = some s →
      System.step s (.suggestions id (.error e)) = some t →
        ∀ timer, t.client.directConnectionCircuitBreaker.timers.live =
            s.client.directConnectionCircuitBreaker.timers.live ++ [timer] →
          timer.due = s.client.now + backoffOfFailures (failuresSinceSuccess before + 1)

/-- At every failure that finds the circuit closed, either no request had failed before the last
success, or four have failed since. -/
def FailuresCapped (now : Nat) (as : List Action) : Prop :=
  ∀ before id e after, as = before ++ .suggestions id (.error e) :: after →
    ∀ s, run System.step (.new now) before = some s →
      s.client.directConnectionCircuitBreaker.isOpen = false →
        failures before = failuresSinceSuccess before ∨ 4 ≤ failuresSinceSuccess before

/-- The breaker arms the back-off of all the failures there were. -/
theorem live_of_failure {n id : Nat} {e : RequestError} {s t : System} (hs : Counted n s)
    (h : System.step s (.suggestions id (.error e)) = some t) :
    t.client.directConnectionCircuitBreaker.timers.live =
      s.client.directConnectionCircuitBreaker.timers.live ++
        if s.client.directConnectionCircuitBreaker.isOpen then []
        else [⟨s.client.directConnectionCircuitBreaker.timers.nextId,
          s.client.now + backoffOfFailures (n + 1)⟩] := by
  obtain rfl := System.step_suggestions h
  show (s.client.directConnectionCircuitBreaker.error).timers.live = _
  rw [ExponentialBackoffCircuitBreaker.live_error, hs.backoffMs, hs.1]
  rfl

/-- **What the back-off keeps of its contract.** In a run without a reconfiguration, the back-offs
depend on the failures since the last success alone if and only if each failure that arms one
comes before any success that had failures to forget, or in a row of five or more. -/
theorem backoffSinceSuccess_iff (now : Nat) (as : List Action) (u : System)
    (hrun : run System.step (.new now) as = some u)
    (has : ∀ a ∈ as, a.isReconfiguration = false) :
    BackoffSinceSuccess now as ↔ FailuresCapped now as := by
  have hcounted : ∀ before a after s, as = before ++ a :: after →
      run System.step (.new now) before = some s → Counted (failures before) s := by
    rintro before a after s rfl hs
    exact counted_of_run hs fun b hb => has b (List.mem_append_left _ hb)
  constructor
  · rintro hlaw before id e after rfl s hs hclosed
    have hcount := hcounted before _ after s rfl hs
    obtain ⟨s', hs', hrest⟩ := run_append_eq_some.mp hrun
    rw [hs] at hs'
    cases hs'
    rw [run_cons, Option.bind_eq_some_iff] at hrest
    obtain ⟨t, ht, -⟩ := hrest
    have hlive := live_of_failure hcount ht
    rw [hclosed] at hlive
    have hdue := hlaw before id e after rfl s t hs ht _ hlive
    apply (backoffOfFailures_eq_iff (failuresSinceSuccess_le_failures before)).mp
    simpa using hdue
  · rintro hcap before id e after has' s t hs ht timer htimer
    have hlive := live_of_failure (hcounted before _ after s has' hs) ht
    rw [htimer] at hlive
    have hnew := List.append_cancel_left hlive
    cases hclosed : s.client.directConnectionCircuitBreaker.isOpen with
    | true => simp [hclosed] at hnew
    | false =>
        obtain rfl : timer = _ := by simpa [hclosed] using hnew
        have hle := failuresSinceSuccess_le_failures before
        show s.client.now + backoffOfFailures (failures before + 1) = _
        rw [(backoffOfFailures_eq_iff hle).mpr (hcap before id e after has' s hs hclosed)]

/-- One failure, and a success after it: nothing had failed before. -/
theorem backoffSinceSuccess_of_one_failure :
    BackoffSinceSuccess 0 [.getSuggestions sampleContext, .details 0 (.ok (sampleDetails "a")),
      .getSuggestions sampleContext, .getSuggestions sampleContext,
      .suggestions 0 (.error .other), .suggestions 1 (.ok none)] := by
  apply (backoffSinceSuccess_iff 0
    [.getSuggestions sampleContext, .details 0 (.ok (sampleDetails "a")),
      .getSuggestions sampleContext, .getSuggestions sampleContext,
      .suggestions 0 (.error .other), .suggestions 1 (.ok none)] _ rfl (by decide)).mpr
  intro before id e after has s _ _
  have hone : 1 = failures before + (failures after + 1) := by
    simpa [failures, List.countP_cons, Action.isFailure] using congrArg failures has
  have hle := failuresSinceSuccess_le_failures before
  omega

/-- A failure, its back-off, a success, and then a failure whose back-off is five seconds. -/
theorem not_backoffSinceSuccess_of_success :
    ¬ BackoffSinceSuccess 0 [.getSuggestions sampleContext,
      .details 0 (.ok (sampleDetails "a")), .getSuggestions sampleContext,
      .suggestions 0 (.error .other), .wait 1000, .directExpire 0,
      .getSuggestions sampleContext, .suggestions 1 (.ok none),
      .getSuggestions sampleContext, .suggestions 2 (.error .other)] := by
  intro h
  have harmed : ∀ s ∈ run System.step (.new 0) [.getSuggestions sampleContext,
      .details 0 (.ok (sampleDetails "a")), .getSuggestions sampleContext,
      .suggestions 0 (.error .other), .wait 1000, .directExpire 0,
      .getSuggestions sampleContext, .suggestions 1 (.ok none), .getSuggestions sampleContext],
      ∀ t ∈ System.step s (.suggestions 2 (.error .other)), s.client.now = 1000 ∧
        t.client.directConnectionCircuitBreaker.timers.live =
          s.client.directConnectionCircuitBreaker.timers.live ++ [⟨1, 6000⟩] := by
    decide +kernel
  obtain ⟨t, ht⟩ : ∃ t, run System.step (.new 0) ([.getSuggestions sampleContext,
      .details 0 (.ok (sampleDetails "a")), .getSuggestions sampleContext,
      .suggestions 0 (.error .other), .wait 1000, .directExpire 0,
      .getSuggestions sampleContext, .suggestions 1 (.ok none),
      .getSuggestions sampleContext] ++ [.suggestions 2 (.error .other)]) = some t :=
    Option.isSome_iff_exists.mp (by decide +kernel)
  obtain ⟨s, hs, hst⟩ := run_concat_eq_some.mp ht
  obtain ⟨hnow, hlive⟩ := harmed s hs t hst
  have hdue : 6000 = s.client.now + backoffOfFailures 1 :=
    h _ 2 .other [] rfl s t hs hst ⟨1, 6000⟩ hlive
  rw [hnow] at hdue
  exact absurd hdue (by decide)

end KhulnasoftLsp.SuggestionClient
