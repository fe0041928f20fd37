import KhulnasoftLsp.Throttle
import KhulnasoftLsp.Transition
import Mathlib.Data.List.Chain

/-!
# Feature flags of the instance

`updateInstanceFeatureFlags` is throttled, and what is throttled is the method itself: it calls the
throttled function, which invokes it again. A call fetches the flags only if the throttled function
returns nothing, and it does so only until the first fetch has begun. `throttles_iff` says what is
left of the throttling, `refetches_eq` how often the flags are fetched.
-/

namespace KhulnasoftLsp.FeatureFlags

open Transition

/-- The time after which the flags are fetched again. -/
def throttleWait : Nat := 5000

/-- The service and its throttled function. -/
structure FeatureFlagService (T : Throttle) where
  throttle : T.State
  /-- The promise that the throttled function returned last. -/
  result : Option Nat
  now : Nat
  /-- When the flags were fetched. The last time comes first, and each fetch has a promise. -/
  refetches : List Nat

inductive FlagsAction where
  | updateInstanceFeatureFlags (time : Nat)
  /-- The timeout of the throttled function ends. -/
  | timerExpired (time : Nat)
  deriving DecidableEq, Repr

def FlagsAction.IsTimer : FlagsAction → Prop
  | .updateInstanceFeatureFlags _ => False
  | .timerExpired _ => True

namespace FeatureFlagService

variable {T : Throttle}

def new : FeatureFlagService T := ⟨T.new, none, 0, []⟩

/-- The promise that is returned, if the calls do not nest deeper. -/
def updateInstanceFeatureFlags (depth time : Nat) (s : FeatureFlagService T) :
    Option (Nat × FeatureFlagService T) :=
  match depth with
  | 0 => none
  | depth + 1 =>
    let called := T.call time s.throttle
    let s := { s with throttle := called.2 }
    if called.1 then
      (s.updateInstanceFeatureFlags depth time).map fun returned =>
        (returned.1, { returned.2 with result := some returned.1 })
    else
      match s.result with
      | some promise => some (promise, s)
      | none => some (s.refetches.length, { s with refetches := time :: s.refetches })

/-- The calls nest twice at most. -/
def step (s : FeatureFlagService T) : FlagsAction → Option (FeatureFlagService T)
  | .updateInstanceFeatureFlags time =>
    if s.now ≤ time then
      ({ s with now := time }.updateInstanceFeatureFlags 2 time).map Prod.snd
    else none
  | .timerExpired time =>
    if s.now ≤ time ∧ (T.timer s.throttle).any (· ≤ time) then
      let expired := T.timerExpired time s.throttle
      let s := { s with throttle := expired.2, now := time }
      if expired.1 then
        (s.updateInstanceFeatureFlags 2 time).map fun returned =>
          { returned.2 with result := some returned.1 }
      else some s
    else none

/-! ## What is claimed of the calls -/

/-- The flags are fetched again by a call that comes late enough, and not before; after the last
call, the timeout ends only so often. -/
structure Throttles (actions : List FlagsAction) (s : FeatureFlagService T) : Prop where
  late : ∀ before after time (t u : FeatureFlagService T),
    actions = before ++ .updateInstanceFeatureFlags time :: after →
    run step new before = some t → t.step (.updateInstanceFeatureFlags time) = some u →
    ∀ refetch ∈ t.refetches.head?, refetch + throttleWait ≤ time →
      u.refetches = time :: t.refetches
  apart : s.refetches.IsChain fun later earlier => earlier + throttleWait ≤ later
  finite : ∃ n, ∀ (timers : List FlagsAction) (t : FeatureFlagService T),
    (∀ a ∈ timers, a.IsTimer) → run step s timers = some t → timers.length ≤ n

/-! ## One call -/

variable {s t : FeatureFlagService T}

/-- The flags are fetched by a call to which the throttled function returns nothing. -/
def refetch (time : Nat) (s : FeatureFlagService T) : FeatureFlagService T :=
  match s.result with
  | some _ => s
  | none => { s with refetches := time :: s.refetches }

/-- The promise that is returned by such a call, or by any other. -/
def promise (s : FeatureFlagService T) : Nat := s.result.getD s.refetches.length

theorem update_of_not_invoked {time : Nat} (depth : Nat) (h : (T.call time s.throttle).1 = false) :
    s.updateInstanceFeatureFlags (depth + 1) time =
      some (s.promise, { s with throttle := (T.call time s.throttle).2 }.refetch time) := by
  rw [updateInstanceFeatureFlags]
  dsimp only
  rw [h, if_neg Bool.false_ne_true, promise, refetch]
  cases s.result with
  | none => rfl
  | some promise => rfl

/-- The method is invoked, and calls the throttled function once more. -/
theorem update_of_invoked (hT : T.Lawful) {time : Nat} (depth : Nat)
    (h : (T.call time s.throttle).1 = true) :
    s.updateInstanceFeatureFlags (depth + 2) time =
      some (s.promise,
        { { s with throttle := (T.call time (T.call time s.throttle).2).2 }.refetch time with
          result := some s.promise }) := by
  have hnested := update_of_not_invoked (s := { s with throttle := (T.call time s.throttle).2 })
    depth (hT.once time s.throttle h)
  rw [updateInstanceFeatureFlags]
  dsimp only
  rw [if_pos h, hnested]
  rfl

/-- More room for nested calls makes no difference. -/
theorem update_eq (hT : T.Lawful) (depth time : Nat) :
    s.updateInstanceFeatureFlags (depth + 2) time = s.updateInstanceFeatureFlags 2 time := by
  cases hcall : (T.call time s.throttle).1 with
  | true => rw [update_of_invoked hT depth hcall, update_of_invoked hT 0 hcall]
  | false => rw [update_of_not_invoked (depth + 1) hcall, update_of_not_invoked 1 hcall]

/-- The timeout runs, and the method will be invoked when it ends. -/
structure Restless (s : FeatureFlagService T) : Prop where
  timer : (T.timer s.throttle).isSome
  called : T.called s.throttle = true

/-- What a call does. -/
structure Updated (s t : FeatureFlagService T) (time : Nat) : Prop where
  restless : t.Restless
  refetches : t.refetches = if s.result.isSome then s.refetches else time :: s.refetches
  result : s.result.isSome → t.result.isSome

theorem updated_refetch {time : Nat} {throttle : T.State}
    (htimer : (T.timer throttle).isSome) (hcalled : T.called throttle = true) :
    Updated s ({ s with throttle }.refetch time) time := by
  rw [refetch]
  cases hresult : s.result with
  | none => exact ⟨⟨htimer, hcalled⟩, by simp [hresult], by simp [hresult]⟩
  | some promise => exact ⟨⟨htimer, hcalled⟩, by simp [hresult], by simp [hresult]⟩

theorem exists_update (hT : T.Lawful) (s : FeatureFlagService T) (time : Nat) :
    ∃ promise t, s.updateInstanceFeatureFlags 2 time = some (promise, t) ∧ Updated s t time ∧
      ((T.call time s.throttle).1 = true → t.result.isSome) := by
  cases hcall : (T.call time s.throttle).1 with
  | true =>
    refine ⟨_, _, update_of_invoked hT 0 hcall, ?_, fun _ => rfl⟩
    have hnested := hT.once time s.throttle hcall
    have hrefetched : Updated s ({ s with
        throttle := (T.call time (T.call time s.throttle).2).2 }.refetch time) time :=
      updated_refetch (hT.timer_call time _) (hT.called_call time _ hnested)
    exact ⟨⟨hrefetched.restless.timer, hrefetched.restless.called⟩, hrefetched.refetches,
      fun _ => rfl⟩
  | false =>
    refine ⟨_, _, update_of_not_invoked 1 hcall, ?_, fun h => by cases h⟩
    exact updated_refetch (hT.timer_call time _) (hT.called_call time _ hcall)

theorem updated_of_step (hT : T.Lawful) {time : Nat}
    (h : s.step (.updateInstanceFeatureFlags time) = some t) :
    Updated s t time ∧ ((T.call time s.throttle).1 = true → t.result.isSome) := by
  obtain ⟨-, hmap⟩ := Option.ite_none_right_eq_some.mp h
  obtain ⟨promise, u, hupdate, hupdated, hinvoked⟩ := exists_update hT { s with now := time } time
  rw [hupdate] at hmap
  cases hmap
  exact ⟨⟨hupdated.restless, hupdated.refetches, hupdated.result⟩, hinvoked⟩

/-- The timeout ends: the method is invoked, or not. -/
theorem expired_of_step (hT : T.Lawful) {time : Nat} (h : s.step (.timerExpired time) = some t) :
    (t.Restless ∧ t.result.isSome ∧
      t.refetches = if s.result.isSome then s.refetches else time :: s.refetches) ∨
    ((T.timerExpired time s.throttle).1 ≠ true ∧
      t = { s with throttle := (T.timerExpired time s.throttle).2, now := time }) := by
  obtain ⟨-, hmap⟩ := Option.ite_none_right_eq_some.mp h
  dsimp only at hmap
  split at hmap
  · left
    obtain ⟨promise, u, hupdate, hupdated, -⟩ := exists_update hT
      { s with throttle := (T.timerExpired time s.throttle).2, now := time } time
    rw [hupdate] at hmap
    cases hmap
    exact ⟨⟨hupdated.restless.timer, hupdated.restless.called⟩, rfl, hupdated.refetches⟩
  · next hkept =>
    cases hmap
    exact Or.inr ⟨hkept, rfl⟩

/-! ## Runs -/

/-- After the first fetch, the flags are not fetched again. -/
theorem step_of_result (hT : T.Lawful) {a : FlagsAction} (hresult : s.result.isSome)
    (hstep : s.step a = some t) : t.result.isSome ∧ t.refetches = s.refetches := by
  cases a with
  | updateInstanceFeatureFlags time =>
    obtain ⟨hupdated, -⟩ := updated_of_step hT hstep
    exact ⟨hupdated.result hresult, hupdated.refetches.trans (if_pos hresult)⟩
  | timerExpired time =>
    rcases expired_of_step hT hstep with ⟨-, hreturned, hrefetches⟩ | ⟨-, rfl⟩
    · exact ⟨hreturned, hrefetches.trans (if_pos hresult)⟩
    · exact ⟨hresult, rfl⟩

theorem step_first (hT : T.Lawful) {a : FlagsAction}
    (hstep : (new : FeatureFlagService T).step a = some t) :
    ∃ time, a = .updateInstanceFeatureFlags time ∧ t.result.isSome ∧ t.refetches = [time] ∧
      t.Restless := by
  cases a with
  | updateInstanceFeatureFlags time =>
    obtain ⟨hupdated, hinvoked⟩ := updated_of_step hT hstep
    exact ⟨time, rfl, hinvoked (hT.leading time), hupdated.refetches, hupdated.restless⟩
  | timerExpired time =>
    have hnone : (T.timer (new : FeatureFlagService T).throttle).any (· ≤ time) = false := by
      show (T.timer T.new).any _ = false
      rw [hT.timer_new]
      rfl
    rw [step, hnone, if_neg (by simp)] at hstep
    cases hstep

/-- The flags are fetched by the first call, and never again. -/
theorem refetches_eq (hT : T.Lawful) {time : Nat} {actions : List FlagsAction}
    (h : run step new (.updateInstanceFeatureFlags time :: actions) = some s) :
    s.refetches = [time] := by
  rw [run_cons, Option.bind_eq_some_iff] at h
  obtain ⟨t, ht, hrest⟩ := h
  obtain ⟨time', heq, hresult, hrefetches, -⟩ := step_first hT ht
  cases heq
  have hkept : s.result.isSome ∧ s.refetches = [time] := by
    apply run_invariant _ ⟨hresult, hrefetches⟩ hrest
    intro s a t hs hstep
    obtain ⟨hresult', hrefetches'⟩ := step_of_result hT hs.1 hstep
    exact ⟨hresult', hrefetches'.trans hs.2⟩
  exact hkept.2

theorem Restless.of_step (hT : T.Lawful) {a : FlagsAction} (h : s.Restless)
    (hstep : s.step a = some t) : t.Restless := by
  cases a with
  | updateInstanceFeatureFlags time => exact (updated_of_step hT hstep).1.restless
  | timerExpired time =>
    rcases expired_of_step hT hstep with ⟨hrestless, -⟩ | ⟨hkept, rfl⟩
    · exact hrestless
    · obtain ⟨htimer, hcalled⟩ := (hT.trailing time s.throttle h.called).resolve_left hkept
      exact ⟨htimer, hcalled⟩

/-- The timeout ends some time. -/
theorem Restless.exists_timer (hT : T.Lawful) (h : s.Restless) :
    ∃ time t, s.step (.timerExpired time) = some t := by
  obtain ⟨due, hdue⟩ := Option.isSome_iff_exists.mp h.timer
  have hguard : s.now ≤ max s.now due ∧
      (T.timer s.throttle).any (· ≤ max s.now due) = true := by
    rw [hdue]
    exact ⟨Nat.le_max_left _ _, decide_eq_true (Nat.le_max_right _ _)⟩
  refine ⟨max s.now due, ?_⟩
  rw [step, if_pos hguard]
  dsimp only
  split
  · obtain ⟨promise, u, hupdate, -⟩ := exists_update hT
      { s with throttle := (T.timerExpired (max s.now due) s.throttle).2, now := max s.now due }
      (max s.now due)
    rw [hupdate]
    exact ⟨_, rfl⟩
  · exact ⟨_, rfl⟩

/-- Once called, the timeout ends again and again. -/
theorem Restless.exists_timers (hT : T.Lawful) (h : s.Restless) (n : Nat) :
    ∃ (timers : List FlagsAction) (t : FeatureFlagService T), timers.length = n ∧
      (∀ a ∈ timers, a.IsTimer) ∧ run step s timers = some t := by
  induction n generalizing s with
  | zero => exact ⟨[], s, rfl, List.forall_mem_nil _, rfl⟩
  | succ n ih =>
    obtain ⟨time, t, ht⟩ := h.exists_timer hT
    obtain ⟨timers, u, hlength, htimers, hu⟩ := ih (h.of_step hT ht)
    refine ⟨.timerExpired time :: timers, u, by rw [List.length_cons, hlength], ?_, ?_⟩
    · intro a ha
      rcases List.mem_cons.mp ha with heq | hmem
      · rw [heq]
        trivial
      · exact htimers a hmem
    · rw [run_cons, ht]
      exact hu

/-- The calls throttle nothing rightly unless there are none: once the method has been called, the
timeout never ceases to be armed. -/
theorem throttles_iff (throttle : Nat → Throttle)
    (hthrottle : (throttle throttleWait).Lawful) (actions : List FlagsAction)
    (s : FeatureFlagService (throttle throttleWait)) (h : run step new actions = some s) :
    Throttles actions s ↔ actions = [] := by
  constructor
  · intro hthrottles
    cases actions with
    | nil => rfl
    | cons a actions =>
      rw [run_cons, Option.bind_eq_some_iff] at h
      obtain ⟨t, ht, hrest⟩ := h
      obtain ⟨time, -, -, -, hrestless⟩ := step_first hthrottle ht
      have hs : s.Restless :=
        run_invariant (fun _ _ _ hs hstep => hs.of_step hthrottle hstep) hrestless hrest
      obtain ⟨n, hn⟩ := hthrottles.finite
      obtain ⟨timers, u, hlength, htimers, hu⟩ := hs.exists_timers hthrottle (n + 1)
      have hle := hn timers u htimers hu
      omega
  · rintro rfl
    cases h
    refine ⟨?_, List.isChain_nil, 0, ?_⟩
    · intro before after time t u hactions
      simp at hactions
    · intro timers t htimers hrun
      cases timers with
      | nil => exact Nat.le_refl 0
      | cons a timers =>
        rw [run_cons, Option.bind_eq_some_iff] at hrun
        obtain ⟨u, hu, -⟩ := hrun
        obtain ⟨time, rfl, -⟩ := step_first hthrottle hu
        exact absurd (htimers _ List.mem_cons_self) id

/-- The method is called again after ten seconds. -/
def sampleCalls : List FlagsAction :=
  [.updateInstanceFeatureFlags 0, .timerExpired 5000, .updateInstanceFeatureFlags 10000]

theorem throttles_iff_sampleCalls :
    ∃ s : FeatureFlagService (Throttle.leadingAndTrailing throttleWait),
      run step new sampleCalls = some s ∧ (Throttles sampleCalls s ↔ sampleCalls = []) := by
  obtain ⟨s, hs⟩ : ∃ s : FeatureFlagService (Throttle.leadingAndTrailing throttleWait),
      run step new sampleCalls = some s := Option.isSome_iff_exists.mp (by decide +kernel)
  exact ⟨s, hs, throttles_iff Throttle.leadingAndTrailing
    (Throttle.lawful_leadingAndTrailing (by decide)) sampleCalls s hs⟩

/-- The second call does not fetch the flags. -/
theorem not_throttles_sampleCalls :
    ¬ ∀ (actions : List FlagsAction)
      (s : FeatureFlagService (Throttle.leadingAndTrailing throttleWait)),
      run step new actions = some s → Throttles actions s := by
  intro h
  have hsome : (run step (new : FeatureFlagService (Throttle.leadingAndTrailing throttleWait))
      sampleCalls).isSome := by
    decide +kernel
  obtain ⟨u, hu⟩ := Option.isSome_iff_exists.mp hsome
  have hrun := hu
  rw [show sampleCalls = sampleCalls.take 2 ++ [.updateInstanceFeatureFlags 10000] from rfl,
    run_concat_eq_some] at hrun
  obtain ⟨t, ht, hstep⟩ := hrun
  have hbefore : t.refetches = [0] :=
    refetches_eq (Throttle.lawful_leadingAndTrailing (by decide)) ht
  have hafter : u.refetches = [0] :=
    refetches_eq (Throttle.lawful_leadingAndTrailing (by decide)) hu
  have hlate := (h sampleCalls u hu).late (sampleCalls.take 2) [] 10000 t u rfl ht hstep 0
  rw [hbefore, hafter] at hlate
  have hrefetched := hlate rfl (by decide)
  cases hrefetched

end FeatureFlagService
end KhulnasoftLsp.FeatureFlags
