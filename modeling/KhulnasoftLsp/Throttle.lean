import Mathlib.Data.Bool.Basic

/-!
# Throttled functions

A throttled function decides, whenever it is called, whether the function behind it is invoked at
once, and so does its timeout when it ends. What is said of it here leaves open what the function
does, so that it may call the throttled function itself. `Lawful` is what is promised of throttling
on the leading and on the trailing edge, `leadingAndTrailing` the usual way to do it.
-/

structure Throttle where
  State : Type
  new : State
  /-- The throttled function is called at some time: whether the function is invoked. -/
  call : Nat → State → Bool × State
  /-- The timeout has ended: whether the function is invoked. -/
  timerExpired : Nat → State → Bool × State
  /-- When the timeout ends, if it runs. -/
  timer : State → Option Nat
  /-- The throttled function has been called since the function was invoked. -/
  called : State → Bool

namespace Throttle

structure Lawful (T : Throttle) : Prop where
  timer_new : T.timer T.new = none
  /-- The function is invoked on the leading edge. -/
  leading : ∀ time, (T.call time T.new).1 = true
  /-- It is not invoked twice by calls at the same time. -/
  once : ∀ time s, (T.call time s).1 = true → (T.call time (T.call time s).2).1 = false
  /-- The timeout runs after a call. -/
  timer_call : ∀ time s, (T.timer (T.call time s).2).isSome
  called_call : ∀ time s, (T.call time s).1 = false → T.called (T.call time s).2 = true
  /-- The function is invoked on the trailing edge if the throttled function has been called, or the
  timeout goes on. -/
  trailing : ∀ time s, T.called s = true → (T.timerExpired time s).1 = true ∨
    ((T.timer (T.timerExpired time s).2).isSome ∧ T.called (T.timerExpired time s).2 = true)

/-- The variables of a throttled function. -/
structure Variables where
  lastArgs : Bool
  lastCallTime : Option Nat
  lastInvokeTime : Nat
  timerId : Option Nat
  deriving DecidableEq, Repr

namespace Variables

variable (wait time : Nat) (v : Variables)

def shouldInvoke : Bool :=
  match v.lastCallTime with
  | none => true
  | some lastCallTime =>
    decide (wait ≤ time - lastCallTime) || decide (time < lastCallTime) ||
      decide (wait ≤ time - v.lastInvokeTime)

def remainingWait : Nat :=
  min (wait - (time - v.lastCallTime.getD 0)) (wait - (time - v.lastInvokeTime))

def invokeFunc : Variables := { v with lastArgs := false, lastInvokeTime := time }

def debounced : Bool × Variables :=
  let isInvoking := v.shouldInvoke wait time
  let v := { v with lastArgs := true, lastCallTime := some time }
  -- on the leading edge, and when the timeout has not ended in time
  if isInvoking then (true, { v with timerId := some (time + wait) }.invokeFunc time)
  else (false, { v with timerId := some (v.timerId.getD (time + wait)) })

def timerExpired : Bool × Variables :=
  if v.shouldInvoke wait time then
    let v := { v with timerId := none }
    if v.lastArgs then (true, v.invokeFunc time) else (false, { v with lastArgs := false })
  else (false, { v with timerId := some (time + v.remainingWait wait time) })

theorem shouldInvoke_of_invoked (h : 0 < wait) (hcall : v.lastCallTime = some time)
    (hinvoke : v.lastInvokeTime = time) : v.shouldInvoke wait time = false := by
  simp [shouldInvoke, hcall, hinvoke, Nat.ne_of_gt h]

end Variables

/-- A function that is invoked at most once every `wait` milliseconds, as long as it does not call
the throttled function. -/
def leadingAndTrailing (wait : Nat) : Throttle where
  State := Variables
  new := ⟨false, none, 0, none⟩
  call := fun time v => v.debounced wait time
  timerExpired := fun time v => v.timerExpired wait time
  timer := Variables.timerId
  called := Variables.lastArgs

theorem lawful_leadingAndTrailing {wait : Nat} (h : 0 < wait) :
    (leadingAndTrailing wait).Lawful where
  timer_new := rfl
  leading := fun _ => rfl
  once := by
    intro time v hinvoked
    show (Variables.debounced wait time (Variables.debounced wait time v).2).1 = false
    have hafter : (Variables.debounced wait time v).2.shouldInvoke wait time = false := by
      have hinvoking : v.shouldInvoke wait time = true := by
        cases hshould : v.shouldInvoke wait time with
        | true => rfl
        | false =>
          have hcall : (v.debounced wait time).1 = true := hinvoked
          simp [Variables.debounced, hshould] at hcall
      unfold Variables.debounced
      rw [if_pos hinvoking]
      exact Variables.shouldInvoke_of_invoked wait time _ h rfl rfl
    generalize (Variables.debounced wait time v).2 = u at hafter
    unfold Variables.debounced
    rw [hafter]
    rfl
  timer_call := by
    intro time v
    show (Variables.debounced wait time v).2.timerId.isSome
    unfold Variables.debounced
    dsimp only
    split
    · rfl
    · rfl
  called_call := by
    intro time v
    show (Variables.debounced wait time v).1 = false →
      (Variables.debounced wait time v).2.lastArgs = true
    unfold Variables.debounced
    dsimp only
    split
    · intro hinvoked
      cases hinvoked
    · intro _
      rfl
  trailing := by
    intro time v hcalled
    have hargs : Variables.lastArgs v = true := hcalled
    show (Variables.timerExpired wait time v).1 = true ∨
      ((Variables.timerExpired wait time v).2.timerId.isSome ∧
        (Variables.timerExpired wait time v).2.lastArgs = true)
    unfold Variables.timerExpired
    dsimp only
    rw [if_pos hargs]
    split
    · exact Or.inl rfl
    · exact Or.inr ⟨rfl, hargs⟩

end Throttle
