import Mathlib.Data.List.Basic

/-!
# Timers of an event loop

The part of a JavaScript runtime behind `setTimeout` and `clearTimeout`: a clock that never goes
back, and the timers that are armed. A timer fires once, at or after the moment it is due, and
not after it was cleared. Its identifier is fresh when it is armed.
-/

/-- An armed timer. -/
structure Timer where
  id : Nat
  due : Nat
  deriving DecidableEq, Repr

/-- The clock (in milliseconds), the next fresh identifier, and the armed timers. -/
structure Timers where
  now : Nat
  nextId : Nat
  live : List Timer
  deriving DecidableEq, Repr

namespace Timers

/-- A runtime at time `now` with no timer armed. -/
def new (now : Nat) : Timers := { now := now, nextId := 0, live := [] }

/-- `setTimeout(f, delay)`: arm a timer, and return its identifier. -/
def setTimeout (delay : Nat) (ts : Timers) : Nat × Timers :=
  (ts.nextId, { ts with
    nextId := ts.nextId + 1
    live := ts.live ++ [{ id := ts.nextId, due := ts.now + delay }] })

/-- `clearTimeout(id)`: the timer will not fire. Clearing one that is not armed does nothing. -/
def clearTimeout (id : Nat) (ts : Timers) : Timers :=
  { ts with live := ts.live.filter fun t => t.id != id }

/-- The clock has moved on to `t`. -/
def wait (t : Nat) (ts : Timers) : Option Timers :=
  if ts.now ≤ t then some { ts with now := t } else none

/-- The timer `id` fires, which it may do once it is due: it is armed no longer. -/
def fire (id : Nat) (ts : Timers) : Option Timers :=
  if ts.live.any fun t => t.id == id && t.due ≤ ts.now then some (ts.clearTimeout id) else none

/-! ## What the operations leave -/

@[simp] theorem now_setTimeout (d : Nat) (ts : Timers) : (ts.setTimeout d).2.now = ts.now := rfl
@[simp] theorem nextId_setTimeout (d : Nat) (ts : Timers) :
    (ts.setTimeout d).2.nextId = ts.nextId + 1 := rfl
@[simp] theorem fst_setTimeout (d : Nat) (ts : Timers) : (ts.setTimeout d).1 = ts.nextId := rfl
@[simp] theorem live_setTimeout (d : Nat) (ts : Timers) :
    (ts.setTimeout d).2.live = ts.live ++ [{ id := ts.nextId, due := ts.now + d }] := rfl

@[simp] theorem now_clearTimeout (id : Nat) (ts : Timers) : (ts.clearTimeout id).now = ts.now := rfl
@[simp] theorem nextId_clearTimeout (id : Nat) (ts : Timers) :
    (ts.clearTimeout id).nextId = ts.nextId := rfl
@[simp] theorem live_clearTimeout (id : Nat) (ts : Timers) :
    (ts.clearTimeout id).live = ts.live.filter fun t => t.id != id := rfl

theorem wait_eq_some {t : Nat} {ts us : Timers} :
    ts.wait t = some us ↔ ts.now ≤ t ∧ us = { ts with now := t } := by
  unfold wait
  split
  · rename_i h
    simp [h, eq_comm]
  · rename_i h
    simp [h]

/-- A timer fires only when it is armed and due, and is armed no longer. -/
theorem fire_eq_some {id : Nat} {ts us : Timers} :
    ts.fire id = some us ↔
      (∃ t ∈ ts.live, t.id = id ∧ t.due ≤ ts.now) ∧ us = ts.clearTimeout id := by
  have hlive : (ts.live.any fun t => t.id == id && t.due ≤ ts.now) = true ↔
      ∃ t ∈ ts.live, t.id = id ∧ t.due ≤ ts.now := by
    simp
  rw [← hlive, fire]
  split
  · rename_i h
    simp only [h, true_and, Option.some.injEq]
    exact eq_comm
  · rename_i h
    simp [h]

end Timers
