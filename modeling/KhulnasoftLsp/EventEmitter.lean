import Mathlib.Data.List.Basic

/-!
# Event emitters

The part of Node's `EventEmitter` behind `on`, `removeListener` and `emit`. A listener may be
registered more than once, and is then called once for each registration, in their order. A listener
that throws ends the `emit`: where that is modelled, the caller goes through `listeners` itself.
-/

/-- The registrations of an emitter, the oldest first. -/
structure EventEmitter (ε ℓ : Type*) where
  registrations : List (ε × ℓ)
  deriving DecidableEq, Repr

namespace EventEmitter

variable {ε ℓ : Type*} [DecidableEq ε]

def new : EventEmitter ε ℓ := ⟨[]⟩

def on (event : ε) (listener : ℓ) (e : EventEmitter ε ℓ) : EventEmitter ε ℓ :=
  ⟨e.registrations ++ [(event, listener)]⟩

/-- `removeListener` removes the newest registration of the listener for this event, if any. -/
def removeListener [DecidableEq ℓ] (event : ε) (listener : ℓ) (e : EventEmitter ε ℓ) :
    EventEmitter ε ℓ :=
  ⟨(e.registrations.reverse.erase (event, listener)).reverse⟩

/-- The listeners that `emit(event)` calls, in the order of the calls. -/
def listeners (event : ε) (e : EventEmitter ε ℓ) : List ℓ :=
  (e.registrations.filter fun r => r.1 = event).map Prod.snd

@[simp] theorem listeners_new (event : ε) : (new : EventEmitter ε ℓ).listeners event = [] := rfl

theorem listeners_on (event other : ε) (listener : ℓ) (e : EventEmitter ε ℓ) :
    (e.on event listener).listeners other =
      e.listeners other ++ if event = other then [listener] else [] := by
  unfold listeners on
  by_cases h : event = other <;> simp [h]

@[simp] theorem listeners_on_self (event : ε) (listener : ℓ) (e : EventEmitter ε ℓ) :
    (e.on event listener).listeners event = e.listeners event ++ [listener] := by
  simp [listeners_on]

theorem listeners_on_other {event other : ε} (h : event ≠ other) (listener : ℓ)
    (e : EventEmitter ε ℓ) : (e.on event listener).listeners other = e.listeners other := by
  simp [listeners_on, h]

/-- The newest of the registrations of a listener goes, and the order of the others stays. -/
theorem listeners_removeListener_self [DecidableEq ℓ] (event : ε) (listener : ℓ)
    (e : EventEmitter ε ℓ) :
    (e.removeListener event listener).listeners event =
      ((e.listeners event).reverse.erase listener).reverse := by
  have herase : ∀ rs : List (ε × ℓ),
      ((rs.erase (event, listener)).filter fun r => r.1 = event).map Prod.snd =
        ((rs.filter fun r => r.1 = event).map Prod.snd).erase listener := by
    intro rs
    induction rs with
    | nil => rfl
    | cons r rs ih =>
        obtain ⟨other, l⟩ := r
        by_cases hevent : other = event
        · subst hevent
          by_cases hl : l = listener
          · simp [hl]
          · simp [hl, ih]
        · simp [hevent, ih]
  simp only [removeListener, listeners, List.filter_reverse, List.map_reverse, herase]

/-- A listener that is not registered for the event cannot be removed from it. -/
theorem removeListener_eq_self [DecidableEq ℓ] {event : ε} {listener : ℓ}
    {e : EventEmitter ε ℓ} (h : listener ∉ e.listeners event) :
    e.removeListener event listener = e := by
  have hnot : (event, listener) ∉ e.registrations.reverse := by
    intro hmem
    apply h
    simpa [listeners] using hmem
  rw [removeListener, List.erase_of_not_mem hnot, List.reverse_reverse]

end EventEmitter
