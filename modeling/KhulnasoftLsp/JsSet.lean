import Mathlib.Data.List.Nodup
import Mathlib.Data.List.Perm.Subperm

/-!
# Sets of JavaScript

A `Set` keeps its members in the order in which they were added, each once.
-/

structure JsSet (α : Type*) where
  items : List α
  nodup : items.Nodup
  deriving DecidableEq

namespace JsSet

variable {α : Type*} [DecidableEq α]

def empty : JsSet α := ⟨[], List.nodup_nil⟩

def has (s : JsSet α) (x : α) : Bool := x ∈ s.items

def size (s : JsSet α) : Nat := s.items.length

def add (s : JsSet α) (x : α) : JsSet α :=
  if h : x ∈ s.items then s
  else ⟨s.items ++ [x], List.concat_eq_append ▸ s.nodup.concat h⟩

def delete (s : JsSet α) (x : α) : JsSet α := ⟨s.items.erase x, s.nodup.erase x⟩

/-- `new Set(xs)` -/
def ofList (xs : List α) : JsSet α := xs.foldl add empty

/-- Deep equality of two sets: the order of the members does not matter. -/
def isEqual (s t : JsSet α) : Bool := s.size == t.size && s.items.all fun x => t.has x

@[simp] theorem has_empty (x : α) : (empty : JsSet α).has x = false := rfl

theorem has_iff {s : JsSet α} {x : α} : s.has x = true ↔ x ∈ s.items := by
  simp [has]

theorem has_add {s : JsSet α} {x y : α} : (s.add x).has y = true ↔ s.has y = true ∨ y = x := by
  unfold add
  split
  · rename_i h
    simp only [has_iff]
    grind
  · simp [has_iff]

theorem has_delete {s : JsSet α} {x y : α} :
    (s.delete x).has y = true ↔ s.has y = true ∧ y ≠ x := by
  simp only [has_iff, delete]
  rw [s.nodup.mem_erase_iff]
  exact and_comm

theorem has_foldl_add {s : JsSet α} {xs : List α} {y : α} :
    (xs.foldl add s).has y = true ↔ s.has y = true ∨ y ∈ xs := by
  induction xs generalizing s with
  | nil => simp
  | cons x xs ih =>
      rw [List.foldl_cons, ih, has_add, List.mem_cons, or_assoc]

theorem has_foldl_delete {s : JsSet α} {xs : List α} {y : α} :
    (xs.foldl delete s).has y = true ↔ s.has y = true ∧ y ∉ xs := by
  induction xs generalizing s with
  | nil => simp
  | cons x xs ih =>
      rw [List.foldl_cons, ih, has_delete, List.mem_cons, not_or, and_assoc]

theorem has_ofList {xs : List α} {y : α} : (ofList xs).has y = true ↔ y ∈ xs := by
  rw [ofList, has_foldl_add, has_empty]
  simp

/-- Equal sets are those with the same members. -/
theorem isEqual_iff {s t : JsSet α} :
    s.isEqual t = true ↔ ∀ x, s.has x = true ↔ t.has x = true := by
  unfold isEqual size
  rw [Bool.and_eq_true, beq_iff_eq, List.all_eq_true]
  simp only [has_iff]
  constructor
  · rintro ⟨hlen, hsub⟩ x
    -- a part of `t` that is as long as `t` has all that `t` has
    have hperm : s.items.Perm t.items :=
      (List.subperm_of_subset s.nodup hsub).perm_of_length_le (Nat.le_of_eq hlen.symm)
    exact hperm.mem_iff
  · intro h
    have hperm : s.items.Perm t.items := (List.perm_ext_iff_of_nodup s.nodup t.nodup).mpr h
    exact ⟨hperm.length_eq, fun x hx => (h x).mp hx⟩

end JsSet
