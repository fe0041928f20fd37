import Mathlib.Data.List.Nodup

/-!
# Maps that remember the order of insertion

The `Map` of JavaScript: `set` on a new key appends, `set` on an old one replaces in place, and
iteration is in insertion order. No key occurs twice, and the type says so.
-/

/-- A finite map whose entries are kept in the order in which their keys were first set. -/
structure OrderedMap (κ ν : Type) where
  entries : List (κ × ν)
  nodup : (entries.map Prod.fst).Nodup

namespace OrderedMap

variable {κ ν : Type} [DecidableEq κ]

/-- Replace the value of `k`, or append the entry. -/
def setEntry (k : κ) (v : ν) : List (κ × ν) → List (κ × ν)
  | [] => [(k, v)]
  | e :: es => if e.1 = k then (k, v) :: es else e :: setEntry k v es

theorem mem_keys_setEntry {k k' : κ} {v : ν} {es : List (κ × ν)} :
    k' ∈ (setEntry k v es).map Prod.fst ↔ k' = k ∨ k' ∈ es.map Prod.fst := by
  induction es with
  | nil => simp [setEntry]
  | cons e es ih =>
      by_cases h : e.1 = k
      · simp [setEntry, h]
      · simp only [setEntry, if_neg h, List.map_cons, List.mem_cons, ih]
        exact or_left_comm

theorem nodup_setEntry {k : κ} {v : ν} {es : List (κ × ν)} (h : (es.map Prod.fst).Nodup) :
    ((setEntry k v es).map Prod.fst).Nodup := by
  induction es with
  | nil => simp [setEntry]
  | cons e es ih =>
      rw [List.map_cons, List.nodup_cons] at h
      by_cases hk : e.1 = k
      · simp only [setEntry, if_pos hk, List.map_cons, List.nodup_cons]
        exact ⟨hk ▸ h.1, h.2⟩
      · simp only [setEntry, if_neg hk, List.map_cons, List.nodup_cons]
        exact ⟨fun hmem => (mem_keys_setEntry.mp hmem).elim hk h.1, ih h.2⟩

def empty : OrderedMap κ ν := ⟨[], List.nodup_nil⟩

def get (k : κ) (m : OrderedMap κ ν) : Option ν := m.entries.lookup k

def set (k : κ) (v : ν) (m : OrderedMap κ ν) : OrderedMap κ ν :=
  ⟨setEntry k v m.entries, nodup_setEntry m.nodup⟩

def delete (k : κ) (m : OrderedMap κ ν) : OrderedMap κ ν :=
  ⟨m.entries.filter fun e => e.1 != k, m.nodup.sublist (List.filter_sublist.map _)⟩

@[simp] theorem get_set_self (m : OrderedMap κ ν) (k : κ) (v : ν) :
    (m.set k v).get k = some v := by
  show (setEntry k v m.entries).lookup k = some v
  induction m.entries with
  | nil => simp [setEntry]
  | cons e es ih =>
      obtain ⟨a, w⟩ := e
      by_cases h : a = k
      · simp [setEntry, h]
      · have h' : (k == a) = false := by simpa using Ne.symm h
        simp only [setEntry, if_neg h, List.lookup_cons, h', ih]

theorem get_set_other {k k' : κ} (m : OrderedMap κ ν) (v : ν) (h : k' ≠ k) :
    (m.set k v).get k' = m.get k' := by
  show (setEntry k v m.entries).lookup k' = m.entries.lookup k'
  have h' : (k' == k) = false := by simpa using h
  induction m.entries with
  | nil => simp [setEntry, List.lookup_cons, h']
  | cons e es ih =>
      obtain ⟨a, w⟩ := e
      by_cases hk : a = k
      · simp [setEntry, hk, List.lookup_cons, h']
      · simp only [setEntry, if_neg hk, List.lookup_cons, ih]

theorem get_set (m : OrderedMap κ ν) (k k' : κ) (v : ν) :
    (m.set k v).get k' = if k' = k then some v else m.get k' := by
  split
  · rename_i h
    rw [h, get_set_self]
  · rename_i h
    exact get_set_other m v h

@[simp] theorem get_empty (k : κ) : (empty : OrderedMap κ ν).get k = none := rfl

theorem get_delete (m : OrderedMap κ ν) (k k' : κ) :
    (m.delete k).get k' = if k' = k then none else m.get k' := by
  show (m.entries.filter fun e => e.1 != k).lookup k' =
    if k' = k then none else m.entries.lookup k'
  induction m.entries with
  | nil => simp
  | cons e es ih =>
      obtain ⟨a, w⟩ := e
      by_cases h : a = k <;> grind

/-- No key occurs twice, so that looking a key up finds the entry it is in. -/
theorem get_eq_some_iff {m : OrderedMap κ ν} {k : κ} {v : ν} :
    m.get k = some v ↔ (k, v) ∈ m.entries := by
  obtain ⟨es, hnodup⟩ := m
  show es.lookup k = some v ↔ (k, v) ∈ es
  induction es with
  | nil => simp
  | cons e es ih =>
      rw [List.map_cons, List.nodup_cons] at hnodup
      rw [List.lookup_cons, List.mem_cons]
      by_cases h : k = e.1
      · have hnot : (k, v) ∉ es := fun hmem => hnodup.1 (h ▸ List.mem_map_of_mem hmem)
        obtain ⟨a, w⟩ := e
        obtain rfl : k = a := h
        simp [hnot, eq_comm]
      · have hne : (k == e.1) = false := by simpa using h
        simp [hne, ih hnodup.2, Prod.ext_iff, h]

theorem get_eq_none_iff {m : OrderedMap κ ν} {k : κ} :
    m.get k = none ↔ k ∉ m.entries.map Prod.fst := by
  rw [Option.eq_none_iff_forall_ne_some]
  constructor
  · intro h hmem
    obtain ⟨⟨k', v⟩, he, rfl⟩ := List.mem_map.mp hmem
    exact h v (get_eq_some_iff.mpr he)
  · intro h v hv
    exact h (List.mem_map_of_mem (get_eq_some_iff.mp hv))

theorem get_foldl_delete {α : Type} (xs : List α) (key : α → κ) (m : OrderedMap κ ν) (k : κ) :
    (xs.foldl (fun m x => m.delete (key x)) m).get k =
      if k ∈ xs.map key then none else m.get k := by
  induction xs generalizing m with
  | nil => simp
  | cons x xs ih =>
      rw [List.foldl_cons, ih, get_delete]
      grind

/-- To delete the keys of a kind, one after the other. -/
theorem get_foldl_delete_of_filter {α : Type} {xs : List α} {key : α → κ} {m : OrderedMap κ ν}
    {p : κ → Bool} (hxs : xs.map key = (m.entries.map Prod.fst).filter p) (k : κ) :
    (xs.foldl (fun m x => m.delete (key x)) m).get k = if p k then none else m.get k := by
  rw [get_foldl_delete, hxs]
  by_cases hp : p k = true
  · rw [if_pos hp]
    by_cases hmem : k ∈ m.entries.map Prod.fst
    · rw [if_pos (List.mem_filter.mpr ⟨hmem, hp⟩)]
    · rw [get_eq_none_iff.mpr hmem]
      split <;> rfl
  · rw [if_neg hp, if_neg]
    intro hmem
    exact hp (List.mem_filter.mp hmem).2

/-- A new key comes last. -/
theorem entries_set_of_get_eq_none {m : OrderedMap κ ν} {k : κ} (v : ν) (h : m.get k = none) :
    (m.set k v).entries = m.entries ++ [(k, v)] := by
  show setEntry k v m.entries = m.entries ++ [(k, v)]
  have hkey := get_eq_none_iff.mp h
  generalize m.entries = es at hkey
  induction es with
  | nil => rfl
  | cons e es ih =>
      rw [List.map_cons, List.mem_cons, not_or] at hkey
      rw [setEntry, if_neg (Ne.symm hkey.1), ih hkey.2, List.cons_append]

/-- Set the entries of a list one after the other. -/
def setAll (es : List (κ × ν)) (m : OrderedMap κ ν) : OrderedMap κ ν :=
  es.foldl (fun m e => m.set e.1 e.2) m

/-- The last entry of a key wins. -/
theorem get_setAll (es : List (κ × ν)) (m : OrderedMap κ ν) (k : κ) :
    (m.setAll es).get k = (es.reverse.lookup k).or (m.get k) := by
  induction es generalizing m with
  | nil => simp [setAll]
  | cons e es ih =>
      show ((m.set e.1 e.2).setAll es).get k = _
      rw [ih, get_set, List.reverse_cons, List.lookup_append, Option.or_assoc, List.lookup_cons]
      by_cases h : k = e.1
      · simp [h]
      · have hne : (k == e.1) = false := by simpa using h
        simp [h, hne]

/-- What is found after setting entries is one of them. -/
theorem mem_of_get_setAll {es : List (κ × ν)} {k : κ} {v : ν}
    (h : (empty.setAll es).get k = some v) : (k, v) ∈ es := by
  rw [get_setAll, get_empty, Option.or_none, List.lookup_eq_some_iff] at h
  obtain ⟨l₁, l₂, hes, -⟩ := h
  rw [← List.mem_reverse, hes]
  simp

/-- Something is found under every key that is set. -/
theorem exists_get_setAll {es : List (κ × ν)} {k : κ} {v : ν} (h : (k, v) ∈ es) :
    ∃ w, (empty.setAll es).get k = some w := by
  rw [← Option.isSome_iff_exists, get_setAll, get_empty, Option.or_none, List.lookup_isSome_iff]
  exact ⟨(k, v), List.mem_reverse.mpr h, by simp⟩

/-- Setting all the entries of another map. -/
theorem get_setAll_entries (m m' : OrderedMap κ ν) (k : κ) :
    (m.setAll m'.entries).get k = (m'.get k).or (m.get k) := by
  have hnodup : (m'.entries.reverse.map Prod.fst).Nodup := by
    rw [List.map_reverse]
    exact List.nodup_reverse.mpr m'.nodup
  have hreverse : m'.entries.reverse.lookup k = m'.get k := by
    show get k ⟨m'.entries.reverse, hnodup⟩ = m'.get k
    ext v
    rw [get_eq_some_iff, get_eq_some_iff]
    exact List.mem_reverse
  rw [get_setAll, hreverse]

theorem get_setAll_map (ks : List κ) (f : κ → ν) (k : κ) :
    (empty.setAll (ks.map fun k => (k, f k))).get k = if k ∈ ks then some (f k) else none := by
  have hlookup : ∀ ks : List κ,
      (ks.map fun k => (k, f k)).lookup k = if k ∈ ks then some (f k) else none := by
    intro ks
    induction ks with
    | nil => rfl
    | cons a ks ih =>
        rw [List.map_cons, List.lookup_cons, ih]
        by_cases h : k = a
        · simp [h]
        · have hne : (k == a) = false := by simpa using h
          simp [h, hne]
  rw [get_setAll, get_empty, Option.or_none, ← List.map_reverse, hlookup]
  simp

end OrderedMap
