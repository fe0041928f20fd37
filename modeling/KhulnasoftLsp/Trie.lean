import KhulnasoftLsp.OrderedMap
import Mathlib.Data.List.Infix

/-!
# Tries

A trie keeps values at paths of keys. Its nodes are built by insertions, and a walk along a path
meets the values that are kept at the beginnings of the path, the shortest first (`walk_eq`).
-/

/-- A node, with the value at it and the nodes below it. -/
inductive Trie (κ ν : Type) where
  | node (value : Option ν) (children : List (κ × Trie κ ν))

namespace Trie

variable {κ ν : Type}

def empty : Trie κ ν := node none []

def value : Trie κ ν → Option ν
  | node value _ => value

variable [DecidableEq κ]

/-- The value at a path. -/
def get : List κ → Trie κ ν → Option ν
  | [], t => t.value
  | k :: ks, node _ children => (children.lookup k).bind (get ks)

/-- Write the value at a path, and create the nodes that are missing on the way. -/
def insert : List κ → ν → Trie κ ν → Trie κ ν
  | [], v, node _ children => node (some v) children
  | k :: ks, v, node value children =>
    node value (OrderedMap.setEntry k (insert ks v ((children.lookup k).getD empty)) children)

/-- The values at the nodes that a walk along the path enters, for as long as there is a node. -/
def walk : List κ → Trie κ ν → List ν
  | [], _ => []
  | k :: ks, node _ children =>
    match children.lookup k with
    | none => []
    | some child => child.value.toList ++ walk ks child

@[simp] theorem get_empty (path : List κ) : (empty : Trie κ ν).get path = none := by
  cases path <;> rfl

theorem lookup_setEntry {α : Type} (k k' : κ) (a : α) (es : List (κ × α)) :
    (OrderedMap.setEntry k a es).lookup k' = if k' = k then some a else es.lookup k' := by
  induction es with
  | nil =>
      by_cases h : k' = k
      · simp [OrderedMap.setEntry, h]
      · have hne : (k' == k) = false := by simpa using h
        simp [OrderedMap.setEntry, List.lookup_cons, hne, h]
  | cons e es ih =>
      rw [OrderedMap.setEntry]
      by_cases he : e.1 = k
      · rw [if_pos he, List.lookup_cons, List.lookup_cons, he]
        by_cases h : k' = k
        · simp [h]
        · have hne : (k' == k) = false := by simpa using h
          simp [hne, h]
      · rw [if_neg he, List.lookup_cons, List.lookup_cons, ih]
        by_cases h : k' = e.1
        · subst h
          simp [he]
        · have hne : (k' == e.1) = false := by simpa using h
          simp [hne]

theorem get_insert (path path' : List κ) (v : ν) (t : Trie κ ν) :
    (t.insert path v).get path' = if path' = path then some v else t.get path' := by
  induction path generalizing path' t with
  | nil =>
      obtain ⟨value, children⟩ := t
      cases path' with
      | nil => rfl
      | cons k ks => simp [insert, get]
  | cons k ks ih =>
      obtain ⟨value, children⟩ := t
      cases path' with
      | nil => simp [insert, get, Trie.value]
      | cons k' ks' =>
          rw [insert, get, lookup_setEntry]
          by_cases hk : k' = k
          · subst hk
            rw [if_pos rfl, Option.bind_some, ih, get]
            cases children.lookup k' <;> simp
          · rw [if_neg hk, get]
            simp [hk]

/-- **What a walk meets**: the values at the beginnings of the path, but not at the root. -/
theorem walk_eq (path : List κ) (t : Trie κ ν) :
    t.walk path = path.inits.tail.filterMap fun start => t.get start := by
  induction path generalizing t with
  | nil => rfl
  | cons k ks ih =>
      obtain ⟨value, children⟩ := t
      rw [List.inits_cons, List.tail_cons, List.filterMap_map, walk]
      cases hk : children.lookup k with
      | none =>
          symm
          rw [List.filterMap_eq_nil_iff]
          intro path _
          show (children.lookup k).bind (get path) = none
          rw [hk, Option.bind_none]
      | some child =>
          have hget : ((fun start => (node value children).get start) ∘ List.cons k) =
              fun start => child.get start := by
            funext start
            show (children.lookup k).bind (get start) = child.get start
            rw [hk, Option.bind_some]
          have hinits : ks.inits = [] :: ks.inits.tail := by cases ks <;> rfl
          rw [hget, hinits, List.filterMap_cons, ← ih]
          show child.value.toList ++ child.walk ks = _
          cases hvalue : child.value <;> simp [get, hvalue]

omit [DecidableEq κ] in
/-- The beginnings of a path that a walk along it comes to. -/
theorem mem_tail_inits {path start : List κ} :
    start ∈ path.inits.tail ↔ start <+: path ∧ start ≠ [] := by
  rw [← List.mem_inits]
  cases path with
  | nil => simp
  | cons k ks =>
      rw [List.inits_cons, List.tail_cons, List.mem_cons]
      constructor
      · intro h
        obtain ⟨rest, -, rfl⟩ := List.mem_map.mp h
        exact ⟨.inr h, by simp⟩
      · rintro ⟨rfl | h, hne⟩
        · exact absurd rfl hne
        · exact h

omit [DecidableEq κ] in
/-- The walk goes from the shorter beginnings to the longer ones. -/
theorem pairwise_inits (path : List κ) :
    path.inits.Pairwise fun start start' => start.length < start'.length := by
  induction path with
  | nil => simp
  | cons k ks ih =>
      rw [List.inits_cons]
      apply List.Pairwise.cons
      · intro start hstart
        obtain ⟨rest, -, rfl⟩ := List.mem_map.mp hstart
        simp
      · rw [List.pairwise_map]
        apply ih.imp
        intro start start' hlt
        simpa using hlt

theorem mem_walk_iff {path : List κ} {t : Trie κ ν} {v : ν} :
    v ∈ t.walk path ↔ ∃ start, start <+: path ∧ start ≠ [] ∧ t.get start = some v := by
  rw [walk_eq, List.mem_filterMap]
  simp only [mem_tail_inits, and_assoc]

/-- What a walk does not meet is not kept. -/
theorem get_eq_none_of_walk_eq_nil {path start : List κ} {t : Trie κ ν} (h : t.walk path = [])
    (hstart : start <+: path) (hne : start ≠ []) : t.get start = none := by
  cases hget : t.get start with
  | none => rfl
  | some v =>
      have hmem : v ∈ t.walk path := mem_walk_iff.mpr ⟨start, hstart, hne, hget⟩
      rw [h] at hmem
      cases hmem

/-- The last value of a walk is that of the longest beginning of the path that has one. -/
theorem getLast?_walk {path : List κ} {t : Trie κ ν} {v : ν}
    (h : (t.walk path).getLast? = some v) :
    ∃ start, start <+: path ∧ t.get start = some v ∧
      ∀ other, other <+: path → (t.get other).isSome → other.length ≤ start.length := by
  induction path generalizing t with
  | nil => cases h
  | cons k ks ih =>
      obtain ⟨value, children⟩ := t
      rw [walk] at h
      cases hk : children.lookup k with
      | none =>
          rw [hk] at h
          cases h
      | some child =>
          have hget : ∀ rest, (node value children).get (k :: rest) = child.get rest := by
            intro rest
            show (children.lookup k).bind (get rest) = child.get rest
            rw [hk, Option.bind_some]
          rw [hk] at h
          dsimp only at h
          by_cases hnil : child.walk ks = []
          · rw [hnil, List.append_nil] at h
            refine ⟨[k], ⟨ks, rfl⟩, ?_, ?_⟩
            · rw [hget]
              show child.value = some v
              cases hvalue : child.value with
              | none =>
                  rw [hvalue] at h
                  cases h
              | some w =>
                  rw [hvalue] at h
                  exact h
            · intro other hother hsome
              cases other with
              | nil => exact Nat.zero_le _
              | cons k' rest =>
                  obtain ⟨rfl, hrest⟩ := List.cons_prefix_cons.mp hother
                  rw [hget] at hsome
                  have hroot : rest = [] := by
                    by_contra hne
                    rw [get_eq_none_of_walk_eq_nil hnil hrest hne] at hsome
                    cases hsome
                  rw [hroot]
          · rw [List.getLast?_append_of_ne_nil _ hnil] at h
            obtain ⟨start, hstart, hvalue, hlongest⟩ := ih h
            refine ⟨k :: start, List.cons_prefix_cons.mpr ⟨rfl, hstart⟩, ?_, ?_⟩
            · rw [hget, hvalue]
            · intro other hother hsome
              cases other with
              | nil => exact Nat.zero_le _
              | cons k' rest =>
                  obtain ⟨rfl, hrest⟩ := List.cons_prefix_cons.mp hother
                  rw [hget] at hsome
                  exact Nat.succ_le_succ (hlongest rest hrest hsome)

end Trie
