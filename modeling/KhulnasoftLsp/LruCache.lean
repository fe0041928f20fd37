import Mathlib.Data.List.Nodup
import Mathlib.Logic.Function.Basic

/-!
# Caches that drop what was used longest ago

A cache with a bound on the sizes of what is stored. `Lawful` is what the documentation of the
package `lru-cache` promises of one: what was used longest ago is dropped until a new value fits in,
and no more of it; a value that is too large on its own is not stored, nor is what was stored under
its key before. `ofSize` is a cache that keeps this promise.

A cache is compared with the map of all that was stored and not deleted. It never has anything else
(`Shows`), and it has all of it for as long as the whole map would fit in (`Lawful.complete_set`).
-/

/-- A cache, and what can be done to it. -/
structure LruCache (κ ν : Type) where
  State : Type
  new : State
  set : κ → ν → State → State
  /-- What `get` does to the cache. -/
  get : κ → State → State
  delete : κ → State → State
  /-- What is stored, the least recently used first. -/
  entries : State → List (κ × ν)

namespace LruCache

variable {κ ν : Type}

/-- The most recently used value first. -/
def values (cache : LruCache κ ν) (c : cache.State) : List ν :=
  ((cache.entries c).map Prod.snd).reverse

/-! ## Lists of entries -/

/-- The sizes of all values together. -/
def totalSize (size : ν → Nat) : List (κ × ν) → Nat
  | [] => 0
  | e :: es => size e.2 + totalSize size es

def keys (es : List (κ × ν)) : List κ := es.map Prod.fst

/-- Of the entries those are kept that were used last, and as many as there is room for. -/
structure Keeps (size : ν → Nat) (room : Nat) (es kept : List (κ × ν)) : Prop where
  suffix : kept <:+ es
  fits : totalSize size kept ≤ room
  most : ∀ longer, longer <:+ es → totalSize size longer ≤ room → longer <:+ kept

section

variable {size : ν → Nat} {room : Nat} {es fs : List (κ × ν)}

theorem totalSize_append (es fs : List (κ × ν)) :
    totalSize size (es ++ fs) = totalSize size es + totalSize size fs := by
  induction es with
  | nil => simp [totalSize]
  | cons e es ih => simp [totalSize, ih, Nat.add_assoc]

theorem keys_append (es fs : List (κ × ν)) : keys (es ++ fs) = keys es ++ keys fs :=
  List.map_append

/-- Where there is room for all entries, all are kept. -/
theorem Keeps.eq_of_fits {kept : List (κ × ν)} (h : Keeps size room es kept)
    (hfits : totalSize size es ≤ room) : kept = es :=
  h.suffix.eq_of_length_le (h.most es List.suffix_rfl hfits).length_le

theorem nodup_concat {k : κ} {v : ν} (h : (keys es).Nodup) (hk : k ∉ keys es) :
    (keys (es ++ [(k, v)])).Nodup := by
  rw [keys_append]
  exact List.concat_eq_append ▸ h.concat hk

end

variable [DecidableEq κ]

def remove (k : κ) (es : List (κ × ν)) : List (κ × ν) := es.filter fun e => e.1 != k

/-- The entry comes last, and replaces the one with its key. -/
def use (k : κ) (v : ν) (es : List (κ × ν)) : List (κ × ν) := remove k es ++ [(k, v)]

section

variable {k : κ} {v : ν} {es : List (κ × ν)}

theorem remove_sublist (k : κ) (es : List (κ × ν)) : (remove k es).Sublist es :=
  List.filter_sublist

theorem mem_remove {e : κ × ν} : e ∈ remove k es ↔ e ∈ es ∧ e.1 ≠ k := by
  rw [remove, List.mem_filter, bne_iff_ne]

theorem nodup_remove (h : (keys es).Nodup) : (keys (remove k es)).Nodup :=
  h.sublist ((remove_sublist k es).map _)

theorem notMem_keys_remove : k ∉ keys (remove k es) := by
  intro h
  obtain ⟨e, he, hk⟩ := List.mem_map.mp h
  exact (mem_remove.mp he).2 hk

theorem mem_use {e : κ × ν} : e ∈ use k v es ↔ e = (k, v) ∨ e ∈ es ∧ e.1 ≠ k := by
  rw [use, List.mem_append, mem_remove, List.mem_singleton]
  exact or_comm

theorem nodup_use (h : (keys es).Nodup) : (keys (use k v es)).Nodup :=
  nodup_concat (nodup_remove h) notMem_keys_remove

end

/-! ## The promise -/

/-- The cache is as documented, for values of these sizes, and for this maximum of their sum. -/
structure Lawful (cache : LruCache κ ν) (size : ν → Nat) (maxSize : Nat) : Prop where
  entries_new : cache.entries cache.new = []
  entries_delete : ∀ k c, cache.entries (cache.delete k c) = remove k (cache.entries c)
  /-- What is found has been used. -/
  entries_get_of_some : ∀ k v c, (cache.entries c).lookup k = some v →
    cache.entries (cache.get k c) = use k v (cache.entries c)
  entries_get_of_none : ∀ k c, (cache.entries c).lookup k = none →
    cache.entries (cache.get k c) = cache.entries c
  entries_set : ∀ k v c, size v ≤ maxSize → ∃ kept,
    cache.entries (cache.set k v c) = kept ++ [(k, v)] ∧
      Keeps size (maxSize - size v) (remove k (cache.entries c)) kept
  entries_set_of_lt : ∀ k v c, maxSize < size v →
    cache.entries (cache.set k v c) = remove k (cache.entries c)

/-- The entries are those of the map, or some of them. -/
structure Shows (es : List (κ × ν)) (m : κ → Option ν) : Prop where
  nodup : (keys es).Nodup
  of_mem : ∀ e ∈ es, m e.1 = some e.2

/-- Nothing of the map is missing among the entries. -/
def Complete (es : List (κ × ν)) (m : κ → Option ν) : Prop := ∀ k v, m k = some v → (k, v) ∈ es

/-- The values of the map, and of any part of it, are not too large together. -/
def FitTogether (size : ν → Nat) (maxSize : Nat) (m : κ → Option ν) : Prop :=
  ∀ es, Shows es m → totalSize size es ≤ maxSize

section

variable {k : κ} {v : ν} {es : List (κ × ν)} {m : κ → Option ν}

theorem Shows.remove (h : Shows es m) (k : κ) : Shows (remove k es) (Function.update m k none) where
  nodup := nodup_remove h.nodup
  of_mem := by
    intro e he
    obtain ⟨hmem, hne⟩ := mem_remove.mp he
    rw [Function.update_of_ne hne]
    exact h.of_mem e hmem

theorem Shows.use (h : Shows es m) (k : κ) (v : ν) :
    Shows (use k v es) (Function.update m k (some v)) where
  nodup := nodup_use h.nodup
  of_mem := by
    intro e he
    rcases mem_use.mp he with rfl | ⟨hmem, hne⟩
    · exact Function.update_self _ _ _
    · rw [Function.update_of_ne hne]
      exact h.of_mem e hmem

omit [DecidableEq κ] in
theorem Shows.sublist {fs : List (κ × ν)} (h : Shows es m) (hsub : fs.Sublist es) :
    Shows fs m where
  nodup := h.nodup.sublist (hsub.map _)
  of_mem := fun e he => h.of_mem e (hsub.subset he)

theorem Complete.remove (h : Complete es m) (k : κ) :
    Complete (remove k es) (Function.update m k none) := by
  intro k' v' hk'
  rw [Function.update_apply] at hk'
  split at hk'
  · cases hk'
  · next hne => exact mem_remove.mpr ⟨h k' v' hk', hne⟩

theorem Complete.use (h : Complete es m) (k : κ) (v : ν) :
    Complete (use k v es) (Function.update m k (some v)) := by
  intro k' v' hk'
  rw [Function.update_apply] at hk'
  split at hk'
  · next heq =>
    cases hk'
    exact mem_use.mpr (.inl (by rw [heq]))
  · next hne => exact mem_use.mpr (.inr ⟨h k' v' hk', hne⟩)

end

/-! ### Maps that fit in -/

section

variable {size : ν → Nat} {maxSize room : Nat} {m : κ → Option ν}

omit [DecidableEq κ] in
theorem fitTogether_none : FitTogether size maxSize (fun _ : κ => none) := by
  intro es h
  cases es with
  | nil => exact Nat.zero_le _
  | cons e es => cases h.of_mem e List.mem_cons_self

theorem totalSize_le_remove {k : κ} {es : List (κ × ν)} (hnodup : (keys es).Nodup)
    (h : ∀ e ∈ es, e.1 = k → size e.2 ≤ room) :
    totalSize size es ≤ totalSize size (remove k es) + room := by
  induction es with
  | nil => exact Nat.zero_le _
  | cons e es ih =>
      obtain ⟨hnot, hrest⟩ := List.nodup_cons.mp hnodup
      obtain ⟨he, hes⟩ := List.forall_mem_cons.mp h
      by_cases hk : e.1 = k
      · have hsame : remove k (e :: es) = es := by
          rw [remove, List.filter_cons_of_neg (by simpa using hk), List.filter_eq_self]
          intro f hf
          rw [bne_iff_ne]
          rintro rfl
          exact hnot (hk ▸ List.mem_map_of_mem hf)
        rw [hsame, totalSize, Nat.add_comm]
        exact Nat.add_le_add_left (he hk) _
      · have hkeep : remove k (e :: es) = e :: remove k es :=
          List.filter_cons_of_pos (by simpa using hk)
        have hle := ih hrest hes
        rw [hkeep, totalSize, totalSize]
        omega

/-- One more value takes no more than its size. -/
theorem FitTogether.update (h : FitTogether size maxSize m) (k : κ) {v : ν} (hv : size v ≤ room) :
    FitTogether size (maxSize + room) (Function.update m k (some v)) := by
  intro es hes
  have hremove : Shows (LruCache.remove k es) m := by
    refine ⟨nodup_remove hes.nodup, ?_⟩
    intro e he
    obtain ⟨hmem, hne⟩ := mem_remove.mp he
    have hvalue := hes.of_mem e hmem
    rwa [Function.update_of_ne hne] at hvalue
  have hsize : ∀ e ∈ es, e.1 = k → size e.2 ≤ room := by
    intro e he hk
    have hvalue := hes.of_mem e he
    rw [hk, Function.update_self] at hvalue
    rwa [← Option.some.inj hvalue]
  exact Nat.le_trans (totalSize_le_remove hes.nodup hsize) (Nat.add_le_add_right (h _ hremove) _)

end

omit [DecidableEq κ] in
theorem FitTogether.mono {size : ν → Nat} {m : κ → Option ν} {n maxSize : Nat}
    (h : FitTogether size n m) (hle : n ≤ maxSize) : FitTogether size maxSize m :=
  fun es hes => Nat.le_trans (h es hes) hle

namespace Lawful

variable {cache : LruCache κ ν} {size : ν → Nat} {maxSize : Nat}
  (hcache : cache.Lawful size maxSize) {c : cache.State} {m : κ → Option ν}

include hcache

theorem shows_new (m : κ → Option ν) : Shows (cache.entries cache.new) m := by
  rw [hcache.entries_new]
  exact ⟨List.nodup_nil, fun _ he => absurd he List.not_mem_nil⟩

theorem shows_delete (h : Shows (cache.entries c) m) (k : κ) :
    Shows (cache.entries (cache.delete k c)) (Function.update m k none) := by
  rw [hcache.entries_delete]
  exact h.remove k

theorem complete_delete (h : Complete (cache.entries c) m) (k : κ) :
    Complete (cache.entries (cache.delete k c)) (Function.update m k none) := by
  rw [hcache.entries_delete]
  exact h.remove k

/-- To look a value up changes the order alone. -/
theorem mem_get (h : Shows (cache.entries c) m) (k : κ) {e : κ × ν} :
    e ∈ cache.entries (cache.get k c) ↔ e ∈ cache.entries c := by
  cases hlookup : (cache.entries c).lookup k with
  | none => rw [hcache.entries_get_of_none k c hlookup]
  | some v =>
      have hmem : (k, v) ∈ cache.entries c := by
        obtain ⟨before, after, hsplit, -⟩ := List.lookup_eq_some_iff.mp hlookup
        rw [hsplit]
        exact List.mem_append_right _ List.mem_cons_self
      rw [hcache.entries_get_of_some k v c hlookup, mem_use]
      constructor
      · intro he
        rcases he with rfl | ⟨he, -⟩
        · exact hmem
        · exact he
      · intro he
        by_cases hk : e.1 = k
        · exact .inl (List.inj_on_of_nodup_map h.nodup he hmem hk)
        · exact .inr ⟨he, hk⟩

theorem shows_get (h : Shows (cache.entries c) m) (k : κ) :
    Shows (cache.entries (cache.get k c)) m where
  nodup := by
    cases hlookup : (cache.entries c).lookup k with
    | none =>
        rw [hcache.entries_get_of_none k c hlookup]
        exact h.nodup
    | some v =>
        rw [hcache.entries_get_of_some k v c hlookup]
        exact nodup_use h.nodup
  of_mem := fun e he => h.of_mem e ((hcache.mem_get h k).mp he)

theorem complete_get (hshows : Shows (cache.entries c) m) (h : Complete (cache.entries c) m)
    (k : κ) : Complete (cache.entries (cache.get k c)) m :=
  fun k' v' hk' => (hcache.mem_get hshows k).mpr (h k' v' hk')

theorem shows_set (h : Shows (cache.entries c) m) (k : κ) (v : ν) :
    Shows (cache.entries (cache.set k v c)) (Function.update m k (some v)) := by
  by_cases hv : size v ≤ maxSize
  · obtain ⟨kept, hentries, hkeeps⟩ := hcache.entries_set k v c hv
    rw [hentries]
    exact (h.use k v).sublist (hkeeps.suffix.sublist.append_right [(k, v)])
  · rw [hcache.entries_set_of_lt k v c (Nat.lt_of_not_le hv)]
    exact (h.use k v).sublist (List.sublist_append_left _ _)

/-- **Nothing is dropped without need.** A cache that has all of the map has it after a value is
stored as well, if the values are not too large together then. -/
theorem complete_set (hshows : Shows (cache.entries c) m) (h : Complete (cache.entries c) m)
    {k : κ} {v : ν} (hfit : FitTogether size maxSize (Function.update m k (some v))) :
    Complete (cache.entries (cache.set k v c)) (Function.update m k (some v)) := by
  have htotal := hfit _ (hshows.use k v)
  rw [use, totalSize_append] at htotal
  simp only [totalSize] at htotal
  obtain ⟨kept, hentries, hkeeps⟩ := hcache.entries_set k v c (by omega)
  rw [hentries, hkeeps.eq_of_fits (by omega), ← use]
  exact h.use k v

end Lawful

/-! ## A cache that keeps the promise -/

/-- The least recently used entries go, until the others fit in. -/
def evict (size : ν → Nat) (room : Nat) : List (κ × ν) → List (κ × ν)
  | [] => []
  | e :: es => if totalSize size (e :: es) ≤ room then e :: es else evict size room es

omit [DecidableEq κ] in
theorem keeps_evict (size : ν → Nat) (room : Nat) (es : List (κ × ν)) :
    Keeps size room es (evict size room es) := by
  induction es with
  | nil => exact ⟨List.suffix_rfl, Nat.zero_le _, fun _ h _ => h⟩
  | cons e es ih =>
      rw [evict]
      split
      · next hfits => exact ⟨List.suffix_rfl, hfits, fun _ h _ => h⟩
      · next hlarge =>
        refine ⟨ih.suffix.trans (List.suffix_cons e es), ih.fits, ?_⟩
        intro longer hsuffix hfits
        rcases List.suffix_cons_iff.mp hsuffix with rfl | hes
        · exact absurd hfits hlarge
        · exact ih.most longer hes hfits

def ofSize (size : ν → Nat) (maxSize : Nat) : LruCache κ ν where
  State := List (κ × ν)
  new := []
  set := fun k v es =>
    if size v ≤ maxSize then evict size (maxSize - size v) (remove k es) ++ [(k, v)]
    else remove k es
  get := fun k es => (es.lookup k).elim es fun v => use k v es
  delete := remove
  entries := id

theorem lawful_ofSize (size : ν → Nat) (maxSize : Nat) :
    (ofSize size maxSize : LruCache κ ν).Lawful size maxSize where
  entries_new := rfl
  entries_delete := fun _ _ => rfl
  entries_get_of_some := by
    intro k v es hlookup
    have hfound : List.lookup k es = some v := hlookup
    show (List.lookup k es).elim es _ = _
    rw [hfound]
    rfl
  entries_get_of_none := by
    intro k es hlookup
    have hfound : List.lookup k es = none := hlookup
    show (List.lookup k es).elim es _ = _
    rw [hfound]
    rfl
  entries_set := by
    intro k v es hv
    refine ⟨_, ?_, keeps_evict size (maxSize - size v) (remove k es)⟩
    show (if size v ≤ maxSize then _ else _) = _
    rw [if_pos hv]
  entries_set_of_lt := by
    intro k v es hv
    show (if size v ≤ maxSize then _ else _) = _
    rw [if_neg (Nat.not_le_of_lt hv)]
    rfl

end LruCache
