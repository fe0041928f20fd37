import Mathlib.Algebra.Ring.Nat
import Mathlib.Data.List.Count
import Mathlib.Data.List.Forall2

/-!
# Masking parts of a list

To *mask* a range of a list is to write a given entry, the star, over it. What is masked here are
words that were read from given ranges of the list; but the program that does it looks a word up
again, and masks its *first occurrence*.

`hidden_iff_inPlace` says when this hides the given ranges: exactly when each word, unless it is
all stars already, does not occur before its range in the list with the earlier ranges masked. For
the converse we count. A word masks no more entries than its range has to offer, so that a single
entry masked outside of the ranges leaves another one visible inside of them.
-/

/-- The positions from `start` up to, but not including, `stop`. -/
structure PosRange where
  start : Nat
  stop : Nat
  deriving DecidableEq, Repr

namespace Masking

variable {α : Type} {star : α}

/-! ## Masks -/

/-- The entries of a list in a range. -/
def slice (r : PosRange) (l : List α) : List α := (l.drop r.start).take (r.stop - r.start)

/-- Write the star over a range of a list. -/
def mask (star : α) (r : PosRange) (l : List α) : List α :=
  l.mapIdx fun i x => if r.start ≤ i ∧ i < r.stop then star else x

/-- The range shows nothing but stars. -/
def Hidden (star : α) (r : PosRange) (l : List α) : Prop :=
  ∀ i, r.start ≤ i → i < r.stop → l[i]? = some star

/-- `u` is `l` with some entries masked. -/
def Masked (star : α) (l u : List α) : Prop := List.Forall₂ (fun x y => y = x ∨ y = star) l u

/-- The ranges lie in a list of length `n`, one after the other. -/
structure Ordered (n : Nat) (rs : List PosRange) : Prop where
  bounds : ∀ r ∈ rs, r.start ≤ r.stop ∧ r.stop ≤ n
  pairwise : rs.Pairwise fun r r' => r.stop ≤ r'.start

theorem Ordered.tail {n : Nat} {r : PosRange} {rs : List PosRange} (h : Ordered n (r :: rs)) :
    Ordered n rs :=
  ⟨fun r' hr' => h.bounds r' (List.mem_cons_of_mem r hr'), h.pairwise.of_cons⟩

theorem Ordered.head_le {n : Nat} {r r' : PosRange} {rs : List PosRange}
    (h : Ordered n (r :: rs)) (hr' : r' ∈ rs) : r.stop ≤ r'.start :=
  (List.pairwise_cons.mp h.pairwise).1 r' hr'

/-- One more range in front. -/
theorem Ordered.cons {n : Nat} {r r' : PosRange} {rs : List PosRange} (h : Ordered n (r :: rs))
    (hle : r'.start ≤ r'.stop) (hbefore : r'.stop ≤ r.start) : Ordered n (r' :: r :: rs) := by
  obtain ⟨hr, hrn⟩ := h.bounds r List.mem_cons_self
  constructor
  · intro r₁ hr₁
    rcases List.mem_cons.mp hr₁ with rfl | hr₁
    · exact ⟨hle, Nat.le_trans hbefore (Nat.le_trans hr hrn)⟩
    · exact h.bounds r₁ hr₁
  · refine List.pairwise_cons.mpr ⟨?_, h.pairwise⟩
    intro r₁ hr₁
    rcases List.mem_cons.mp hr₁ with rfl | hr₁
    · exact hbefore
    · exact Nat.le_trans hbefore (Nat.le_trans hr (h.head_le hr₁))

theorem getElem?_of_prefix_drop {w l : List α} {p i : Nat} (h : w <+: l.drop p)
    (hi : i < w.length) : l[p + i]? = w[i]? := by
  rw [← List.getElem?_drop, List.prefix_iff_getElem?.mp h i hi, List.getElem?_eq_getElem hi]

@[simp] theorem length_mask (r : PosRange) (l : List α) : (mask star r l).length = l.length := by
  simp [mask]

theorem getElem?_mask (r : PosRange) (l : List α) (i : Nat) :
    (mask star r l)[i]? = l[i]?.map fun x => if r.start ≤ i ∧ i < r.stop then star else x := by
  simp [mask]

theorem getElem?_slice (r : PosRange) (l : List α) (i : Nat) :
    (slice r l)[i]? = if i < r.stop - r.start then l[r.start + i]? else none := by
  simp [slice, List.getElem?_take, List.getElem?_drop]

theorem length_slice {r : PosRange} {l : List α} (hstop : r.stop ≤ l.length) :
    (slice r l).length = r.stop - r.start := by
  simp [slice]
  omega

/-- The word of a range occurs there. -/
theorem slice_occurs (r : PosRange) (l : List α) : slice r l <+: l.drop r.start :=
  List.take_prefix _ _

/-- A mask does not touch what comes after it. -/
theorem slice_mask_of_le {r r' : PosRange} (h : r.stop ≤ r'.start) (l : List α) :
    slice r' (mask star r l) = slice r' l := by
  apply List.ext_getElem?
  intro i
  rw [getElem?_slice, getElem?_slice, getElem?_mask]
  have hout : ¬ (r.start ≤ r'.start + i ∧ r'.start + i < r.stop) := by omega
  simp [hout]

theorem hidden_mask {r : PosRange} {l : List α} (hstop : r.stop ≤ l.length) :
    Hidden star r (mask star r l) := by
  intro i hi hi'
  have hlt : i < l.length := by omega
  simp [getElem?_mask, List.getElem?_eq_getElem hlt, hi, hi']

/-- Masking a range that is all stars changes nothing. -/
theorem mask_of_all_star {r : PosRange} {l : List α} (h : ∀ x ∈ slice r l, x = star) :
    mask star r l = l := by
  apply List.ext_getElem?
  intro i
  rw [getElem?_mask]
  cases hx : l[i]? with
  | none => rfl
  | some x =>
      by_cases hin : r.start ≤ i ∧ i < r.stop
      · have hmem : x ∈ slice r l := by
          apply List.mem_of_getElem? (i := i - r.start)
          rw [getElem?_slice, if_pos (by omega), show r.start + (i - r.start) = i by omega, hx]
        simp [hin, h x hmem]
      · simp [hin]

/-- A mask splits the list at its range. -/
theorem mask_eq_append {r : PosRange} {l : List α} (hle : r.start ≤ r.stop)
    (hstop : r.stop ≤ l.length) :
    mask star r l = l.take r.start ++ List.replicate (r.stop - r.start) star ++ l.drop r.stop := by
  apply List.ext_getElem?
  intro i
  rw [getElem?_mask]
  -- `i` lies before the range, in it or after it
  rcases Nat.lt_or_ge i r.start with hi | hi
  · have hin : ¬ (r.start ≤ i ∧ i < r.stop) := by omega
    rw [List.append_assoc, List.getElem?_append_left (by simp; omega), List.getElem?_take]
    simp [hin, hi]
  · rcases Nat.lt_or_ge i r.stop with hi' | hi'
    · have hlt : i < l.length := by omega
      rw [List.getElem?_append_left (by simp; omega), List.getElem?_append_right (by simp; omega),
        List.getElem?_replicate]
      simp [hi, hi', List.getElem?_eq_getElem hlt]
      omega
    · have hin : ¬ (r.start ≤ i ∧ i < r.stop) := by omega
      rw [List.getElem?_append_right (by simp; omega), List.getElem?_drop]
      simp only [List.length_append, List.length_take, List.length_replicate]
      rw [show r.stop + (i - (min r.start l.length + (r.stop - r.start))) = i by omega]
      simp [hin]

/-! ## Lists with some entries masked -/

theorem Masked.refl (l : List α) : Masked star l l := List.forall₂_same.mpr fun _ _ => .inl rfl

theorem Masked.trans {l u v : List α} (h : Masked star l u) (h' : Masked star u v) :
    Masked star l v := by
  induction h generalizing v with
  | nil => exact h'
  | cons hxy _ ih =>
      cases h' with
      | cons hyz htail =>
          refine .cons ?_ (ih htail)
          rcases hyz with rfl | rfl
          · exact hxy
          · exact .inr rfl

theorem masked_iff {l u : List α} :
    Masked star l u ↔ l.length = u.length ∧ ∀ i : Nat, u[i]? = l[i]? ∨ u[i]? = some star := by
  constructor
  · intro h
    refine ⟨h.length_eq, ?_⟩
    induction h with
    | nil =>
        intro i
        exact .inl rfl
    | cons hxy _ ih =>
        intro i
        cases i with
        | zero =>
            rcases hxy with rfl | rfl
            · exact .inl rfl
            · exact .inr rfl
        | succ i => simpa using ih i
  · rintro ⟨hlen, hget⟩
    rw [Masked, List.forall₂_iff_get]
    refine ⟨hlen, ?_⟩
    intro i hi hi'
    simpa [hi, hi'] using hget i

theorem masked_mask (r : PosRange) (l : List α) : Masked star l (mask star r l) := by
  refine masked_iff.mpr ⟨(length_mask r l).symm, ?_⟩
  intro i
  rw [getElem?_mask]
  cases l[i]? with
  | none => exact .inl rfl
  | some x => by_cases hin : r.start ≤ i ∧ i < r.stop <;> simp [hin]

/-- Stars stay. -/
theorem Hidden.of_masked {r : PosRange} {l u : List α} (h : Hidden star r l)
    (hu : Masked star l u) : Hidden star r u := by
  intro i hi hi'
  rcases (masked_iff.mp hu).2 i with hsame | hstar
  · rw [hsame, h i hi hi']
  · exact hstar

/-- A list with some entries masked and a range hidden has that range masked. -/
theorem masked_mask_of_hidden {r : PosRange} {l u : List α} (hu : Masked star l u)
    (hr : Hidden star r u) : Masked star (mask star r l) u := by
  obtain ⟨hlen, hget⟩ := masked_iff.mp hu
  refine masked_iff.mpr ⟨by simpa using hlen, ?_⟩
  intro i
  rw [getElem?_mask]
  by_cases hin : r.start ≤ i ∧ i < r.stop
  · exact .inr (hr i hin.1 hin.2)
  · simpa [hin] using hget i

theorem slice_mask_map {r : PosRange} {rs : List PosRange} {l : List α}
    (hrs : Ordered l.length (r :: rs)) :
    (rs.map fun r' => slice r' (mask star r l)) = rs.map fun r' => slice r' l :=
  List.map_congr_left fun _ hr' => slice_mask_of_le (hrs.head_le hr') l

/-- Write stars over each of the ranges. -/
def maskAll (star : α) (rs : List PosRange) (l : List α) : List α :=
  rs.foldl (fun l r => mask star r l) l

theorem hidden_maskAll {rs : List PosRange} {l : List α} (hrs : Ordered l.length rs) :
    Masked star l (maskAll star rs l) ∧ ∀ r ∈ rs, Hidden star r (maskAll star rs l) := by
  induction rs generalizing l with
  | nil => exact ⟨Masked.refl l, by simp⟩
  | cons r rs ih =>
      obtain ⟨hmasked, hhidden⟩ := ih (l := mask star r l) (by simpa using hrs.tail)
      refine ⟨(masked_mask r l).trans hmasked, ?_⟩
      intro r' hr'
      rcases List.mem_cons.mp hr' with rfl | hr'
      · exact (hidden_mask (hrs.bounds _ List.mem_cons_self).2).of_masked hmasked
      · exact hhidden r' hr'

/-! ## Occurrences of a word -/

variable [DecidableEq α]

/-- Where a word occurs first in a list. -/
def indexOf (w : List α) : List α → Option Nat
  | [] => if w.isEmpty then some 0 else none
  | x :: xs => if w.isPrefixOf (x :: xs) then some 0 else (indexOf w xs).map (· + 1)

/-- Write `w'` in place of the first occurrence of the word `w`, if there is one. -/
def replaceFirst (w w' : List α) (l : List α) : List α :=
  match indexOf w l with
  | none => l
  | some p => l.take p ++ w' ++ l.drop (p + w.length)

@[simp] theorem replaceFirst_nil (l : List α) : replaceFirst [] [] l = l := by
  cases l <;> simp [replaceFirst, indexOf]

theorem indexOf_eq_some {w l : List α} {p : Nat} (h : indexOf w l = some p) :
    w <+: l.drop p ∧ ∀ q < p, ¬ w <+: l.drop q := by
  induction l generalizing p with
  | nil =>
      simp only [indexOf] at h
      split_ifs at h with hw
      cases h
      simpa using hw
  | cons x xs ih =>
      simp only [indexOf] at h
      split_ifs at h with hw
      · cases h
        exact ⟨List.isPrefixOf_iff_prefix.mp hw, by simp⟩
      · obtain ⟨p, hp, rfl⟩ := Option.map_eq_some_iff.mp h
        obtain ⟨hocc, hfirst⟩ := ih hp
        refine ⟨hocc, ?_⟩
        intro q hq
        cases q with
        | zero => exact fun hpre => hw (List.isPrefixOf_iff_prefix.mpr hpre)
        | succ q => exact hfirst q (by omega)

theorem indexOf_eq_none {w l : List α} (h : indexOf w l = none) (p : Nat) (hw : w ≠ []) :
    ¬ w <+: l.drop p := by
  induction l generalizing p with
  | nil => simpa using hw
  | cons x xs ih =>
      simp only [indexOf] at h
      split_ifs at h with hpre
      rw [Option.map_eq_none_iff] at h
      cases p with
      | zero => exact fun hpre' => hpre (List.isPrefixOf_iff_prefix.mpr hpre')
      | succ p => exact ih h p

/-- An occurrence that has none before it is the first one. -/
theorem indexOf_of_first {w l : List α} {p : Nat} (hw : w ≠ []) (hocc : w <+: l.drop p)
    (hfirst : ∀ q < p, ¬ w <+: l.drop q) : indexOf w l = some p := by
  cases hidx : indexOf w l with
  | none => exact absurd hocc (indexOf_eq_none hidx p hw)
  | some q =>
      obtain ⟨hq, hq'⟩ := indexOf_eq_some hidx
      have hpq : ¬ p < q := fun hlt => hq' p hlt hocc
      have hqp : ¬ q < p := fun hlt => hfirst q hlt hq
      rw [show q = p by omega]

/-- The first occurrence of a word ends in the list. -/
theorem add_length_le_of_indexOf {w l : List α} {p : Nat} (h : indexOf w l = some p)
    (hw : w ≠ []) : p + w.length ≤ l.length := by
  have hle := (indexOf_eq_some h).1.length_le
  have hpos := List.length_pos_iff.mpr hw
  rw [List.length_drop] at hle
  omega

/-- A word in front is the first occurrence. -/
theorem replaceFirst_append {w : List α} (hw : w ≠ []) (w' l : List α) :
    replaceFirst w w' (w ++ l) = w' ++ l := by
  have hidx : indexOf w (w ++ l) = some 0 :=
    indexOf_of_first hw (by simp) fun q hq => absurd hq (Nat.not_lt_zero q)
  simp [replaceFirst, hidx]

/-- Taking out a word leaves all entries of a kind but as many as the word has. -/
theorem countP_le_countP_replaceFirst_nil (p : α → Bool) (w l : List α) :
    l.countP p ≤ (replaceFirst w [] l).countP p + w.countP p := by
  unfold replaceFirst
  split
  · omega
  · next i hi =>
      obtain ⟨rest, hrest⟩ := (indexOf_eq_some hi).1
      have hl : l = l.take i ++ (w ++ rest) := by rw [hrest, List.take_append_drop]
      have hdrop : l.drop (i + w.length) = rest := by
        rw [← List.drop_drop, ← hrest, List.drop_left]
      have hcount : l.countP p = (l.take i).countP p + (w.countP p + rest.countP p) := by
        rw [← List.countP_append, ← List.countP_append, ← hl]
      rw [hdrop, List.append_nil, List.countP_append, hcount]
      omega

/-- To write stars over the first occurrence of a word is to mask it there. -/
theorem replaceFirst_eq_mask {w l : List α} {p : Nat} (h : indexOf w l = some p)
    (hw : w ≠ []) :
    replaceFirst w (List.replicate w.length star) l = mask star ⟨p, p + w.length⟩ l := by
  rw [mask_eq_append (by simp) (add_length_le_of_indexOf h hw)]
  simp [replaceFirst, h]

/-- The first occurrence of a word is hidden where it was. -/
theorem hidden_replaceFirst {w l : List α} {p : Nat} (h : indexOf w l = some p) (hw : w ≠ []) :
    Hidden star ⟨p, p + w.length⟩ (replaceFirst w (List.replicate w.length star) l) := by
  rw [replaceFirst_eq_mask h hw]
  apply hidden_mask
  show p + w.length ≤ l.length
  exact add_length_le_of_indexOf h hw

theorem masked_replaceFirst (w l : List α) :
    Masked star l (replaceFirst w (List.replicate w.length star) l) := by
  by_cases hw : w = []
  · subst hw
    simpa using Masked.refl l
  · cases h : indexOf w l with
    | none => simpa [replaceFirst, h] using Masked.refl l
    | some p =>
        rw [replaceFirst_eq_mask h hw]
        exact masked_mask _ _

/-! ## Counting what stays visible -/

/-- How many entries are not masked. -/
def visible (star : α) (l : List α) : Nat := l.countP (· ≠ star)

theorem visible_le_of_masked {l u : List α} (h : Masked star l u) :
    visible star u ≤ visible star l := by
  induction h with
  | nil => exact Nat.le_refl _
  | cons hxy _ ih =>
      simp only [visible] at ih ⊢
      rcases hxy with rfl | rfl
      · rw [List.countP_cons, List.countP_cons]
        omega
      · rw [List.countP_cons, List.countP_cons, if_neg (by simp)]
        omega

/-- A range of one visible entry. -/
theorem visible_slice_singleton {l : List α} {q : Nat} {x : α} (hx : l[q]? = some x)
    (hne : x ≠ star) : visible star (slice ⟨q, q + 1⟩ l) = 1 := by
  have hslice : slice ⟨q, q + 1⟩ l = [x] := by
    apply List.ext_getElem?
    intro i
    cases i with
    | zero => simpa [getElem?_slice] using hx
    | succ i => simp [getElem?_slice]
  simp [hslice, visible, hne]

variable (star) in
/-- A mask takes away what its range shows. -/
theorem visible_mask {r : PosRange} {l : List α} (hle : r.start ≤ r.stop)
    (hstop : r.stop ≤ l.length) :
    visible star (mask star r l) + visible star (slice r l) = visible star l := by
  have hsplit : l = l.take r.start ++ slice r l ++ l.drop r.stop := by
    have hdrop : l.drop r.stop = (l.drop r.start).drop (r.stop - r.start) := by
      rw [List.drop_drop, show r.start + (r.stop - r.start) = r.stop by omega]
    rw [hdrop, List.append_assoc, slice, List.take_append_drop, List.take_append_drop]
  have hstars : visible star (List.replicate (r.stop - r.start) star) = 0 := by simp [visible]
  have hl : visible star l = visible star (l.take r.start) + visible star (slice r l) +
      visible star (l.drop r.stop) := by
    conv_lhs => rw [hsplit]
    rw [visible, List.countP_append, List.countP_append]
    rfl
  rw [mask_eq_append hle hstop, hl]
  simp only [visible, List.countP_append] at hstars ⊢
  omega

variable (star) in
/-- A replacement takes away no more than its word shows. -/
theorem visible_replaceFirst (w l : List α) : visible star l ≤
    visible star (replaceFirst w (List.replicate w.length star) l) + visible star w := by
  by_cases hw : w = []
  · subst hw
    simp
  · cases h : indexOf w l with
    | none => simp [replaceFirst, h]
    | some p =>
        have hocc := (indexOf_eq_some h).1
        have hslice : slice ⟨p, p + w.length⟩ l = w := by
          have htake := List.prefix_iff_eq_take.mp hocc
          simpa [slice] using htake.symm
        have hmask := visible_mask (r := ⟨p, p + w.length⟩) (l := l) star (by simp)
          (add_length_le_of_indexOf h hw)
        rw [replaceFirst_eq_mask h hw]
        rw [hslice] at hmask
        omega

/-- Ranges that are hidden take away all that they showed. -/
theorem visible_of_hidden {rs : List PosRange} {l u : List α} (hrs : Ordered l.length rs)
    (hu : Masked star l u) (hhidden : ∀ r ∈ rs, Hidden star r u) :
    visible star u + (rs.map fun r => visible star (slice r l)).sum ≤ visible star l := by
  induction rs generalizing l with
  | nil => simpa using visible_le_of_masked hu
  | cons r rs ih =>
      obtain ⟨hle, hstop⟩ := hrs.bounds r List.mem_cons_self
      have hrest := ih (l := mask star r l) (by simpa using hrs.tail)
        (masked_mask_of_hidden hu (hhidden r List.mem_cons_self))
        (fun r' hr' => hhidden r' (List.mem_cons_of_mem r hr'))
      have hsame : (rs.map fun r' => visible star (slice r' (mask star r l))) =
          rs.map fun r' => visible star (slice r' l) :=
        List.map_congr_left fun r' hr' => by rw [slice_mask_of_le (hrs.head_le hr')]
      have hmask := visible_mask star hle hstop
      rw [hsame] at hrest
      rw [List.map_cons, List.sum_cons]
      omega

/-! ## Masking words where they occur first -/

/-- Write stars over the first occurrence of each of the words, one after the other. -/
def redact (star : α) (ws : List (List α)) (l : List α) : List α :=
  ws.foldl (fun l w => replaceFirst w (List.replicate w.length star) l) l

/-- The word of each range is all stars, or does not occur before its range in the list with the
earlier ranges masked. -/
def InPlace (star : α) : List PosRange → List α → Prop
  | [], _ => True
  | r :: rs, l =>
    ((∀ x ∈ slice r l, x = star) ∨ ∀ p < r.start, ¬ slice r l <+: l.drop p) ∧
      InPlace star rs (mask star r l)

instance decidableInPlace : ∀ (rs : List PosRange) (l : List α), Decidable (InPlace star rs l)
  | [], _ => isTrue trivial
  | r :: rs, l =>
    have := decidableInPlace rs (mask star r l)
    inferInstanceAs (Decidable (_ ∧ _))

theorem masked_redact (ws : List (List α)) (l : List α) : Masked star l (redact star ws l) := by
  induction ws generalizing l with
  | nil => exact Masked.refl l
  | cons w ws ih => exact (masked_replaceFirst w l).trans (ih _)

variable (star) in
/-- Words take away no more than they show. -/
theorem visible_redact (ws : List (List α)) (l : List α) :
    visible star l ≤ visible star (redact star ws l) + (ws.map (visible star)).sum := by
  induction ws generalizing l with
  | nil => simp [redact]
  | cons w ws ih =>
      have hw := visible_replaceFirst star w l
      have hws := ih (replaceFirst w (List.replicate w.length star) l)
      have hredact : redact star (w :: ws) l =
          redact star ws (replaceFirst w (List.replicate w.length star) l) := rfl
      rw [hredact, List.map_cons, List.sum_cons]
      omega

/-- A word that is all stars, or occurs first in its range, is masked there. -/
theorem replaceFirst_slice {r : PosRange} {l : List α} (hle : r.start ≤ r.stop)
    (hstop : r.stop ≤ l.length)
    (h : (∀ x ∈ slice r l, x = star) ∨ ∀ p < r.start, ¬ slice r l <+: l.drop p) :
    replaceFirst (slice r l) (List.replicate (slice r l).length star) l = mask star r l := by
  by_cases hw : slice r l = []
  · rw [hw, mask_of_all_star (by simp [hw])]
    simp
  rcases h with hstar | hfirst
  -- wherever a word of stars is found, it is replaced by itself
  · have hrep : List.replicate (slice r l).length star = slice r l :=
      (List.eq_replicate_of_mem hstar).symm
    rw [mask_of_all_star hstar, hrep]
    cases hidx : indexOf (slice r l) l with
    | none => simp [replaceFirst, hidx]
    | some p =>
        obtain ⟨rest, hrest⟩ := (indexOf_eq_some hidx).1
        have hdrop : l.drop (p + (slice r l).length) = rest := by
          rw [← List.drop_drop, ← hrest, List.drop_left]
        simp only [replaceFirst, hidx, hdrop]
        rw [List.append_assoc, hrest, List.take_append_drop]
  · rw [replaceFirst_eq_mask (indexOf_of_first hw (slice_occurs r l) hfirst) hw,
      length_slice hstop, show r.start + (r.stop - r.start) = r.stop by omega]

/-- **An occurrence before the range of a word shows an entry that lies before that range**, since
otherwise the word would repeat itself from its first star on. -/
theorem exists_visible_before {r : PosRange} {l : List α} {p : Nat} (hstop : r.stop ≤ l.length)
    (hp : p < r.start) (hocc : slice r l <+: l.drop p) (hvis : ∃ x ∈ slice r l, x ≠ star) :
    ∃ q, p ≤ q ∧ q < p + (slice r l).length ∧ q < r.start ∧ ∃ x, l[q]? = some x ∧ x ≠ star := by
  by_contra hno
  -- each entry of the word is the one at distance `r.start - p` before it, or before the range
  have hstars : ∀ i < (slice r l).length, (slice r l)[i]? = some star := by
    -- by induction on the place in the word
    intro i
    induction i using Nat.strongRecOn with
    | _ i ih =>
        intro hi
        have hget := getElem?_of_prefix_drop hocc hi
        rcases Nat.lt_or_ge (p + i) r.start with hbefore | hin
        · by_contra hne
          refine hno ⟨p + i, by omega, by omega, hbefore, (slice r l)[i], ?_, ?_⟩
          · rw [hget, List.getElem?_eq_getElem hi]
          · rintro heq
            exact hne (by rw [List.getElem?_eq_getElem hi, heq])
        · have hback := ih (i - (r.start - p)) (by omega) (by omega)
          rw [getElem?_slice, if_pos (by rw [length_slice hstop] at hi; omega)] at hback
          rw [← hget, show p + i = r.start + (i - (r.start - p)) by omega, hback]
  obtain ⟨x, hx, hne⟩ := hvis
  obtain ⟨i, hi, rfl⟩ := List.mem_iff_getElem.mp hx
  have hstar := hstars i hi
  rw [List.getElem?_eq_getElem hi] at hstar
  exact hne (Option.some.inj hstar)

/-- In place, the words are masked in their ranges. -/
theorem redact_of_inPlace {rs : List PosRange} {l : List α} (hrs : Ordered l.length rs)
    (h : InPlace star rs l) : redact star (rs.map fun r => slice r l) l = maskAll star rs l := by
  induction rs generalizing l with
  | nil => rfl
  | cons r rs ih =>
      obtain ⟨hle, hstop⟩ := hrs.bounds r List.mem_cons_self
      have hhead := replaceFirst_slice hle hstop h.1
      have hrest := ih (by simpa using hrs.tail) h.2
      rw [slice_mask_map hrs] at hrest
      rw [List.map_cons, redact, List.foldl_cons, hhead]
      exact hrest

/-- The word of the first range is masked outside of it, and so the ranges are not all hidden. -/
theorem not_hidden_of_earlier {r : PosRange} {rs : List PosRange} {l : List α} {p : Nat}
    (hrs : Ordered l.length (r :: rs)) (hvis : ∃ x ∈ slice r l, x ≠ star) (hp : p < r.start)
    (hocc : slice r l <+: l.drop p) :
    ¬ ∀ r' ∈ r :: rs, Hidden star r' (redact star ((r :: rs).map fun r' => slice r' l) l) := by
  intro hhidden
  set u := redact star ((r :: rs).map fun r' => slice r' l) l with hu
  have hstop : r.stop ≤ l.length := (hrs.bounds r List.mem_cons_self).2
  have hw : slice r l ≠ [] := by
    rintro hnil
    simp [hnil] at hvis
  obtain ⟨first, hfirst⟩ : ∃ first, indexOf (slice r l) l = some first := by
    cases hidx : indexOf (slice r l) l with
    | none => exact absurd hocc (indexOf_eq_none hidx p hw)
    | some first => exact ⟨first, rfl⟩
  obtain ⟨hoccf, hmin⟩ := indexOf_eq_some hfirst
  have hlt : first < r.start := by
    by_contra hge
    exact hmin p (by omega) hocc
  obtain ⟨q, hq, hq', hqr, x, hx, hne⟩ := exists_visible_before hstop hlt hoccf hvis
  -- the entry at `q` is masked with the word, and stays so
  have hqhidden : Hidden star ⟨q, q + 1⟩ u := by
    intro i hi hi'
    obtain rfl : i = q := Nat.le_antisymm (Nat.le_of_lt_succ hi') hi
    exact (hidden_replaceFirst hfirst hw).of_masked (masked_redact _ _) i hq hq'
  have hordered : Ordered l.length (⟨q, q + 1⟩ :: r :: rs) := hrs.cons (Nat.le_succ q) hqr
  have hshown : visible star (slice ⟨q, q + 1⟩ l) = 1 := visible_slice_singleton hx hne
  -- so `u` hides one entry more than the words of the ranges can mask
  have hupper := visible_of_hidden hordered (masked_redact _ _) (by
    intro r' hr'
    rcases List.mem_cons.mp hr' with rfl | hr'
    · exact hqhidden
    · exact hhidden r' hr')
  have hlower := visible_redact star ((r :: rs).map fun r' => slice r' l) l
  rw [List.map_map, ← hu] at hlower
  rw [← hu, List.map_cons, List.sum_cons, hshown] at hupper
  simp only [Function.comp_def] at hlower
  omega

/-- **When masking first occurrences hides the ranges**: exactly when it is in place. -/
theorem hidden_iff_inPlace {rs : List PosRange} {l : List α} (hrs : Ordered l.length rs) :
    (∀ r ∈ rs, Hidden star r (redact star (rs.map fun r => slice r l) l)) ↔
      InPlace star rs l := by
  constructor
  · intro hhidden
    induction rs generalizing l with
    | nil => trivial
    | cons r rs ih =>
        obtain ⟨hle, hstop⟩ := hrs.bounds r List.mem_cons_self
        have hhead : (∀ x ∈ slice r l, x = star) ∨ ∀ p < r.start, ¬ slice r l <+: l.drop p := by
          by_contra hno
          push Not at hno
          obtain ⟨hvis, p, hp, hocc⟩ := hno
          exact not_hidden_of_earlier hrs hvis hp hocc hhidden
        refine ⟨hhead, ih (by simpa using hrs.tail) ?_⟩
        intro r' hr'
        have hr'' := hhidden r' (List.mem_cons_of_mem r hr')
        rw [List.map_cons, redact, List.foldl_cons, replaceFirst_slice hle hstop hhead] at hr''
        rw [slice_mask_map hrs]
        exact hr''
  · intro h
    rw [redact_of_inPlace hrs h]
    exact (hidden_maskAll hrs).2

end Masking
