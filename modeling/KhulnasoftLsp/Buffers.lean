import KhulnasoftLsp.JsString
import KhulnasoftLsp.Utf8
import Mathlib.Algebra.GroupWithZero.Nat

/-!
# Bytes of strings

A string of JavaScript may hold halves of surrogate pairs. `Buffer.from` and `TextEncoder` write
U+FFFD for them, and what they read back is always well formed.
-/

namespace JsString

def isHighSurrogate (u : UInt16) : Bool := 0xd800 ≤ u.toNat && u.toNat < 0xdc00

def isLowSurrogate (u : UInt16) : Bool := 0xdc00 ≤ u.toNat && u.toNat < 0xe000

/-- The character of a code unit that is not a part of a pair. -/
def singleUnit (u : UInt16) : Char :=
  if isHighSurrogate u || isLowSurrogate u then Utf8.replacement else Char.ofNat u.toNat

def surrogatePair (u v : UInt16) : Char :=
  Char.ofNat (0x10000 + (u.toNat - 0xd800) * 0x400 + (v.toNat - 0xdc00))

/-- `s.toWellFormed()`, character by character -/
def toChars : JsString → List Char
  | [] => []
  | [u] => [singleUnit u]
  | u :: v :: s =>
    if isHighSurrogate u && isLowSurrogate v then surrogatePair u v :: toChars s
    else singleUnit u :: toChars (v :: s)

/-- The code units of a character. -/
def units (c : Char) : JsString :=
  if c.toNat < 0x10000 then [UInt16.ofNat c.toNat]
  else
    let rest := c.toNat - 0x10000
    [UInt16.ofNat (0xd800 + rest / 0x400), UInt16.ofNat (0xdc00 + rest % 0x400)]

def ofChars (text : List Char) : JsString := text.flatMap units

theorem ofString_eq (s : String) : ofString s = ofChars s.toList := rfl

/-- `Buffer.from(s)` -/
def toBuffer (s : JsString) : List UInt8 := Utf8.encode s.toChars

/-- `buffer.toString()` -/
def ofBuffer (bytes : List UInt8) : JsString := ofChars (Utf8.decode bytes)

/-- `new TextDecoder().decode(bytes)` -/
def decodeText (bytes : List UInt8) : JsString :=
  ofChars (Utf8.removeByteOrderMark (Utf8.decode bytes))

/-- `getByteSize(s)` -/
def byteSize (s : JsString) : Nat := (toBuffer s).length

/-- A surrogate pair would begin in the first string and end in the second one. -/
def SplitsPair (s t : JsString) : Prop :=
  s.getLast?.any isHighSurrogate = true ∧ t.head?.any isLowSurrogate = true

instance (s t : JsString) : Decidable (SplitsPair s t) := inferInstanceAs (Decidable (_ ∧ _))

/-! ## From characters to code units and back -/

@[simp] theorem ofChars_nil : ofChars [] = [] := rfl

@[simp] theorem ofChars_cons (c : Char) (text : List Char) :
    ofChars (c :: text) = units c ++ ofChars text := rfl

theorem ofChars_append (s t : List Char) : ofChars (s ++ t) = ofChars s ++ ofChars t :=
  List.flatMap_append

theorem ofChars_flatMap {α : Type*} (l : List α) (f : α → List Char) :
    ofChars (l.flatMap f) = l.flatMap fun a => ofChars (f a) :=
  List.flatMap_assoc

theorem toChars_cons_cons (u v : UInt16) (s : JsString) :
    toChars (u :: v :: s) =
      if isHighSurrogate u && isLowSurrogate v then surrogatePair u v :: toChars s
      else singleUnit u :: toChars (v :: s) := by
  rw [toChars]

theorem toNat_ofNat_of_lt {n : Nat} (h : n < 0x10000) : (UInt16.ofNat n).toNat = n := by
  simp [Nat.mod_eq_of_lt h]

theorem toChars_cons_of_not_high {u : UInt16} (h : isHighSurrogate u = false) (s : JsString) :
    toChars (u :: s) = singleUnit u :: toChars s := by
  cases s with
  | nil => rfl
  | cons v s => rw [toChars_cons_cons, h, Bool.false_and, if_neg (by simp)]

theorem toChars_units_append (c : Char) (s : JsString) :
    toChars (units c ++ s) = c :: toChars s := by
  have hlt := Utf8.Decoder.toNat_lt c
  have hsurrogate := Utf8.Decoder.toNat_not_surrogate c
  rw [units]
  split
  · next h =>
    have hu := toNat_ofNat_of_lt h
    have hhigh : isHighSurrogate (UInt16.ofNat c.toNat) = false := by
      rw [isHighSurrogate, hu]
      simp
      omega
    have hlow : isLowSurrogate (UInt16.ofNat c.toNat) = false := by
      rw [isLowSurrogate, hu]
      simp
      omega
    rw [List.singleton_append, toChars_cons_of_not_high hhigh, singleUnit, hhigh, hlow, hu,
      Char.ofNat_toNat]
    rfl
  · next h =>
    have hu := toNat_ofNat_of_lt (n := 0xd800 + (c.toNat - 0x10000) / 0x400) (by omega)
    have hv := toNat_ofNat_of_lt (n := 0xdc00 + (c.toNat - 0x10000) % 0x400) (by omega)
    have hcode : 0x10000 + (0xd800 + (c.toNat - 0x10000) / 0x400 - 0xd800) * 0x400 +
        (0xdc00 + (c.toNat - 0x10000) % 0x400 - 0xdc00) = c.toNat := by omega
    show toChars (_ :: _ :: s) = _
    rw [toChars_cons_cons, if_pos, surrogatePair, hu, hv, hcode, Char.ofNat_toNat]
    rw [isHighSurrogate, isLowSurrogate, hu, hv]
    simp
    omega

theorem toChars_ofChars (text : List Char) : toChars (ofChars text) = text := by
  induction text with
  | nil => rfl
  | cons c text ih => rw [ofChars_cons, toChars_units_append, ih]

theorem ofChars_injective : Function.Injective ofChars :=
  Function.LeftInverse.injective toChars_ofChars

@[simp] theorem toBuffer_ofChars (text : List Char) :
    toBuffer (ofChars text) = Utf8.encode text := by
  rw [toBuffer, toChars_ofChars]

/-! ## Sizes in bytes -/

theorem byteSize_ofChars (text : List Char) :
    byteSize (ofChars text) = (Utf8.encode text).length := by
  rw [byteSize, toBuffer_ofChars]

theorem toChars_append {s t : JsString} (h : ¬ SplitsPair s t) :
    toChars (s ++ t) = toChars s ++ toChars t := by
  induction s using toChars.induct with
  | case1 => rfl
  | case2 u =>
    cases t with
    | nil => rfl
    | cons v t =>
      have hpair : ¬ (isHighSurrogate u && isLowSurrogate v) = true := by
        simpa [SplitsPair] using h
      show toChars (u :: v :: t) = _
      rw [toChars_cons_cons, if_neg hpair]
      rfl
  | case3 u v s hpair ih =>
    have hrest : ¬ SplitsPair s t := by
      cases s with
      | nil => simp [SplitsPair]
      | cons w s => simpa [SplitsPair] using h
    show toChars (u :: v :: (s ++ t)) = _
    rw [toChars_cons_cons, if_pos hpair, ih hrest, toChars_cons_cons, if_pos hpair]
    rfl
  | case4 u v s hpair ih =>
    have hrest : ¬ SplitsPair (v :: s) t := by simpa [SplitsPair] using h
    show toChars (u :: v :: (s ++ t)) = _
    rw [toChars_cons_cons, if_neg hpair, ← List.cons_append, ih hrest, toChars_cons_cons,
      if_neg hpair]
    rfl

theorem byteSize_append {s t : JsString} (h : ¬ SplitsPair s t) :
    byteSize (s ++ t) = byteSize s + byteSize t := by
  rw [byteSize, toBuffer, toChars_append h, Utf8.encode_append, List.length_append]
  rfl

theorem isLowSurrogate_of_high {u : UInt16} (h : isHighSurrogate u = true) :
    isLowSurrogate u = false := by
  simp [isHighSurrogate, isLowSurrogate] at h ⊢
  omega

theorem isHighSurrogate_of_low {u : UInt16} (h : isLowSurrogate u = true) :
    isHighSurrogate u = false := by
  simp [isHighSurrogate, isLowSurrogate] at h ⊢
  omega

theorem utf8Size_surrogatePair {u v : UInt16} (hu : isHighSurrogate u = true)
    (hv : isLowSurrogate v = true) : (surrogatePair u v).utf8Size = 4 := by
  simp [isHighSurrogate, isLowSurrogate] at hu hv
  have hvalid : Nat.isValidChar
      (0x10000 + (u.toNat - 0xd800) * 0x400 + (v.toNat - 0xdc00)) := by
    right
    omega
  have htoNat : (surrogatePair u v).toNat =
      0x10000 + (u.toNat - 0xd800) * 0x400 + (v.toNat - 0xdc00) := by
    rw [surrogatePair, Char.ofNat, dif_pos hvalid]
    rfl
  rw [Char.utf8Size_eq_four_iff, UInt32.lt_iff_toNat_lt]
  show 0xffff < (surrogatePair u v).toNat
  omega

/-- The two halves of a pair take three bytes each, and the pair takes four. -/
theorem byteSize_append_of_splitsPair {s t : JsString} (h : SplitsPair s t) :
    byteSize (s ++ t) + 2 = byteSize s + byteSize t := by
  obtain ⟨hhigh, hlow⟩ := h
  obtain ⟨u, hlast, hu⟩ := (Option.any_eq_true _ _).mp hhigh
  obtain ⟨v, hhead, hv⟩ := (Option.any_eq_true _ _).mp hlow
  obtain ⟨s, rfl⟩ := List.getLast?_eq_some_iff.mp hlast
  obtain ⟨t, rfl⟩ := List.head?_eq_some_iff.mp hhead
  have hs : ∀ t, ¬ SplitsPair s (u :: t) := by
    intro t hsplits
    have := hsplits.2
    simp [isLowSurrogate_of_high hu] at this
  have hpair : toChars (s ++ [u] ++ v :: t) = toChars s ++ surrogatePair u v :: toChars t := by
    rw [List.append_assoc, List.singleton_append, toChars_append (hs _), toChars_cons_cons,
      if_pos (by simp [hu, hv])]
  have hleft : toChars (s ++ [u]) = toChars s ++ [Utf8.replacement] := by
    rw [toChars_append (hs _), toChars, singleUnit, hu]
    rfl
  have hright : toChars (v :: t) = Utf8.replacement :: toChars t := by
    rw [toChars_cons_of_not_high (isHighSurrogate_of_low hv), singleUnit, hv, Bool.or_true]
    rfl
  have hreplacement : Utf8.replacement.utf8Size = 3 := by decide
  rw [byteSize, byteSize, byteSize, toBuffer, toBuffer, toBuffer, hpair, hleft, hright]
  simp only [Utf8.encode_append, List.length_append, Utf8.length_encode_cons,
    utf8Size_surrogatePair hu hv, hreplacement, Utf8.encode_nil, List.length_nil]
  omega

theorem byteSize_append_le (s t : JsString) : byteSize (s ++ t) ≤ byteSize s + byteSize t := by
  by_cases hsplits : SplitsPair s t
  · exact (Nat.le_add_right _ 2).trans (byteSize_append_of_splitsPair hsplits).le
  · exact (byteSize_append hsplits).le

/-- A text is not larger than its parts. -/
theorem byteSize_flatten_le (parts : List JsString) :
    byteSize parts.flatten ≤ (parts.map byteSize).sum := by
  induction parts with
  | nil => exact le_rfl
  | cons part parts ih =>
      rw [List.flatten_cons, List.map_cons, List.sum_cons]
      exact (byteSize_append_le _ _).trans (Nat.add_le_add_left ih _)

/-- Cutting off the end of a string makes it no larger, even within a pair. -/
theorem byteSize_take_le (s : JsString) (n : Nat) : byteSize (s.take n) ≤ byteSize s := by
  have hparts := List.take_append_drop n s
  by_cases hsplits : SplitsPair (s.take n) (s.drop n)
  · have hsize := byteSize_append_of_splitsPair hsplits
    rw [hparts] at hsize
    -- the second half of the pair takes three bytes by itself
    obtain ⟨v, hhead, hv⟩ := (Option.any_eq_true _ _).mp hsplits.2
    obtain ⟨t, ht⟩ := List.head?_eq_some_iff.mp hhead
    have hthree : 3 ≤ byteSize (s.drop n) := by
      have hreplacement : Utf8.replacement.utf8Size = 3 := by decide
      rw [ht, byteSize, toBuffer, toChars_cons_of_not_high (isHighSurrogate_of_low hv), singleUnit,
        hv, Bool.or_true, if_pos rfl, Utf8.length_encode_cons, hreplacement]
      omega
    omega
  · have hsize := byteSize_append hsplits
    rw [hparts] at hsize
    omega

/-- What has been written from characters does not start with the second half of a pair. -/
theorem head?_ofChars_not_low {u : UInt16} {text : List Char}
    (h : (ofChars text).head? = some u) : isLowSurrogate u = false := by
  cases text with
  | nil => simp at h
  | cons c text =>
    have hlt := Utf8.Decoder.toNat_lt c
    have hsurrogate := Utf8.Decoder.toNat_not_surrogate c
    rw [ofChars_cons, units] at h
    split at h
    · next hone =>
      obtain rfl : UInt16.ofNat c.toNat = u := by simpa using h
      rw [isLowSurrogate, toNat_ofNat_of_lt hone]
      simp
      omega
    · next htwo =>
      obtain rfl : UInt16.ofNat (0xd800 + (c.toNat - 0x10000) / 0x400) = u := by simpa using h
      rw [isLowSurrogate, toNat_ofNat_of_lt (by omega)]
      simp
      omega

theorem not_splitsPair_of_head? {s t : JsString}
    (h : ∀ u, t.head? = some u → isLowSurrogate u = false) : ¬ SplitsPair s t := by
  intro hsplits
  obtain ⟨u, hhead, hlow⟩ := (Option.any_eq_true _ _).mp hsplits.2
  rw [h u hhead] at hlow
  exact absurd hlow (by decide)

end JsString
