import Mathlib.Data.List.Basic
import Mathlib.Algebra.Order.Group.Nat

/-!
# UTF-8

The encoder is that of the core library. The decoder reads one byte at a time and never fails: what
does not belong to a character becomes U+FFFD, once for each longest start of a character that is
not gone on with. Bytes that end inside a character are such a start.
-/

namespace Utf8

/-- U+FFFD -/
def replacement : Char := '\uFFFD'

def encode (text : List Char) : List UInt8 := text.flatMap String.utf8EncodeChar

/-- The decoder in the middle of a character: what has been read of its code point, how many bytes
are still needed, and between which bounds the next one must be. -/
structure Decoder where
  codePoint : Nat
  needed : Nat
  lower : Nat
  upper : Nat
  le_lower : 0x80 ≤ lower
  upper_le : upper ≤ 0xbf

namespace Decoder

/-- Any byte of the middle of a character may follow. -/
def continued (codePoint needed : Nat) : Decoder := ⟨codePoint, needed, 0x80, 0xbf, le_rfl, le_rfl⟩

/-- Between two characters. -/
def init : Decoder := continued 0 0

/-- A byte that starts a character, or cannot. -/
def lead (b : UInt8) : Decoder × List Char :=
  let n := b.toNat
  if n ≤ 0x7f then (init, [Char.ofNat n])
  else if 0xc2 ≤ n ∧ n ≤ 0xdf then (continued (n % 0x20) 1, [])
  else if 0xe0 ≤ n ∧ n ≤ 0xef then
    ({ codePoint := n % 0x10
       needed := 2
       lower := if n = 0xe0 then 0xa0 else 0x80
       upper := if n = 0xed then 0x9f else 0xbf
       le_lower := by split <;> omega
       upper_le := by split <;> omega }, [])
  else if 0xf0 ≤ n ∧ n ≤ 0xf4 then
    ({ codePoint := n % 0x8
       needed := 3
       lower := if n = 0xf0 then 0x90 else 0x80
       upper := if n = 0xf4 then 0x8f else 0xbf
       le_lower := by split <;> omega
       upper_le := by split <;> omega }, [])
  else (init, [replacement])

/-- The next byte may go on with the character. -/
def Accepts (d : Decoder) (b : UInt8) : Prop :=
  d.needed ≠ 0 ∧ d.lower ≤ b.toNat ∧ b.toNat ≤ d.upper

instance (d : Decoder) (b : UInt8) : Decidable (d.Accepts b) :=
  inferInstanceAs (Decidable (_ ∧ _ ∧ _))

def step (d : Decoder) (b : UInt8) : Decoder × List Char :=
  if d.needed = 0 then lead b
  else if d.Accepts b then
    let codePoint := d.codePoint * 0x40 + b.toNat % 0x40
    if d.needed = 1 then (init, [Char.ofNat codePoint])
    else (continued codePoint (d.needed - 1), [])
  -- the character ends too early, and the byte is read once more
  else ((lead b).1, replacement :: (lead b).2)

def feed (d : Decoder) : List UInt8 → Decoder × List Char
  | [] => (d, [])
  | b :: bs => ((feed (d.step b).1 bs).1, (d.step b).2 ++ (feed (d.step b).1 bs).2)

/-- The bytes are over. -/
def flush (d : Decoder) : List Char := if d.needed = 0 then [] else [replacement]

/-- All that is still to come if only these bytes follow. -/
def finish (d : Decoder) (bs : List UInt8) : List Char := (d.feed bs).2 ++ (d.feed bs).1.flush

end Decoder

def decode (bs : List UInt8) : List Char := Decoder.init.finish bs

/-- The characters of a text that fit as a whole into a number of bytes. -/
def wholeChars : Nat → List Char → List Char
  | _, [] => []
  | room, c :: text => if c.utf8Size ≤ room then c :: wholeChars (room - c.utf8Size) text else []

/-- How many of these bytes hold a part of the first character that does not fit. -/
def leftOver : Nat → List Char → Nat
  | _, [] => 0
  | room, c :: text => if c.utf8Size ≤ room then leftOver (room - c.utf8Size) text else room

/-! ## Encoding -/

@[simp] theorem encode_nil : encode [] = [] := rfl

@[simp] theorem encode_cons (c : Char) (text : List Char) :
    encode (c :: text) = String.utf8EncodeChar c ++ encode text := rfl

theorem encode_append (s t : List Char) : encode (s ++ t) = encode s ++ encode t :=
  List.flatMap_append

/-! ## One step of the decoder -/

namespace Decoder

@[simp] theorem feed_nil (d : Decoder) : d.feed [] = (d, []) := rfl

theorem feed_cons (d : Decoder) (b : UInt8) (bs : List UInt8) :
    d.feed (b :: bs) =
      ((feed (d.step b).1 bs).1, (d.step b).2 ++ (feed (d.step b).1 bs).2) := rfl

theorem feed_append (d : Decoder) (as bs : List UInt8) :
    d.feed (as ++ bs) =
      (((d.feed as).1.feed bs).1, (d.feed as).2 ++ ((d.feed as).1.feed bs).2) := by
  induction as generalizing d with
  | nil => simp
  | cons a as ih => simp [feed_cons, ih]

@[simp] theorem finish_nil (d : Decoder) : d.finish [] = d.flush := by
  simp [finish]

theorem finish_cons (d : Decoder) (b : UInt8) (bs : List UInt8) :
    d.finish (b :: bs) = (d.step b).2 ++ (d.step b).1.finish bs := by
  simp [finish, feed_cons]

theorem finish_append (d : Decoder) (as bs : List UInt8) :
    d.finish (as ++ bs) = (d.feed as).2 ++ (d.feed as).1.finish bs := by
  simp [finish, feed_append]

@[simp] theorem flush_init : init.flush = [] := rfl

theorem flush_of_needed {d : Decoder} (h : d.needed ≠ 0) : d.flush = [replacement] := if_neg h

theorem step_init (b : UInt8) : init.step b = lead b := rfl

theorem step_of_needed_eq_zero {d : Decoder} (h : d.needed = 0) (b : UInt8) : d.step b = lead b :=
  if_pos h

theorem step_of_not_accepts {d : Decoder} {b : UInt8} (hneeded : d.needed ≠ 0)
    (h : ¬ d.Accepts b) : d.step b = ((lead b).1, replacement :: (lead b).2) := by
  rw [step, if_neg hneeded, if_neg h]

theorem step_of_accepts {d : Decoder} {b : UInt8} (h : d.Accepts b) :
    d.step b =
      if d.needed = 1 then (init, [Char.ofNat (d.codePoint * 0x40 + b.toNat % 0x40)])
      else (continued (d.codePoint * 0x40 + b.toNat % 0x40) (d.needed - 1), []) := by
  rw [step, if_neg h.1, if_pos h]

/-- A byte that may go on with a character cannot start one. -/
theorem lead_of_accepts {d : Decoder} {b : UInt8} (h : d.Accepts b) :
    lead b = (init, [replacement]) := by
  have hlower := le_trans d.le_lower h.2.1
  have hupper := le_trans h.2.2 d.upper_le
  rw [lead]
  rw [if_neg (by omega), if_neg (by omega), if_neg (by omega), if_neg (by omega)]

theorem finish_of_needed_eq_zero {d : Decoder} (h : d.needed = 0) (bs : List UInt8) :
    d.finish bs = init.finish bs := by
  cases bs with
  | nil => rw [finish_nil, finish_nil, flush_init, flush, if_pos h]
  | cons b bs => rw [finish_cons, finish_cons, step_of_needed_eq_zero h, step_init]

/-! ## The bytes of one character -/

/-- The bytes are what is still to come of a character. -/
def Spells (d : Decoder) (c : Char) : List UInt8 → Prop
  | [] => False
  | b :: bs => d.Accepts b ∧
      if d.needed = 1 then bs = [] ∧ d.codePoint * 0x40 + b.toNat % 0x40 = c.toNat
      else Spells (d.step b).1 c bs

theorem toNat_ofNat_of_lt {n : Nat} (h : n < 256) : (UInt8.ofNat n).toNat = n := by
  simp [Nat.mod_eq_of_lt h]

/-- The last bytes of the code point `v`, six bits in each. -/
def tailBytes (v : Nat) : Nat → List UInt8
  | 0 => []
  | k + 1 => UInt8.ofNat (v / 0x40 ^ k % 0x40 + 0x80) :: tailBytes v k

theorem toNat_tailByte (v k : Nat) :
    (UInt8.ofNat (v / 0x40 ^ k % 0x40 + 0x80)).toNat = v / 0x40 ^ k % 0x40 + 0x80 :=
  toNat_ofNat_of_lt (by omega)

theorem codePoint_tailByte (v k : Nat) :
    v / 0x40 ^ (k + 1) * 0x40 + (v / 0x40 ^ k % 0x40 + 0x80) % 0x40 = v / 0x40 ^ k := by
  rw [pow_succ, ← Nat.div_div_eq_div_mul]
  omega

theorem spells_tailBytes (c : Char) (k : Nat) (d : Decoder) (hneeded : d.needed = k + 1)
    (hcodePoint : d.codePoint = c.toNat / 0x40 ^ (k + 1))
    (hlower : d.lower ≤ c.toNat / 0x40 ^ k % 0x40 + 0x80)
    (hupper : c.toNat / 0x40 ^ k % 0x40 + 0x80 ≤ d.upper) :
    d.Spells c (tailBytes c.toNat (k + 1)) := by
  induction k generalizing d with
  | zero =>
    refine ⟨⟨by omega, ?_⟩, ?_⟩
    · rw [toNat_tailByte]
      exact ⟨hlower, hupper⟩
    · rw [if_pos hneeded, toNat_tailByte, hcodePoint, codePoint_tailByte]
      exact ⟨rfl, Nat.div_one _⟩
  | succ k ih =>
    have haccepts : d.Accepts (UInt8.ofNat (c.toNat / 0x40 ^ (k + 1) % 0x40 + 0x80)) := by
      rw [Accepts, toNat_tailByte]
      exact ⟨by omega, hlower, hupper⟩
    refine ⟨haccepts, ?_⟩
    rw [if_neg (by omega), step_of_accepts haccepts, if_neg (by omega)]
    apply ih
    · show d.needed - 1 = k + 1
      omega
    · show d.codePoint * 0x40 + _ % 0x40 = _
      rw [toNat_tailByte, hcodePoint, codePoint_tailByte]
    · exact Nat.le_add_left _ _
    · show _ ≤ 0xbf
      omega

theorem toNat_not_surrogate (c : Char) : c.toNat < 0xd800 ∨ 0xe000 ≤ c.toNat := by
  have h := c.valid
  simp only [UInt32.isValidChar, Nat.isValidChar] at h
  have : c.toNat = c.val.toNat := rfl
  omega

theorem toNat_lt (c : Char) : c.toNat < 0x110000 := by
  have h := c.valid
  simp only [UInt32.isValidChar, Nat.isValidChar] at h
  have : c.toNat = c.val.toNat := rfl
  omega

/-- The bytes of a character: its first one, and those that the decoder needs after it. -/
theorem spells_encodeChar {c : Char} (h : 0x7f < c.toNat) :
    ∃ b bs, String.utf8EncodeChar c = b :: bs ∧ (lead b).2 = [] ∧ (lead b).1.Spells c bs := by
  have hlt := toNat_lt c
  have hsurrogate := toNat_not_surrogate c
  have hval : c.val.toNat = c.toNat := rfl
  rw [String.utf8EncodeChar]
  simp only [hval]
  rw [if_neg (by omega)]
  by_cases htwo : c.toNat ≤ 0x7ff
  · rw [if_pos htwo]
    refine ⟨UInt8.ofNat (c.toNat / 0x40 % 0x20 + 0xc0), tailBytes c.toNat 1,
      by simp [tailBytes], ?_⟩
    have hb := toNat_ofNat_of_lt (n := c.toNat / 0x40 % 0x20 + 0xc0) (by omega)
    rw [lead, if_neg (by omega), if_pos (by omega)]
    refine ⟨rfl, ?_⟩
    apply spells_tailBytes
    · rfl
    · simp [continued]; omega
    · simp [continued]
    · simp [continued]; omega
  by_cases hthree : c.toNat ≤ 0xffff
  · rw [if_neg htwo, if_pos hthree]
    refine ⟨UInt8.ofNat (c.toNat / 0x1000 % 0x10 + 0xe0), tailBytes c.toNat 2,
      by simp [tailBytes], ?_⟩
    have hb := toNat_ofNat_of_lt (n := c.toNat / 0x1000 % 0x10 + 0xe0) (by omega)
    rw [lead, if_neg (by omega), if_neg (by omega), if_pos (by omega)]
    refine ⟨rfl, ?_⟩
    apply spells_tailBytes
    · rfl
    · simp; omega
    · simp ; split <;> omega
    · simp ; split <;> omega
  · rw [if_neg htwo, if_neg hthree]
    refine ⟨UInt8.ofNat (c.toNat / 0x40000 % 0x8 + 0xf0), tailBytes c.toNat 3,
      by simp [tailBytes], ?_⟩
    have hb := toNat_ofNat_of_lt (n := c.toNat / 0x40000 % 0x8 + 0xf0) (by omega)
    rw [lead, if_neg (by omega), if_neg (by omega), if_neg (by omega), if_pos (by omega)]
    refine ⟨rfl, ?_⟩
    apply spells_tailBytes
    · rfl
    · simp; omega
    · simp ; split <;> omega
    · simp ; split <;> omega

theorem Spells.feed {d : Decoder} {c : Char} {bs : List UInt8} (h : d.Spells c bs) :
    d.feed bs = (init, [c]) := by
  induction bs generalizing d with
  | nil => exact h.elim
  | cons b bs ih =>
    obtain ⟨haccepts, hrest⟩ := h
    rw [feed_cons]
    by_cases hneeded : d.needed = 1
    · rw [if_pos hneeded] at hrest
      obtain ⟨rfl, hcodePoint⟩ := hrest
      rw [step_of_accepts haccepts, if_pos hneeded, hcodePoint, Char.ofNat_toNat]
      rfl
    · rw [if_neg hneeded] at hrest
      rw [ih hrest, step_of_accepts haccepts, if_neg hneeded]
      rfl

theorem Spells.feed_part {d : Decoder} {c : Char} {x : UInt8} {part rest : List UInt8}
    (h : d.Spells c (part ++ x :: rest)) :
    (d.feed part).2 = [] ∧ (d.feed part).1.Accepts x := by
  induction part generalizing d with
  | nil => exact ⟨rfl, h.1⟩
  | cons b part ih =>
    obtain ⟨haccepts, hrest⟩ := h
    by_cases hneeded : d.needed = 1
    · rw [if_pos hneeded] at hrest
      simp at hrest
    · rw [if_neg hneeded] at hrest
      obtain ⟨hnone, hx⟩ := ih hrest
      rw [feed_cons, hnone, step_of_accepts haccepts, if_neg hneeded]
      rw [step_of_accepts haccepts, if_neg hneeded] at hx
      exact ⟨rfl, hx⟩

theorem encodeChar_of_ascii {c : Char} (h : c.toNat ≤ 0x7f) :
    String.utf8EncodeChar c = [UInt8.ofNat c.toNat] := if_pos h

theorem feed_encodeChar (c : Char) : init.feed (String.utf8EncodeChar c) = (init, [c]) := by
  by_cases hascii : c.toNat ≤ 0x7f
  · have hb := toNat_ofNat_of_lt (n := c.toNat) (by omega)
    rw [encodeChar_of_ascii hascii, feed_cons, step_init, lead, if_pos (by omega), hb,
      Char.ofNat_toNat]
    rfl
  · obtain ⟨b, bs, hbytes, hlead, hspells⟩ := spells_encodeChar (not_le.mp hascii)
    rw [hbytes, feed_cons, step_init, hspells.feed, hlead]
    rfl

/-- In the middle of a character nothing has been written yet, and its next byte may follow. -/
theorem feed_part {c : Char} {x : UInt8} {part rest : List UInt8}
    (h : String.utf8EncodeChar c = part ++ x :: rest) (hpart : part ≠ []) :
    (init.feed part).2 = [] ∧ (init.feed part).1.Accepts x := by
  obtain ⟨b, part, rfl⟩ := List.exists_cons_of_ne_nil hpart
  by_cases hascii : c.toNat ≤ 0x7f
  · rw [encodeChar_of_ascii hascii] at h
    simp at h
  · obtain ⟨b', bs, hbytes, hlead, hspells⟩ := spells_encodeChar (not_le.mp hascii)
    rw [hbytes, List.cons_append, List.cons.injEq] at h
    obtain ⟨rfl, rfl⟩ := h
    rw [feed_cons, step_init, hlead]
    exact ⟨hspells.feed_part.1, hspells.feed_part.2⟩

end Decoder

/-! ## Decoding what has been encoded -/

open Decoder

@[simp] theorem decode_nil : decode [] = [] := rfl

theorem feed_encode (text : List Char) : init.feed (encode text) = (init, text) := by
  induction text with
  | nil => rfl
  | cons c text ih => rw [encode_cons, feed_append, feed_encodeChar, ih]; rfl

theorem decode_encode_append (text : List Char) (bs : List UInt8) :
    decode (encode text ++ bs) = text ++ decode bs := by
  rw [decode, finish_append, feed_encode]
  rfl

@[simp] theorem decode_encode (text : List Char) : decode (encode text) = text := by
  have h := decode_encode_append text []
  rwa [List.append_nil, decode_nil, List.append_nil] at h

theorem encode_injective : Function.Injective encode :=
  Function.LeftInverse.injective decode_encode

theorem decode_part {c : Char} {x : UInt8} {part rest : List UInt8}
    (h : String.utf8EncodeChar c = part ++ x :: rest) (hpart : part ≠ []) :
    decode part = [replacement] := by
  obtain ⟨hnone, haccepts⟩ := feed_part h hpart
  rw [decode, finish, hnone, flush_of_needed haccepts.1]
  rfl

theorem length_encode_cons (c : Char) (text : List Char) :
    (encode (c :: text)).length = c.utf8Size + (encode text).length := by
  rw [encode_cons, List.length_append, String.length_utf8EncodeChar]

theorem length_wholeChars_add_leftOver (room : Nat) (text : List Char) :
    (encode (wholeChars room text)).length + leftOver room text =
      min room (encode text).length := by
  induction text generalizing room with
  | nil => simp [wholeChars, leftOver]
  | cons c text ih =>
    rw [wholeChars, leftOver, length_encode_cons]
    split
    · have := ih (room - c.utf8Size)
      rw [length_encode_cons]
      omega
    · rw [encode_nil, List.length_nil]
      omega

theorem leftOver_lt (room : Nat) (text : List Char) : leftOver room text < 4 := by
  induction text generalizing room with
  | nil => simp [leftOver]
  | cons c text ih =>
    rw [leftOver]
    split
    · exact ih _
    · have := c.utf8Size_le_four
      omega

theorem wholeChars_append_rest (room : Nat) (text : List Char) :
    ∃ rest, text = wholeChars room text ++ rest := by
  induction text generalizing room with
  | nil => exact ⟨[], rfl⟩
  | cons c text ih =>
    rw [wholeChars]
    split
    · obtain ⟨rest, hrest⟩ := ih (room - c.utf8Size)
      exact ⟨rest, by rw [List.cons_append, ← hrest]⟩
    · exact ⟨c :: text, rfl⟩

/-- What is left over is a part of the first character that has no room. -/
theorem leftOver_lt_utf8Size {room : Nat} {text rest : List Char} {c : Char}
    (h : text = wholeChars room text ++ c :: rest) : leftOver room text < c.utf8Size := by
  induction text generalizing room with
  | nil => simp [wholeChars] at h
  | cons d text ih =>
    rw [wholeChars] at h
    rw [leftOver]
    split at h
    · next hfits =>
      rw [if_pos hfits]
      rw [List.cons_append, List.cons.injEq] at h
      exact ih h.2
    · next hfits =>
      rw [if_neg hfits]
      rw [List.nil_append, List.cons.injEq] at h
      rw [← h.1]
      omega

theorem decode_take_encode (room : Nat) (text : List Char) :
    decode ((encode text).take room) =
      wholeChars room text ++ if leftOver room text = 0 then [] else [replacement] := by
  induction text generalizing room with
  | nil => simp [wholeChars, leftOver]
  | cons c text ih =>
    rw [wholeChars, leftOver, encode_cons, List.take_append, String.length_utf8EncodeChar]
    split
    · next hfits =>
      have hone := decode_encode_append [c] ((encode text).take (room - c.utf8Size))
      rw [encode_cons, encode_nil, List.append_nil] at hone
      rw [List.take_of_length_le (by simpa using hfits), hone, ih]
      rfl
    · next hfits =>
      rw [Nat.sub_eq_zero_of_le (by omega), List.take_zero, List.append_nil, List.nil_append]
      split
      · next hzero => rw [hzero, List.take_zero, decode_nil]
      · next hzero =>
        have hlength := String.length_utf8EncodeChar c
        obtain ⟨x, rest, hrest⟩ := List.exists_cons_of_ne_nil
          (l := (String.utf8EncodeChar c).drop room) (by
            rw [Ne, List.drop_eq_nil_iff]
            omega)
        have hcut : String.utf8EncodeChar c =
            (String.utf8EncodeChar c).take room ++ x :: rest := by
          rw [← hrest, List.take_append_drop]
        apply decode_part hcut
        rw [Ne, List.take_eq_nil_iff]
        grind [String.utf8EncodeChar_ne_nil]

/-- Where a cut through the bytes of a text falls: between two characters or inside one. -/
theorem encode_eq_append {text : List Char} {as bs : List UInt8} (h : encode text = as ++ bs) :
    (∃ s t, as = encode s ∧ bs = encode t ∧ text = s ++ t) ∨
      ∃ s c part x rest, String.utf8EncodeChar c = part ++ x :: rest ∧ part ≠ [] ∧
        as = encode s ++ part ∧ ∃ bs', bs = x :: bs' := by
  induction text generalizing as with
  | nil =>
    obtain ⟨rfl, rfl⟩ := List.append_eq_nil_iff.mp h.symm
    exact Or.inl ⟨[], [], rfl, rfl, rfl⟩
  | cons c text ih =>
    rw [encode_cons] at h
    obtain ⟨as', rfl, hrest⟩ | ⟨rest, hc, rfl⟩ := List.append_eq_append_iff.mp h
    · obtain ⟨s, t, rfl, rfl, rfl⟩ | ⟨s, d, part, x, rest, hd, hpart, rfl, hbs⟩ := ih hrest
      · exact Or.inl ⟨c :: s, t, rfl, rfl, rfl⟩
      · exact Or.inr ⟨c :: s, d, part, x, rest, hd, hpart, by simp, hbs⟩
    · cases rest with
      | nil =>
        rw [List.append_nil] at hc
        refine Or.inl ⟨[c], text, ?_, rfl, rfl⟩
        rw [← hc, encode_cons, encode_nil, List.append_nil]
      | cons x rest =>
        by_cases has : as = []
        · refine Or.inl ⟨[], c :: text, has, ?_, rfl⟩
          rw [encode_cons, hc, has, List.nil_append]
        · exact Or.inr ⟨[], c, as, x, rest, hc, has, rfl, _, rfl⟩

/-! ## Decoding chunk by chunk -/

/-- The characters that have not been replaced. -/
def readable (text : List Char) : Nat := text.countP (· ≠ replacement)

@[simp] theorem readable_append (s t : List Char) : readable (s ++ t) = readable s + readable t :=
  List.countP_append

@[simp] theorem readable_cons_replacement (text : List Char) :
    readable (replacement :: text) = readable text := by
  simp [readable]

@[simp] theorem readable_nil : readable [] = 0 := rfl

namespace Decoder

/-- What is lost by starting anew in the middle of a character: its bytes are read as garbage. -/
def LosesTo (d : Decoder) (bs : List UInt8) (spare : Nat) : Prop :=
  (d.finish bs).length ≤ (init.finish bs).length + spare ∧
    readable (init.finish bs) ≤ readable (d.finish bs)

theorem losesTo_cons_of_accepts {d : Decoder} {b : UInt8} {bs : List UInt8}
    (hrest : ∀ d : Decoder, d.needed ≠ 0 → d.LosesTo bs 1) (h : d.Accepts b) :
    d.LosesTo (b :: bs) 0 := by
  rw [LosesTo, finish_cons init, step_init, lead_of_accepts h, finish_cons, step_of_accepts h]
  split
  · simp [readable, List.countP_cons]
  · next hone =>
    have hneeded : d.needed - 1 ≠ 0 := by have := h.1; omega
    obtain ⟨hlength, hreadable⟩ :=
      hrest (continued (d.codePoint * 0x40 + b.toNat % 0x40) (d.needed - 1)) hneeded
    simp
    omega

theorem losesTo {d : Decoder} (hneeded : d.needed ≠ 0) (bs : List UInt8) : d.LosesTo bs 1 := by
  induction bs generalizing d with
  | nil => simp [LosesTo, flush_of_needed hneeded]
  | cons b bs ih =>
    by_cases haccepts : d.Accepts b
    · obtain ⟨hlength, hreadable⟩ := losesTo_cons_of_accepts (fun _ h => ih h) haccepts
      exact ⟨by omega, hreadable⟩
    · rw [LosesTo, finish_cons d, finish_cons init, step_init,
        step_of_not_accepts hneeded haccepts]
      simp

theorem losesTo_of_accepts {d : Decoder} {b : UInt8} (h : d.Accepts b) (bs : List UInt8) :
    d.LosesTo (b :: bs) 0 :=
  losesTo_cons_of_accepts (fun _ hneeded => losesTo hneeded bs) h

end Decoder

theorem decode_append (as bs : List UInt8) :
    decode (as ++ bs) = (init.feed as).2 ++ (init.feed as).1.finish bs := finish_append _ _ _

theorem decode_eq (bs : List UInt8) :
    decode bs = (init.feed bs).2 ++ (init.feed bs).1.flush := rfl

theorem decode_append_le (as bs : List UInt8) :
    (decode (as ++ bs)).length ≤ (decode as).length + (decode bs).length ∧
      readable (decode as) + readable (decode bs) ≤ readable (decode (as ++ bs)) := by
  rw [decode_append, decode_eq as]
  by_cases hneeded : (init.feed as).1.needed = 0
  · rw [finish_of_needed_eq_zero hneeded, flush, if_pos hneeded, ← decode]
    simp
  · obtain ⟨hlength, hreadable⟩ := losesTo hneeded bs
    rw [flush_of_needed hneeded, decode]
    simp
    omega

/-- A cut inside a character makes more characters of it. -/
theorem decode_append_lt {as : List UInt8} {b : UInt8} (h : (init.feed as).1.Accepts b)
    (bs : List UInt8) :
    (decode (as ++ b :: bs)).length < (decode as).length + (decode (b :: bs)).length := by
  obtain ⟨hlength, hreadable⟩ := losesTo_of_accepts h bs
  rw [decode_append, decode_eq as, flush_of_needed h.1, decode]
  simp
  omega

theorem decode_flatten_le (chunks : List (List UInt8)) :
    (decode chunks.flatten).length ≤ (chunks.flatMap decode).length ∧
      readable (chunks.flatMap decode) ≤ readable (decode chunks.flatten) := by
  induction chunks with
  | nil => simp
  | cons chunk chunks ih =>
    obtain ⟨hlength, hreadable⟩ := decode_append_le chunk chunks.flatten
    rw [List.flatten_cons, List.flatMap_cons, List.length_append, readable_append]
    omega

theorem encode_flatMap_decode {chunks : List (List UInt8)}
    (h : ∀ chunk ∈ chunks, ∃ t, chunk = encode t) :
    encode (chunks.flatMap decode) = chunks.flatten := by
  induction chunks with
  | nil => rfl
  | cons chunk chunks ih =>
    obtain ⟨⟨t, rfl⟩, hrest⟩ := List.forall_mem_cons.mp h
    rw [List.flatMap_cons, encode_append, decode_encode, ih hrest, List.flatten_cons]

theorem flatMap_decode_iff {chunks : List (List UInt8)} {text : List Char}
    (h : chunks.flatten = encode text) :
    chunks.flatMap decode = text ↔ ∀ chunk ∈ chunks, ∃ t, chunk = encode t := by
  constructor
  · intro hdecoded
    induction chunks generalizing text with
    | nil => simp
    | cons chunk chunks ih =>
      rw [List.flatten_cons] at h
      rw [List.flatMap_cons] at hdecoded
      obtain ⟨s, t, rfl, hrest, rfl⟩ | ⟨s, c, part, x, rest, hc, hpart, rfl, bs, hbs⟩ :=
        encode_eq_append h.symm
      · rw [decode_encode] at hdecoded
        rw [List.forall_mem_cons]
        exact ⟨⟨s, rfl⟩, ih hrest (List.append_cancel_left hdecoded)⟩
      · exfalso
        have hstrict : (decode (encode s ++ part ++ x :: bs)).length <
            (decode (encode s ++ part)).length + (decode (x :: bs)).length := by
          apply decode_append_lt
          rw [feed_append, feed_encode]
          exact (feed_part hc hpart).2
        have hle := (decode_flatten_le chunks).1
        rw [← hbs, h, decode_encode] at hstrict
        have := congrArg List.length hdecoded
        rw [List.length_append] at this
        omega
  · intro hwhole
    apply encode_injective
    rw [← h, encode_flatMap_decode hwhole]

/-! ## The byte order mark -/

/-- U+FEFF -/
def byteOrderMark : Char := '\uFEFF'

/-- A byte order mark at the start is not a part of the text. -/
def removeByteOrderMark : List Char → List Char
  | [] => []
  | c :: text => if c = byteOrderMark then text else c :: text

theorem removeByteOrderMark_of_head?_ne {text : List Char}
    (h : text.head? ≠ some byteOrderMark) : removeByteOrderMark text = text := by
  cases text with
  | nil => rfl
  | cons c text => exact if_neg fun hc => h (congrArg some hc)

theorem readable_removeByteOrderMark_lt {text : List Char}
    (h : text.head? = some byteOrderMark) :
    readable (removeByteOrderMark text) < readable text := by
  cases text with
  | nil => simp at h
  | cons c text =>
    obtain rfl : c = byteOrderMark := by simpa using h
    rw [removeByteOrderMark, if_pos rfl, readable, readable, List.countP_cons_of_pos (by decide)]
    exact Nat.lt_succ_self _

theorem readable_removeByteOrderMark_le (text : List Char) :
    readable (removeByteOrderMark text) ≤ readable text := by
  by_cases h : text.head? = some byteOrderMark
  · exact (readable_removeByteOrderMark_lt h).le
  · rw [removeByteOrderMark_of_head?_ne h]

theorem readable_flatMap_removeByteOrderMark_le (chunks : List (List UInt8)) :
    readable (chunks.flatMap fun chunk => removeByteOrderMark (decode chunk)) ≤
      readable (chunks.flatMap decode) := by
  induction chunks with
  | nil => exact le_rfl
  | cons chunk chunks ih =>
    rw [List.flatMap_cons, List.flatMap_cons, readable_append, readable_append]
    exact Nat.add_le_add (readable_removeByteOrderMark_le _) ih

/-- Characters can only get lost where a chunk starts with a byte order mark. -/
theorem head?_ne_of_readable_le {chunks : List (List UInt8)}
    (h : readable (chunks.flatMap decode) ≤
      readable (chunks.flatMap fun chunk => removeByteOrderMark (decode chunk))) :
    ∀ chunk ∈ chunks, (decode chunk).head? ≠ some byteOrderMark := by
  induction chunks with
  | nil => simp
  | cons chunk chunks ih =>
    rw [List.flatMap_cons, List.flatMap_cons, readable_append, readable_append] at h
    have hchunk := readable_removeByteOrderMark_le (decode chunk)
    have hchunks := readable_flatMap_removeByteOrderMark_le chunks
    rw [List.forall_mem_cons]
    constructor
    · intro hmark
      have := readable_removeByteOrderMark_lt hmark
      omega
    · apply ih
      omega

theorem flatMap_removeByteOrderMark {chunks : List (List UInt8)}
    (h : ∀ chunk ∈ chunks, (decode chunk).head? ≠ some byteOrderMark) :
    (chunks.flatMap fun chunk => removeByteOrderMark (decode chunk)) = chunks.flatMap decode := by
  induction chunks with
  | nil => rfl
  | cons chunk chunks ih =>
    obtain ⟨hchunk, hrest⟩ := List.forall_mem_cons.mp h
    rw [List.flatMap_cons, List.flatMap_cons, removeByteOrderMark_of_head?_ne hchunk, ih hrest]

/-- Chunks that are decoded apart from each other make up the text if each of them is a text that
does not start with a byte order mark, and only then: what a cut inside a character adds cannot be
made up for by the marks that get lost. -/
theorem flatMap_removeByteOrderMark_decode_iff {chunks : List (List UInt8)} {text : List Char}
    (h : chunks.flatten = encode text) :
    (chunks.flatMap fun chunk => removeByteOrderMark (decode chunk)) = text ↔
      ∀ chunk ∈ chunks, ∃ t, chunk = encode t ∧ t.head? ≠ some byteOrderMark := by
  constructor
  · intro hdecoded
    have hle := (decode_flatten_le chunks).2
    rw [h, decode_encode] at hle
    have hmarks := head?_ne_of_readable_le (hdecoded.symm ▸ hle)
    rw [flatMap_removeByteOrderMark hmarks] at hdecoded
    intro chunk hmem
    obtain ⟨t, rfl⟩ := (flatMap_decode_iff h).mp hdecoded chunk hmem
    have hmark := hmarks _ hmem
    rw [decode_encode] at hmark
    exact ⟨t, rfl, hmark⟩
  · intro hwhole
    have hmarks : ∀ chunk ∈ chunks, (decode chunk).head? ≠ some byteOrderMark := by
      intro chunk hmem
      obtain ⟨t, rfl, hmark⟩ := hwhole chunk hmem
      rwa [decode_encode]
    rw [flatMap_removeByteOrderMark hmarks]
    apply (flatMap_decode_iff h).mpr
    intro chunk hmem
    obtain ⟨t, ht, hmark⟩ := hwhole chunk hmem
    exact ⟨t, ht⟩

end Utf8
