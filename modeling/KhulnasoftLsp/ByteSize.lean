import KhulnasoftLsp.SuggestionClient.ByteSizeLimit

/-!
# Truncating to a byte limit

`truncateToByteLimit` cuts the bytes of a string off at the limit, reads the rest back, and drops
what follows the last match of a separator. If the limit falls inside a character, its first bytes
are read back as U+FFFD, which the string need not have and which may take more bytes than there
were. `truncates_iff` says when the outcome is a beginning of the string within the limit.
-/

namespace KhulnasoftLsp.ByteSize

open JsString

/-- A regular expression with the flag `g`, as `matchAll` uses it: where its matches start. One
without the flag is not among them, `matchAll` throws for it. -/
structure Separator where
  matchAll : JsString → List Nat
  le_length : ∀ s, ∀ index ∈ matchAll s, index ≤ s.length

/-- `getByteSize` -/
def getByteSize (str : JsString) : Nat := (toBuffer str).length

def truncateToByteLimit (str : JsString) (byteLimit : Nat) (separator : Separator) : JsString :=
  if getByteSize str ≤ byteLimit then str
  else
    let truncated := ofBuffer ((toBuffer str).take byteLimit)
    match (separator.matchAll truncated).getLast? with
    | some index => truncated.take index
    | none => truncated

/-- The default separator, `/\s+/g`. -/
def whitespace : Separator where
  matchAll := SuggestionClient.ByteSizeLimit.separatorMatches false 0
  le_length := by
    intro s index hindex
    obtain ⟨-, u, hu, -⟩ :=
      SuggestionClient.ByteSizeLimit.whitespace_of_mem_separatorMatches hindex
    obtain ⟨hlt, -⟩ := List.getElem?_eq_some_iff.mp hu
    omega

/-- The pre-processor of the suggestion requests uses the default separator. -/
theorem truncateToByteLimit_whitespace (str : JsString) (byteLimit : Nat) :
    truncateToByteLimit str byteLimit whitespace =
      SuggestionClient.ByteSizeLimit.truncateToByteLimit str byteLimit := by
  rw [truncateToByteLimit, SuggestionClient.ByteSizeLimit.truncateToByteLimit,
    SuggestionClient.ByteSizeLimit.slice_of_nonneg _ (Int.natCast_nonneg _), Int.toNat_natCast]
  show (if byteSize str ≤ byteLimit then _ else _) = _
  simp only [Int.ofNat_le]
  rfl

/-- The outcome is a beginning of the string, and takes no more bytes than the limit. -/
def Truncates (str : JsString) (byteLimit : Nat) (separator : Separator) : Prop :=
  truncateToByteLimit str byteLimit separator <+: str ∧
    getByteSize (truncateToByteLimit str byteLimit separator) ≤ byteLimit

/-- The characters of a string that have room as a whole. -/
def wholeText (str : JsString) (byteLimit : Nat) : JsString :=
  ofChars (Utf8.wholeChars byteLimit str.toChars)

/-- The same, with U+FFFD for a character that has room in part. -/
def cutText (str : JsString) (byteLimit : Nat) : JsString :=
  wholeText str byteLimit ++ if Utf8.leftOver byteLimit str.toChars = 0 then [] else [0xfffd]

/-- Where the cut text ends: at the last separator, if it has one. -/
def cutAt (str : JsString) (byteLimit : Nat) (separator : Separator) : Nat :=
  ((separator.matchAll (cutText str byteLimit)).getLast?).getD (cutText str byteLimit).length

/-- The string has room as a whole, or it ends up cut between two of the characters that have room,
behind a beginning without halves of surrogate pairs: `toWellFormed()` would not change it. -/
def CutsAtCharacter (str : JsString) (byteLimit : Nat) (separator : Separator) : Prop :=
  getByteSize str ≤ byteLimit ∨
    (cutAt str byteLimit separator ≤ (wholeText str byteLimit).length ∧
      (ofChars str.toChars).take (cutAt str byteLimit separator) =
        str.take (cutAt str byteLimit separator))

instance (str : JsString) (byteLimit : Nat) (separator : Separator) :
    Decidable (CutsAtCharacter str byteLimit separator) :=
  inferInstanceAs (Decidable (_ ∨ _ ∧ _))

/-! ## What is left -/

theorem truncateToByteLimit_of_fits {str : JsString} {byteLimit : Nat}
    (h : getByteSize str ≤ byteLimit) (separator : Separator) :
    truncateToByteLimit str byteLimit separator = str := if_pos h

theorem truncateToByteLimit_of_exceeds {str : JsString} {byteLimit : Nat}
    (h : ¬ getByteSize str ≤ byteLimit) (separator : Separator) :
    truncateToByteLimit str byteLimit separator =
      (cutText str byteLimit).take (cutAt str byteLimit separator) := by
  have hcut : ofBuffer ((toBuffer str).take byteLimit) = cutText str byteLimit :=
    SuggestionClient.ByteSizeLimit.ofBuffer_take_eq byteLimit str
  rw [truncateToByteLimit, if_neg h, hcut, cutAt]
  dsimp only
  cases (separator.matchAll (cutText str byteLimit)).getLast? with
  | none => exact List.take_length.symm
  | some index => rfl

theorem cutAt_le (str : JsString) (byteLimit : Nat) (separator : Separator) :
    cutAt str byteLimit separator ≤ (cutText str byteLimit).length := by
  rw [cutAt]
  cases h : (separator.matchAll (cutText str byteLimit)).getLast? with
  | none => exact le_rfl
  | some index => exact separator.le_length _ _ (List.mem_of_getLast? h)

theorem wholeText_append_rest (str : JsString) (byteLimit : Nat) :
    ∃ rest, ofChars str.toChars = wholeText str byteLimit ++ rest := by
  obtain ⟨rest, hrest⟩ := Utf8.wholeChars_append_rest byteLimit str.toChars
  refine ⟨ofChars rest, ?_⟩
  rw [wholeText, ← ofChars_append, ← hrest]

theorem byteSize_wholeText_le {str : JsString} {byteLimit : Nat}
    (h : ¬ getByteSize str ≤ byteLimit) : byteSize (wholeText str byteLimit) ≤ byteLimit := by
  have hsize : byteLimit ≤ byteSize str := Nat.le_of_lt (Nat.lt_of_not_le h)
  have := SuggestionClient.ByteSizeLimit.byteSize_whole_add_leftOver hsize
  rw [wholeText]
  omega

/-- A cut among the characters that have room. -/
theorem truncates_of_cutAt_le {str : JsString} {byteLimit : Nat} {separator : Separator}
    (h : ¬ getByteSize str ≤ byteLimit)
    (hcut : cutAt str byteLimit separator ≤ (wholeText str byteLimit).length) :
    Truncates str byteLimit separator ↔
      (ofChars str.toChars).take (cutAt str byteLimit separator) =
        str.take (cutAt str byteLimit separator) := by
  obtain ⟨rest, hrest⟩ := wholeText_append_rest str byteLimit
  have hkept : truncateToByteLimit str byteLimit separator =
      (wholeText str byteLimit).take (cutAt str byteLimit separator) := by
    rw [truncateToByteLimit_of_exceeds h, cutText, List.take_append_of_le_length hcut]
  have hwellFormed : (ofChars str.toChars).take (cutAt str byteLimit separator) =
      (wholeText str byteLimit).take (cutAt str byteLimit separator) := by
    rw [hrest, List.take_append_of_le_length hcut]
  have hsize : getByteSize (truncateToByteLimit str byteLimit separator) ≤ byteLimit := by
    rw [hkept]
    exact (byteSize_take_le _ _).trans (byteSize_wholeText_le h)
  have hlength : ((wholeText str byteLimit).take (cutAt str byteLimit separator)).length =
      cutAt str byteLimit separator := by
    rw [List.length_take, Nat.min_eq_left hcut]
  rw [Truncates, and_iff_left hsize, hkept, hwellFormed, List.prefix_iff_eq_take, hlength]

/-- A replacement at the end is neither a part of the string that has room, nor small enough. -/
theorem not_truncates_of_lt_cutAt {str : JsString} {byteLimit : Nat} {separator : Separator}
    (h : ¬ getByteSize str ≤ byteLimit)
    (hcut : (wholeText str byteLimit).length < cutAt str byteLimit separator) :
    ¬ Truncates str byteLimit separator := by
  rintro ⟨hbegins, hsize⟩
  have hle := cutAt_le str byteLimit separator
  have hleft : Utf8.leftOver byteLimit str.toChars ≠ 0 := by
    intro hzero
    rw [cutText, if_pos hzero, List.append_nil] at hle
    omega
  have hkept : truncateToByteLimit str byteLimit separator =
      wholeText str byteLimit ++ [0xfffd] := by
    rw [truncateToByteLimit_of_exceeds h, cutText, if_neg hleft]
    apply List.take_of_length_le
    rw [List.length_append, List.length_singleton]
    exact hcut
  rw [hkept] at hbegins hsize
  obtain ⟨rest, hrest⟩ := hbegins
  rw [List.append_assoc, List.singleton_append] at hrest
  -- the character that is cut is the replacement itself, of three bytes
  have hchars : str.toChars =
      Utf8.wholeChars byteLimit str.toChars ++ Utf8.replacement :: toChars rest := by
    have hnot : ¬ SplitsPair (wholeText str byteLimit) (0xfffd :: rest) := by
      apply not_splitsPair_of_head?
      intro u hu
      cases hu
      decide
    have happend := toChars_append hnot
    rw [hrest, wholeText, toChars_ofChars, toChars_cons_of_not_high (by decide)] at happend
    exact happend
  have hthree : Utf8.replacement.utf8Size = 3 := by decide
  have hlt := Utf8.leftOver_lt_utf8Size hchars
  have hroom := SuggestionClient.ByteSizeLimit.byteSize_whole_add_leftOver
    (Nat.le_of_lt (Nat.lt_of_not_le h) : byteLimit ≤ byteSize str)
  have hnot : ¬ SplitsPair (wholeText str byteLimit) [0xfffd] := by
    apply not_splitsPair_of_head?
    intro u hu
    cases hu
    decide
  have htotal := byteSize_append hnot
  have hone : byteSize [0xfffd] = 3 := by decide
  rw [wholeText] at htotal hsize
  rw [getByteSize] at hsize
  rw [byteSize] at htotal
  omega

/-- **What the truncation keeps of its contract.** The outcome is a beginning of the string within
the limit if and only if the string ends up cut at a character. -/
theorem truncates_iff (str : JsString) (byteLimit : Nat) (separator : Separator) :
    Truncates str byteLimit separator ↔ CutsAtCharacter str byteLimit separator := by
  by_cases h : getByteSize str ≤ byteLimit
  · rw [CutsAtCharacter, Truncates, truncateToByteLimit_of_fits h]
    simp [h]
  · rw [CutsAtCharacter, or_iff_right h]
    by_cases hcut : cutAt str byteLimit separator ≤ (wholeText str byteLimit).length
    · rw [and_iff_right hcut]
      exact truncates_of_cutAt_le h hcut
    · exact iff_of_false (not_truncates_of_lt_cutAt h (Nat.lt_of_not_le hcut))
        fun hcuts => hcut hcuts.1

/-- The outcome is at most two bytes over the limit: of a character that is cut at least one byte is
left, for which there are the three of the replacement. -/
theorem getByteSize_truncateToByteLimit_le (str : JsString) (byteLimit : Nat)
    (separator : Separator) :
    getByteSize (truncateToByteLimit str byteLimit separator) ≤ byteLimit + 2 := by
  by_cases h : getByteSize str ≤ byteLimit
  · rw [truncateToByteLimit_of_fits h]
    exact h.trans (Nat.le_add_right _ 2)
  · have hroom := SuggestionClient.ByteSizeLimit.byteSize_whole_add_leftOver
      (Nat.le_of_lt (Nat.lt_of_not_le h) : byteLimit ≤ byteSize str)
    have hcut := byteSize_take_le (cutText str byteLimit) (cutAt str byteLimit separator)
    have hsize : byteSize (cutText str byteLimit) ≤ byteLimit + 2 := by
      rw [cutText, wholeText]
      split
      · rw [List.append_nil]
        omega
      · have hone : byteSize [0xfffd] = 3 := by decide
        have happend :=
          byteSize_append_le (ofChars (Utf8.wholeChars byteLimit str.toChars)) [0xfffd]
        omega
    rw [truncateToByteLimit_of_exceeds h]
    exact hcut.trans hsize

/-- The first byte of a character of four becomes a character of three. -/
theorem not_truncates_inside_character :
    ¬ Truncates [0xd83e, 0xdd8a] 1 whitespace := by
  intro h
  have hsize := h.2
  revert hsize
  decide +kernel

end KhulnasoftLsp.ByteSize
