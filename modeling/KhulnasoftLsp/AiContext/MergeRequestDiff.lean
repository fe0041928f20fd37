import KhulnasoftLsp.Regex
import KhulnasoftLsp.TrimmedLines
import Mathlib.Data.Nat.Find

/-!
# The diffs of a merge request

`formatDiff` takes the first match of `/^@@[\s\S]+?@@$/m` out of a diff, which is meant for its
first hunk header. Such a match begins at the first `@@` at the start of a line, and ends with the
first `@@` behind it at the end of one (`FirstMatch`). A header with some text behind its second
`@@` does not end there, and the match goes on to a later line.
-/

namespace KhulnasoftLsp

open JsString Pattern

structure MergeRequestDiffDetails where
  oldPath : JsString
  newPath : JsString
  diff : JsString
  deriving DecidableEq, Repr

namespace MergeRequestDiff

def isLineTerminator (u : UInt16) : Bool :=
  u == 0x000a || u == 0x000d || u == 0x2028 || u == 0x2029

def marker : JsString := ofString "@@"

/-- `@@[\s\S]+?@@$`, with the flag `m` -/
def hunkHeader : Pattern UInt16 Unit := do
  let _ ← literal marker
  let _ ← lazy 1 fun _ => true
  let _ ← literal marker
  atLineEnd isLineTerminator

def findHunkHeader (diff : JsString) : Option (Found UInt16 Unit) :=
  search (atLineStart isLineTerminator) hunkHeader diff

/-- `diff.replace(/^@@[\s\S]+?@@$/m, '')` -/
def stripHunkHeader (diff : JsString) : JsString :=
  match findHunkHeader diff with
  | some m => diff.take m.index ++ diff.drop (m.index + m.text.length)
  | none => diff

/-- The two lines above the diff. -/
def pathLines (d : MergeRequestDiffDetails) : JsString :=
  ofString "--- " ++ d.oldPath ++ ofString "\n+++ " ++ d.newPath ++ ofString "\n"

def formatDiff (d : MergeRequestDiffDetails) : JsString :=
  pathLines d ++ trimEnd (stripHunkHeader d.diff)

/-- A line of the diff that is no hunk header. -/
def isDiffLine (line : JsString) : Bool := !marker.isPrefixOf line

def diffLines (text : JsString) : List JsString := (lines text).filter isDiffLine

/-- Below the paths the formatted diff has every line of the diff that is no hunk header, in order
and unchanged, but for the white space that is trimmed at its end. -/
def KeepsLines (d : MergeRequestDiffDetails) : Prop :=
  ∃ text, formatDiff d = pathLines d ++ trimEnd text ∧ (diffLines d.diff).Sublist (lines text)

/-! ## The first match -/

/-- The first match: from the first `@@` at the start of a line to the first `@@` at the end of a
line behind it, with something in between. -/
structure FirstMatch (diff front inner behind : JsString) : Prop where
  text : diff = front ++ (marker ++ (inner ++ (marker ++ behind)))
  starts : front.getLast?.all isLineTerminator = true
  ends : behind.head?.all isLineTerminator = true
  between : inner ≠ []
  leftmost : ∀ front' rest, front' ++ (marker ++ rest) = diff →
    front'.getLast?.all isLineTerminator = true → front.length ≤ front'.length
  shortest : ∀ inner' behind', inner' ++ (marker ++ behind') = inner ++ (marker ++ behind) →
    inner' ≠ [] → behind'.head?.all isLineTerminator = true → inner.length ≤ inner'.length

theorem mem_hunkHeader {text rest : JsString} {u : Unit} :
    (u, rest) ∈ hunkHeader text ↔ ∃ inner, inner ≠ [] ∧
      text = marker ++ (inner ++ (marker ++ rest)) ∧
        rest.head?.all isLineTerminator = true := by
  simp only [hunkHeader, mem_bind, mem_literal, mem_lazy, mem_atLineEnd]
  constructor
  · rintro ⟨_, _, ⟨-, rfl⟩, inner, _, ⟨rfl, -, hlength⟩, _, _, ⟨-, rfl⟩, rfl, hend⟩
    exact ⟨inner, List.length_pos_iff.mp hlength, rfl, hend⟩
  · rintro ⟨inner, hne, rfl, hend⟩
    exact ⟨_, _, ⟨rfl, rfl⟩, inner, _, ⟨rfl, by simp, List.length_pos_iff.mpr hne⟩, _, _,
      ⟨rfl, rfl⟩, rfl, hend⟩

section FirstMatch

variable {diff front inner behind : JsString}

/-- The header is found where the first match is. -/
theorem FirstMatch.findHunkHeader_eq (h : FirstMatch diff front inner behind) :
    findHunkHeader diff =
      some ⟨front.length, marker ++ (inner ++ marker), ()⟩ := by
  have hlast : first (do let _ ← literal marker; atLineEnd isLineTerminator)
      (marker ++ behind) = some ((), behind) := by
    rw [first_literal_bind, first, atLineEnd, if_pos h.ends]
    rfl
  have hshorter : ∀ inner' rest, inner' ++ rest = inner ++ (marker ++ behind) →
      1 ≤ inner'.length → inner'.length < inner.length →
      first (do let _ ← literal marker; atLineEnd isLineTerminator) rest = none := by
    intro inner' rest heq hne hlt
    rw [first_bind_eq_none]
    intro word behind' hword
    obtain ⟨rfl, rfl⟩ := mem_literal.mp hword
    rw [first_eq_none_iff]
    intro r hr
    obtain ⟨-, hend⟩ := mem_atLineEnd.mp hr
    have hle := h.shortest inner' behind' heq (List.length_pos_iff.mp hne) hend
    omega
  have hlazy : first hunkHeader (marker ++ (inner ++ (marker ++ behind))) = some ((), behind) := by
    have hall : ∀ c ∈ inner, (fun _ : UInt16 => true) c = true := fun _ _ => rfl
    rw [hunkHeader, first_literal_bind]
    exact first_lazy hall (List.length_pos_iff.mpr h.between) hshorter hlast
  have hsplit : marker ++ (inner ++ (marker ++ behind)) =
      (marker ++ (inner ++ marker)) ++ behind := by simp
  have hearlier : ∀ front' rest,
      front' ++ rest = front ++ ((marker ++ (inner ++ marker)) ++ behind) →
      front'.length < front.length → front'.getLast?.all isLineTerminator = true →
      Pattern.first hunkHeader rest = none := by
    intro front' rest htext hlt hstart
    rw [first_eq_none_iff]
    rintro ⟨u, rest'⟩ hmem
    obtain ⟨inner', -, rfl, -⟩ := mem_hunkHeader.mp hmem
    have hle := h.leftmost front' _ (by rw [htext, h.text, hsplit]) hstart
    omega
  rw [hsplit] at hlazy
  rw [findHunkHeader, h.text, hsplit]
  exact search_eq_some h.starts hlazy hearlier

theorem FirstMatch.stripHunkHeader_eq (h : FirstMatch diff front inner behind) :
    stripHunkHeader diff = front ++ behind := by
  have hsplit : diff = front ++ ((marker ++ (inner ++ marker)) ++ behind) := by
    rw [h.text]
    simp
  rw [stripHunkHeader, h.findHunkHeader_eq]
  dsimp only
  rw [hsplit, List.take_left, ← List.drop_drop, List.drop_left, List.drop_left]

theorem FirstMatch.unique {front' inner' behind' : JsString}
    (h : FirstMatch diff front inner behind) (h' : FirstMatch diff front' inner' behind') :
    front' = front ∧ inner' = inner ∧ behind' = behind := by
  have htext := h'.text.symm.trans h.text
  have hlength : front'.length = front.length :=
    le_antisymm (h'.leftmost front _ h.text.symm h.starts)
      (h.leftmost front' _ h'.text.symm h'.starts)
  obtain ⟨rfl, hrest⟩ := List.append_inj htext hlength
  have hinner := List.append_cancel_left hrest
  have hlength' : inner'.length = inner.length :=
    le_antisymm (h'.shortest inner _ hinner.symm h.between h.ends)
      (h.shortest inner' _ hinner h'.between h'.ends)
  obtain ⟨rfl, hbehind⟩ := List.append_inj hinner hlength'
  exact ⟨rfl, rfl, List.append_cancel_left hbehind⟩

/-- If there is a match at all, there is a first one. -/
theorem exists_firstMatch (htext : diff = front ++ (marker ++ (inner ++ (marker ++ behind))))
    (hstart : front.getLast?.all isLineTerminator = true) (hne : inner ≠ [])
    (hend : behind.head?.all isLineTerminator = true) :
    ∃ front inner behind, FirstMatch diff front inner behind := by
  classical
  -- the match begins as far to the left as it can
  have hbegins : ∃ n front' rest, front'.length = n ∧ front' ++ (marker ++ rest) = diff ∧
      front'.getLast?.all isLineTerminator = true :=
    ⟨_, front, _, rfl, htext.symm, hstart⟩
  obtain ⟨front₀, rest₀, hlength₀, htext₀, hstart₀⟩ := Nat.find_spec hbegins
  have hleftmost : ∀ front' rest, front' ++ (marker ++ rest) = diff →
      front'.getLast?.all isLineTerminator = true → front₀.length ≤ front'.length := by
    intro front' rest htext' hstart'
    rw [hlength₀]
    exact Nat.find_min' hbegins ⟨front', rest, rfl, htext', hstart'⟩
  have hle := hleftmost front _ htext.symm hstart
  -- so there is an end behind it, the one of the given match
  have hends : ∃ n inner' behind', inner'.length = n ∧ inner' ++ (marker ++ behind') = rest₀ ∧
      inner' ≠ [] ∧ behind'.head?.all isLineTerminator = true := by
    rw [htext] at htext₀
    obtain ⟨between, rfl⟩ : front₀ <+: front :=
      List.prefix_of_prefix_length_le ⟨_, htext₀⟩ (List.prefix_append _ _) hle
    rw [List.append_assoc] at htext₀
    have hrest := List.append_cancel_left htext₀
    have hlong : 2 < (between ++ (marker ++ inner)).length := by
      have hpos := List.length_pos_iff.mpr hne
      simp only [List.length_append, show marker.length = 2 from rfl]
      omega
    refine ⟨_, (between ++ (marker ++ inner)).drop 2, behind, rfl, ?_, ?_, hend⟩
    · have hdrop : (marker ++ rest₀).drop 2 = rest₀ := rfl
      rw [← hdrop, hrest, ← List.drop_append_of_le_length (le_of_lt hlong)]
      simp
    · rw [← List.length_pos_iff, List.length_drop]
      omega
  -- and a nearest one
  obtain ⟨inner₀, behind₀, hinner₀, hrest₀, hne₀, hend₀⟩ := Nat.find_spec hends
  refine ⟨front₀, inner₀, behind₀, by rw [hrest₀, htext₀], hstart₀, hend₀, hne₀, hleftmost, ?_⟩
  intro inner' behind' heq hne' hend'
  rw [hinner₀]
  exact Nat.find_min' hends ⟨inner', behind', rfl, heq.trans hrest₀, hne', hend'⟩

theorem findHunkHeader_eq_none_or (diff : JsString) :
    findHunkHeader diff = none ∨ ∃ front inner behind, FirstMatch diff front inner behind := by
  cases hfound : findHunkHeader diff with
  | none => exact .inl rfl
  | some m =>
      right
      have hsuffix : ∀ text r, r ∈ hunkHeader text → r.2 <:+ text := by
        rintro text ⟨u, rest⟩ hr
        obtain ⟨inner, -, rfl, -⟩ := mem_hunkHeader.mp hr
        exact ⟨marker ++ (inner ++ marker), by simp⟩
      obtain ⟨front, behind, htext, -, hstart, hmem⟩ := exists_of_search_eq_some hsuffix hfound
      obtain ⟨inner, hne, hinner, hend⟩ := mem_hunkHeader.mp hmem
      rw [hinner] at htext
      exact exists_firstMatch htext hstart hne hend

end FirstMatch

/-! ## The lines that are kept -/

/-- The part in front of the match of the line in which it begins. -/
def lineStart (front : JsString) : JsString := (lines front).getLastD []

/-- The part behind the match of the line in which it ends. -/
def lineRest (behind : JsString) : JsString := (lines behind).headD []

/-- The match takes no lines but hunk headers, or such as are not missed in the formatted diff. -/
def TakesHeadersOnly (front inner behind : JsString) : Prop :=
  Dispensable isDiffLine
    (diffLines (lineStart front ++ ((marker ++ (inner ++ marker)) ++ lineRest behind)))
    (lineStart front ++ lineRest behind) (lines behind).tail

/-- White space at the end of a line does not make a hunk header of it. -/
theorem isDiffLine_append (l w : JsString) (hw : ∀ u ∈ w, isWhitespace u = true) :
    isDiffLine (l ++ w) = isDiffLine l := by
  have hwhite : ∀ u ∈ w, (0x0040 == u) = false := by
    intro u hu
    rw [beq_eq_false_iff_ne]
    rintro rfl
    cases hw _ hu
  cases l with
  | nil =>
      cases w with
      | nil => rfl
      | cons u us =>
          have hu := hwhite u List.mem_cons_self
          show (!(0x0040 == u && _)) = true
          rw [hu]
          rfl
  | cons a l =>
      cases l with
      | nil =>
          cases w with
          | nil => rfl
          | cons u us =>
              have hu := hwhite u List.mem_cons_self
              show (!(0x0040 == a && (0x0040 == u && _))) = (!(0x0040 == a && false))
              rw [hu]
              rfl
      | cons b l => rfl

theorem keepsLines_iff_hasLines (d : MergeRequestDiffDetails) :
    KeepsLines d ↔ HasLines (diffLines d.diff) (stripHunkHeader d.diff) := by
  constructor
  · rintro ⟨text, hformat, hsub⟩
    exact ⟨text, (List.append_cancel_left hformat).symm, hsub⟩
  · rintro ⟨text, htrim, hsub⟩
    exact ⟨text, by rw [formatDiff, htrim], hsub⟩

theorem lines_eq_concat_lineStart (front : JsString) :
    lines front = (lines front).dropLast ++ [lineStart front] := by
  have hne : lines front ≠ [] := List.splitOn_ne_nil _ _
  rw [lineStart, List.getLastD_eq_getLast?, List.getLast?_eq_some_getLast hne, Option.getD_some,
    List.dropLast_append_getLast]

theorem lines_eq_cons_lineRest (behind : JsString) :
    lines behind = lineRest behind :: (lines behind).tail := by
  obtain ⟨s, later, hs⟩ := List.exists_cons_of_ne_nil (List.splitOn_ne_nil 0x000a behind)
  have hs : lines behind = s :: later := hs
  rw [lineRest, hs]
  rfl

theorem hasLines_iff_of_firstMatch {diff front inner behind : JsString}
    (hmatch : FirstMatch diff front inner behind) :
    HasLines (diffLines diff) (stripHunkHeader diff) ↔ TakesHeadersOnly front inner behind := by
  have hfront := lines_eq_concat_lineStart front
  have hbehind := lines_eq_cons_lineRest behind
  have hbefore : ∀ l ∈ (lines front).dropLast, 0x000a ∉ l :=
    fun l hl => newline_notMem_of_mem_lines (List.mem_of_mem_dropLast hl)
  have hlater : ∀ l ∈ (lines behind).tail, 0x000a ∉ l :=
    fun l hl => newline_notMem_of_mem_lines (List.mem_of_mem_tail hl)
  obtain ⟨hleft, hlines⟩ := lines_append_of_ends hfront hbehind
  have hstrip : stripHunkHeader diff = unlines ((lines front).dropLast ++
      (lineStart front ++ lineRest behind) :: (lines behind).tail) := by
    rw [hmatch.stripHunkHeader_eq, ← hlines, unlines_lines]
  have hdiff : diffLines diff = (lines front).dropLast.filter isDiffLine ++
      (diffLines (lineStart front ++ ((marker ++ (inner ++ marker)) ++ lineRest behind)) ++
        (lines behind).tail.filter isDiffLine) := by
    have htext : diff = front ++ ((marker ++ (inner ++ marker)) ++ behind) := by
      rw [hmatch.text]
      simp
    rw [htext, diffLines, lines_around hfront hbehind, List.filter_append, List.filter_append]
    rfl
  have hlost : ∀ l ∈
      diffLines (lineStart front ++ ((marker ++ (inner ++ marker)) ++ lineRest behind)),
      0x000a ∉ l ∧ isDiffLine l = true := by
    intro l hl
    obtain ⟨hmem, hkeep⟩ := List.mem_filter.mp hl
    exact ⟨newline_notMem_of_mem_lines hmem, hkeep⟩
  rw [hstrip, hdiff]
  exact hasLines_iff_dispensable isDiffLine_append hbefore hlost hleft hlater

/-- **The formatted diff keeps the lines of the diff if and only if the first match, if there is
one, takes no lines but hunk headers.** -/
theorem keepsLines_iff (d : MergeRequestDiffDetails) :
    KeepsLines d ↔ ∀ front inner behind,
      FirstMatch d.diff front inner behind → TakesHeadersOnly front inner behind := by
  rw [keepsLines_iff_hasLines]
  obtain hnone | ⟨front, inner, behind, hmatch⟩ := findHunkHeader_eq_none_or d.diff
  · have hstrip : stripHunkHeader d.diff = d.diff := by rw [stripHunkHeader, hnone]
    rw [hstrip]
    apply iff_of_true
    · exact hasLines_of_sublist List.filter_sublist
    · intro front inner behind hmatch
      rw [hmatch.findHunkHeader_eq] at hnone
      cases hnone
  · rw [hasLines_iff_of_firstMatch hmatch]
    constructor
    · intro h front' inner' behind' hmatch'
      obtain ⟨rfl, rfl, rfl⟩ := hmatch.unique hmatch'
      exact h
    · exact fun h => h front inner behind hmatch

section Sample

def sampleDiff : MergeRequestDiffDetails where
  oldPath := ofString "a.ts"
  newPath := ofString "a.ts"
  diff := ofString "@@ -1,2 +1,2 @@ main\n-old\n+new\n@@ -9 +9 @@\n same"

/-- The first match goes on to the second hunk header. -/
theorem not_keepsLines_of_header_with_text :
    formatDiff sampleDiff = ofString "--- a.ts\n+++ a.ts\n\n same" ∧ ¬ KeepsLines sampleDiff := by
  refine ⟨by decide +kernel, ?_⟩
  rintro ⟨text, hformat, hsub⟩
  have hmem : ofString "-old" ∈ lines text := hsub.subset (by decide +kernel)
  have hminus : 0x002d ∈ text := mem_of_mem_lines hmem _ (by decide +kernel)
  obtain ⟨w, hw, htext⟩ := exists_trimEnd_append text
  have htrim : trimEnd text = ofString "\n same" := by
    rw [← List.append_cancel_left hformat]
    decide +kernel
  rw [htext, htrim] at hminus
  obtain hminus | hminus := List.mem_append.mp hminus
  · exact absurd hminus (by decide +kernel)
  · exact absurd (hw _ hminus) (by decide +kernel)

end Sample

end MergeRequestDiff

end KhulnasoftLsp
