import KhulnasoftLsp.Masking
import KhulnasoftLsp.Suggestion.Cache

/-!
# URLs of schema comments

A suggestion for a YAML document may complete a comment that names the schema of the document.
`YamlUrlProcessor` writes a placeholder for the URL of each such comment. It goes through the lines
that the suggestion has together with the rest of the line before it and the rest of the line behind
it, and computes with positions in all of this text, in a line and in the suggestion.

`written` says what that does to the part of the suggestion in each line, and `sanitizes_iff` when
it is what it should be: the text behind the `=` of the comment, and nothing else, is replaced.
-/

namespace KhulnasoftLsp.SuggestionClient

open JsString Masking Streaming Suggestion

/-! ## The processor -/

/-- `SchemaKey` -/
def schemaKey : JsString := ofString "$schema"

/-- `URL_PLACEHOLDER` -/
def urlPlaceholder : JsString := ofString "<YOUR_URL_GOES_HERE>"

/-- `#` -/
def hash : UInt16 := 0x23

/-- `=` -/
def equals : UInt16 := 0x3d

/-- `\n` -/
def newline : UInt16 := 0x0a

/-- `s.indexOf(w)` -/
def jsIndexOf (s w : JsString) : Int :=
  match indexOf w s with
  | none => -1
  | some p => p

/-- `s.slice(0, i)` -/
def sliceTo (s : JsString) (i : Int) : JsString :=
  if i < 0 then s.take (s.length - i.natAbs) else s.take i.toNat

/-- `s.slice(i)` -/
def sliceFrom (s : JsString) (i : Int) : JsString :=
  if i < 0 then s.drop (s.length - i.natAbs) else s.drop i.toNat

def isSchemaComment (line : JsString) : Bool :=
  let commentInlineIndex := jsIndexOf line [hash]
  if commentInlineIndex ≥ 0 then (indexOf schemaKey (sliceFrom line commentInlineIndex)).isSome
  else false

structure LineRange where
  line : JsString
  startIndex : Int
  endIndex : Int
  deriving DecidableEq, Repr

/-- The loop of `convertToLineRanges`. -/
def lineRangesFrom (startIndex : Int) : List JsString → List LineRange
  | [] => []
  | line :: lines =>
    let endIndex := max (startIndex + line.length) 0
    { line, startIndex, endIndex } :: lineRangesFrom (endIndex + 1) lines

def convertToLineRanges (combinedLines : JsString) : List LineRange :=
  lineRangesFrom 0 combinedLines.lines

def sanitizeLine (suggestionText : JsString) (suggestionStartIndex : Int) (lineRange : LineRange) :
    JsString :=
  let suggestionEndIndex := suggestionStartIndex + suggestionText.length - 1
  -- the second index is one of the combined lines, not of the suggestion
  let commentEndIndexInSuggestion :=
    min (lineRange.endIndex - suggestionStartIndex) suggestionEndIndex
  if lineRange.endIndex ≤ suggestionStartIndex ∨ lineRange.startIndex ≥ suggestionEndIndex then
    suggestionText
  else
    let schemaKeyPositionInLine := jsIndexOf lineRange.line schemaKey
    let urlStartPosition := max (lineRange.startIndex - suggestionStartIndex +
      schemaKeyPositionInLine +
      jsIndexOf (sliceFrom lineRange.line schemaKeyPositionInLine) [equals] + 1) 0
    sliceTo suggestionText urlStartPosition ++ urlPlaceholder ++
      sliceFrom suggestionText commentEndIndexInSuggestion

/-- What the loop of `#getSanitizedCompletion` changes. -/
structure Sanitizing where
  sanitizedSuggestion : JsString
  indexOffsetAfterEdit : Int
  deriving DecidableEq, Repr

def Sanitizing.next (suggestionStartIndex : Int) (s : Sanitizing) (lineRange : LineRange) :
    Sanitizing :=
  let sanitizedSuggestion := sanitizeLine s.sanitizedSuggestion suggestionStartIndex
    { lineRange with
      startIndex := lineRange.startIndex + s.indexOffsetAfterEdit
      endIndex := lineRange.endIndex + s.indexOffsetAfterEdit }
  { sanitizedSuggestion
    indexOffsetAfterEdit :=
      s.indexOffsetAfterEdit + sanitizedSuggestion.length - s.sanitizedSuggestion.length }

def firstSuffixLine (context : IDocContext) : JsString := (context.suffix.lines.head?).getD []

/-- `#getSanitizedCompletion` -/
def getSanitizedCompletion (context : IDocContext) (suggestionText : JsString) : JsString :=
  if suggestionText = [] then suggestionText
  else
    let lastPrefixLine := currentLine context
    let combinedLines := lastPrefixLine ++ suggestionText ++ firstSuffixLine context
    let commentLineRanges :=
      (convertToLineRanges combinedLines).filter fun r => isSchemaComment r.line
    (commentLineRanges.foldl (Sanitizing.next lastPrefixLine.length)
      ⟨suggestionText, 0⟩).sanitizedSuggestion

namespace YamlUrlProcessor

def processStream (context : IDocContext) (input : StreamingCompletionResponse) :
    StreamingCompletionResponse :=
  { input with completion := some (getSanitizedCompletion context (input.completion.getD [])) }

def processCompletion (context : IDocContext) (input : List SuggestionOption) :
    List SuggestionOption :=
  input.map fun option => { option with text := getSanitizedCompletion context option.text }

end YamlUrlProcessor

/-! ## What it is for -/

/-- A line of the suggestion, with what stands before it and behind it in the document. -/
structure SuggestionLine where
  before : JsString
  text : JsString
  after : JsString
  last : Bool
  deriving DecidableEq, Repr

namespace SuggestionLine

def line (l : SuggestionLine) : JsString := l.before ++ l.text ++ l.after

/-- The lines of a suggestion: the first one goes on with a line of the document, and the last one
is followed by the rest of a line. -/
def ofTexts (after : JsString) : JsString → List JsString → List SuggestionLine
  | _, [] => []
  | before, [text] => [⟨before, text, after, true⟩]
  | before, text :: texts => ⟨before, text, [], false⟩ :: ofTexts after [] texts

theorem ofTexts_cons_cons (after before text text' : JsString) (texts : List JsString) :
    ofTexts after before (text :: text' :: texts) =
      ⟨before, text, [], false⟩ :: ofTexts after [] (text' :: texts) := rfl

theorem ofTexts_ne_nil (after before : JsString) {texts : List JsString} (h : texts ≠ []) :
    ofTexts after before texts ≠ [] := by
  match texts with
  | [] => exact absurd rfl h
  | [_] => simp [ofTexts]
  | _ :: _ :: _ => simp [ofTexts]

theorem map_text_ofTexts (after : JsString) :
    ∀ before texts, (ofTexts after before texts).map text = texts
  | _, [] => rfl
  | _, [_] => rfl
  | before, text :: text' :: texts => by
      rw [ofTexts_cons_cons, List.map_cons, map_text_ofTexts after [] (text' :: texts)]

end SuggestionLine

/-- Where the URL begins in a line with a schema comment: behind the `=` that follows `$schema` in
the comment. -/
def urlStart (line : JsString) : Option Nat := do
  let comment ← indexOf [hash] line
  let key ← indexOf schemaKey (line.drop comment)
  let sign ← indexOf [equals] (line.drop (comment + key))
  return comment + key + sign + 1

namespace SuggestionLine

/-- Where the URL begins in the text of the line, if the text has a part of it. -/
def urlStartInText (l : SuggestionLine) : Option Nat :=
  (urlStart l.line).bind fun p =>
    if p - l.before.length < l.text.length then some (p - l.before.length) else none

/-- The text of the line, with the placeholder for all of it that belongs to the URL. -/
def sanitized (l : SuggestionLine) : JsString :=
  match l.urlStartInText with
  | none => l.text
  | some p => l.text.take p ++ urlPlaceholder

end SuggestionLine

/-- The lines of a suggestion in a document. -/
def suggestionLines (context : IDocContext) (suggestionText : JsString) : List SuggestionLine :=
  SuggestionLine.ofTexts (firstSuffixLine context) (currentLine context) suggestionText.lines

/-- The suggestion with the placeholder for each URL of a schema comment. -/
def sanitizedCompletion (context : IDocContext) (suggestionText : JsString) : JsString :=
  List.intercalate [newline] ((suggestionLines context suggestionText).map SuggestionLine.sanitized)

/-! ## What the processor writes in a line -/

/-- Where the processor takes the URL to begin: behind the first `=` behind the first `$schema` of
the line, and at this `$schema` if there is no `=` behind it. -/
def replacedFrom (line : JsString) : Nat :=
  match indexOf schemaKey line with
  | none => 0
  | some key =>
    match indexOf [equals] (line.drop key) with
    | none => key
    | some sign => key + sign + 1

namespace SuggestionLine

/-- The processor passes over lines without text, and over a last line that begins with the last
character of the suggestion. -/
def Skipped (l : SuggestionLine) : Prop :=
  l.text = [] ∨ (l.last = true ∧ l.before = [] ∧ l.text.length ≤ 1)

instance (l : SuggestionLine) : Decidable l.Skipped := inferInstanceAs (Decidable (_ ∨ _))

/-- What the processor leaves of the text behind the placeholder: if nothing stands before the
suggestion, its last character. -/
def kept (atStart : Prop) [Decidable atStart] (l : SuggestionLine) : JsString :=
  if atStart ∧ l.last = true then l.text.drop (l.text.length - 1) else []

/-- What the processor makes of the text. -/
def written (atStart : Prop) [Decidable atStart] (l : SuggestionLine) : JsString :=
  if isSchemaComment l.line = true ∧ ¬ l.Skipped then
    l.text.take (replacedFrom l.line - l.before.length) ++ urlPlaceholder ++ l.kept atStart
  else l.text

end SuggestionLine

theorem sliceFrom_natCast (s : JsString) (n : Nat) : sliceFrom s n = s.drop n := by
  rw [sliceFrom, if_neg (by omega), Int.toNat_natCast]

theorem sliceTo_natCast (s : JsString) (n : Nat) : sliceTo s n = s.take n := by
  rw [sliceTo, if_neg (by omega), Int.toNat_natCast]

theorem isSchemaComment_iff {line : JsString} : isSchemaComment line = true ↔
    ∃ comment, indexOf [hash] line = some comment ∧
      (indexOf schemaKey (line.drop comment)).isSome = true := by
  unfold isSchemaComment jsIndexOf
  cases indexOf [hash] line with
  | none => simp
  | some comment =>
      have hslice : sliceFrom line comment = line.drop comment := sliceFrom_natCast line comment
      simp [hslice]

theorem schemaKey_ne_nil : schemaKey ≠ [] := by decide

/-- A schema comment has the key somewhere in its line. -/
theorem exists_indexOf_schemaKey {line : JsString} (h : isSchemaComment line = true) :
    ∃ key, indexOf schemaKey line = some key := by
  obtain ⟨comment, -, hkey⟩ := isSchemaComment_iff.mp h
  obtain ⟨p, hp⟩ := Option.isSome_iff_exists.mp hkey
  cases hline : indexOf schemaKey line with
  | some key => exact ⟨key, rfl⟩
  | none =>
      have hocc := (indexOf_eq_some hp).1
      rw [List.drop_drop] at hocc
      exact absurd hocc (indexOf_eq_none hline _ schemaKey_ne_nil)

theorem replacedFrom_le (line : JsString) : replacedFrom line ≤ line.length := by
  unfold replacedFrom
  split
  · exact Nat.zero_le _
  next key hkey =>
    have hle := add_length_le_of_indexOf hkey schemaKey_ne_nil
    split
    · omega
    next sign hsign =>
      have hsign' := add_length_le_of_indexOf hsign (by simp)
      rw [List.length_drop, List.length_singleton] at hsign'
      omega

/-- The position that `sanitizeLine` computes in the line. -/
theorem replacedFrom_eq {line : JsString} (h : isSchemaComment line = true) :
    jsIndexOf line schemaKey +
      jsIndexOf (sliceFrom line (jsIndexOf line schemaKey)) [equals] + 1 = replacedFrom line := by
  obtain ⟨key, hkey⟩ := exists_indexOf_schemaKey h
  have hindex : jsIndexOf line schemaKey = key := by rw [jsIndexOf, hkey]
  rw [hindex, sliceFrom_natCast, replacedFrom, hkey]
  unfold jsIndexOf
  dsimp only
  cases indexOf [equals] (line.drop key) with
  | none =>
      dsimp only
      omega
  | some sign =>
      dsimp only
      omega

/-- What is behind a line in the suggestion: nothing, or a line break and more lines. -/
structure Followed (l : SuggestionLine) (rest : JsString) : Prop where
  nothing : l.last = true → rest = []
  more : l.last = false → rest ≠ [] ∧ l.after = []

section Line

variable {l : SuggestionLine} {done rest : JsString} {suggestionStart : Nat} {start : Int}

theorem SuggestionLine.length_line (l : SuggestionLine) :
    l.line.length = l.before.length + l.text.length + l.after.length := by
  simp [SuggestionLine.line, Nat.add_assoc]

/-- The lines that `sanitizeLine` passes over. -/
theorem skipped_iff (hline : l.line ≠ []) (hrest : Followed l rest)
    (hbefore : done = [] ∨ l.before = []) (hne : done ++ l.text ++ rest ≠ [])
    (hstart : start + l.before.length = suggestionStart + done.length) :
    (start + l.line.length ≤ suggestionStart ∨
      start ≥ suggestionStart + (done ++ l.text ++ rest).length - 1) ↔ l.Skipped := by
  rw [← List.length_pos_iff, SuggestionLine.length_line] at hline
  rw [← List.length_pos_iff] at hne
  rw [SuggestionLine.length_line]
  simp only [List.length_append] at hne ⊢
  unfold SuggestionLine.Skipped
  simp only [← List.length_eq_zero_iff] at hbefore ⊢
  cases hlast : l.last with
  | true =>
      have hnothing := hrest.nothing hlast
      simp only [hnothing, List.length_nil, true_and] at hne ⊢
      omega
  | false =>
      obtain ⟨hmore, hafter⟩ := hrest.more hlast
      rw [← List.length_pos_iff] at hmore
      simp only [hafter, List.length_nil, false_and, or_false, Bool.false_eq_true] at hline ⊢
      omega

/-- The placeholder is written from here on. -/
theorem sliceTo_urlStart (hrest : Followed l rest) (hbefore : done = [] ∨ l.before = [])
    (hstart : start + l.before.length = suggestionStart + done.length) :
    sliceTo (done ++ l.text ++ rest) (max (start - suggestionStart + replacedFrom l.line) 0) =
      done ++ l.text.take (replacedFrom l.line - l.before.length) := by
  have hle := replacedFrom_le l.line
  rw [SuggestionLine.length_line] at hle
  have hindex : max (start - suggestionStart + replacedFrom l.line) 0 =
      ((done.length + (replacedFrom l.line - l.before.length) : Nat) : Int) := by
    simp only [← List.length_eq_zero_iff] at hbefore
    omega
  rw [hindex, sliceTo_natCast, List.append_assoc, List.take_length_add_append]
  congr 1
  cases hlast : l.last with
  | true => rw [hrest.nothing hlast, List.append_nil]
  | false =>
      rw [(hrest.more hlast).2, List.length_nil] at hle
      rw [List.take_append_of_le_length (by omega)]

/-- The text goes on from here behind the placeholder. -/
theorem sliceFrom_commentEnd (hrest : Followed l rest) (hskip : ¬ l.Skipped)
    (hstart : start + l.before.length = suggestionStart + done.length) :
    sliceFrom (done ++ l.text ++ rest) (min (start + l.line.length - suggestionStart)
        (suggestionStart + (done ++ l.text ++ rest).length - 1)) =
      l.kept (suggestionStart = 0) ++ rest := by
  have htext : 0 < l.text.length := List.length_pos_iff.mpr (not_or.mp hskip).1
  rw [SuggestionLine.length_line, SuggestionLine.kept]
  cases hlast : l.last with
  | true =>
      rw [hrest.nothing hlast, List.append_nil, List.append_nil, List.length_append]
      by_cases hzero : suggestionStart = 0
      · have hindex : min (start + (l.before.length + l.text.length + l.after.length : Nat) -
            (suggestionStart : Int)) (suggestionStart + (done.length + l.text.length : Nat) - 1) =
            ((done.length + (l.text.length - 1) : Nat) : Int) := by omega
        rw [hindex, sliceFrom_natCast, List.drop_length_add_append, if_pos ⟨hzero, rfl⟩]
      · obtain ⟨beyond, hindex⟩ : ∃ beyond : Nat,
            min (start + (l.before.length + l.text.length + l.after.length : Nat) -
              (suggestionStart : Int))
              (suggestionStart + (done.length + l.text.length : Nat) - 1) =
              ((done.length + (l.text.length + beyond) : Nat) : Int) :=
          ⟨min l.after.length (suggestionStart - 1), by omega⟩
        rw [hindex, sliceFrom_natCast, List.drop_length_add_append,
          List.drop_eq_nil_of_le (by omega), if_neg fun h => hzero h.1]
  | false =>
      obtain ⟨hmore, hafter⟩ := hrest.more hlast
      rw [← List.length_pos_iff] at hmore
      have hindex : min (start + (l.before.length + l.text.length + l.after.length : Nat) -
          (suggestionStart : Int)) (suggestionStart + (done ++ l.text ++ rest).length - 1) =
          (((done ++ l.text).length : Nat) : Int) := by
        simp only [List.length_append, hafter, List.length_nil]
        omega
      rw [hindex, sliceFrom_natCast, List.drop_left, if_neg (by simp), List.nil_append]

/-- One line is replaced where it stands in the suggestion. -/
theorem sanitizeLine_eq (hschema : isSchemaComment l.line = true) (hrest : Followed l rest)
    (hbefore : done = [] ∨ l.before = []) (hne : done ++ l.text ++ rest ≠ [])
    (hstart : start + l.before.length = suggestionStart + done.length) :
    sanitizeLine (done ++ l.text ++ rest) suggestionStart
        ⟨l.line, start, start + l.line.length⟩ =
      done ++ l.written (suggestionStart = 0) ++ rest := by
  have hline : l.line ≠ [] := by
    intro hnil
    rw [hnil] at hschema
    cases hschema
  unfold sanitizeLine
  dsimp only
  rw [SuggestionLine.written]
  by_cases hskip : l.Skipped
  · rw [if_pos ((skipped_iff hline hrest hbefore hne hstart).mpr hskip), if_neg fun h => h.2 hskip]
  · have hposition : start - suggestionStart + jsIndexOf l.line schemaKey +
        jsIndexOf (sliceFrom l.line (jsIndexOf l.line schemaKey)) [equals] + 1 =
        start - suggestionStart + replacedFrom l.line := by
      rw [← replacedFrom_eq hschema]
      omega
    rw [if_neg (fun h => hskip ((skipped_iff hline hrest hbefore hne hstart).mp h)),
      if_pos ⟨hschema, hskip⟩, hposition, sliceTo_urlStart hrest hbefore hstart,
      sliceFrom_commentEnd hrest hskip hstart]
    simp only [List.append_assoc]

/-- The pass of the loop for a line, if there is one. -/
theorem next_eq {offset : Int} (hrest : Followed l rest) (hbefore : done = [] ∨ l.before = [])
    (hne : done ++ l.text ++ rest ≠ [])
    (hstart : start + offset + l.before.length = suggestionStart + done.length) :
    (if isSchemaComment l.line = true then
      Sanitizing.next suggestionStart ⟨done ++ l.text ++ rest, offset⟩
        ⟨l.line, start, start + l.line.length⟩
      else ⟨done ++ l.text ++ rest, offset⟩) =
      ⟨done ++ l.written (suggestionStart = 0) ++ rest,
        offset + (l.written (suggestionStart = 0)).length - l.text.length⟩ := by
  by_cases hschema : isSchemaComment l.line = true
  · rw [if_pos hschema, Sanitizing.next]
    have hend : start + l.line.length + offset = start + offset + l.line.length := by omega
    dsimp only
    rw [hend, sanitizeLine_eq hschema hrest hbefore hne hstart]
    simp only [List.length_append, Sanitizing.mk.injEq, true_and]
    omega
  · have hwritten : l.written (suggestionStart = 0) = l.text :=
      if_neg fun h => hschema h.1
    rw [if_neg hschema, hwritten, Int.add_sub_cancel]

end Line

/-- The loop, from any line on. -/
theorem foldl_next (after : JsString) (suggestionStart : Nat) : ∀ (texts : List JsString)
    (before done : JsString) (start offset : Int), texts ≠ [] → 0 ≤ start →
    (done = [] ∨ before = []) → done ++ List.intercalate [newline] texts ≠ [] →
    start + offset + before.length = suggestionStart + done.length →
    (((lineRangesFrom start ((SuggestionLine.ofTexts after before texts).map
          SuggestionLine.line)).filter fun r => isSchemaComment r.line).foldl
        (Sanitizing.next suggestionStart)
        ⟨done ++ List.intercalate [newline] texts, offset⟩).sanitizedSuggestion =
      done ++ List.intercalate [newline] ((SuggestionLine.ofTexts after before texts).map
        (SuggestionLine.written (suggestionStart = 0))) := by
  intro texts
  induction texts with
  | nil =>
      intro before done start offset hne
      exact absurd rfl hne
  | cons text texts ih =>
      intro before done start offset _ hstart0 hbefore hne hstart
      cases texts with
      | nil =>
          have hnext := @next_eq ⟨before, text, after, true⟩ done [] suggestionStart start offset
            ⟨fun _ => rfl, (nomatch ·)⟩ hbefore (by simpa using hne) hstart
          simp only [List.append_nil] at hnext
          rw [List.foldl_filter]
          simp only [SuggestionLine.ofTexts, List.map_cons, List.map_nil, lineRangesFrom,
            List.foldl_cons, List.foldl_nil, List.intercalate_singleton]
          rw [max_eq_left (by omega), hnext]
      | cons text' texts =>
          have hnext := @next_eq ⟨before, text, [], false⟩ done
            (newline :: List.intercalate [newline] (text' :: texts)) suggestionStart start offset
            ⟨(nomatch ·), fun _ => ⟨by simp, rfl⟩⟩ hbefore (by simp) hstart
          have hsplit : ∀ t : JsString,
              done ++ t ++ newline :: List.intercalate [newline] (text' :: texts) =
                (done ++ t ++ [newline]) ++ List.intercalate [newline] (text' :: texts) := by
            intro t
            simp
          have hjoin : done ++ List.intercalate [newline] (text :: text' :: texts) =
              done ++ text ++ newline :: List.intercalate [newline] (text' :: texts) := by
            simp [List.intercalate_cons_cons]
          rw [hjoin]
          have hrest := ih [] (done ++ (SuggestionLine.written (suggestionStart = 0)
              ⟨before, text, [], false⟩) ++ [newline])
            (start + (SuggestionLine.line ⟨before, text, [], false⟩).length + 1)
            (offset + (SuggestionLine.written (suggestionStart = 0)
              ⟨before, text, [], false⟩).length - text.length) (by simp) (by omega) (.inr rfl)
            (by simp) (by
              rw [SuggestionLine.length_line]
              simp only [List.length_append, List.length_nil, List.length_singleton]
              omega)
          rw [List.foldl_filter] at hrest ⊢
          simp only [SuggestionLine.ofTexts, List.map_cons, lineRangesFrom, List.foldl_cons]
          rw [max_eq_left (by omega), hnext, hsplit, hrest,
            List.intercalate_cons_of_ne_nil (by simp [SuggestionLine.ofTexts_ne_nil])]
          simp

/-! ## Lines -/

theorem intercalate_line (after : JsString) : ∀ (texts : List JsString) (before : JsString),
    texts ≠ [] →
      List.intercalate [newline] ((SuggestionLine.ofTexts after before texts).map
        SuggestionLine.line) = before ++ List.intercalate [newline] texts ++ after := by
  intro texts
  induction texts with
  | nil =>
      intro before h
      exact absurd rfl h
  | cons text texts ih =>
      intro before _
      cases texts with
      | nil => simp [SuggestionLine.ofTexts, SuggestionLine.line]
      | cons text' texts =>
          rw [SuggestionLine.ofTexts_cons_cons, List.map_cons, List.intercalate_cons_of_ne_nil
            (by simp [SuggestionLine.ofTexts_ne_nil]), ih [] (by simp)]
          simp [SuggestionLine.line, List.intercalate_cons_cons]

theorem newline_notMem_line {after : JsString} (hafter : newline ∉ after) :
    ∀ (texts : List JsString) (before : JsString), newline ∉ before →
      (∀ t ∈ texts, newline ∉ t) →
      ∀ l ∈ SuggestionLine.ofTexts after before texts, newline ∉ l.line := by
  intro texts
  induction texts with
  | nil =>
      intro before _ _ l hl
      cases hl
  | cons text texts ih =>
      intro before hbefore htexts l hl
      obtain ⟨htext, hrest⟩ := List.forall_mem_cons.mp htexts
      cases texts with
      | nil =>
          rw [SuggestionLine.ofTexts, List.mem_singleton] at hl
          subst hl
          simp [SuggestionLine.line, hbefore, htext, hafter]
      | cons text' texts =>
          rw [SuggestionLine.ofTexts_cons_cons, List.mem_cons] at hl
          rcases hl with rfl | hl
          · simp [SuggestionLine.line, hbefore, htext]
          · exact ih [] List.not_mem_nil hrest l hl

theorem newline_notMem_of_mem_lines {s line : JsString} (h : line ∈ s.lines) : newline ∉ line :=
  List.notMem_of_mem_splitOn h

theorem intercalate_lines (s : JsString) : List.intercalate [newline] s.lines = s :=
  List.intercalate_splitOn newline

theorem lines_ne_nil (s : JsString) : s.lines ≠ [] := List.splitOn_ne_nil newline s

theorem newline_notMem_currentLine (context : IDocContext) : newline ∉ currentLine context := by
  rw [currentLine, List.getLast?_eq_some_getLast (lines_ne_nil _)]
  exact newline_notMem_of_mem_lines (List.getLast_mem _)

theorem newline_notMem_firstSuffixLine (context : IDocContext) :
    newline ∉ firstSuffixLine context := by
  rw [firstSuffixLine, List.head?_eq_some_head (lines_ne_nil _)]
  exact newline_notMem_of_mem_lines (List.head_mem _)

/-- The lines that the processor goes through are those of the suggestion in the document. -/
theorem lines_combined (context : IDocContext) (suggestionText : JsString) :
    (currentLine context ++ suggestionText ++ firstSuffixLine context).lines =
      (suggestionLines context suggestionText).map SuggestionLine.line := by
  have hjoin := intercalate_line (firstSuffixLine context) suggestionText.lines
    (currentLine context) (lines_ne_nil suggestionText)
  rw [intercalate_lines] at hjoin
  rw [← hjoin]
  apply List.splitOn_intercalate
  · intro line hline
    obtain ⟨l, hl, rfl⟩ := List.mem_map.mp hline
    exact newline_notMem_line (newline_notMem_firstSuffixLine context) suggestionText.lines
      (currentLine context) (newline_notMem_currentLine context)
      (fun t ht => newline_notMem_of_mem_lines ht) l hl
  · simp [SuggestionLine.ofTexts_ne_nil, lines_ne_nil]

/-- **What the processor does**, line by line. -/
theorem getSanitizedCompletion_eq (context : IDocContext) (suggestionText : JsString) :
    getSanitizedCompletion context suggestionText =
      List.intercalate [newline] ((suggestionLines context suggestionText).map
        (SuggestionLine.written ((currentLine context).length = 0))) := by
  unfold getSanitizedCompletion
  by_cases hempty : suggestionText = []
  · subst hempty
    rw [if_pos rfl]
    simp [suggestionLines, JsString.lines, SuggestionLine.ofTexts, SuggestionLine.written,
      SuggestionLine.Skipped]
  · rw [if_neg hempty]
    dsimp only
    rw [convertToLineRanges, lines_combined]
    have hloop := foldl_next (firstSuffixLine context) (currentLine context).length
      suggestionText.lines (currentLine context) [] 0 0 (lines_ne_nil _) le_rfl (.inl rfl)
      (by simpa [intercalate_lines] using hempty) (by simp)
    rw [List.nil_append, List.nil_append, intercalate_lines] at hloop
    exact hloop

/-! ## When it does what it is for -/

namespace SuggestionLine

/-- If the line has a schema comment and is not passed over: where text belongs to the URL, it
begins where the processor takes it to begin, and this is not the last line of a suggestion with
nothing before it; and where no text does, it is the placeholder already. -/
def Faithful (atStart : Prop) [Decidable atStart] (l : SuggestionLine) : Prop :=
  isSchemaComment l.line = true → ¬ l.Skipped →
    match l.urlStartInText with
    | some p => replacedFrom l.line - l.before.length = p ∧ ¬ (atStart ∧ l.last = true)
    | none => l.text.drop (replacedFrom l.line - l.before.length) =
        urlPlaceholder ++ l.kept atStart

variable {l : SuggestionLine} {atStart : Prop} [Decidable atStart]

/-- A line with a URL has a schema comment, and its URL does not begin the line. -/
theorem urlStart_spec {line : JsString} {p : Nat} (h : urlStart line = some p) :
    isSchemaComment line = true ∧ 0 < p := by
  unfold urlStart at h
  obtain ⟨comment, hcomment, h⟩ := Option.bind_eq_some_iff.mp h
  obtain ⟨key, hkey, h⟩ := Option.bind_eq_some_iff.mp h
  obtain ⟨sign, -, h⟩ := Option.bind_eq_some_iff.mp h
  cases h
  refine ⟨isSchemaComment_iff.mpr ⟨comment, hcomment, ?_⟩, Nat.succ_pos _⟩
  rw [hkey]
  rfl

theorem urlStartInText_spec {p : Nat} (h : l.urlStartInText = some p) :
    isSchemaComment l.line = true ∧ ¬ l.Skipped ∧ p < l.text.length := by
  unfold urlStartInText at h
  obtain ⟨start, hstart, h⟩ := Option.bind_eq_some_iff.mp h
  split at h
  · next hlt =>
    cases h
    obtain ⟨hschema, hpos⟩ := urlStart_spec hstart
    refine ⟨hschema, ?_, hlt⟩
    rintro (hnil | ⟨-, hnil, hshort⟩)
    · rw [hnil, List.length_nil] at hlt
      omega
    · rw [hnil, List.length_nil] at hlt
      omega
  · cases h

/-- The placeholder with a character in front is not the placeholder with one behind it. -/
theorem cons_urlPlaceholder_ne (u v : UInt16) : u :: urlPlaceholder ≠ urlPlaceholder ++ [v] := by
  intro h
  have hsecond : (u :: urlPlaceholder)[1]? = (urlPlaceholder ++ [v])[1]? := by rw [h]
  rw [List.getElem?_cons_succ, List.getElem?_append_left (by decide)] at hsecond
  exact absurd hsecond (by decide)

/-- The placeholder for the rest of a text, and nothing else, stands at one place only. -/
theorem take_placeholder_eq_iff {text : JsString} {p q : Nat} (hp : p < text.length) :
    text.take q ++ urlPlaceholder = text.take p ++ urlPlaceholder ↔ q = p := by
  constructor
  · intro h
    have hlength := congrArg List.length (List.append_cancel_right h)
    rw [List.length_take, List.length_take] at hlength
    omega
  · rintro rfl
    rfl

/-- With a character behind it, it stands at none. -/
theorem take_placeholder_concat_ne {text : JsString} {p q : Nat} (hp : p < text.length)
    (v : UInt16) : text.take q ++ urlPlaceholder ++ [v] ≠ text.take p ++ urlPlaceholder := by
  intro h
  have hlength := congrArg List.length h
  simp only [List.length_append, List.length_take, List.length_singleton] at hlength
  obtain rfl : p = q + 1 := by omega
  have hq : q < text.length := by omega
  rw [List.take_succ_eq_append_getElem hq, List.append_assoc, List.append_assoc] at h
  exact cons_urlPlaceholder_ne _ _ (List.append_cancel_left h).symm

theorem kept_eq (htext : l.text ≠ []) :
    l.kept atStart = if atStart ∧ l.last = true then [l.text.getLast htext] else [] := by
  rw [kept, List.drop_length_sub_one htext]

/-- The processor does in a line what it is for exactly if the line is faithful. -/
theorem written_eq_sanitized_iff : l.written atStart = l.sanitized ↔ l.Faithful atStart := by
  unfold Faithful written sanitized
  cases hurl : l.urlStartInText with
  | some p =>
      obtain ⟨hschema, hskip, hp⟩ := urlStartInText_spec hurl
      have htext : l.text ≠ [] := fun h => hskip (.inl h)
      rw [if_pos ⟨hschema, hskip⟩, kept_eq htext]
      simp only [hschema, hskip, not_false_eq_true, forall_const]
      by_cases hend : atStart ∧ l.last = true
      · rw [if_pos hend]
        constructor
        · intro h
          exact absurd h (take_placeholder_concat_ne hp _)
        · rintro ⟨-, hnot⟩
          exact absurd hend hnot
      · rw [if_neg hend, List.append_nil, take_placeholder_eq_iff hp]
        exact (and_iff_left hend).symm
  | none =>
      by_cases hedits : isSchemaComment l.line = true ∧ ¬ l.Skipped
      · rw [if_pos hedits]
        simp only [hedits.1, hedits.2, not_false_eq_true, forall_const]
        generalize replacedFrom l.line - l.before.length = q
        constructor
        · intro h
          have hsplit := h.trans (List.take_append_drop q l.text).symm
          rw [List.append_assoc] at hsplit
          exact (List.append_cancel_left hsplit).symm
        · intro h
          rw [List.append_assoc, ← h]
          exact List.take_append_drop q l.text
      · rw [if_neg hedits]
        simp only [true_iff]
        intro hschema hskip
        exact absurd ⟨hschema, hskip⟩ hedits

theorem newline_notMem_written (h : newline ∉ l.text) : newline ∉ l.written atStart := by
  have hplaceholder : newline ∉ urlPlaceholder := by decide +kernel
  unfold written kept
  have hdrop : ∀ n, newline ∉ l.text.drop n := fun n hn => h (List.mem_of_mem_drop hn)
  have htake : ∀ n, newline ∉ l.text.take n := fun n hn => h (List.mem_of_mem_take hn)
  split
  · split <;> simp [hplaceholder, hdrop, htake]
  · exact h

theorem newline_notMem_sanitized (h : newline ∉ l.text) : newline ∉ l.sanitized := by
  have hplaceholder : newline ∉ urlPlaceholder := by decide +kernel
  unfold sanitized
  have htake : ∀ n, newline ∉ l.text.take n := fun n hn => h (List.mem_of_mem_take hn)
  split
  · exact h
  · simp [hplaceholder, htake]

end SuggestionLine

/-- Lines can be told from the text they are joined to. -/
theorem intercalate_map_eq_iff {α : Type*} {f g : α → JsString} {as : List α} (hne : as ≠ [])
    (hf : ∀ a ∈ as, newline ∉ f a) (hg : ∀ a ∈ as, newline ∉ g a) :
    List.intercalate [newline] (as.map f) = List.intercalate [newline] (as.map g) ↔
      ∀ a ∈ as, f a = g a := by
  rw [← List.map_inj_left]
  constructor
  · intro h
    have hparts := congrArg (List.splitOn newline) h
    rw [List.splitOn_intercalate newline (by simpa using hf) (by simpa using hne),
      List.splitOn_intercalate newline (by simpa using hg) (by simpa using hne)] at hparts
    exact hparts
  · intro h
    rw [h]

theorem newline_notMem_text {context : IDocContext} {suggestionText : JsString}
    {l : SuggestionLine} (hl : l ∈ suggestionLines context suggestionText) : newline ∉ l.text := by
  have htext := List.mem_map_of_mem (f := SuggestionLine.text) hl
  rw [suggestionLines, SuggestionLine.map_text_ofTexts] at htext
  exact newline_notMem_of_mem_lines htext

/-- The processor sanitizes a text exactly if all of its lines are faithful. -/
theorem getSanitizedCompletion_eq_iff (context : IDocContext) (suggestionText : JsString) :
    getSanitizedCompletion context suggestionText = sanitizedCompletion context suggestionText ↔
      ∀ l ∈ suggestionLines context suggestionText,
        l.Faithful ((currentLine context).length = 0) := by
  rw [getSanitizedCompletion_eq, sanitizedCompletion, intercalate_map_eq_iff]
  · apply forall₂_congr
    intro l _
    exact SuggestionLine.written_eq_sanitized_iff
  · simp [suggestionLines, SuggestionLine.ofTexts_ne_nil, lines_ne_nil]
  · intro l hl
    exact SuggestionLine.newline_notMem_written (newline_notMem_text hl)
  · intro l hl
    exact SuggestionLine.newline_notMem_sanitized (newline_notMem_text hl)

/-- **When the URLs are replaced**, and nothing else, in all suggestions and in a part of a
stream. -/
theorem sanitizes_iff (context : IDocContext) :
    (∀ input : List SuggestionOption,
      YamlUrlProcessor.processCompletion context input =
          (input.map fun option => { option with
            text := sanitizedCompletion context option.text }) ↔
        ∀ option ∈ input, ∀ l ∈ suggestionLines context option.text,
          l.Faithful ((currentLine context).length = 0)) ∧
    ∀ input : StreamingCompletionResponse,
      (YamlUrlProcessor.processStream context input).completion =
          some (sanitizedCompletion context (input.completion.getD [])) ↔
        ∀ l ∈ suggestionLines context (input.completion.getD []),
          l.Faithful ((currentLine context).length = 0) := by
  constructor
  · intro input
    rw [YamlUrlProcessor.processCompletion, List.map_inj_left]
    apply forall₂_congr
    intro option _
    rw [← getSanitizedCompletion_eq_iff]
    simp
  · intro input
    rw [← getSanitizedCompletion_eq_iff]
    show some _ = some _ ↔ _
    exact Option.some_inj

/-! ## URLs that stay -/

/-- A document with this text around the cursor. -/
def yamlContext (prefixText suffix : String) : IDocContext where
  prefixText := ofString prefixText
  suffix := ofString suffix
  fileRelativePath := "test.yaml"
  position := { line := 1, character := 1 }
  uri := "file:///test.yaml"
  languageId := "yaml"
  workspaceFolder := none

/-- The last character of a URL stays, if the line begins with the suggestion; and the text behind a
`$schema` without `=` is replaced. -/
theorem not_sanitized :
    (¬ ∀ (context : IDocContext) (suggestionText : JsString),
      getSanitizedCompletion context suggestionText =
        sanitizedCompletion context suggestionText) ∧
    getSanitizedCompletion (yamlContext "" "") (ofString "# $schema=http://x") =
      ofString "# $schema=<YOUR_URL_GOES_HERE>x" ∧
    getSanitizedCompletion (yamlContext "  " "") (ofString "# the $schema key") =
      ofString "# the <YOUR_URL_GOES_HERE>" := by
  refine ⟨?_, by decide +kernel, by decide +kernel⟩
  intro h
  exact absurd (h (yamlContext "" "") (ofString "# $schema=http://x")) (by decide +kernel)

end KhulnasoftLsp.SuggestionClient
