import KhulnasoftLsp.SuggestionClient.YamlUrl

/-!
# URLs of schema properties

A suggestion for a JSON document may complete the value of a property `$schema`.
`JsonUrlProcessor` writes a placeholder for it. Tree-sitter finds the key; its value is taken to
stand between the next two quotes of the text, and positions in this text are turned into positions
in the suggestion.

The position of the last character of the suggestion is used as if it were the one behind it, and
that of a quote that is not there as if there were one. `sanitizeUrl_iff` says for which keys that
makes no difference.
-/

namespace KhulnasoftLsp.SuggestionClient

open JsString Masking

/-- `"` -/
def quote : UInt16 := 0x22

/-- The character that escapes the next one in a JSON string. -/
def backslash : UInt16 := 0x5c

structure Point where
  row : Int
  column : Int
  deriving DecidableEq, Repr

/-- A node of the syntax tree: where it is in the text. -/
structure SyntaxNode where
  startIndex : Nat
  endIndex : Nat
  startPosition : Point
  endPosition : Point
  deriving DecidableEq, Repr

structure Edit where
  startIndex : Nat
  oldEndIndex : Nat
  newEndIndex : Nat
  startPosition : Point
  oldEndPosition : Point
  newEndPosition : Point
  deriving DecidableEq, Repr

structure SanitizationResult where
  suggestionText : JsString
  edit : Option Edit
  deriving DecidableEq, Repr

namespace JsonUrlProcessor

/-- The text that is parsed: the document with the suggestion in it. -/
def text (context : IDocContext) (suggestionText : JsString) : JsString :=
  context.prefixText ++ suggestionText ++ context.suffix

def getSuggestionAbsolutePosition (context : IDocContext) (suggestionText : JsString) :
    Int × Int :=
  let startPosition : Int := context.prefixText.length
  (startPosition, startPosition + suggestionText.length - 1)

def getValueAbsolutePosition (nodeContent : SyntaxNode) (context : IDocContext)
    (suggestionText : JsString) : Int × Int :=
  let text := text context suggestionText
  let valueAbsoluteStartIndex :=
    jsIndexOf (sliceFrom text nodeContent.endIndex) [quote] + nodeContent.endIndex + 1
  let valueAbsoluteEndIndex :=
    jsIndexOf (sliceFrom text valueAbsoluteStartIndex) [quote] + valueAbsoluteStartIndex
  (valueAbsoluteStartIndex, valueAbsoluteEndIndex)

def sanitizeUrl (nodeContent : SyntaxNode) (context : IDocContext) (suggestionText : JsString) :
    SanitizationResult :=
  let (suggestionAbsoluteStartIndex, suggestionAbsoluteEndIndex) :=
    getSuggestionAbsolutePosition context suggestionText
  let (valueAbsoluteStartIndex, valueAbsoluteEndIndex) :=
    getValueAbsolutePosition nodeContent context suggestionText
  if valueAbsoluteEndIndex ≤ suggestionAbsoluteStartIndex ∨
      valueAbsoluteStartIndex ≥ suggestionAbsoluteEndIndex then
    ⟨suggestionText, none⟩
  else
    let suggestionStartIndex := max (valueAbsoluteStartIndex - suggestionAbsoluteStartIndex) 0
    let suggestionEndIndex :=
      min (valueAbsoluteEndIndex - suggestionAbsoluteStartIndex) (suggestionText.length - 1 : Int)
    let newSuggestionText := sliceTo suggestionText suggestionStartIndex ++ urlPlaceholder ++
      sliceFrom suggestionText suggestionEndIndex
    let newEndIndex := nodeContent.startIndex + newSuggestionText.length
    let offset : Int := newSuggestionText.length - suggestionText.length
    ⟨newSuggestionText, some
      { startIndex := nodeContent.startIndex
        oldEndIndex := nodeContent.endIndex
        newEndIndex := newEndIndex
        startPosition := nodeContent.startPosition
        oldEndPosition := nodeContent.endPosition
        newEndPosition :=
          ⟨nodeContent.endPosition.row, nodeContent.endPosition.column + offset⟩ }⟩

/-! ## What it is for -/

/-- Where the quote stands that ends a JSON string, behind its opening quote. -/
def closingQuote : JsString → Option Nat
  | [] => none
  | [u] => if u = quote then some 0 else none
  | u :: v :: s =>
    if u = quote then some 0
    else if u = backslash then (closingQuote s).map (· + 2)
    else (closingQuote (v :: s)).map (· + 1)

/-- Where the value of a key begins: behind the first quote behind the key. -/
def valueStart (text : JsString) (keyEnd : Nat) : Option Nat :=
  (indexOf [quote] (text.drop keyEnd)).map fun p => keyEnd + p + 1

/-- Where a value ends that has begun: at its closing quote, or at the end of the text. -/
def valueEnd (text : JsString) (start : Nat) : Nat :=
  start + (closingQuote (text.drop start)).getD (text.drop start).length

/-- The suggestion between the two positions of the text. -/
def partFrom (context : IDocContext) (start : Nat) : Nat := start - context.prefixText.length

def partTo (context : IDocContext) (suggestionText : JsString) (stop : Nat) : Nat :=
  min (stop - context.prefixText.length) suggestionText.length

/-- The suggestion, with the placeholder for what it has of the value. -/
def sanitizedUrl (context : IDocContext) (suggestionText : JsString) (keyEnd : Nat) : JsString :=
  match valueStart (text context suggestionText) keyEnd with
  | none => suggestionText
  | some start =>
    let stop := valueEnd (text context suggestionText) start
    if partFrom context start < partTo context suggestionText stop then
      suggestionText.take (partFrom context start) ++ urlPlaceholder ++
        suggestionText.drop (partTo context suggestionText stop)
    else suggestionText

/-- The first quote behind the start of the value, escaped or not. -/
def firstQuote (text : JsString) (start : Nat) : Option Nat :=
  (indexOf [quote] (text.drop start)).map (start + ·)

/-- The processor passes over the value: its first quote, or the opening quote if it has none, is
not behind the start of the suggestion, or it begins at the last character of the suggestion or
behind. -/
def PassedOver (context : IDocContext) (suggestionText : JsString) (start : Nat) : Prop :=
  (firstQuote (text context suggestionText) start).getD (start - 1) ≤ context.prefixText.length ∨
    context.prefixText.length + suggestionText.length ≤ start + 1

/-- The keys at which the processor does what it is for. -/
def RightlySanitized (context : IDocContext) (suggestionText : JsString) (keyEnd : Nat) : Prop :=
  match valueStart (text context suggestionText) keyEnd with
  -- no quote behind the key, and so no value
  | none => keyEnd ≤ context.prefixText.length + 1 ∨
    context.prefixText.length + suggestionText.length ≤ keyEnd + 1
  | some start =>
    let stop := valueEnd (text context suggestionText) start
    if partFrom context start < partTo context suggestionText stop then
      -- the value is closed by the first quote behind its start, within the suggestion
      (firstQuote (text context suggestionText) start = some stop ∧
        stop < context.prefixText.length + suggestionText.length) ∨
      -- or there is nothing left to do, and the processor does nothing
      ((suggestionText.take (partTo context suggestionText stop)).drop (partFrom context start) =
          urlPlaceholder ∧ PassedOver context suggestionText start)
    else PassedOver context suggestionText start

instance (context : IDocContext) (suggestionText : JsString) (start : Nat) :
    Decidable (PassedOver context suggestionText start) :=
  inferInstanceAs (Decidable (_ ∨ _))

/-! ## Quotes -/

theorem length_urlPlaceholder : urlPlaceholder.length = 20 := by decide

/-- A closing quote is a quote. -/
theorem quote_of_closingQuote {s : JsString} {p : Nat} (h : closingQuote s = some p) :
    [quote] <+: s.drop p := by
  induction s using closingQuote.induct generalizing p with
  | case1 => cases h
  | case2 =>
      cases h
      decide
  | case3 u hu =>
      rw [closingQuote, if_neg hu] at h
      cases h
  | case4 v s =>
      rw [closingQuote, if_pos rfl] at h
      cases h
      exact ⟨v :: s, rfl⟩
  | case5 v s hu ih =>
      rw [closingQuote, if_neg hu, if_pos rfl] at h
      obtain ⟨q, hq, rfl⟩ := Option.map_eq_some_iff.mp h
      exact ih hq
  | case6 u v s hu hv ih =>
      rw [closingQuote, if_neg hu, if_neg hv] at h
      obtain ⟨q, hq, rfl⟩ := Option.map_eq_some_iff.mp h
      exact ih hq

/-- The first quote is the closing one, or it is escaped and stands before it. -/
theorem firstQuote_le_valueEnd {text : JsString} {start p : Nat}
    (h : firstQuote text start = some p) : start ≤ p ∧ p ≤ valueEnd text start := by
  obtain ⟨q, hq, rfl⟩ := Option.map_eq_some_iff.mp h
  refine ⟨Nat.le_add_right _ _, ?_⟩
  rw [valueEnd]
  apply Nat.add_le_add_left
  cases hclose : closingQuote (text.drop start) with
  | none =>
      have hle := add_length_le_of_indexOf hq (by simp)
      rw [List.length_singleton] at hle
      rw [Option.getD_none]
      omega
  | some r =>
      rw [Option.getD_some]
      by_contra hlt
      exact (indexOf_eq_some hq).2 r (Nat.lt_of_not_le hlt) (quote_of_closingQuote hclose)

/-- Without a quote there is no closing one. -/
theorem valueEnd_of_firstQuote_eq_none {text : JsString} {start : Nat}
    (h : firstQuote text start = none) (hstart : start ≤ text.length) :
    valueEnd text start = text.length := by
  have hnone : indexOf [quote] (text.drop start) = none := Option.map_eq_none_iff.mp h
  rw [valueEnd]
  cases hclose : closingQuote (text.drop start) with
  | none =>
      rw [Option.getD_none, List.length_drop]
      omega
  | some r => exact absurd (quote_of_closingQuote hclose) (indexOf_eq_none hnone r (by simp))

theorem valueStart_eq_some {text : JsString} {keyEnd start : Nat}
    (h : valueStart text keyEnd = some start) : 1 ≤ start ∧ start ≤ text.length := by
  obtain ⟨p, hp, rfl⟩ := Option.map_eq_some_iff.mp h
  have hle := add_length_le_of_indexOf hp (by simp)
  rw [List.length_singleton, List.length_drop] at hle
  omega

/-! ## What the processor writes -/

section Processor

variable {nodeContent : SyntaxNode} {context : IDocContext} {suggestionText : JsString}

/-- The suggestion, as the processor rewrites it for a value between two positions. -/
def rewritten (suggestionText : JsString) (suggestionStart : Nat) (start stop : Int) : JsString :=
  if stop ≤ suggestionStart ∨ start ≥ (suggestionStart + suggestionText.length - 1 : Int) then
    suggestionText
  else
    sliceTo suggestionText (max (start - suggestionStart) 0) ++ urlPlaceholder ++
      sliceFrom suggestionText (min (stop - suggestionStart) (suggestionText.length - 1 : Int))

theorem suggestionText_sanitizeUrl :
    (sanitizeUrl nodeContent context suggestionText).suggestionText =
      rewritten suggestionText context.prefixText.length
        (getValueAbsolutePosition nodeContent context suggestionText).1
        (getValueAbsolutePosition nodeContent context suggestionText).2 := by
  unfold sanitizeUrl rewritten
  dsimp only [getSuggestionAbsolutePosition]
  split <;> rfl

theorem getValueAbsolutePosition_of_none
    (h : valueStart (text context suggestionText) nodeContent.endIndex = none) :
    getValueAbsolutePosition nodeContent context suggestionText =
      ((nodeContent.endIndex : Int), (nodeContent.endIndex : Int) - 1) := by
  have hnone : indexOf [quote] ((text context suggestionText).drop nodeContent.endIndex) = none :=
    Option.map_eq_none_iff.mp h
  have hindex :
      jsIndexOf ((text context suggestionText).drop nodeContent.endIndex) [quote] = -1 := by
    rw [jsIndexOf, hnone]
  rw [getValueAbsolutePosition, sliceFrom_natCast, hindex,
    show (-1 + (nodeContent.endIndex : Int) + 1) = nodeContent.endIndex by omega,
    sliceFrom_natCast, hindex, Prod.mk.injEq]
  omega

theorem getValueAbsolutePosition_of_some {start : Nat}
    (h : valueStart (text context suggestionText) nodeContent.endIndex = some start) :
    getValueAbsolutePosition nodeContent context suggestionText =
      ((start : Int), (((firstQuote (text context suggestionText) start).getD (start - 1) : Nat) :
        Int)) := by
  have hpos := (valueStart_eq_some h).1
  obtain ⟨p, hp, rfl⟩ := Option.map_eq_some_iff.mp h
  have hindex :
      jsIndexOf ((text context suggestionText).drop nodeContent.endIndex) [quote] = p := by
    rw [jsIndexOf, hp]
  rw [getValueAbsolutePosition, sliceFrom_natCast, hindex,
    show ((p : Int) + nodeContent.endIndex + 1) = ((nodeContent.endIndex + p + 1 : Nat) : Int) by
      push_cast; omega,
    sliceFrom_natCast, Prod.mk.injEq]
  refine ⟨rfl, ?_⟩
  rw [firstQuote, jsIndexOf]
  cases indexOf [quote] ((text context suggestionText).drop (nodeContent.endIndex + p + 1)) with
  | none =>
      rw [Option.map_none, Option.getD_none]
      show (-1 : Int) + _ = _
      omega
  | some q =>
      rw [Option.map_some, Option.getD_some]
      show (q : Int) + _ = _
      omega

theorem rewritten_of_passed {suggestionStart : Nat} {start stop : Int}
    (h : stop ≤ suggestionStart ∨ start ≥ (suggestionStart + suggestionText.length - 1 : Int)) :
    rewritten suggestionText suggestionStart start stop = suggestionText := if_pos h

/-- What is rewritten, in positions of the suggestion. -/
theorem rewritten_of_not_passed {suggestionStart start stop : Nat}
    (hstop : suggestionStart < stop)
    (hstart : start + 1 < suggestionStart + suggestionText.length) :
    rewritten suggestionText suggestionStart start stop =
      suggestionText.take (start - suggestionStart) ++ urlPlaceholder ++
        suggestionText.drop (min (stop - suggestionStart) (suggestionText.length - 1)) := by
  have hto : max ((start : Int) - suggestionStart) 0 = ((start - suggestionStart : Nat) : Int) := by
    omega
  rw [rewritten, if_neg (by omega), hto, sliceTo_natCast]
  cases suggestionText with
  | nil => simp [sliceFrom]
  | cons u rest =>
      have hfrom : min ((stop : Int) - suggestionStart) ((u :: rest).length - 1 : Int) =
          ((min (stop - suggestionStart) ((u :: rest).length - 1) : Nat) : Int) := by
        simp only [List.length_cons]
        omega
      rw [hfrom, sliceFrom_natCast]

/-- If nothing stands between the two positions, then to rewrite is to insert. -/
theorem rewritten_eq_self_iff {suggestionStart start stop : Nat}
    (h : stop ≤ start ∨ suggestionText = []) :
    rewritten suggestionText suggestionStart start stop = suggestionText ↔
      stop ≤ suggestionStart ∨ suggestionStart + suggestionText.length ≤ start + 1 := by
  by_cases hpassed : stop ≤ suggestionStart ∨
      suggestionStart + suggestionText.length ≤ start + 1
  · refine iff_of_true (rewritten_of_passed ?_) hpassed
    omega
  · refine iff_of_false ?_ hpassed
    intro heq
    rw [rewritten_of_not_passed (by omega) (by omega)] at heq
    have hlength := congrArg List.length heq
    simp only [List.length_append, List.length_take, List.length_drop,
      length_urlPlaceholder] at hlength
    rcases h with h | rfl
    · omega
    · simp at hlength

/-- What is rewritten up to a quote is as it would be up to a later place only if the two are one
place within the suggestion. -/
theorem rewritten_eq_iff {suggestionStart start stop upTo : Nat}
    (hstop : suggestionStart < stop) (hstart : start + 1 < suggestionStart + suggestionText.length)
    (hlater : min (stop - suggestionStart) suggestionText.length ≤ upTo)
    (hupTo : upTo ≤ suggestionText.length) (hpos : 0 < upTo) :
    rewritten suggestionText suggestionStart start stop =
        suggestionText.take (start - suggestionStart) ++ urlPlaceholder ++
          suggestionText.drop upTo ↔
      stop - suggestionStart = upTo ∧ upTo < suggestionText.length := by
  rw [rewritten_of_not_passed hstop hstart, List.append_right_inj]
  constructor
  · intro heq
    have hlength := congrArg List.length heq
    rw [List.length_drop, List.length_drop] at hlength
    omega
  · rintro ⟨rfl, hlt⟩
    rw [Nat.min_eq_left (by omega)]

/-- To write the placeholder makes no difference if it is there already. -/
theorem eq_splice_iff {start stop : Nat} (hle : start ≤ stop) :
    suggestionText = suggestionText.take start ++ urlPlaceholder ++ suggestionText.drop stop ↔
      (suggestionText.take stop).drop start = urlPlaceholder := by
  have hparts : suggestionText =
      suggestionText.take start ++ (suggestionText.take stop).drop start ++
        suggestionText.drop stop := by
    have htake : (suggestionText.take stop).take start = suggestionText.take start := by
      rw [List.take_take, Nat.min_eq_left hle]
    rw [← htake, List.take_append_drop, List.take_append_drop]
  constructor
  · intro heq
    have hboth := hparts.symm.trans heq
    rwa [List.append_left_inj, List.append_right_inj] at hboth
  · intro heq
    rw [← heq]
    exact hparts

/-- A key without a quote behind it. -/
theorem sanitizeUrl_of_none
    (h : valueStart (text context suggestionText) nodeContent.endIndex = none) :
    (sanitizeUrl nodeContent context suggestionText).suggestionText = suggestionText ↔
      nodeContent.endIndex ≤ context.prefixText.length + 1 ∨
        context.prefixText.length + suggestionText.length ≤ nodeContent.endIndex + 1 := by
  rw [suggestionText_sanitizeUrl, getValueAbsolutePosition_of_none h]
  dsimp only
  by_cases hzero : nodeContent.endIndex = 0
  · rw [hzero, rewritten_of_passed (by omega)]
    simp
  · have hpred : (nodeContent.endIndex : Int) - 1 = ((nodeContent.endIndex - 1 : Nat) : Int) := by
      omega
    rw [hpred, rewritten_eq_self_iff (.inl (Nat.sub_le _ _))]
    omega

/-- The first quote of a value, against its end. -/
theorem firstQuote_cases {start : Nat}
    (h : valueStart (text context suggestionText) nodeContent.endIndex = some start) :
    (firstQuote (text context suggestionText) start = none ∧
      context.prefixText.length + suggestionText.length ≤
        valueEnd (text context suggestionText) start) ∨
    ∃ p, firstQuote (text context suggestionText) start = some p ∧ start ≤ p ∧
      p ≤ valueEnd (text context suggestionText) start := by
  cases hfirst : firstQuote (text context suggestionText) start with
  | none =>
      refine .inl ⟨rfl, ?_⟩
      rw [valueEnd_of_firstQuote_eq_none hfirst (valueStart_eq_some h).2, text, List.length_append,
        List.length_append]
      exact Nat.le_add_right _ _
  | some p => exact .inr ⟨p, rfl, firstQuote_le_valueEnd hfirst⟩

/-- A value of which the suggestion has nothing. -/
theorem sanitizeUrl_of_no_part {start : Nat}
    (h : valueStart (text context suggestionText) nodeContent.endIndex = some start)
    (hpart : ¬ partFrom context start <
      partTo context suggestionText (valueEnd (text context suggestionText) start)) :
    (sanitizeUrl nodeContent context suggestionText).suggestionText = suggestionText ↔
      PassedOver context suggestionText start := by
  rw [suggestionText_sanitizeUrl, getValueAbsolutePosition_of_some h, PassedOver]
  dsimp only
  by_cases hpassed : (firstQuote (text context suggestionText) start).getD (start - 1) ≤
      context.prefixText.length ∨
        context.prefixText.length + suggestionText.length ≤ start + 1
  · refine iff_of_true (rewritten_of_passed ?_) hpassed
    omega
  · -- what is not passed over begins where it ends
    apply rewritten_eq_self_iff
    rw [← List.length_eq_zero_iff]
    unfold partFrom partTo at hpart
    obtain ⟨hnone, -⟩ | ⟨p, hsome, -, hle⟩ := firstQuote_cases h
    · rw [hnone, Option.getD_none]
      omega
    · rw [hsome, Option.getD_some] at hpassed ⊢
      omega

/-- A value of which the suggestion has a part. -/
theorem sanitizeUrl_of_part {start : Nat}
    (h : valueStart (text context suggestionText) nodeContent.endIndex = some start)
    (hpart : partFrom context start <
      partTo context suggestionText (valueEnd (text context suggestionText) start)) :
    (sanitizeUrl nodeContent context suggestionText).suggestionText =
        suggestionText.take (partFrom context start) ++ urlPlaceholder ++
          suggestionText.drop
            (partTo context suggestionText (valueEnd (text context suggestionText) start)) ↔
      (firstQuote (text context suggestionText) start =
          some (valueEnd (text context suggestionText) start) ∧
        valueEnd (text context suggestionText) start <
          context.prefixText.length + suggestionText.length) ∨
      ((suggestionText.take
          (partTo context suggestionText (valueEnd (text context suggestionText) start))).drop
            (partFrom context start) = urlPlaceholder ∧
        PassedOver context suggestionText start) := by
  rw [suggestionText_sanitizeUrl, getValueAbsolutePosition_of_some h]
  dsimp only
  have hcases := firstQuote_cases h
  generalize valueEnd (text context suggestionText) start = stop at hpart hcases ⊢
  unfold PassedOver
  by_cases hpassed : (firstQuote (text context suggestionText) start).getD (start - 1) ≤
      context.prefixText.length ∨
        context.prefixText.length + suggestionText.length ≤ start + 1
  · have hnot : ¬ (firstQuote (text context suggestionText) start = some stop ∧
        stop < context.prefixText.length + suggestionText.length) := by
      rintro ⟨hfirst, hlt⟩
      rw [hfirst, Option.getD_some] at hpassed
      unfold partFrom partTo at hpart
      obtain ⟨hnone, -⟩ | ⟨p, hsome, hstart, -⟩ := hcases
      · rw [hnone] at hfirst
        cases hfirst
      · rw [hsome] at hfirst
        cases hfirst
        omega
    rw [rewritten_of_passed (by omega), eq_splice_iff hpart.le, or_iff_right hnot,
      and_iff_left hpassed]
  · have hright : ∀ p : Prop, ¬ (p ∧
        ((firstQuote (text context suggestionText) start).getD (start - 1) ≤
          context.prefixText.length ∨
            context.prefixText.length + suggestionText.length ≤ start + 1)) :=
      fun p hp => hpassed hp.2
    rw [or_iff_left (hright _), partFrom]
    unfold partFrom partTo at hpart
    obtain ⟨hnone, hend⟩ | ⟨p, hsome, hstart, hle⟩ := hcases
    · rw [hnone, Option.getD_none] at hpassed ⊢
      unfold partTo
      rw [rewritten_eq_iff (by omega) (by omega) (by omega) (by omega) (by omega)]
      simp only [reduceCtorEq, false_and, iff_false]
      omega
    · rw [hsome, Option.getD_some] at hpassed ⊢
      unfold partTo
      rw [rewritten_eq_iff (by omega) (by omega) (by omega) (by omega) (by omega),
        Option.some_inj]
      omega

/-- **What the processor keeps of its contract.** It writes the placeholder for what the suggestion
has of the value, and for nothing else, if and only if the value is closed within the suggestion by
the first quote in it, or is passed over with nothing to do. -/
theorem sanitizeUrl_iff (nodeContent : SyntaxNode) (context : IDocContext)
    (suggestionText : JsString) :
    (sanitizeUrl nodeContent context suggestionText).suggestionText =
        sanitizedUrl context suggestionText nodeContent.endIndex ↔
      RightlySanitized context suggestionText nodeContent.endIndex := by
  rw [sanitizedUrl, RightlySanitized]
  cases hvalue : valueStart (text context suggestionText) nodeContent.endIndex with
  | none => exact sanitizeUrl_of_none hvalue
  | some start =>
      dsimp only
      split
      · next hpart => exact sanitizeUrl_of_part hvalue hpart
      · next hpart => exact sanitizeUrl_of_no_part hvalue hpart

end Processor

/-- The document `{"$schema": "htt`. -/
def sampleContext : IDocContext where
  prefixText := ofString "\x7b\"$schema\": \"htt"
  suffix := []
  fileRelativePath := "a.json"
  position := ⟨0, 16⟩
  uri := "file:///a.json"
  languageId := "json"
  workspaceFolder := none

/-- A URL that goes on in the suggestion, and has not been closed yet, is not replaced. -/
theorem not_sanitizeUrl_of_open_value :
    (sanitizeUrl ⟨1, 10, ⟨0, 1⟩, ⟨0, 10⟩⟩ sampleContext (ofString "ps://x.org")).suggestionText ≠
      sanitizedUrl sampleContext (ofString "ps://x.org") 10 := by
  decide +kernel

end JsonUrlProcessor
end KhulnasoftLsp.SuggestionClient
