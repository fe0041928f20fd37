import KhulnasoftLsp.DocumentTransformer
import KhulnasoftLsp.Suggestion.Cache
import KhulnasoftLsp.Suggestion.Service

/-!
# Inline completions behind a selected completion

While an entry of the completion popup is selected, a suggestion is asked for as if the entry were
accepted: `getDocContext` ends the prefix with its text. The editor inserts at the cursor, so that
`inlineCompletionOptionMapper` sends the part of the entry that has not been typed yet before the
suggestion. It takes the *characters* of the two ends of the entry's range for the length of what
has been typed, which is right on one line only; `insertText_iff` says when the two agree.
-/

namespace KhulnasoftLsp.Suggestion

def startStreamingCommand : String := "gitlab.ls.startStreaming"

def suggestionAcceptedCommand : String := "gitlab.ls.codeSuggestionAccepted"

/-- A `SuggestionOptionOrStream`: `isStream` tells the two apart by the `streamId`. -/
inductive SuggestionOptionOrStream where
  | option (option : SuggestionOption)
  | stream (option : StartStreamOption)
  deriving DecidableEq, Repr

structure InlineCompletionParams where
  position : Position
  context : InlineCompletionContext
  deriving DecidableEq, Repr

inductive CommandArgument where
  | text (s : String)
  | number (n : Option Nat)
  deriving DecidableEq, Repr

structure Command where
  title : String
  command : String
  arguments : List CommandArgument
  deriving DecidableEq, Repr

structure InlineCompletionItem where
  insertText : JsString
  range : Option Range
  command : Command
  deriving DecidableEq, Repr

structure InlineCompletionList where
  items : List InlineCompletionItem
  deriving DecidableEq, Repr

/-- The index of an option, from one on. -/
def getOptionTrackingIndex (option : SuggestionOption) : Option Nat := option.index.map (· + 1)

/-- `range.end.character - range.start.character`, which `substring` takes for zero if it is
negative. -/
def rangeDiff (range : Range) : Nat := range.stop.character - range.start.character

/-- The item of an option. -/
def inlineCompletionItem (params : InlineCompletionParams) :
    SuggestionOptionOrStream → InlineCompletionItem
  | .stream option =>
    { insertText := []
      range := none
      command :=
        { title := "Start streaming"
          command := startStreamingCommand
          arguments := [.text option.streamId, .text option.uniqueTrackingId] } }
  | .option option =>
    { insertText := match params.context.selectedCompletionInfo with
        | some completionInfo =>
          completionInfo.text.drop (rangeDiff (sanitizeRange completionInfo.range)) ++ option.text
        | none => option.text
      range := some ⟨params.position, params.position⟩
      command :=
        { title := "Accept suggestion"
          command := suggestionAcceptedCommand
          arguments := [.text option.uniqueTrackingId, .number (getOptionTrackingIndex option)] } }

def inlineCompletionOptionMapper (params : InlineCompletionParams)
    (options : List SuggestionOptionOrStream) : InlineCompletionList :=
  ⟨options.map (inlineCompletionItem params)⟩

def shouldRejectCompletionWithSelectedCompletionTextMismatch (context : InlineCompletionContext)
    (document : Option TextDocument) : Bool :=
  match context.selectedCompletionInfo, document with
  | some selectedCompletionInfo, some document =>
    let currentText := document.getText (sanitizeRange selectedCompletionInfo.range)
    !currentText.isPrefixOf selectedCompletionInfo.text
  | _, _ => false

/-! ## Texts -/

theorem length_substring {s : JsString} {i j : Nat} (hi : i ≤ s.length) (hj : j ≤ s.length) :
    (JsString.substring i j s).length = max i j - min i j := by
  rw [JsString.substring, List.length_drop, List.length_take, Nat.min_eq_left (max_le hi hj)]

/-- The text up to a place, cut in two. -/
theorem substring_append {s : JsString} {i j : Nat} (hij : i ≤ j) :
    JsString.substring 0 i s ++ JsString.substring i j s = JsString.substring 0 j s := by
  have hcut := List.take_append_drop i (s.take j)
  rw [List.take_take, Nat.min_eq_left hij] at hcut
  simpa [JsString.substring, hij] using hcut

/-- A selected text that goes on from what has been typed of it: to drop some of it behind the
cursor comes to the same as to put all of it in the place of what has been typed, exactly if the
length of what has been typed is dropped. -/
theorem append_drop_eq_iff {text selected : JsString} {start stop : Nat} (diff : Nat)
    (hstart : start ≤ text.length) (hstop : stop ≤ text.length)
    (hbegins : JsString.substring start stop text <+: selected) :
    JsString.substring 0 stop text ++ selected.drop diff =
        JsString.substring 0 start text ++ selected ↔
      start + min diff selected.length = stop := by
  constructor
  · intro heq
    have hlength := congrArg List.length heq
    rw [List.length_append, List.length_append, List.length_drop,
      length_substring (Nat.zero_le _) hstop, length_substring (Nat.zero_le _) hstart] at hlength
    omega
  · intro hspan
    obtain ⟨more, rfl⟩ := hbegins
    have hle : start ≤ stop := by omega
    have htyped : (JsString.substring start stop text).length = stop - start := by
      rw [length_substring hstart hstop, Nat.max_eq_right hle, Nat.min_eq_left hle]
    have hdrop : (JsString.substring start stop text ++ more).drop diff =
        (JsString.substring start stop text ++ more).drop
          (JsString.substring start stop text).length := by
      rw [List.drop_eq_drop_iff]
      rw [List.length_append] at hspan ⊢
      omega
    rw [hdrop, List.drop_left, ← List.append_assoc, substring_append hle]

/-- The text in front of the position, with what an item inserts there, is the prefix of the
document's context with the option's text. -/
def InsertsAfterPrefix (document : TextDocument) (params : InlineCompletionParams)
    (workspaceFolders : List WorkspaceFolder) (option : SuggestionOption)
    (item : InlineCompletionItem) : Prop :=
  document.getText ⟨document.positionAt 0, params.position⟩ ++ item.insertText =
    (getDocContext document params.position workspaceFolders params.context).prefixText ++
      option.text

/-- From the start of the range, as many code units as its characters differ by, though no more than
the selected text has, lead to its end. -/
def SpansItsCharacters (document : TextDocument) (completionInfo : SelectedCompletionInfo) : Prop :=
  let range := sanitizeRange completionInfo.range
  document.offsetAt range.start + min (rangeDiff range) completionInfo.text.length =
    document.offsetAt range.stop

instance (document : TextDocument) (completionInfo : SelectedCompletionInfo) :
    Decidable (SpansItsCharacters document completionInfo) :=
  inferInstanceAs (Decidable (_ = _))

/-- A selected text that is not rejected begins with the document's text in its range. -/
theorem begins_of_not_rejected {document : TextDocument} {context : InlineCompletionContext}
    {completionInfo : SelectedCompletionInfo}
    (hinfo : context.selectedCompletionInfo = some completionInfo)
    (hmatch : shouldRejectCompletionWithSelectedCompletionTextMismatch context (some document) =
      false) :
    document.getText (sanitizeRange completionInfo.range) <+: completionInfo.text := by
  obtain ⟨info⟩ := context
  cases hinfo
  unfold shouldRejectCompletionWithSelectedCompletionTextMismatch at hmatch
  simpa using hmatch

theorem prefixText_of_info {document : TextDocument} (hdocument : document.Lawful)
    {position : Position} {workspaceFolders : List WorkspaceFolder}
    {context : InlineCompletionContext} {completionInfo : SelectedCompletionInfo}
    (hinfo : context.selectedCompletionInfo = some completionInfo) :
    (getDocContext document position workspaceFolders context).prefixText =
      JsString.substring 0 (document.offsetAt (sanitizeRange completionInfo.range).start)
        document.text ++ completionInfo.text := by
  obtain ⟨info⟩ := context
  cases hinfo
  show document.getText ⟨document.positionAt 0, _⟩ ++ _ = _
  rw [TextDocument.getText, hdocument.offsetAt_start]

theorem insertText_of_info {params : InlineCompletionParams}
    {completionInfo : SelectedCompletionInfo}
    (hinfo : params.context.selectedCompletionInfo = some completionInfo)
    (option : SuggestionOption) :
    (inlineCompletionItem params (.option option)).insertText =
      completionInfo.text.drop (rangeDiff (sanitizeRange completionInfo.range)) ++
        option.text := by
  obtain ⟨position, ⟨info⟩⟩ := params
  cases hinfo
  rfl

/-- **What is inserted behind a selected completion.** If the selected completion's range ends at
the position, and its text begins with the document's text in the range, then each option's item
goes on from the text in front of the position as the option goes on from the prefix, if and only
if the characters of the range's ends differ by the length of that text. -/
theorem insertText_iff (document : TextDocument) (hdocument : document.Lawful)
    (workspaceFolders : List WorkspaceFolder) (params : InlineCompletionParams)
    (completionInfo : SelectedCompletionInfo)
    (hinfo : params.context.selectedCompletionInfo = some completionInfo)
    (hend : (sanitizeRange completionInfo.range).stop = params.position)
    (hmatch : shouldRejectCompletionWithSelectedCompletionTextMismatch params.context
      (some document) = false)
    (options : List SuggestionOptionOrStream) (i : Nat) (option : SuggestionOption)
    (hoption : options[i]? = some (.option option)) :
    (∀ item ∈ (inlineCompletionOptionMapper params options).items[i]?,
      InsertsAfterPrefix document params workspaceFolders option item) ↔
      SpansItsCharacters document completionInfo := by
  have hitem : (inlineCompletionOptionMapper params options).items[i]? =
      some (inlineCompletionItem params (.option option)) := by
    rw [inlineCompletionOptionMapper, List.getElem?_map, hoption]
    rfl
  have hbegins := begins_of_not_rejected hinfo hmatch
  rw [TextDocument.getText, hend] at hbegins
  rw [hitem, SpansItsCharacters, hend]
  simp only [Option.mem_some_iff, forall_eq', InsertsAfterPrefix]
  rw [insertText_of_info hinfo, prefixText_of_info hdocument hinfo, TextDocument.getText,
    hdocument.offsetAt_start, ← List.append_assoc, List.append_left_inj]
  exact append_drop_eq_iff _ (hdocument.offsetAt_le _) (hdocument.offsetAt_le _) hbegins

/-! ## Two documents -/

/-- A text of lines that end in `'\n'`, with the offsets and positions that the package gives it:
those behind the end of a line are at its end. -/
def plainDocument (text : JsString) : TextDocument where
  uri := "file:///a.ts"
  languageId := "typescript"
  text := text
  offsetAt position := min text.length
    (((text.lines.take position.line).map fun line => line.length + 1).sum +
      min position.character ((text.lines[position.line]?).getD []).length)
  positionAt offset :=
    let before := JsString.lines (text.take offset)
    ⟨before.length - 1, (before.getLastD []).length⟩

def callOption : SuggestionOption := ⟨some 0, JsString.ofString "()", "id", none⟩

/-- `con` has been typed on the second line, and `console` is selected. -/
theorem insertText_on_one_line :
    ∃ item, (inlineCompletionOptionMapper ⟨⟨1, 3⟩, ⟨some ⟨.object ⟨⟨1, 0⟩, ⟨1, 3⟩⟩,
        JsString.ofString "console"⟩⟩⟩ [.option callOption]).items[0]? = some item ∧
      InsertsAfterPrefix (plainDocument (JsString.ofString "ab\ncon")) ⟨⟨1, 3⟩,
        ⟨some ⟨.object ⟨⟨1, 0⟩, ⟨1, 3⟩⟩, JsString.ofString "console"⟩⟩⟩ [] callOption item := by
  refine ⟨_, rfl, ?_⟩
  apply (insertText_iff (plainDocument (JsString.ofString "ab\ncon")) _ [] _ _ rfl rfl
    (by decide +kernel) [.option callOption] 0 callOption rfl).mpr
  · decide +kernel
  · rfl
  · exact ⟨fun position => Nat.min_le_left _ _, by decide +kernel, by decide +kernel⟩

/-- The selected text's range begins on the line before: what has been typed of it is inserted
again. -/
theorem not_insertText_on_two_lines :
    ¬ ∀ item ∈ (inlineCompletionOptionMapper ⟨⟨1, 1⟩, ⟨some ⟨.object ⟨⟨0, 1⟩, ⟨1, 1⟩⟩,
        JsString.ofString "b\nconsole"⟩⟩⟩ [.option callOption]).items[0]?,
      InsertsAfterPrefix (plainDocument (JsString.ofString "ab\nc")) ⟨⟨1, 1⟩,
        ⟨some ⟨.object ⟨⟨0, 1⟩, ⟨1, 1⟩⟩, JsString.ofString "b\nconsole"⟩⟩⟩ [] callOption
          item := by
  intro h
  have hitem := h _ rfl
  revert hitem
  unfold InsertsAfterPrefix
  decide +kernel

end KhulnasoftLsp.Suggestion
