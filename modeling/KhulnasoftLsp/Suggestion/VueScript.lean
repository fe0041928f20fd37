import KhulnasoftLsp.DocContext
import KhulnasoftLsp.Regex
import KhulnasoftLsp.TextPositions

/-!
# The cursor in the script of a Vue file

There is no tree-sitter parser for Vue, so the script of the file is parsed, and the cursor is
mapped to it. `extractScript` finds the script and where it starts: on which line, and at which
offset of the file. `#getIntent` takes this line off the line of the cursor, and this offset off its
character.

An offset of the file is a character of its first line only, so on this line the mapped position is
the cursor, and on a later line it is not.
-/

namespace KhulnasoftLsp

open JsString (ofString isWhitespace)
open Pattern TextPositions

/-! ## The script of a file -/

namespace VueScript

/-- A letter of ASCII in upper case. -/
def toUpper (u : UInt16) : UInt16 := if 0x0061 ≤ u && u ≤ 0x007a then u - 0x0020 else u

/-- The flag `i` -/
def sameLetter (u v : UInt16) : Bool := toUpper u == toUpper v

/-- `\w` -/
def isWord (u : UInt16) : Bool :=
  (0x0030 ≤ u && u ≤ 0x0039) || (0x0041 ≤ u && u ≤ 0x005a) || (0x0061 ≤ u && u ≤ 0x007a) ||
    u == 0x005f

/-- `["']` -/
def isQuote (u : UInt16) : Bool := u == 0x0022 || u == 0x0027

/-- `\s+[^>]*` -/
def attributes : Pattern UInt16 JsString := do
  let space ← greedy 1 isWhitespace
  let names ← greedy 0 fun u => u != 0x003e
  return space ++ names

/-- `/<script(?:\s+[^>]*)?\s*>([\s\S]*?)<\/script>/i` -/
def scriptElement : Pattern UInt16 JsString := do
  let _ ← literalBy sameLetter (ofString "<script")
  let _ ← optional attributes
  let _ ← greedy 0 isWhitespace
  let _ ← literal [0x003e]
  let scriptContent ← lazy 0 fun _ => true
  let _ ← literalBy sameLetter (ofString "</script>")
  return scriptContent

/-- `/lang=["'](\w+)["']/i` -/
def langAttribute : Pattern UInt16 JsString := do
  let _ ← literalBy sameLetter (ofString "lang=")
  let _ ← char isQuote
  let language ← greedy 1 isWord
  let _ ← char isQuote
  return language

structure Script where
  scriptContent : JsString
  scriptStartCharacter : Nat
  scriptStartLine : Nat
  language : JsString
  deriving DecidableEq, Repr

/-- `extractScript` -/
def extractScript (content : JsString) : Option Script :=
  (search anywhere scriptElement content).map fun found =>
    let scriptTag := found.text
    let language := ((search (wordBoundary isWord) langAttribute scriptTag).map (·.value)).getD
      (ofString "js")
    -- a match has a `>`, so `indexOf` finds one
    let scriptStartCharacter := found.index + scriptTag.idxOf 0x003e + 1
    let scriptStartLine := (JsString.lines (content.take scriptStartCharacter)).length - 1
    { scriptContent := found.value, scriptStartCharacter, scriptStartLine, language }

example : extractScript (ofString "<script setup lang=\"ts\">let a</script>") =
    some ⟨ofString "let a", 24, 0, ofString "ts"⟩ := by decide +kernel

theorem ne_closing_of_isWhitespace {u : UInt16} (h : isWhitespace u = true) : u ≠ 0x003e := by
  rintro rfl
  exact absurd h (by decide)

theorem mem_attributes {names text rest : JsString} (h : (names, rest) ∈ attributes text) :
    text = names ++ rest ∧ 0x003e ∉ names := by
  obtain ⟨space, rest₁, hspace, h₁⟩ := mem_bind.mp h
  obtain ⟨others, rest₂, hothers, h₂⟩ := mem_bind.mp h₁
  obtain ⟨htext₁, hisSpace, -⟩ := mem_greedy.mp hspace
  obtain ⟨htext₂, hisOther, -⟩ := mem_greedy.mp hothers
  obtain ⟨rfl, rfl⟩ := mem_pure.mp h₂
  refine ⟨by rw [htext₁, htext₂, List.append_assoc], ?_⟩
  rw [List.mem_append, not_or]
  constructor
  · intro hmem
    exact ne_closing_of_isWhitespace (hisSpace _ hmem) rfl
  · intro hmem
    exact absurd (hisOther _ hmem) (by decide)

/-- No `>` stands in a word without one, in whatever case it is written. -/
theorem closing_notMem_of_sameLetter {word w : JsString}
    (h : List.Forall₂ (fun u v => sameLetter u v = true) word w)
    (hword : toUpper 0x003e ∉ word.map toUpper) : 0x003e ∉ w := by
  induction h with
  | nil => exact List.not_mem_nil
  | cons hsame _ ih =>
      rw [List.map_cons, List.mem_cons, not_or] at hword
      rw [List.mem_cons, not_or]
      refine ⟨?_, ih hword.2⟩
      rintro rfl
      exact hword.1 (beq_iff_eq.mp hsame).symm

/-- An element is its tag, whose only `>` is its last, what stands in it, and the closing tag. -/
theorem mem_scriptElement {scriptContent text rest : JsString}
    (h : (scriptContent, rest) ∈ scriptElement text) :
    ∃ tag closing, text = tag ++ 0x003e :: (scriptContent ++ (closing ++ rest)) ∧
      0x003e ∉ tag := by
  obtain ⟨name, rest₁, hname, h₁⟩ := mem_bind.mp h
  obtain ⟨names, rest₂, hnames, h₂⟩ := mem_bind.mp h₁
  obtain ⟨space, rest₃, hspace, h₃⟩ := mem_bind.mp h₂
  obtain ⟨_, rest₄, hclose, h₄⟩ := mem_bind.mp h₃
  obtain ⟨_, rest₅, hcontent, h₅⟩ := mem_bind.mp h₄
  obtain ⟨closing, rest₆, hclosing, h₆⟩ := mem_bind.mp h₅
  obtain ⟨rfl, rfl⟩ := mem_pure.mp h₆
  obtain ⟨rfl, hsame⟩ := mem_literalBy.mp hname
  obtain ⟨rfl, hisSpace, -⟩ := mem_greedy.mp hspace
  obtain ⟨-, rfl⟩ := mem_literal.mp hclose
  obtain ⟨rfl, -, -⟩ := mem_lazy.mp hcontent
  obtain ⟨rfl, -⟩ := mem_literalBy.mp hclosing
  have hinName : 0x003e ∉ name := closing_notMem_of_sameLetter hsame (by decide)
  have hinSpace : 0x003e ∉ space := by
    intro hmem
    exact ne_closing_of_isWhitespace (hisSpace _ hmem) rfl
  obtain hattributes | hnone := mem_optional.mp hnames
  · obtain ⟨rfl, hinNames⟩ := mem_attributes hattributes
    refine ⟨name ++ (names ++ space), closing, by simp, ?_⟩
    simp [hinName, hinNames, hinSpace]
  · obtain ⟨rfl, rfl⟩ := Prod.mk.inj hnone
    refine ⟨name ++ space, closing, by simp, ?_⟩
    simp [hinName, hinSpace]

theorem leaves_scriptElement (text : JsString) (r : JsString × JsString)
    (h : r ∈ scriptElement text) : r.2 <:+ text := by
  obtain ⟨tag, closing, rfl, -⟩ := mem_scriptElement h
  exact ⟨tag ++ 0x003e :: (r.1 ++ closing), by simp⟩

/-- The script is cut out of the file where it starts, behind a tag. -/
theorem extractScript_eq_some {content : JsString} {script : Script}
    (h : extractScript content = some script) :
    ∃ pre post, content = pre ++ (script.scriptContent ++ post) ∧ pre ≠ [] ∧
      script.scriptStartCharacter = pre.length ∧
      script.scriptStartLine = (JsString.lines pre).length - 1 := by
  obtain ⟨found, hfound, rfl⟩ := Option.map_eq_some_iff.mp h
  obtain ⟨pre, rest, rfl, hindex, -, hmem⟩ := exists_of_search_eq_some leaves_scriptElement hfound
  obtain ⟨tag, closing, htext, htag⟩ := mem_scriptElement hmem
  have hfoundText : found.text = tag ++ 0x003e :: (found.value ++ closing) := by
    apply List.append_cancel_right
    rw [htext]
    simp
  have hstart : found.text.idxOf 0x003e = tag.length := by
    rw [hfoundText, List.idxOf_append_of_notMem htag, List.idxOf_cons_self, Nat.add_zero]
  have hcontent : pre ++ (found.text ++ rest) =
      (pre ++ (tag ++ [0x003e])) ++ (found.value ++ (closing ++ rest)) := by
    rw [hfoundText]
    simp
  have hlength : found.index + found.text.idxOf 0x003e + 1 = (pre ++ (tag ++ [0x003e])).length := by
    rw [hindex, hstart]
    simp
    omega
  refine ⟨pre ++ (tag ++ [0x003e]), closing ++ rest, hcontent, by simp, hlength, ?_⟩
  simp only
  rw [hlength, hcontent, List.take_left]

end VueScript

/-! ## The cursor -/

/-- A position of a tree: one that is computed may be none of the text. -/
structure CursorPosition where
  line : Int
  character : Int
  deriving DecidableEq, Repr

/-- The offset of a text that a computed position denotes. -/
def CursorPosition.offsetIn (position : CursorPosition) (text : JsString) : Option Nat :=
  if 0 ≤ position.line ∧ 0 ≤ position.character then
    offsetAt text position.line.toNat position.character.toNat
  else none

theorem CursorPosition.offsetIn_eq_some_iff {position : CursorPosition} {text : JsString}
    {offset : Nat} : position.offsetIn text = some offset ↔
      ∃ line character : Nat, position.line = line ∧ position.character = character ∧
        offsetAt text line character = some offset := by
  rw [CursorPosition.offsetIn, Option.ite_none_right_eq_some]
  constructor
  · rintro ⟨⟨hline, hcharacter⟩, h⟩
    exact ⟨position.line.toNat, position.character.toNat, by omega, by omega, h⟩
  · rintro ⟨line, character, hline, hcharacter, h⟩
    rw [hline, hcharacter]
    exact ⟨⟨by omega, by omega⟩, h⟩

/-- A computed position splits a text in two. -/
structure CursorPosition.Splits (position : CursorPosition) (text before after : JsString) :
    Prop where
  text_eq : text = before ++ after
  cursor : position.offsetIn text = some before.length

namespace SuggestionService

variable {τ ι ε : Type}

/-- What the tree-sitter parser makes of a text in a language, and of a file. -/
structure TreeSitterParser (τ ε : Type) where
  parseContent : JsString → JsString → Except ε (Option τ)
  parseFile : IDocContext → Except ε (Option τ)

/-- The cursor of the file, mapped to the script. -/
def adjustPosition (script : VueScript.Script) (position : Position) : CursorPosition where
  line := position.line - script.scriptStartLine
  character := position.character - script.scriptStartCharacter

/-- The tree for the intent, and the position in its text. -/
def treeAndPosition (parser : TreeSitterParser τ ε) (context : IDocContext) :
    Except ε (Option (τ × CursorPosition)) := do
  if context.languageId = "vue" then
    match VueScript.extractScript (context.prefixText ++ context.suffix) with
    | none => return none
    | some script =>
      let treeAndLanguage ← parser.parseContent script.scriptContent script.language
      return treeAndLanguage.map fun tree => (tree, adjustPosition script context.position)
  else
    let treeAndLanguage ← parser.parseFile context
    return treeAndLanguage.map fun tree =>
      (tree, ⟨context.position.line, context.position.character⟩)

/-- `#getIntent` -/
def getIntent (parser : TreeSitterParser τ ε)
    (resolve : τ → CursorPosition → JsString → JsString → Except ε ι) (context : IDocContext) :
    Option ι :=
  let resolution := do
    match ← treeAndPosition parser context with
    | none => return none
    | some (tree, position) => some <$> resolve tree position context.prefixText context.suffix
  match resolution with
  | .ok intent => intent
  | .error _ => none

/-- A position of the file lies in its script, with a part of the script in front of it and the rest
behind it. -/
structure CursorInScript (content : JsString) (script : VueScript.Script) (position : Position)
    (before after : JsString) : Prop where
  script_eq : script.scriptContent = before ++ after
  cursor : offsetAt content position.line position.character =
    some (script.scriptStartCharacter + before.length)

section Cursor

variable {context : IDocContext} {script : VueScript.Script} {before after : JsString}

theorem adjustPosition_splits_iff {content : JsString} {position : Position}
    (hscript : VueScript.extractScript content = some script)
    (hcursor : CursorInScript content script position before after) :
    (adjustPosition script position).Splits script.scriptContent before after ↔
      position.line = 0 := by
  obtain ⟨pre, post, rfl, hpre, hstart, hline⟩ := VueScript.extractScript_eq_some hscript
  obtain ⟨hcontent, hoffset⟩ := hcursor
  rw [hcontent, hstart] at hoffset
  constructor
  · rintro ⟨-, hsplits⟩
    by_contra hlater
    obtain ⟨line', character', -, hcharacter, h⟩ :=
      CursorPosition.offsetIn_eq_some_iff.mp hsplits
    simp only [adjustPosition, hstart] at hcharacter
    obtain rfl : character' = position.character - pre.length := by omega
    rw [hcontent] at h
    exact offsetAt_part_of_later_line hlater hpre (by omega) hoffset line' h
  · intro hfirst
    rw [hfirst] at hoffset
    obtain ⟨hcharacter, -⟩ := offsetAt_zero_eq_some_iff.mp hoffset
    rw [lines_of_first_line hoffset, List.length_singleton, Nat.sub_self] at hline
    refine ⟨hcontent, ?_⟩
    rw [CursorPosition.offsetIn_eq_some_iff, hcontent]
    refine ⟨0, position.character - pre.length, ?_, ?_, offsetAt_part_of_first_line hoffset⟩
    · rw [adjustPosition, hline, hfirst]
      rfl
    · rw [adjustPosition, hstart]
      simp only
      omega

theorem treeAndPosition_eq_of_vue {parser : TreeSitterParser τ ε} {tree : τ}
    {position : CursorPosition} (hvue : context.languageId = "vue")
    (hscript : VueScript.extractScript (context.prefixText ++ context.suffix) = some script)
    (h : treeAndPosition parser context = .ok (some (tree, position))) :
    position = adjustPosition script context.position := by
  rw [treeAndPosition, if_pos hvue, hscript] at h
  cases hparse : parser.parseContent script.scriptContent script.language with
  | error e =>
      simp only [hparse] at h
      cases h
  | ok result =>
      simp only [hparse] at h
      obtain ⟨_, -, heq⟩ := Option.map_eq_some_iff.mp (Except.ok.inj h)
      exact (Prod.mk.inj heq).2.symm

/-- **The position for the intent is the cursor, exactly on the first line of the file.** -/
theorem intentPosition_splits_iff {parser : TreeSitterParser τ ε} {tree : τ}
    {position : CursorPosition} (hvue : context.languageId = "vue")
    (hscript : VueScript.extractScript (context.prefixText ++ context.suffix) = some script)
    (hcursor : CursorInScript (context.prefixText ++ context.suffix) script context.position
      before after)
    (h : treeAndPosition parser context = .ok (some (tree, position))) :
    position.Splits script.scriptContent before after ↔ context.position.line = 0 := by
  rw [treeAndPosition_eq_of_vue hvue hscript h]
  exact adjustPosition_splits_iff hscript hcursor

end Cursor

section Sample

def sampleParser : TreeSitterParser JsString Unit where
  parseContent content _ := .ok (some content)
  parseFile context := .ok (some (context.prefixText ++ context.suffix))

def sampleContext (prefixText suffix : String) (line character : Nat) : IDocContext where
  prefixText := ofString prefixText
  suffix := ofString suffix
  fileRelativePath := "src/App.vue"
  position := ⟨line, character⟩
  uri := "file:///home/user/src/App.vue"
  languageId := "vue"
  workspaceFolder := none

def oneLineContext : IDocContext := sampleContext "<script>let " "a</script>" 0 12

theorem intentPosition_splits_of_one_line :
    (⟨0, 4⟩ : CursorPosition).Splits (ofString "let a") (ofString "let ") (ofString "a") ↔
      oneLineContext.position.line = 0 := by
  have hscript : VueScript.extractScript (oneLineContext.prefixText ++ oneLineContext.suffix) =
      some ⟨ofString "let a", 8, 0, ofString "js"⟩ := by decide +kernel
  have hposition : treeAndPosition sampleParser oneLineContext =
      .ok (some (ofString "let a", ⟨0, 4⟩)) := by decide +kernel
  exact intentPosition_splits_iff rfl hscript ⟨by decide +kernel, by decide +kernel⟩ hposition

def secondLineContext : IDocContext := sampleContext "<script>\nlet " "a\n</script>" 1 4

/-- The cursor behind `let ` on the second line of the file is mapped to the character -4. -/
theorem not_intentPosition_splits_of_second_line :
    ∃ script, VueScript.extractScript (secondLineContext.prefixText ++ secondLineContext.suffix) =
        some script ∧
      CursorInScript (secondLineContext.prefixText ++ secondLineContext.suffix) script
        secondLineContext.position (ofString "\nlet ") (ofString "a\n") ∧
      ∃ tree position, treeAndPosition sampleParser secondLineContext =
          .ok (some (tree, position)) ∧
        ¬ position.Splits script.scriptContent (ofString "\nlet ") (ofString "a\n") := by
  refine ⟨⟨ofString "\nlet a\n", 8, 0, ofString "js"⟩, by decide +kernel,
    ⟨by decide +kernel, by decide +kernel⟩, ofString "\nlet a\n", ⟨1, -4⟩, by decide +kernel, ?_⟩
  intro h
  exact absurd h.cursor (by decide +kernel)

end Sample

end SuggestionService

end KhulnasoftLsp
