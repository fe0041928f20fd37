import KhulnasoftLsp.AiContext.DependencyScanner

/-!
# The lines of a `go.mod` file

`scanGoMod` takes a line that begins with `require` for the start of a section and a line `)` for
its end, and reads a module on each line between the two. A `go.mod` file is a list of directives,
in lines or in blocks, with comments and blank lines. `Item` is a part of such a file as it is
written, with its white space, and `Item.lines` are its lines, each with the module that is required
on it. The empty block in one line, `require ()`, is not among the items.

Here is what the scanner reads on each kind of line.
-/

namespace KhulnasoftLsp

open JsString DependencyScanner

namespace GoMod

/-- What is read on a line: `line.replace('require ', '')` takes the first one away, with which the
line begins. -/
def readLine (line : JsString) : DependencyLibrary :=
  if (ofString "require ").isPrefixOf line then parseDependency (line.drop 8) space
  else parseDependency (trim line) space

def goModRules : SectionRules DependencyLibrary where
  name := (·.name)
  startCondition line := (ofString "require").isPrefixOf line
  endCondition line := line == ofString ")"
  parseLine line := some (readLine line)

def scanGoMod (content : JsString) : List DependencyLibrary :=
  scanBySection goModRules (lines content)

/-! ## The files -/

/-- White space that divides two words. -/
structure Gap where
  val : JsString
  property : val ≠ [] ∧ ∀ u ∈ val, isBlank u = true

/-- What is behind the slashes of a comment. -/
structure CommentText where
  val : JsString
  property : 0x000a ∉ val

structure Word where
  val : JsString
  property : IsWord val

/-- What a module path or a version is made of. -/
def isTokenChar (u : UInt16) : Bool := !isWhitespace u && u != 0x0028 && u != 0x0029

/-- A module path or a version. -/
structure Token where
  val : JsString
  property : val ≠ [] ∧ val.head? ≠ some 0x002f ∧ ∀ u ∈ val, isTokenChar u = true

/-- What is behind the last word of a line. -/
structure Trailing where
  blanks : Blanks
  comment : Option CommentText

def slashes : JsString := ofString "//"

def Trailing.text (t : Trailing) : JsString :=
  t.blanks.val ++ (t.comment.elim [] fun comment => slashes ++ comment.val)

/-- A module and its version. -/
structure Requirement where
  path : Token
  gap : Gap
  version : Token
  trailing : Trailing

def Requirement.text (r : Requirement) : JsString :=
  r.path.val ++ (r.gap.val ++ (r.version.val ++ r.trailing.text))

def Requirement.dep (r : Requirement) : DependencyLibrary := ⟨r.path.val, r.version.val⟩

/-- The words of a directive. -/
structure Words where
  first : Word
  more : List (Gap × Word)
  trailing : Trailing

def Words.text (w : Words) : JsString :=
  w.first.val ++ (w.more.flatMap (fun m => m.1.val ++ m.2.val) ++ w.trailing.text)

/-- The words on a line of a block: there are two of them, or more. -/
structure EntryWords where
  val : Words
  property : val.more ≠ []

/-- A line of a block. -/
inductive BlockLine (α : Type) where
  | entry (indent : Blanks) (a : α)
  | comment (indent : Blanks) (text : CommentText)
  | blank (blanks : Blanks)

/-- A block without its keyword. -/
structure Block (α : Type) where
  indent : Blanks
  gap : Blanks
  openTrailing : Trailing
  lines : List (BlockLine α)
  closeIndent : Blanks
  closeTrailing : Trailing

inductive Keyword where
  | moduleLine
  | goLine
  | replace
  | exclude
  deriving DecidableEq

def Keyword.text : Keyword → JsString
  | moduleLine => ofString "module"
  | goLine => ofString "go"
  | replace => ofString "replace"
  | exclude => ofString "exclude"

/-- A part of a `go.mod` file. -/
inductive Item where
  | directive (indent : Blanks) (keyword : Keyword) (gap : Gap) (words : Words)
  | directiveBlock (keyword : Keyword) (block : Block EntryWords)
  | require (indent : Blanks) (gap : Gap) (requirement : Requirement)
  | requireBlock (block : Block Requirement)
  | comment (indent : Blanks) (text : CommentText)
  | blank (blanks : Blanks)

/-- A line, and the module that is required on it. -/
abbrev AnnotatedLine : Type := JsString × Option DependencyLibrary

def commentLine (indent : Blanks) (text : CommentText) : AnnotatedLine :=
  (indent.val ++ (slashes ++ text.val), none)

def BlockLine.line {α : Type} (print : α → JsString) (dep : α → Option DependencyLibrary) :
    BlockLine α → AnnotatedLine
  | entry indent a => (indent.val ++ print a, dep a)
  | comment indent text => commentLine indent text
  | blank blanks => (blanks.val, none)

def Block.opening {α : Type} (keyword : JsString) (b : Block α) : AnnotatedLine :=
  (b.indent.val ++ (keyword ++ (b.gap.val ++ (ofString "(" ++ b.openTrailing.text))), none)

def Block.closing {α : Type} (b : Block α) : AnnotatedLine :=
  (b.closeIndent.val ++ (ofString ")" ++ b.closeTrailing.text), none)

def Block.allLines {α : Type} (keyword : JsString) (line : BlockLine α → AnnotatedLine)
    (b : Block α) : List AnnotatedLine :=
  b.opening keyword :: (b.lines.map line ++ [b.closing])

def requireText : JsString := ofString "require"

def requireLine : BlockLine Requirement → AnnotatedLine :=
  BlockLine.line Requirement.text fun r => some r.dep

def entryLine : BlockLine EntryWords → AnnotatedLine :=
  BlockLine.line (fun words => words.val.text) fun _ => none

def Item.lines : Item → List AnnotatedLine
  | directive indent keyword gap words =>
    [(indent.val ++ (keyword.text ++ (gap.val ++ words.text)), none)]
  | directiveBlock keyword block => block.allLines keyword.text entryLine
  | require indent gap r => [(indent.val ++ (requireText ++ (gap.val ++ r.text)), some r.dep)]
  | requireBlock block => block.allLines requireText requireLine
  | comment indent text => [commentLine indent text]
  | blank blanks => [(blanks.val, none)]

/-- A `go.mod` file. -/
abbrev File : Type := List Item

def File.lines (f : File) : List AnnotatedLine := f.flatMap Item.lines

def File.print (f : File) : JsString := [0x000a].intercalate (f.lines.map (·.1))

/-- The modules that the file requires, in order. -/
def File.required (f : File) : List DependencyLibrary := (f.lines.map (·.2)).reduceOption

/-- A line of a block of `require` is blank, or a module and its version with a space between them,
with nothing behind them, and with no `require ` at its start. -/
def BlockLine.Readable : BlockLine Requirement → Prop
  | entry indent r =>
    space ∈ r.gap.val ∧ r.trailing.comment = none ∧
      ¬ (indent.val = [] ∧ r.path.val = requireText ∧ r.gap.val.head? = some space)
  | comment _ _ => False
  | blank _ => True

/-! ## Single lines -/

theorem Gap.isWhitespace (g : Gap) : ∀ u ∈ g.val, isWhitespace u = true :=
  fun u hu => isWhitespace_of_isBlank (g.property.2 u hu)

theorem Token.isWord (t : Token) : IsWord t.val := by
  refine ⟨t.property.1, ?_⟩
  intro u hu
  have h := t.property.2.2 u hu
  simp only [isTokenChar, Bool.and_eq_true, Bool.not_eq_true'] at h
  exact h.1.1

theorem slashes_isWord : IsWord slashes := isWord_of_all (by decide) rfl

theorem space_notMem_of_isWord {w : JsString} (h : IsWord w) : space ∉ w := by
  intro hmem
  exact absurd (h.2 space hmem) (by decide)

/-- A line that does not begin with an `r` begins with no `require`. -/
theorem isPrefixOf_eq_false {word line : JsString} (h : line.head? ≠ some 0x0072) :
    (0x0072 :: word).isPrefixOf line = false := by
  cases line with
  | nil => rfl
  | cons u us =>
      have hu : ¬ (0x0072 : UInt16) = u := by
        rintro rfl
        exact h rfl
      rw [List.isPrefixOf_cons_cons, beq_false_of_ne hu, Bool.false_and]

theorem startCondition_eq_false {line : JsString} (h : line.head? ≠ some 0x0072) :
    goModRules.startCondition line = false := isPrefixOf_eq_false h

theorem head?_blanks_append {b s : JsString} (hb : ∀ u ∈ b, isWhitespace u = true)
    (hs : s.head? ≠ some 0x0072) : (b ++ s).head? ≠ some 0x0072 := by
  cases b with
  | nil => exact hs
  | cons u us =>
      intro h
      have hu := hb u List.mem_cons_self
      rw [Option.some.inj h] at hu
      cases hu

theorem head?_indented {b : JsString} (hb : ∀ u ∈ b, isWhitespace u = true) (hne : b ≠ [])
    (s : JsString) : (b ++ s).head? ≠ some 0x0072 := by
  obtain ⟨u, us, rfl⟩ := List.exists_cons_of_ne_nil hne
  have h := head?_blanks_append hb (s := []) (by simp)
  rwa [List.append_nil] at h

theorem readLine_eq {line : JsString} (h : (ofString "require ").isPrefixOf line = false) :
    readLine line = parseDependency line space := by
  rw [readLine, h, if_neg Bool.false_ne_true, parseDependency_trim]

/-- What is read on a line that begins with white space, or with no `r`. -/
theorem readLine_of_head {line : JsString} (h : line.head? ≠ some 0x0072) :
    readLine line = parseDependency line space := readLine_eq (isPrefixOf_eq_false h)

theorem lineAdds_eq_none_iff {line : JsString} :
    lineAdds goModRules true line = none ↔ line = ofString ")" ∨ (readLine line).name = [] := by
  rw [DependencyScanner.lineAdds_eq_none_iff]
  simp [goModRules]

theorem lineAdds_eq_some_iff {line : JsString} {dep : DependencyLibrary} :
    lineAdds goModRules true line = some dep ↔
      line ≠ ofString ")" ∧ readLine line = dep ∧ dep.name ≠ [] := by
  rw [DependencyScanner.lineAdds_eq_some_iff]
  simp [goModRules]

/-! ## Comments, blank lines and the ends of blocks -/

theorem head?_commentLine (indent : Blanks) (text : CommentText) :
    (commentLine indent text).1.head? ≠ some 0x0072 :=
  head?_blanks_append indent.isWhitespace (by intro h; cases h)

theorem head?_closing {α : Type} (b : Block α) : b.closing.1.head? ≠ some 0x0072 :=
  head?_blanks_append b.closeIndent.isWhitespace (by intro h; cases h)

theorem head?_blank (b : Blanks) : b.val.head? ≠ some 0x0072 := by
  have h := head?_blanks_append b.isWhitespace (s := []) (by simp)
  rwa [List.append_nil] at h

theorem lineAdds_commentLine (indent : Blanks) (text : CommentText) :
    lineAdds goModRules true (commentLine indent text).1 ≠ none := by
  rw [Ne, lineAdds_eq_none_iff, not_or]
  constructor
  · intro h
    have hmem : 0x002f ∈ ofString ")" := by
      rw [← h, commentLine]
      simp [slashes, ofString]
    exact absurd hmem (by decide)
  · rw [readLine_of_head (head?_commentLine indent text)]
    obtain ⟨x, hx⟩ := name_of_start (t := text.val) indent.isWhitespace slashes_isWord.1
      slashes_isWord.head? slashes_isWord.getLast? (space_notMem_of_isWord slashes_isWord)
    rw [commentLine, hx]
    simp [slashes_isWord.1]

theorem lineAdds_blank (b : Blanks) : lineAdds goModRules true b.val = none := by
  rw [lineAdds_eq_none_iff, readLine_of_head (head?_blank b)]
  have hline := trim_eq_nil_iff.mpr b.isWhitespace
  rw [parseDependency_of_notMem (by rw [hline]; exact List.not_mem_nil), hline]
  exact .inr rfl

theorem lineAdds_closing_iff {α : Type} (b : Block α) :
    lineAdds goModRules true b.closing.1 = none ↔ b.closing.1 = ofString ")" := by
  rw [lineAdds_eq_none_iff]
  apply or_iff_left
  rw [readLine_of_head (head?_closing b)]
  have hword : IsWord (ofString ")") := isWord_of_all (by decide) rfl
  obtain ⟨x, hx⟩ := name_of_start (t := b.closeTrailing.text) b.closeIndent.isWhitespace hword.1
    hword.head? hword.getLast? (space_notMem_of_isWord hword)
  rw [Block.closing, hx]
  simp [hword.1]

/-! ## Entries of blocks -/

/-- A line with two words is not the end of a block. -/
theorem ne_closing_of_words {a v g w t : JsString} (hv : v ≠ []) (hg : g ≠ []) :
    a ++ (v ++ (g ++ (w ++ t))) ≠ ofString ")" := by
  intro h
  have hlength := congrArg List.length h
  have hone : (ofString ")").length = 1 := rfl
  have hvPos := List.length_pos_iff.mpr hv
  have hgPos := List.length_pos_iff.mpr hg
  simp only [List.length_append] at hlength
  omega

/-- A line of words begins with `require ` if this is its first word, and a space behind it. -/
theorem require_of_isPrefixOf {a v g t : JsString} (ha : ∀ u ∈ a, isWhitespace u = true)
    (hv : IsWord v) (hne : g ≠ []) (hg : ∀ u ∈ g, isWhitespace u = true)
    (h : (ofString "require ").isPrefixOf (a ++ (v ++ (g ++ t))) = true) :
    a = [] ∧ v = requireText ∧ g.head? = some space := by
  have hindent : a = [] := by
    by_contra hne
    rw [show ofString "require " = 0x0072 :: ofString "equire " from rfl,
      isPrefixOf_eq_false (head?_indented ha hne _)] at h
    cases h
  subst hindent
  obtain ⟨rest, hrest⟩ := List.isPrefixOf_iff_prefix.mp h
  have hwords : requireText ++ space :: rest = v ++ (g ++ t) := by
    rw [List.nil_append] at hrest
    rw [← hrest]
    rfl
  have hrequire : IsWord requireText := isWord_of_all (by decide) rfl
  obtain ⟨hword, hhead⟩ := first_word_unique hrequire.2 hv.2 (by decide) hne hg hwords
  exact ⟨rfl, hword.symm, hhead⟩

theorem isPrefixOf_require {g t : JsString} (hg : g.head? = some space) :
    (ofString "require ").isPrefixOf (requireText ++ (g ++ t)) = true := by
  obtain ⟨us, rfl⟩ := List.head?_eq_some_iff.mp hg
  rw [List.isPrefixOf_iff_prefix]
  exact ⟨us ++ t, rfl⟩

theorem drop_require {g t : JsString} (hg : g.head? = some space) :
    (requireText ++ (g ++ t)).drop 8 = g.tail ++ t := by
  obtain ⟨us, rfl⟩ := List.head?_eq_some_iff.mp hg
  rfl

theorem lineAdds_entryLine (indent : Blanks) (words : EntryWords) :
    lineAdds goModRules true (entryLine (.entry indent words)).1 ≠ none := by
  obtain ⟨⟨first, more, trailing⟩, hmore⟩ := words
  obtain ⟨⟨gap, second⟩, others, rfl⟩ := List.exists_cons_of_ne_nil hmore
  have hline : (entryLine (.entry indent ⟨⟨first, (gap, second) :: others, trailing⟩, hmore⟩)).1 =
      indent.val ++ (first.val ++ (gap.val ++ (second.val ++
        (others.flatMap (fun m => m.1.val ++ m.2.val) ++ trailing.text)))) := by
    simp [entryLine, BlockLine.line, Words.text]
  rw [hline, Ne, lineAdds_eq_none_iff, not_or]
  refine ⟨ne_closing_of_words first.property.1 gap.property.1, ?_⟩
  cases hfront : (ofString "require ").isPrefixOf (indent.val ++ (first.val ++ (gap.val ++
      (second.val ++ (others.flatMap (fun m => m.1.val ++ m.2.val) ++ trailing.text))))) with
  | true =>
      obtain ⟨hindent, hfirst, hhead⟩ := require_of_isPrefixOf indent.isWhitespace first.property
        gap.property.1 gap.isWhitespace hfront
      rw [readLine, hfront, if_pos rfl, hindent, hfirst, List.nil_append, drop_require hhead]
      obtain ⟨x, hx⟩ := name_of_start
        (t := others.flatMap (fun m => m.1.val ++ m.2.val) ++ trailing.text)
        (fun u hu => gap.isWhitespace u (List.mem_of_mem_tail hu)) second.property.1
        second.property.head? second.property.getLast? (space_notMem_of_isWord second.property)
      rw [hx]
      simp [second.property.1]
  | false =>
      rw [readLine_eq hfront]
      obtain ⟨x, hx⟩ := name_of_start
        (t := gap.val ++ (second.val ++
          (others.flatMap (fun m => m.1.val ++ m.2.val) ++ trailing.text)))
        indent.isWhitespace first.property.1 first.property.head? first.property.getLast?
        (space_notMem_of_isWord first.property)
      rw [hx]
      simp [first.property.1]

theorem Trailing.isWhitespace_iff (t : Trailing) :
    (∀ u ∈ t.text, isWhitespace u = true) ↔ t.comment = none := by
  cases hcomment : t.comment with
  | none => simpa [Trailing.text, hcomment] using t.blanks.isWhitespace
  | some comment =>
      simp only [reduceCtorEq, iff_false]
      intro h
      have hmem : 0x002f ∈ t.text := by
        rw [Trailing.text, hcomment]
        simp [slashes, ofString]
      exact absurd (h 0x002f hmem) (by decide)

/-- A module called `require` at the start of its line is taken for the directive. -/
theorem readLine_ne_of_require {r : Requirement} (hpath : r.path.val = requireText)
    (hhead : r.gap.val.head? = some space) : readLine r.text ≠ r.dep := by
  have hblanks : ∀ u ∈ r.gap.val.tail, isWhitespace u = true :=
    fun u hu => r.gap.isWhitespace u (List.mem_of_mem_tail hu)
  have hversion := r.version.isWord
  rw [readLine, Requirement.text, Requirement.dep, hpath, isPrefixOf_require hhead, if_pos rfl,
    drop_require hhead]
  cases hcomment : r.trailing.comment with
  | none =>
      -- there is no version left
      have hline : trim (r.gap.val.tail ++ (r.version.val ++ r.trailing.text)) = r.version.val := by
        rw [trim_append_trimEnd hblanks hversion.1 hversion.head? hversion.getLast?,
          trimEnd_eq_nil_iff.mpr (r.trailing.isWhitespace_iff.mpr hcomment), List.append_nil]
      rw [parseDependency_of_notMem (by rw [hline]; exact space_notMem_of_isWord hversion)]
      intro h
      exact hversion.1 (DependencyLibrary.mk.inj h).2.symm
  | some comment =>
      have htext : r.trailing.text = r.trailing.blanks.val ++ (slashes ++ comment.val) := by
        rw [Trailing.text, hcomment]
        rfl
      rw [htext]
      by_cases hspace : space ∈ r.trailing.blanks.val
      · -- the comment is the version
        rw [parseDependency_of_words hblanks hversion r.trailing.blanks.isWhitespace hspace
          slashes_isWord]
        intro h
        apply r.version.property.2.1
        rw [← (DependencyLibrary.mk.inj h).2]
        rfl
      · -- the name has slashes
        have hlast : ∀ u ∈ (r.version.val ++ (r.trailing.blanks.val ++ slashes)).getLast?,
            isWhitespace u = false := by
          rw [← List.append_assoc]
          exact slashes_isWord.getLast?_append _
        have hnotMem : space ∉ r.version.val ++ (r.trailing.blanks.val ++ slashes) := by
          simp [space_notMem_of_isWord hversion, hspace, space_notMem_of_isWord slashes_isWord]
        obtain ⟨x, hx⟩ := name_of_start (t := comment.val) hblanks (by simp [hversion.1])
          (hversion.head?_append _) hlast hnotMem
        rw [List.append_assoc, List.append_assoc] at hx
        intro h
        rw [h] at hx
        have hmem : (0x002f : UInt16) ∈ requireText := by
          rw [show requireText = _ from hx]
          simp [slashes, ofString]
        exact absurd hmem (by decide)

/-- The scanner reads a module and its version on a readable line. -/
theorem readLine_entry_iff {indent : Blanks} {r : Requirement} :
    readLine (requireLine (.entry indent r)).1 = r.dep ↔
      (BlockLine.entry indent r).Readable := by
  have hpath := r.path.isWord
  have hversion := r.version.isWord
  show readLine (indent.val ++ r.text) = r.dep ↔ _ ∧ _ ∧ _
  cases hfront : (ofString "require ").isPrefixOf (indent.val ++ r.text) with
  | true =>
      obtain ⟨hindent, hfirst, hhead⟩ := require_of_isPrefixOf indent.isWhitespace hpath
        r.gap.property.1 r.gap.isWhitespace hfront
      rw [hindent, List.nil_append]
      simp [readLine_ne_of_require hfirst hhead, hfirst, hhead]
  | false =>
      have hnot : ¬ (indent.val = [] ∧ r.path.val = requireText ∧
          r.gap.val.head? = some space) := by
        rintro ⟨hindent, hfirst, hhead⟩
        rw [hindent, List.nil_append, Requirement.text, hfirst, isPrefixOf_require hhead] at hfront
        cases hfront
      rw [readLine_eq hfront, Requirement.text, Requirement.dep]
      by_cases hspace : space ∈ r.gap.val
      · rw [parseDependency_of_words indent.isWhitespace hpath r.gap.isWhitespace hspace hversion,
          ← r.trailing.isWhitespace_iff, ← trimEnd_eq_nil_iff]
        simp [hspace, hnot]
      · have hlast : ∀ u ∈ (r.path.val ++ (r.gap.val ++ r.version.val)).getLast?,
            isWhitespace u = false := by
          rw [← List.append_assoc]
          exact hversion.getLast?_append _
        have hnotMem : space ∉ r.path.val ++ (r.gap.val ++ r.version.val) := by
          simp [space_notMem_of_isWord hpath, hspace, space_notMem_of_isWord hversion]
        obtain ⟨x, hx⟩ := name_of_start (t := r.trailing.text) indent.isWhitespace
          (by simp [hpath.1]) (hpath.head?_append _) hlast hnotMem
        simp only [hspace, false_and, iff_false]
        intro h
        rw [List.append_assoc, List.append_assoc] at hx
        rw [h] at hx
        have hlength := congrArg List.length hx
        have hgap := List.length_pos_iff.mpr r.gap.property.1
        simp only [List.length_append] at hlength
        omega

end GoMod

end KhulnasoftLsp
