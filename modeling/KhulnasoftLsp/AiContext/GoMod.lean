import KhulnasoftLsp.AiContext.GoModFile

/-!
# Scanning a `go.mod` file

The scanner reads the blocks of `require`, of which every line is a module and its version and
nothing else. It has no state for a single line, so a directive in one line opens a section, and
what follows is read as modules.

`Exact` goes over the lines of a file with the state of the scanner, and each part of a file keeps
it if and only if it is readable. `Honest` says that what the scanner reads on other lines is no
module, so that the list of what it returns is enough to see what it has read.
-/

namespace KhulnasoftLsp

open JsString DependencyScanner

namespace GoMod

/-! ## What the scanner reads -/

def BlockLine.IsBlank {α : Type} : BlockLine α → Prop
  | blank _ => True
  | _ => False

def BlockLine.IsEntry {α : Type} : BlockLine α → Prop
  | entry _ _ => True
  | _ => False

/-- No entry of another block begins with `require` at the start of its line, or there is nothing
but blank lines behind it, and the line `)`. -/
def Quiet (closing : JsString) : List (BlockLine EntryWords) → Prop
  | [] => True
  | line :: lines =>
    if goModRules.startCondition (entryLine line).1 then
      (∀ later ∈ lines, later.IsBlank) ∧ closing = ofString ")"
    else Quiet closing lines

/-- Modules are required in blocks only, which begin at the start of a line, whose lines are
readable and whose last line is `)`. -/
def Item.Readable : Item → Prop
  | require _ _ _ => False
  | requireBlock block =>
    if block.indent.val = [] then
      (∀ line ∈ block.lines, line.Readable) ∧ block.closing.1 = ofString ")"
    else ∀ line ∈ block.lines, ¬ line.IsEntry
  | directiveBlock _ block => Quiet block.closing.1 block.lines
  | _ => True

/-- The scanner reads the modules that are required, each on its own line, and nothing on any other
line. -/
structure ScannedExactly (f : File) : Prop where
  result : scanGoMod f.print = f.required
  nothingElse : addedBy goModRules false (f.lines.map (·.1)) = f.lines.map (·.2)

/-! ## The whole file -/

section Lines

variable {lines : List AnnotatedLine}

/-- A section ends with `)` only. -/
theorem exact_inSection {line : AnnotatedLine} (hne : line.1 ≠ ofString ")") :
    Exact goModRules true (line :: lines) ↔
      lineAdds goModRules true line.1 = line.2 ∧ Exact goModRules true lines := by
  show _ ∧ Exact goModRules (!(line.1 == ofString ")")) lines ↔ _
  rw [beq_false_of_ne hne]
  rfl

theorem exact_closing {α : Type} (b : Block α) :
    Exact goModRules true (b.closing :: lines) ↔
      b.closing.1 = ofString ")" ∧ Exact goModRules false lines := by
  show lineAdds goModRules true b.closing.1 = none ∧
    Exact goModRules (!(b.closing.1 == ofString ")")) lines ↔ _
  rw [lineAdds_closing_iff]
  apply and_congr_right
  intro h
  rw [h]
  rfl

theorem exact_closing_outside {α : Type} (b : Block α) :
    Exact goModRules false (b.closing :: lines) ↔ Exact goModRules false lines :=
  exact_outside (startCondition_eq_false (head?_closing b))

/-- A blank line changes nothing. -/
theorem exact_blank (inSection : Bool) (b : Blanks) :
    Exact goModRules inSection ((b.val, none) :: lines) ↔ Exact goModRules inSection lines := by
  cases inSection with
  | false => exact exact_outside (startCondition_eq_false (head?_blank b))
  | true =>
      have hne : b.val ≠ ofString ")" := by
        intro h
        have hpar := b.isWhitespace 0x0029 (by rw [h]; decide)
        cases hpar
      rw [exact_inSection hne, lineAdds_blank, and_iff_right rfl]

theorem exact_comment_outside (indent : Blanks) (text : CommentText) :
    Exact goModRules false (commentLine indent text :: lines) ↔ Exact goModRules false lines :=
  exact_outside (startCondition_eq_false (head?_commentLine indent text))

theorem not_exact_comment (indent : Blanks) (text : CommentText) :
    ¬ Exact goModRules true (commentLine indent text :: lines) := by
  rintro ⟨h, -⟩
  exact lineAdds_commentLine indent text h

end Lines

section Blocks

variable {lines : List AnnotatedLine}

theorem exact_requireLine {line : BlockLine Requirement} :
    Exact goModRules true (requireLine line :: lines) ↔
      line.Readable ∧ Exact goModRules true lines := by
  cases line with
  | entry indent r =>
      have hne : (requireLine (.entry indent r)).1 ≠ ofString ")" :=
        ne_closing_of_words r.path.property.1 r.gap.property.1
      have hname : r.dep.name ≠ [] := r.path.property.1
      rw [exact_inSection hne, ← readLine_entry_iff]
      apply and_congr_left
      intro _
      show lineAdds goModRules true _ = some r.dep ↔ _
      rw [lineAdds_eq_some_iff, and_iff_right hne, and_iff_left hname]
  | comment indent text => exact iff_of_false (not_exact_comment indent text) fun h => h.1
  | blank b =>
      show Exact goModRules true ((b.val, none) :: lines) ↔ True ∧ _
      rw [exact_blank, and_iff_right trivial]

theorem exact_requireLines {block : List (BlockLine Requirement)} :
    Exact goModRules true (block.map requireLine ++ lines) ↔
      (∀ line ∈ block, line.Readable) ∧ Exact goModRules true lines := by
  induction block with
  | nil => simp
  | cons line block ih =>
      rw [List.map_cons, List.cons_append, exact_requireLine, ih, List.forall_mem_cons, and_assoc]

/-- A block of `require` that the scanner does not see. -/
theorem exact_requireLines_outside {block : List (BlockLine Requirement)} :
    Exact goModRules false (block.map requireLine ++ lines) ↔
      (∀ line ∈ block, ¬ line.IsEntry) ∧ Exact goModRules false lines := by
  induction block with
  | nil => simp
  | cons line block ih =>
      rw [List.map_cons, List.cons_append, List.forall_mem_cons]
      cases line with
      | entry indent r =>
          apply iff_of_false not_exact_of_outside
          intro h
          exact h.1.1 trivial
      | comment indent text =>
          show Exact goModRules false (commentLine indent text :: _) ↔ (¬ False ∧ _) ∧ _
          rw [exact_comment_outside, ih, and_iff_right not_false]
      | blank b =>
          show Exact goModRules false ((b.val, none) :: _) ↔ (¬ False ∧ _) ∧ _
          rw [exact_blank, ih, and_iff_right not_false]

/-- In another block, in a section. -/
theorem exact_entryLines_inSection {block : List (BlockLine EntryWords)} :
    Exact goModRules true (block.map entryLine ++ lines) ↔
      (∀ line ∈ block, line.IsBlank) ∧ Exact goModRules true lines := by
  induction block with
  | nil => simp
  | cons line block ih =>
      rw [List.map_cons, List.cons_append, List.forall_mem_cons]
      cases line with
      | entry indent words =>
          apply iff_of_false
          · intro h
            exact lineAdds_entryLine indent words h.1
          · exact fun h => h.1.1
      | comment indent text => exact iff_of_false (not_exact_comment indent text) fun h => h.1.1
      | blank b =>
          show Exact goModRules true ((b.val, none) :: _) ↔ (True ∧ _) ∧ _
          rw [exact_blank, ih, and_iff_right trivial]

theorem exact_entryLines {b : Block EntryWords} {block : List (BlockLine EntryWords)} :
    Exact goModRules false (block.map entryLine ++ b.closing :: lines) ↔
      Quiet b.closing.1 block ∧ Exact goModRules false lines := by
  induction block with
  | nil =>
      show Exact goModRules false (b.closing :: lines) ↔ True ∧ _
      rw [exact_closing_outside, and_iff_right trivial]
  | cons line block ih =>
      have hnone : entryLine line = ((entryLine line).1, none) := by cases line <;> rfl
      rw [List.map_cons, List.cons_append, Quiet, hnone]
      split
      · rename_i hstart
        rw [exact_opening hstart, exact_entryLines_inSection, exact_closing, and_assoc]
      · rename_i hstart
        rw [exact_outside (Bool.eq_false_iff.mpr hstart), ih]

end Blocks

section Items

variable {lines : List AnnotatedLine}

/-- No keyword begins as `require` does. -/
theorem isPrefixOf_keyword (w : JsString) (indent : Blanks) (keyword : Keyword) (t : JsString) :
    (ofString "req" ++ w).isPrefixOf (indent.val ++ (keyword.text ++ t)) = false := by
  by_cases hindent : indent.val = []
  · rw [hindent]
    cases keyword <;> rfl
  · exact isPrefixOf_eq_false (head?_indented indent.isWhitespace hindent _)

theorem startCondition_keyword (indent : Blanks) (keyword : Keyword) (t : JsString) :
    goModRules.startCondition (indent.val ++ (keyword.text ++ t)) = false :=
  isPrefixOf_keyword (ofString "uire") indent keyword t

/-- A block of `require` is seen at the start of a line. -/
theorem startCondition_requireBlock (block : Block Requirement) :
    goModRules.startCondition (block.opening requireText).1 = true ↔ block.indent.val = [] := by
  constructor
  · intro h
    by_contra hne
    have hhead : (block.opening requireText).1.head? ≠ some 0x0072 :=
      head?_indented block.indent.isWhitespace hne _
    rw [startCondition_eq_false hhead] at h
    cases h
  · intro h
    show requireText.isPrefixOf (block.indent.val ++ (requireText ++ _)) = true
    rw [h, List.nil_append, List.isPrefixOf_iff_prefix]
    exact List.prefix_append _ _

theorem exact_requireBlock (block : Block Requirement) :
    Exact goModRules false (block.allLines requireText requireLine ++ lines) ↔
      (Item.requireBlock block).Readable ∧ Exact goModRules false lines := by
  have hopening : block.opening requireText = ((block.opening requireText).1, none) := rfl
  rw [Block.allLines, List.cons_append, List.append_assoc, List.singleton_append, Item.Readable,
    hopening]
  split
  · rename_i hindent
    rw [exact_opening ((startCondition_requireBlock block).mpr hindent),
      exact_requireLines, exact_closing, and_assoc]
  · rename_i hindent
    have hstart := mt (startCondition_requireBlock block).mp hindent
    rw [exact_outside (Bool.eq_false_iff.mpr hstart), exact_requireLines_outside,
      exact_closing_outside]

theorem exact_item (item : Item) :
    Exact goModRules false (item.lines ++ lines) ↔
      item.Readable ∧ Exact goModRules false lines := by
  cases item with
  | directive indent keyword gap words =>
      show Exact goModRules false (_ :: lines) ↔ True ∧ _
      rw [exact_outside (startCondition_keyword indent keyword _), and_iff_right trivial]
  | directiveBlock keyword block =>
      show Exact goModRules false (block.allLines keyword.text entryLine ++ lines) ↔ Quiet _ _ ∧ _
      rw [Block.allLines, List.cons_append, List.append_assoc, List.singleton_append, Block.opening,
        exact_outside (startCondition_keyword block.indent keyword _), exact_entryLines]
  | require indent gap r => exact iff_of_false not_exact_of_outside fun h => h.1
  | requireBlock block => exact exact_requireBlock block
  | comment indent text =>
      show Exact goModRules false (commentLine indent text :: lines) ↔ True ∧ _
      rw [exact_comment_outside, and_iff_right trivial]
  | blank b =>
      show Exact goModRules false ((b.val, none) :: lines) ↔ True ∧ _
      rw [exact_blank, and_iff_right trivial]

theorem exact_file (f : File) : Exact goModRules false f.lines ↔ ∀ item ∈ f, item.Readable := by
  induction f with
  | nil => exact iff_of_true trivial fun item h => absurd h List.not_mem_nil
  | cons item f ih =>
      show Exact goModRules false (item.lines ++ File.lines f) ↔ _
      rw [exact_item, ih, List.forall_mem_cons]

end Items

/-! ## The text of the file -/

theorem Gap.newline_notMem (g : Gap) : 0x000a ∉ g.val := by
  intro h
  exact absurd (g.property.2 _ h) (by decide)

theorem newline_notMem_of_isWord {w : JsString} (h : IsWord w) : 0x000a ∉ w := by
  intro hmem
  exact absurd (h.2 _ hmem) (by decide)

theorem Trailing.newline_notMem (t : Trailing) : 0x000a ∉ t.text := by
  cases hcomment : t.comment with
  | none => simp [Trailing.text, hcomment, t.blanks.newline_notMem]
  | some comment =>
      simp [Trailing.text, hcomment, t.blanks.newline_notMem, comment.property,
        newline_notMem_of_isWord slashes_isWord]

theorem Requirement.newline_notMem (r : Requirement) : 0x000a ∉ r.text := by
  simp [Requirement.text, newline_notMem_of_isWord r.path.isWord, r.gap.newline_notMem,
    newline_notMem_of_isWord r.version.isWord, r.trailing.newline_notMem]

theorem Words.newline_notMem (w : Words) : 0x000a ∉ w.text := by
  simp only [Words.text, List.mem_append, List.mem_flatMap, not_or, not_exists, not_and]
  refine ⟨newline_notMem_of_isWord w.first.property, ?_, w.trailing.newline_notMem⟩
  intro m _
  exact ⟨m.1.newline_notMem, newline_notMem_of_isWord m.2.property⟩

theorem newline_notMem_commentLine (indent : Blanks) (text : CommentText) :
    0x000a ∉ (commentLine indent text).1 := by
  simp [commentLine, indent.newline_notMem, newline_notMem_of_isWord slashes_isWord, text.property]

theorem Keyword.newline_notMem (keyword : Keyword) : 0x000a ∉ keyword.text := by
  cases keyword <;> decide

theorem BlockLine.newline_notMem {α : Type} {print : α → JsString}
    {dep : α → Option DependencyLibrary} (hprint : ∀ a, 0x000a ∉ print a) (line : BlockLine α) :
    0x000a ∉ (line.line print dep).1 := by
  cases line with
  | entry indent a => simp [BlockLine.line, indent.newline_notMem, hprint a]
  | comment indent text => exact newline_notMem_commentLine indent text
  | blank b => exact b.newline_notMem

theorem Block.newline_notMem {α : Type} {keyword : JsString} {print : BlockLine α → AnnotatedLine}
    (hkeyword : 0x000a ∉ keyword) (hprint : ∀ line, 0x000a ∉ (print line).1) (b : Block α) :
    ∀ line ∈ b.allLines keyword print, 0x000a ∉ line.1 := by
  have hopen : (0x000a : UInt16) ∉ ofString "(" := by decide
  have hclose : (0x000a : UInt16) ∉ ofString ")" := by decide
  intro line hline
  rw [Block.allLines, List.mem_cons, List.mem_append, List.mem_map, List.mem_singleton] at hline
  obtain rfl | ⟨a, -, rfl⟩ | rfl := hline
  · simp [Block.opening, b.indent.newline_notMem, hkeyword, b.gap.newline_notMem, hopen,
      b.openTrailing.newline_notMem]
  · exact hprint a
  · simp [Block.closing, b.closeIndent.newline_notMem, hclose, b.closeTrailing.newline_notMem]

theorem File.newline_notMem (f : File) : ∀ line ∈ f.lines, 0x000a ∉ line.1 := by
  have hrequire : (0x000a : UInt16) ∉ requireText := by decide
  intro line hline
  obtain ⟨item, -, hitem⟩ := List.mem_flatMap.mp hline
  cases item with
  | directive indent keyword gap words =>
      obtain rfl := List.mem_singleton.mp hitem
      simp [indent.newline_notMem, keyword.newline_notMem, gap.newline_notMem, words.newline_notMem]
  | directiveBlock keyword block =>
      exact block.newline_notMem keyword.newline_notMem
        (BlockLine.newline_notMem fun words => words.val.newline_notMem) line hitem
  | require indent gap r =>
      obtain rfl := List.mem_singleton.mp hitem
      simp [indent.newline_notMem, hrequire, gap.newline_notMem, r.newline_notMem]
  | requireBlock block =>
      exact block.newline_notMem hrequire (BlockLine.newline_notMem Requirement.newline_notMem)
        line hitem
  | comment indent text =>
      obtain rfl := List.mem_singleton.mp hitem
      exact newline_notMem_commentLine indent text
  | blank b =>
      obtain rfl := List.mem_singleton.mp hitem
      exact b.newline_notMem

/-- The scanner goes over the lines that were printed. -/
theorem scanGoMod_print (f : File) :
    scanGoMod f.print = (addedBy goModRules false (f.lines.map (·.1))).reduceOption :=
  scanBySection_print f.newline_notMem

/-! ## The list alone

A module that is lost can only be made up for by a line that is taken for one. -/

/-- The name of a module, which is none of the keywords. -/
def IsModuleName (name : JsString) : Prop :=
  (∀ u ∈ name, isTokenChar u = true) ∧ name.head? ≠ some 0x002f ∧ name ≠ requireText ∧
    ∀ keyword : Keyword, name ≠ keyword.text

/-- What a line adds on which nothing is required, is no module. -/
abbrev Honest : Bool → List AnnotatedLine → Prop :=
  DependencyScanner.Honest goModRules fun dep => IsModuleName dep.name

/-- What a line adds is no module. -/
def Forges (line : JsString) : Prop :=
  ∃ dep, lineAdds goModRules true line = some dep ∧ ¬ IsModuleName dep.name

theorem forges_of_start {line start x : JsString} {u : UInt16} (hne : line ≠ ofString ")")
    (hname : (readLine line).name = start ++ x) (hmem : u ∈ start)
    (hu : isTokenChar u = false) : Forges line := by
  refine ⟨readLine line, ?_, ?_⟩
  · rw [lineAdds_eq_some_iff, hname]
    refine ⟨hne, rfl, ?_⟩
    intro h
    rw [(List.append_eq_nil_iff.mp h).1] at hmem
    cases hmem
  · intro h
    have hchar := h.1 u (by rw [hname]; exact List.mem_append_left x hmem)
    rw [hu] at hchar
    cases hchar

/-- A line that begins with a keyword. -/
theorem forges_of_keyword {a v g w t : JsString} {u : UInt16}
    (ha : ∀ u ∈ a, isWhitespace u = true) (hv : IsWord v)
    (hkeyword : v = requireText ∨ ∃ keyword : Keyword, v = keyword.text)
    (hg : ∀ u ∈ g, isWhitespace u = true) (hw : IsWord w) (hmem : u ∈ g ++ w)
    (hu : isTokenChar u = false)
    (hfront : (ofString "require ").isPrefixOf (a ++ (v ++ (g ++ (w ++ t)))) = false) :
    Forges (a ++ (v ++ (g ++ (w ++ t)))) := by
  have hne : a ++ (v ++ (g ++ (w ++ t))) ≠ ofString ")" := by
    intro h
    have hlength := congrArg List.length h
    have hone : (ofString ")").length = 1 := rfl
    have hvPos := List.length_pos_iff.mpr hv.1
    have hwPos := List.length_pos_iff.mpr hw.1
    simp only [List.length_append] at hlength
    omega
  by_cases hspace : space ∈ g
  · refine ⟨⟨v, w ++ trimEnd t⟩, ?_, ?_⟩
    · rw [lineAdds_eq_some_iff, readLine_eq hfront]
      exact ⟨hne, parseDependency_of_words ha hv hg hspace hw, hv.1⟩
    · rintro ⟨-, -, hrequire, hother⟩
      obtain h | ⟨keyword, h⟩ := hkeyword
      · exact hrequire h
      · exact hother keyword h
  · have hlast : ∀ u ∈ (v ++ (g ++ w)).getLast?, isWhitespace u = false := by
      rw [← List.append_assoc]
      exact hw.getLast?_append _
    have hnotMem : space ∉ v ++ (g ++ w) := by
      simp [space_notMem_of_isWord hv, hspace, space_notMem_of_isWord hw]
    obtain ⟨x, hx⟩ := name_of_start (t := t) ha (by simp [hv.1]) (hv.head?_append _) hlast hnotMem
    rw [← readLine_eq (by simpa using hfront), List.append_assoc v, List.append_assoc g] at hx
    exact forges_of_start hne hx (List.mem_append_right v hmem) hu

theorem Keyword.isWord (keyword : Keyword) : IsWord keyword.text := by
  cases keyword <;> exact isWord_of_all (by decide) rfl

theorem parenthesis_isWord : IsWord (ofString "(") :=
  isWord_of_all (by decide) rfl

theorem require_isPrefixOf_keyword (indent : Blanks) (keyword : Keyword) (t : JsString) :
    (ofString "require ").isPrefixOf (indent.val ++ (keyword.text ++ t)) = false :=
  isPrefixOf_keyword (ofString "uire ") indent keyword t

theorem forges_directive (indent : Blanks) (keyword : Keyword) (gap : Gap) (words : Words) :
    Forges (indent.val ++ (keyword.text ++ (gap.val ++ words.text))) := by
  obtain ⟨u, us, hu⟩ := List.exists_cons_of_ne_nil gap.property.1
  have hmem : u ∈ gap.val := by
    rw [hu]
    exact List.mem_cons_self
  exact forges_of_keyword indent.isWhitespace keyword.isWord (.inr ⟨keyword, rfl⟩) gap.isWhitespace
    words.first.property (List.mem_append_left _ hmem)
    (by simp [isTokenChar, gap.isWhitespace u hmem]) (require_isPrefixOf_keyword indent keyword _)

theorem forges_opening {α : Type} (keyword : Keyword) (b : Block α) :
    Forges (b.opening keyword.text).1 :=
  forges_of_keyword b.indent.isWhitespace keyword.isWord (.inr ⟨keyword, rfl⟩)
    b.gap.isWhitespace parenthesis_isWord (List.mem_append_right _ List.mem_cons_self) rfl
    (require_isPrefixOf_keyword b.indent keyword _)

theorem forges_requireOpening (b : Block Requirement) : Forges (b.opening requireText).1 := by
  have hword : IsWord requireText := isWord_of_all (by decide) rfl
  have hparenthesis := parenthesis_isWord
  show Forges (b.indent.val ++ (requireText ++ (b.gap.val ++ (ofString "(" ++ _))))
  cases hfront : (ofString "require ").isPrefixOf
      (b.indent.val ++ (requireText ++ (b.gap.val ++ (ofString "(" ++ b.openTrailing.text)))) with
  | false =>
      exact forges_of_keyword b.indent.isWhitespace hword (.inl rfl) b.gap.isWhitespace hparenthesis
        (List.mem_append_right _ List.mem_cons_self) rfl hfront
  | true =>
      by_cases hgap : b.gap.val = []
      · by_cases hindent : b.indent.val = []
        · rw [hindent, hgap] at hfront
          cases hfront
        · have hhead := head?_indented b.indent.isWhitespace hindent
            (requireText ++ (b.gap.val ++ (ofString "(" ++ b.openTrailing.text)))
          rw [show ofString "require " = 0x0072 :: ofString "equire " from rfl,
            isPrefixOf_eq_false hhead] at hfront
          cases hfront
      · obtain ⟨hindent, -, hhead⟩ := require_of_isPrefixOf b.indent.isWhitespace hword hgap
          b.gap.isWhitespace hfront
        obtain ⟨x, hx⟩ := name_of_start (t := b.openTrailing.text)
          (fun u hu => b.gap.isWhitespace u (List.mem_of_mem_tail hu)) hparenthesis.1
          hparenthesis.head? hparenthesis.getLast? (space_notMem_of_isWord hparenthesis)
        have hread : (readLine (b.indent.val ++ (requireText ++ (b.gap.val ++
            (ofString "(" ++ b.openTrailing.text))))).name = ofString "(" ++ x := by
          rw [readLine, hfront, if_pos rfl, hindent, List.nil_append, drop_require hhead, hx]
        have hne : b.indent.val ++ (requireText ++ (b.gap.val ++
            (ofString "(" ++ b.openTrailing.text))) ≠ ofString ")" := by
          rw [← List.append_nil (ofString "(" ++ b.openTrailing.text)]
          exact ne_closing_of_words hword.1 hgap
        exact forges_of_start hne hread List.mem_cons_self rfl

theorem forges_comment (indent : Blanks) (text : CommentText) :
    Forges (commentLine indent text).1 := by
  obtain ⟨dep, hdep⟩ := Option.ne_none_iff_exists'.mp (lineAdds_commentLine indent text)
  refine ⟨dep, hdep, ?_⟩
  obtain ⟨-, rfl, -⟩ := lineAdds_eq_some_iff.mp hdep
  obtain ⟨x, hx⟩ := name_of_start (t := text.val) indent.isWhitespace slashes_isWord.1
    slashes_isWord.head? slashes_isWord.getLast? (space_notMem_of_isWord slashes_isWord)
  rw [readLine_of_head (head?_commentLine indent text), commentLine, hx]
  intro h
  exact h.2.1 rfl

theorem forges_closing {α : Type} (b : Block α) (h : b.closing.1 ≠ ofString ")") :
    Forges b.closing.1 := by
  have hword : IsWord (ofString ")") := isWord_of_all (by decide) rfl
  obtain ⟨x, hx⟩ := name_of_start (t := b.closeTrailing.text) b.closeIndent.isWhitespace hword.1
    hword.head? hword.getLast? (space_notMem_of_isWord hword)
  have hread : (readLine b.closing.1).name = ofString ")" ++ x := by
    rw [readLine_of_head (head?_closing b)]
    exact hx
  have hmem : 0x0029 ∈ ofString ")" := List.mem_cons_self
  exact forges_of_start h hread hmem rfl

section Honest

variable {lines : List AnnotatedLine}

theorem honest_of_forges {line : JsString} (h : Forges line) :
    Honest true ((line, none) :: lines) := .inr h

theorem honest_outside {line : JsString} (hstart : goModRules.startCondition line = false)
    (h : Honest false lines) : Honest false ((line, none) :: lines) := by
  refine .inl ⟨rfl, ?_⟩
  show Honest (goModRules.startCondition line) lines
  rwa [hstart]

theorem honest_required {inSection : Bool} {line : JsString} {dep : DependencyLibrary}
    (h : ∀ inSection, Honest inSection lines) : Honest inSection ((line, some dep) :: lines) :=
  h _

theorem honest_line {inSection : Bool} {line : JsString}
    (hstart : goModRules.startCondition line = false) (hforges : Forges line)
    (h : ∀ inSection, Honest inSection lines) : Honest inSection ((line, none) :: lines) := by
  cases inSection with
  | false => exact honest_outside hstart (h false)
  | true => exact honest_of_forges hforges

theorem honest_blank {inSection : Bool} (b : Blanks) (h : ∀ inSection, Honest inSection lines) :
    Honest inSection ((b.val, none) :: lines) := by
  refine .inl ⟨?_, h _⟩
  cases inSection with
  | false => rfl
  | true => exact lineAdds_blank b

theorem honest_closing {α : Type} {inSection : Bool} (b : Block α)
    (h : ∀ inSection, Honest inSection lines) : Honest inSection (b.closing :: lines) := by
  cases inSection with
  | false => exact honest_outside (startCondition_eq_false (head?_closing b)) (h false)
  | true =>
      by_cases hclosing : b.closing.1 = ofString ")"
      · exact .inl ⟨(lineAdds_closing_iff b).mpr hclosing, h _⟩
      · exact honest_of_forges (forges_closing b hclosing)

theorem honest_requireLines {inSection : Bool} {block : List (BlockLine Requirement)}
    (h : ∀ inSection, Honest inSection lines) :
    Honest inSection (block.map requireLine ++ lines) := by
  induction block generalizing inSection with
  | nil => exact h inSection
  | cons line block ih =>
      have hrest : ∀ inSection, Honest inSection (block.map requireLine ++ lines) := fun _ => ih
      cases line with
      | entry indent r => exact honest_required hrest
      | comment indent text =>
          exact honest_line (startCondition_eq_false (head?_commentLine indent text))
            (forges_comment indent text) hrest
      | blank b => exact honest_blank b hrest

theorem honest_entryLines {block : List (BlockLine EntryWords)}
    (hblock : ∀ line ∈ block, goModRules.startCondition (entryLine line).1 = false)
    (h : Honest false lines) : Honest false (block.map entryLine ++ lines) := by
  induction block with
  | nil => exact h
  | cons line block ih =>
      obtain ⟨hline, hblock⟩ := List.forall_mem_cons.mp hblock
      have hnone : entryLine line = ((entryLine line).1, none) := by cases line <;> rfl
      rw [List.map_cons, List.cons_append, hnone]
      exact honest_outside hline (ih hblock)

end Honest

/-- No module is called as a directive is, and no line of another block begins with `require`. -/
def Item.Plain : Item → Prop
  | require _ _ r => IsModuleName r.path.val
  | requireBlock block =>
    ∀ line ∈ block.lines, ∀ dep ∈ (requireLine line).2, IsModuleName dep.name
  | directiveBlock _ block =>
    ∀ line ∈ block.lines, goModRules.startCondition (entryLine line).1 = false
  | _ => True

theorem honest_item {lines : List AnnotatedLine} {inSection : Bool} {item : Item}
    (hplain : item.Plain) (h : ∀ inSection, Honest inSection lines) :
    Honest inSection (item.lines ++ lines) := by
  cases item with
  | directive indent keyword gap words =>
      exact honest_line (startCondition_keyword indent keyword _)
        (forges_directive indent keyword gap words) h
  | directiveBlock keyword block =>
      show Honest inSection (block.allLines keyword.text entryLine ++ lines)
      rw [Block.allLines, List.cons_append, List.append_assoc]
      cases inSection with
      | false =>
          apply honest_outside (startCondition_keyword block.indent keyword _)
          exact honest_entryLines hplain (honest_closing block h)
      | true => exact honest_of_forges (forges_opening keyword block)
  | require indent gap r => exact honest_required h
  | requireBlock block =>
      have hlines : ∀ inSection,
          Honest inSection (block.lines.map requireLine ++ ([block.closing] ++ lines)) :=
        fun _ => honest_requireLines fun _ => honest_closing block h
      show Honest inSection (block.allLines requireText requireLine ++ lines)
      rw [Block.allLines, List.cons_append, List.append_assoc]
      cases inSection with
      | false => exact .inl ⟨rfl, hlines _⟩
      | true => exact honest_of_forges (forges_requireOpening block)
  | comment indent text =>
      exact honest_line (startCondition_eq_false (head?_commentLine indent text))
        (forges_comment indent text) h
  | blank b => exact honest_blank b h

theorem honest_file {f : File} (hplain : ∀ item ∈ f, item.Plain) (inSection : Bool) :
    Honest inSection f.lines := by
  induction f generalizing inSection with
  | nil => exact trivial
  | cons item f ih =>
      obtain ⟨hitem, hplain⟩ := List.forall_mem_cons.mp hplain
      exact honest_item hitem (ih hplain)

theorem Block.mem_allLines {α : Type} {keyword : JsString} {print : BlockLine α → AnnotatedLine}
    {b : Block α} {line : AnnotatedLine} (h : line ∈ b.allLines keyword print) :
    line.2 = none ∨ ∃ l ∈ b.lines, line = print l := by
  rw [Block.allLines, List.mem_cons, List.mem_append, List.mem_map, List.mem_singleton] at h
  obtain rfl | ⟨l, hl, rfl⟩ | rfl := h
  · exact .inl rfl
  · exact .inr ⟨l, hl, rfl⟩
  · exact .inl rfl

theorem isModuleName_of_required {f : File} (hplain : ∀ item ∈ f, item.Plain) :
    ∀ dep ∈ f.required, IsModuleName dep.name := by
  intro dep hdep
  obtain ⟨line, hline, hdepLine⟩ := List.mem_map.mp (List.reduceOption_mem_iff.mp hdep)
  obtain ⟨item, hitem, hlineItem⟩ := List.mem_flatMap.mp hline
  have hitemPlain := hplain item hitem
  cases item with
  | directive indent keyword gap words =>
      rw [List.mem_singleton.mp hlineItem] at hdepLine
      cases hdepLine
  | directiveBlock keyword block =>
      obtain hnone | ⟨l, -, rfl⟩ := Block.mem_allLines hlineItem
      · rw [hnone] at hdepLine
        cases hdepLine
      · cases l <;> cases hdepLine
  | require indent gap r =>
      rw [List.mem_singleton.mp hlineItem] at hdepLine
      cases hdepLine
      exact hitemPlain
  | requireBlock block =>
      obtain hnone | ⟨l, hl, rfl⟩ := Block.mem_allLines hlineItem
      · rw [hnone] at hdepLine
        cases hdepLine
      · exact hitemPlain l hl dep hdepLine
  | comment indent text =>
      rw [List.mem_singleton.mp hlineItem] at hdepLine
      cases hdepLine
  | blank b =>
      rw [List.mem_singleton.mp hlineItem] at hdepLine
      cases hdepLine

/-- **The scanner reads exactly the modules that the file requires, if and only if the file requires
them in readable blocks.** In a plain file the list that it returns shows it. -/
theorem scannedExactly_iff (f : File) :
    (ScannedExactly f ↔ ∀ item ∈ f, item.Readable) ∧
      ((∀ item ∈ f, item.Plain) →
        (scanGoMod f.print = f.required ↔ ∀ item ∈ f, item.Readable)) := by
  have hexact : ScannedExactly f ↔ Exact goModRules false f.lines := by
    rw [exact_iff]
    constructor
    · exact fun h => h.nothingElse
    · intro h
      refine ⟨?_, h⟩
      rw [scanGoMod_print, h]
      rfl
  refine ⟨hexact.trans (exact_file f), ?_⟩
  intro hplain
  rw [← exact_file, ← hexact]
  constructor
  · intro h
    rw [scanGoMod_print] at h
    have hnothing : ∀ dep ∈ ([] : List DependencyLibrary), IsModuleName dep.name := by simp
    exact hexact.mpr (exact_of_reduceOption (honest_file hplain false) hnothing
      (isModuleName_of_required hplain) h).2
  · exact fun h => h.result

section Sample

def noBlanks : Blanks := Blanks.empty

def tab : Blanks := ⟨[0x0009], List.all_eq_true.mp rfl⟩

def oneSpace : Gap := ⟨[space], by decide, List.all_eq_true.mp rfl⟩

def noTrailing : Trailing := ⟨noBlanks, none⟩

def sampleRequirement : Requirement where
  path := ⟨ofString "example.com/net", by decide, by decide, List.all_eq_true.mp rfl⟩
  gap := oneSpace
  version := ⟨ofString "v0.1.0", by decide, by decide, List.all_eq_true.mp rfl⟩
  trailing := noTrailing

def sampleBlock : Block Requirement where
  indent := noBlanks
  gap := Blanks.oneSpace
  openTrailing := noTrailing
  lines := [.entry tab sampleRequirement, .blank noBlanks]
  closeIndent := noBlanks
  closeTrailing := noTrailing

def sampleComment : Item := .comment noBlanks ⟨ofString " indirect", by decide⟩

theorem scannedExactly_iff_of_sampleBlock :
    scanGoMod (File.print [.requireBlock sampleBlock, sampleComment]) =
        File.required [.requireBlock sampleBlock, sampleComment] ↔
      ∀ item ∈ [.requireBlock sampleBlock, sampleComment], item.Readable := by
  apply (scannedExactly_iff [.requireBlock sampleBlock, sampleComment]).2
  have hname : IsModuleName (ofString "example.com/net") := by
    refine ⟨List.all_eq_true.mp rfl, by decide, by decide, ?_⟩
    intro keyword
    cases keyword <;> decide
  simp [Item.Plain, sampleBlock, sampleComment, requireLine, BlockLine.line, sampleRequirement,
    Requirement.dep, hname]

/-- A module that is required in one line is lost, and a comment is read in its place. -/
theorem not_scannedExactly_of_single_line :
    scanGoMod (File.print [.require noBlanks oneSpace sampleRequirement, sampleComment]) =
        [⟨ofString "//", ofString "indirect"⟩] ∧
      File.required [.require noBlanks oneSpace sampleRequirement, sampleComment] =
        [⟨ofString "example.com/net", ofString "v0.1.0"⟩] ∧
      ¬ ScannedExactly [.require noBlanks oneSpace sampleRequirement, sampleComment] := by
  refine ⟨by decide +kernel, by decide +kernel, ?_⟩
  intro h
  exact absurd h.result (by decide +kernel)

end Sample

end GoMod

end KhulnasoftLsp
