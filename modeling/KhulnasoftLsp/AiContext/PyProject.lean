import KhulnasoftLsp.AiContext.DependencyScanner

/-!
# Scanning a `pyproject.toml` file

`scanPythonPoetry` reads the tables of dependencies of a `pyproject.toml` file. It takes an empty
line for the end of a table, and splits a line at its `=`, of which a version may have some as well.

A `File` is a sequence of tables as it is written, with its white space. Each table keeps the
scanner on the lines of the file (`Exact`) if and only if it is readable, and a table whose end the
scanner does not see is the last one.
-/

namespace KhulnasoftLsp

open JsString DependencyScanner

namespace PyProject

def quote : UInt16 := 0x0022

def equals : UInt16 := 0x003d

def bracket : UInt16 := 0x005b

/-- What is read on a line: the version of a line without `=` is `undefined`. -/
structure PoetryDependency where
  name : JsString
  version : Option JsString
  deriving DecidableEq, Repr

/-- `s.trim().replace(/"/g, '')` -/
def unquoted (s : JsString) : JsString := (trim s).filter fun u => u != quote

def readLine (line : JsString) : PoetryDependency :=
  let parts := (line.splitOn equals).map unquoted
  { name := parts.headD [], version := parts[1]? }

def poetryRules : SectionRules PoetryDependency where
  name := (·.name)
  startCondition line :=
    (ofString "[tool.poetry").isPrefixOf line && (ofString "dependencies]").isSuffixOf line
  endCondition line := line == []
  parseLine line := some (readLine line)

def scanPythonPoetry (content : JsString) : List PoetryDependency :=
  scanBySection poetryRules (lines content)

/-! ## The files -/

/-- What is between the brackets of a header. -/
structure Key where
  val : JsString
  property : 0x000a ∉ val

def isNameChar (u : UInt16) : Bool := !isWhitespace u && u != equals && u != quote

structure Name where
  val : JsString
  property : val ≠ [] ∧ val.head? ≠ some bracket ∧ ∀ u ∈ val, isNameChar u = true

/-- What is between the quotes of a version. -/
structure Version where
  val : JsString
  property : 0x000a ∉ val ∧ quote ∉ val

/-- A line `name = "version"`. -/
structure Entry where
  indent : Blanks
  name : Name
  gap : Blanks
  valueGap : Blanks
  version : Version
  trailing : Blanks

def Entry.text (e : Entry) : JsString :=
  (e.indent.val ++ (e.name.val ++ e.gap.val)) ++
    equals :: (e.valueGap.val ++ (quote :: (e.version.val ++ (quote :: e.trailing.val))))

def Entry.dep (e : Entry) : PoetryDependency := ⟨e.name.val, some e.version.val⟩

inductive TableLine where
  | entry (e : Entry)
  | blank (blanks : Blanks)

structure Table where
  key : Key
  lines : List TableLine

def Table.header (t : Table) : JsString := bracket :: (t.key.val ++ ofString "]")

/-- The tables of dependencies. -/
def Table.isPoetry (t : Table) : Bool :=
  (ofString "[tool.poetry").isPrefixOf t.header && (ofString "dependencies]").isSuffixOf t.header

def TableLine.dep? : TableLine → Option PoetryDependency
  | entry e => some e.dep
  | blank _ => none

/-- A `pyproject.toml` file. -/
structure File where
  blanks : List Blanks
  tables : List Table

/-- The dependencies of the file, in order. -/
def File.dependencies (f : File) : List PoetryDependency :=
  (f.tables.filter Table.isPoetry).flatMap fun t => t.lines.filterMap TableLine.dep?

def TableLine.text : TableLine → JsString
  | entry e => e.text
  | blank b => b.val

/-- A line, and the dependency that is on it. -/
abbrev AnnotatedLine : Type := JsString × Option PoetryDependency

def TableLine.line (isPoetry : Bool) (l : TableLine) : AnnotatedLine :=
  (l.text, if isPoetry then l.dep? else none)

def Table.allLines (t : Table) : List AnnotatedLine :=
  (t.header, none) :: t.lines.map (TableLine.line t.isPoetry)

def File.lines (f : File) : List AnnotatedLine :=
  f.blanks.map (fun b => (b.val, none)) ++ f.tables.flatMap Table.allLines

def File.print (f : File) : JsString := [0x000a].intercalate (f.lines.map (·.1))

/-! ## What the scanner reads -/

/-- The version has no `=`. -/
def TableLine.Readable : TableLine → Prop
  | entry e => equals ∉ e.version.val
  | blank _ => True

def TableLine.isEntry : TableLine → Bool
  | entry _ => true
  | blank _ => false

/-- An empty line, in which there is no white space either. -/
def TableLine.isEmpty : TableLine → Bool
  | entry _ => false
  | blank b => b.val.isEmpty

/-- No version has an `=`, and no entry is behind an empty line. -/
structure Table.Readable (t : Table) : Prop where
  versions : ∀ line ∈ t.lines, line.Readable
  entries : t.lines.Pairwise fun earlier later => earlier.isEmpty = true → later.isEntry = false

/-- The scanner does not see the end of the table. -/
def Table.staysOpen (t : Table) : Bool := t.isPoetry && !t.lines.any TableLine.isEmpty

/-- The tables of dependencies are readable, and but for the last one they have an empty line. -/
structure File.Readable (f : File) : Prop where
  tables : ∀ t ∈ f.tables, t.isPoetry = true → t.Readable
  closed : ∀ t ∈ f.tables.dropLast, t.staysOpen = false

/-! ## Single lines -/

theorem lineAdds_eq_none_iff {line : JsString} :
    lineAdds poetryRules true line = none ↔ line = [] ∨ (readLine line).name = [] := by
  rw [DependencyScanner.lineAdds_eq_none_iff]
  simp [poetryRules]

theorem lineAdds_of_name {line : JsString} (hline : line ≠ []) (hname : (readLine line).name ≠ []) :
    lineAdds poetryRules true line = some (readLine line) := by
  rw [DependencyScanner.lineAdds_eq_some_iff]
  exact ⟨beq_false_of_ne hline, rfl, hname⟩

theorem nextInSection_of_ne_nil {line : JsString} (hline : line ≠ []) :
    nextInSection poetryRules true line = true := by
  show (!(line == [])) = true
  rw [beq_false_of_ne hline]
  rfl

/-- A line that does not begin with a bracket is no header. -/
theorem startCondition_eq_false {line : JsString} (h : line.head? ≠ some bracket) :
    poetryRules.startCondition line = false := by
  apply Bool.and_eq_false_imp.mpr
  intro hfront
  obtain ⟨rest, rfl⟩ := List.isPrefixOf_iff_prefix.mp hfront
  exact absurd rfl h

theorem unquoted_of_notMem {s : JsString} (h : quote ∉ trim s) : unquoted s = trim s := by
  apply List.filter_eq_self.mpr
  intro u hu
  rw [bne_iff_ne]
  intro hquote
  rw [hquote] at hu
  exact h hu

/-- A line that begins with a bracket is read as a dependency whose name begins with it. -/
theorem name_of_bracket (s : JsString) : ∃ x, (readLine (bracket :: s)).name = bracket :: x := by
  have hunquoted : ∀ a, ∃ x, unquoted (bracket :: a) = bracket :: x := by
    intro a
    have hword : IsWord [bracket] := isWord_of_all (by decide) rfl
    have htrim := trim_append_trimEnd (a := []) (t := a) (by simp) hword.1 hword.head?
      hword.getLast?
    exact ⟨(trimEnd a).filter fun u => u != quote, by rw [unquoted]; erw [htrim]; rfl⟩
  by_cases hmem : equals ∈ s
  · obtain ⟨a, b, rfl, ha⟩ := List.eq_append_cons_of_mem hmem
    have hnotMem : equals ∉ bracket :: a := by
      rw [List.mem_cons, not_or]
      exact ⟨by decide, ha⟩
    obtain ⟨x, hx⟩ := hunquoted a
    refine ⟨x, ?_⟩
    rw [readLine, ← List.cons_append, List.splitOn_append_cons_self_of_not_mem hnotMem]
    exact hx
  · have hnotMem : equals ∉ bracket :: s := by
      rw [List.mem_cons, not_or]
      exact ⟨by decide, hmem⟩
    obtain ⟨x, hx⟩ := hunquoted s
    refine ⟨x, ?_⟩
    rw [readLine, List.splitOn_eq_singleton hnotMem]
    exact hx

/-! ## Entries -/

section Entries

theorem isNameChar_iff {u : UInt16} :
    isNameChar u = true ↔ isWhitespace u = false ∧ u ≠ equals ∧ u ≠ quote := by
  simp [isNameChar, and_assoc]

theorem Name.isWord (n : Name) : IsWord n.val :=
  ⟨n.property.1, fun u hu => (isNameChar_iff.mp (n.property.2.2 u hu)).1⟩

theorem Name.equals_notMem (n : Name) : equals ∉ n.val := by
  intro h
  exact (isNameChar_iff.mp (n.property.2.2 _ h)).2.1 rfl

theorem Name.quote_notMem (n : Name) : quote ∉ n.val := by
  intro h
  exact (isNameChar_iff.mp (n.property.2.2 _ h)).2.2 rfl

theorem equals_notMem_blanks (b : Blanks) : equals ∉ b.val := by
  intro h
  exact absurd (b.isWhitespace _ h) (by decide)

theorem quote_isWord : IsWord [quote] := isWord_of_all (by decide) rfl

/-- The name is read as it is, and the version up to its first `=`. -/
theorem readLine_entry (e : Entry) :
    readLine e.text = ⟨e.name.val, some (unquoted (((e.valueGap.val ++ (quote :: (e.version.val ++
      (quote :: e.trailing.val)))).splitOn equals).headD []))⟩ := by
  have hnotMem : equals ∉ e.indent.val ++ (e.name.val ++ e.gap.val) := by
    simp [equals_notMem_blanks, e.name.equals_notMem]
  have hname : trim (e.indent.val ++ (e.name.val ++ e.gap.val)) = e.name.val := by
    rw [trim_append_trimEnd e.indent.isWhitespace e.name.isWord.1 e.name.isWord.head?
      e.name.isWord.getLast?, trimEnd_eq_nil_iff.mpr e.gap.isWhitespace, List.append_nil]
  have hunquoted : unquoted (e.indent.val ++ (e.name.val ++ e.gap.val)) = e.name.val := by
    rw [unquoted_of_notMem (by rw [hname]; exact e.name.quote_notMem), hname]
  obtain ⟨first, rest, hvalue⟩ := List.exists_cons_of_ne_nil (List.splitOn_ne_nil equals
    (e.valueGap.val ++ (quote :: (e.version.val ++ (quote :: e.trailing.val)))))
  rw [readLine, Entry.text, List.splitOn_append_cons_self_of_not_mem hnotMem, hvalue]
  simp [hunquoted]

/-- A text in quotes is read as it is. -/
theorem unquoted_quoted {s : JsString} (hs : quote ∉ s) (gap trailing : Blanks) :
    unquoted (gap.val ++ (quote :: (s ++ (quote :: trailing.val)))) = s := by
  have htrim : trim (gap.val ++ ((quote :: (s ++ [quote])) ++ trailing.val)) =
      quote :: (s ++ [quote]) := by
    have hhead : ∀ u ∈ (quote :: (s ++ [quote])).head?, isWhitespace u = false :=
      quote_isWord.head?
    rw [trim_append_trimEnd gap.isWhitespace (by simp) hhead
      (quote_isWord.getLast?_append (quote :: s)), trimEnd_eq_nil_iff.mpr trailing.isWhitespace,
      List.append_nil]
  have hsplit : quote :: (s ++ (quote :: trailing.val)) =
      (quote :: (s ++ [quote])) ++ trailing.val := by simp
  have hfilter : s.filter (fun u => u != quote) = s := by
    apply List.filter_eq_self.mpr
    intro u hu
    rw [bne_iff_ne]
    rintro rfl
    exact hs hu
  rw [unquoted, hsplit, htrim]
  simp [hfilter]

/-- A text of which the second quote is missing is not longer than it was. -/
theorem length_unquoted_le (s : JsString) (gap : Blanks) :
    (unquoted (gap.val ++ (quote :: s))).length ≤ s.length := by
  have htrim : trim (gap.val ++ ([quote] ++ s)) = [quote] ++ trimEnd s :=
    trim_append_trimEnd gap.isWhitespace quote_isWord.1 quote_isWord.head? quote_isWord.getLast?
  have hle : (trimEnd s).length ≤ s.length := by
    rw [trimEnd, List.length_reverse]
    exact (List.dropWhile_suffix _).length_le.trans (List.length_reverse).le
  have hsplit : quote :: s = [quote] ++ s := rfl
  rw [unquoted, hsplit, htrim]
  calc (([quote] ++ trimEnd s).filter fun u => u != quote).length
      = ((trimEnd s).filter fun u => u != quote).length := rfl
    _ ≤ (trimEnd s).length := List.length_filter_le _ _
    _ ≤ s.length := hle

/-- A version is read as it is if and only if it has no `=`. -/
theorem readLine_entry_iff (e : Entry) :
    readLine e.text = e.dep ↔ equals ∉ e.version.val := by
  rw [readLine_entry, Entry.dep, PoetryDependency.mk.injEq, and_iff_right rfl, Option.some.injEq]
  have hgap := equals_notMem_blanks e.valueGap
  have hquote : equals ≠ quote := by decide
  constructor
  · intro h hmem
    obtain ⟨a, b, hversion, ha⟩ := List.eq_append_cons_of_mem hmem
    have hvalue : e.valueGap.val ++ (quote :: (e.version.val ++ (quote :: e.trailing.val))) =
        (e.valueGap.val ++ (quote :: a)) ++ equals :: (b ++ (quote :: e.trailing.val)) := by
      rw [hversion]
      simp
    have hnotMem : equals ∉ e.valueGap.val ++ (quote :: a) := by
      simp [hgap, hquote, ha]
    rw [hvalue, List.splitOn_append_cons_self_of_not_mem hnotMem, List.headD_cons] at h
    have hlength := length_unquoted_le a e.valueGap
    rw [h, hversion, List.length_append, List.length_cons] at hlength
    omega
  · intro h
    have hnotMem : equals ∉
        e.valueGap.val ++ (quote :: (e.version.val ++ (quote :: e.trailing.val))) := by
      simp [hgap, hquote, h, equals_notMem_blanks]
    rw [List.splitOn_eq_singleton hnotMem, List.headD_cons]
    exact unquoted_quoted e.version.property.2 e.valueGap e.trailing

theorem name_readLine_entry (e : Entry) : (readLine e.text).name = e.name.val := by
  rw [readLine_entry]

theorem Entry.text_ne_nil (e : Entry) : e.text ≠ [] := by simp [Entry.text]

/-- An entry is no header: its name does not begin with a bracket. -/
theorem startCondition_entry (e : Entry) : poetryRules.startCondition e.text = false := by
  apply startCondition_eq_false
  obtain ⟨u, us, hname⟩ := List.exists_cons_of_ne_nil e.name.property.1
  have hhead := e.name.property.2.1
  cases hindent : e.indent.val with
  | nil =>
      rw [hname] at hhead
      simpa [Entry.text, hindent, hname] using hhead
  | cons v vs =>
      have hv := e.indent.isWhitespace v (by rw [hindent]; exact List.mem_cons_self)
      intro h
      simp only [Entry.text, hindent, List.cons_append, List.head?_cons, Option.some.injEq] at h
      rw [h] at hv
      cases hv

theorem lineAdds_entry (e : Entry) :
    lineAdds poetryRules true e.text = some (readLine e.text) := by
  apply lineAdds_of_name e.text_ne_nil
  rw [name_readLine_entry]
  exact e.name.property.1

end Entries

/-! ## Headers and blank lines -/

theorem Table.header_ne_nil (t : Table) : t.header ≠ [] := List.cons_ne_nil _ _

/-- A header in a section is read as a dependency. -/
theorem lineAdds_header (t : Table) :
    ∃ dep x, lineAdds poetryRules true t.header = some dep ∧ dep.name = bracket :: x := by
  obtain ⟨x, hx⟩ := name_of_bracket (t.key.val ++ ofString "]")
  have hname : (readLine t.header).name ≠ [] := by
    rw [Table.header, hx]
    exact List.cons_ne_nil _ _
  exact ⟨_, x, lineAdds_of_name t.header_ne_nil hname, hx⟩

theorem head?_blanks (b : Blanks) : b.val.head? ≠ some bracket := by
  intro h
  exact absurd (b.isWhitespace _ (List.mem_of_head? h)) (by decide)

theorem lineAdds_blanks (inSection : Bool) (b : Blanks) :
    lineAdds poetryRules inSection b.val = none := by
  cases inSection with
  | false => rfl
  | true =>
      have htrim := trim_eq_nil_iff.mpr b.isWhitespace
      rw [lineAdds_eq_none_iff, readLine, List.splitOn_eq_singleton (equals_notMem_blanks b)]
      right
      show unquoted b.val = []
      rw [unquoted, htrim]
      rfl

theorem nextInSection_blanks (inSection : Bool) (b : Blanks) :
    nextInSection poetryRules inSection b.val = (inSection && !b.val.isEmpty) := by
  cases inSection with
  | false => exact startCondition_eq_false (head?_blanks b)
  | true =>
      show (!(b.val == [])) = _
      cases b.val <;> rfl

/-! ## Tables -/

section Tables

variable {rest : List AnnotatedLine} {items : List TableLine}

theorem exact_blanks (inSection : Bool) (b : Blanks) :
    Exact poetryRules inSection ((b.val, none) :: rest) ↔
      Exact poetryRules (inSection && !b.val.isEmpty) rest := by
  rw [Exact, nextInSection_blanks, lineAdds_blanks, and_iff_right rfl]

/-- Outside of a section only the blank lines of a table of dependencies are read rightly. -/
theorem exact_poetry_outside :
    Exact poetryRules false (items.map (TableLine.line true) ++ rest) ↔
      (∀ item ∈ items, item.isEntry = false) ∧ Exact poetryRules false rest := by
  induction items with
  | nil => simp
  | cons item items ih =>
      rw [List.map_cons, List.cons_append, List.forall_mem_cons]
      cases item with
      | entry e =>
          apply iff_of_false not_exact_of_outside
          intro h
          cases h.1.1
      | blank b =>
          show Exact poetryRules false ((b.val, none) :: _) ↔ (false = false ∧ _) ∧ _
          rw [exact_blanks, Bool.false_and, ih, and_iff_right rfl]

theorem exact_other_outside :
    Exact poetryRules false (items.map (TableLine.line false) ++ rest) ↔
      Exact poetryRules false rest := by
  induction items with
  | nil => rfl
  | cons item items ih =>
      rw [List.map_cons, List.cons_append, ← ih]
      cases item with
      | entry e => exact exact_outside (startCondition_entry e)
      | blank b => exact exact_blanks false b

theorem exact_entry (e : Entry) :
    Exact poetryRules true ((e.text, some e.dep) :: rest) ↔
      equals ∉ e.version.val ∧ Exact poetryRules true rest := by
  rw [Exact, nextInSection_of_ne_nil e.text_ne_nil, lineAdds_entry, Option.some.injEq,
    readLine_entry_iff]

/-- The lines of a table of dependencies, in a section: behind an empty line it is closed. -/
theorem exact_poetry_inSection :
    Exact poetryRules true (items.map (TableLine.line true) ++ rest) ↔
      ((∀ item ∈ items, item.Readable) ∧
        items.Pairwise fun earlier later => earlier.isEmpty = true → later.isEntry = false) ∧
      Exact poetryRules (!items.any TableLine.isEmpty) rest := by
  induction items with
  | nil => simp
  | cons item items ih =>
      rw [List.map_cons, List.cons_append, List.forall_mem_cons, List.pairwise_cons,
        List.any_cons]
      cases item with
      | entry e =>
          show Exact poetryRules true ((e.text, some e.dep) :: _) ↔ _
          rw [exact_entry, ih]
          simp [TableLine.Readable, TableLine.isEmpty, and_assoc]
      | blank b =>
          show Exact poetryRules true ((b.val, none) :: _) ↔ _
          rw [exact_blanks, Bool.true_and]
          cases hb : b.val.isEmpty with
          | false =>
              rw [Bool.not_false, ih]
              simp [TableLine.Readable, TableLine.isEmpty, hb]
          | true =>
              rw [Bool.not_true, exact_poetry_outside]
              simp only [TableLine.isEmpty, hb, Bool.true_or, Bool.not_true, forall_true_left]
              apply and_congr_left
              intro _
              constructor
              · intro h
                refine ⟨⟨trivial, ?_⟩, h, ?_⟩
                · intro item hitem
                  cases item with
                  | entry e => cases h _ hitem
                  | blank _ => trivial
                · exact List.pairwise_of_forall_mem_list fun _ _ later hlater _ => h later hlater
              · exact fun h => h.2.1

theorem exact_table {t : Table} :
    Exact poetryRules false (t.allLines ++ rest) ↔
      (t.isPoetry = true → t.Readable) ∧ Exact poetryRules t.staysOpen rest := by
  rw [Table.allLines, List.cons_append, Table.staysOpen]
  cases hpoetry : t.isPoetry with
  | false =>
      rw [exact_outside hpoetry, exact_other_outside]
      simp
  | true =>
      have hreadable : t.Readable ↔ (∀ item ∈ t.lines, item.Readable) ∧
          t.lines.Pairwise fun earlier later => earlier.isEmpty = true → later.isEntry = false :=
        ⟨fun h => ⟨h.versions, h.entries⟩, fun h => ⟨h.1, h.2⟩⟩
      rw [exact_opening hpoetry, exact_poetry_inSection, ← hreadable]
      simp

/-- A header in a section is a line that is read wrongly. -/
theorem not_exact_table {t : Table} : ¬ Exact poetryRules true (t.allLines ++ rest) := by
  intro h
  obtain ⟨dep, x, hadds, -⟩ := lineAdds_header t
  have hnone : lineAdds poetryRules true t.header = none := h.1
  rw [hadds] at hnone
  cases hnone

theorem exact_tables {tables : List Table} :
    Exact poetryRules false (tables.flatMap Table.allLines) ↔
      (∀ t ∈ tables, t.isPoetry = true → t.Readable) ∧
        ∀ t ∈ tables.dropLast, t.staysOpen = false := by
  induction tables with
  | nil => simp [Exact]
  | cons t tables ih =>
      rw [List.flatMap_cons, exact_table, List.forall_mem_cons]
      cases tables with
      | nil => simp [Exact]
      | cons t' tables =>
          rw [List.dropLast_cons_cons, List.forall_mem_cons (l := (t' :: tables).dropLast)]
          cases hopen : t.staysOpen with
          | false => rw [ih, and_iff_right rfl, and_assoc]
          | true =>
              apply iff_of_false
              · intro h
                rw [List.flatMap_cons] at h
                exact not_exact_table h.2
              · intro h
                cases h.2.1

theorem exact_file (f : File) : Exact poetryRules false f.lines ↔ f.Readable := by
  have hblanks : ∀ blanks : List Blanks, Exact poetryRules false
      (blanks.map (fun b => (b.val, none)) ++ f.tables.flatMap Table.allLines) ↔
        Exact poetryRules false (f.tables.flatMap Table.allLines) := by
    intro blanks
    induction blanks with
    | nil => rfl
    | cons b blanks ih =>
        rw [List.map_cons, List.cons_append, exact_blanks, Bool.false_and, ih]
  rw [File.lines, hblanks, exact_tables]
  exact ⟨fun h => ⟨h.1, h.2⟩, fun h => ⟨h.tables, h.closed⟩⟩

end Tables

/-! ## The list alone

A header that is read as a dependency shows in the list, as no name begins with a bracket. -/

def PoetryDependency.IsNamed (dep : PoetryDependency) : Prop := dep.name.head? ≠ some bracket

section Honest

variable {rest : List AnnotatedLine} {items : List TableLine}

theorem honest_blanks {inSection : Bool} (b : Blanks)
    (h : ∀ inSection, Honest poetryRules PoetryDependency.IsNamed inSection rest) :
    Honest poetryRules PoetryDependency.IsNamed inSection ((b.val, none) :: rest) :=
  .inl ⟨lineAdds_blanks inSection b, h _⟩

theorem honest_poetry {inSection : Bool}
    (h : ∀ inSection, Honest poetryRules PoetryDependency.IsNamed inSection rest) :
    Honest poetryRules PoetryDependency.IsNamed inSection
      (items.map (TableLine.line true) ++ rest) := by
  induction items generalizing inSection with
  | nil => exact h inSection
  | cons item items ih =>
      have hitems : ∀ inSection, Honest poetryRules PoetryDependency.IsNamed inSection
          (items.map (TableLine.line true) ++ rest) := fun _ => ih
      cases item with
      | entry e => exact hitems _
      | blank b => exact honest_blanks b hitems

theorem honest_other (h : Honest poetryRules PoetryDependency.IsNamed false rest) :
    Honest poetryRules PoetryDependency.IsNamed false
      (items.map (TableLine.line false) ++ rest) := by
  induction items with
  | nil => exact h
  | cons item items ih =>
      cases item with
      | entry e =>
          refine .inl ⟨rfl, ?_⟩
          rwa [TableLine.text, nextInSection, if_neg Bool.false_ne_true, startCondition_entry]
      | blank b =>
          refine .inl ⟨rfl, ?_⟩
          rwa [TableLine.text, nextInSection_blanks]

theorem honest_table {inSection : Bool} {t : Table}
    (h : ∀ inSection, Honest poetryRules PoetryDependency.IsNamed inSection rest) :
    Honest poetryRules PoetryDependency.IsNamed inSection (t.allLines ++ rest) := by
  cases inSection with
  | true =>
      obtain ⟨dep, x, hadds, hname⟩ := lineAdds_header t
      refine .inr ⟨dep, hadds, ?_⟩
      intro hnamed
      rw [PoetryDependency.IsNamed, hname] at hnamed
      exact hnamed rfl
  | false =>
      refine .inl ⟨rfl, ?_⟩
      show Honest poetryRules PoetryDependency.IsNamed t.isPoetry
        (t.lines.map (TableLine.line t.isPoetry) ++ rest)
      cases t.isPoetry with
      | true => exact honest_poetry h
      | false => exact honest_other (h false)

theorem honest_file (f : File) :
    Honest poetryRules PoetryDependency.IsNamed false f.lines := by
  have htables : ∀ inSection, Honest poetryRules PoetryDependency.IsNamed inSection
      (f.tables.flatMap Table.allLines) := by
    induction f.tables with
    | nil => exact fun _ => trivial
    | cons t tables ih => exact fun _ => honest_table ih
  have hblanks : ∀ (blanks : List Blanks) (inSection : Bool),
      Honest poetryRules PoetryDependency.IsNamed inSection
        (blanks.map (fun b => (b.val, none)) ++ f.tables.flatMap Table.allLines) := by
    intro blanks
    induction blanks with
    | nil => exact htables
    | cons b blanks ih => exact fun _ => honest_blanks b ih
  exact hblanks f.blanks false

end Honest

/-! ## The text of the file -/

theorem newline_notMem_entry (e : Entry) : 0x000a ∉ e.text := by
  have hname : (0x000a : UInt16) ∉ e.name.val := by
    intro h
    exact absurd (e.name.isWord.2 _ h) (by decide)
  simp [Entry.text, e.indent.newline_notMem, hname, e.gap.newline_notMem,
    e.valueGap.newline_notMem, e.version.property.1, e.trailing.newline_notMem, equals, quote]

theorem newline_notMem_lines (f : File) : ∀ line ∈ f.lines, 0x000a ∉ line.1 := by
  intro line hline
  obtain hline | hline := List.mem_append.mp hline
  · obtain ⟨b, -, rfl⟩ := List.mem_map.mp hline
    exact b.newline_notMem
  · obtain ⟨t, -, htable⟩ := List.mem_flatMap.mp hline
    obtain rfl | hitem := List.mem_cons.mp htable
    · have hclose : (0x000a : UInt16) ∉ ofString "]" := by decide
      simp [Table.header, t.key.property, hclose, bracket]
    · obtain ⟨item, -, rfl⟩ := List.mem_map.mp hitem
      cases item with
      | entry e => exact newline_notMem_entry e
      | blank b => exact b.newline_notMem

/-- The dependencies of the file are what is on its lines. -/
theorem reduceOption_lines (f : File) :
    (f.lines.map (·.2)).reduceOption = f.dependencies := by
  have hitems : ∀ (isPoetry : Bool) (items : List TableLine),
      ((items.map (TableLine.line isPoetry)).map (·.2)).reduceOption =
        if isPoetry then items.filterMap TableLine.dep? else [] := by
    intro isPoetry items
    rw [List.map_map, List.reduceOption, List.filterMap_map]
    cases isPoetry with
    | true => rfl
    | false => simp [TableLine.line]
  have htables : ((f.tables.flatMap Table.allLines).map (·.2)).reduceOption =
      f.dependencies := by
    rw [File.dependencies]
    induction f.tables with
    | nil => rfl
    | cons t tables ih =>
        rw [List.flatMap_cons, List.map_append, List.reduceOption_append, ih, Table.allLines,
          List.map_cons, List.reduceOption_cons_of_none, hitems, List.filter_cons]
        cases t.isPoetry <;> rfl
  have hblanks : ∀ blanks : List Blanks,
      ((blanks.map fun b => ((b.val, none) : AnnotatedLine)).map (·.2)).reduceOption = [] := by
    intro blanks
    simp [List.reduceOption]
  rw [File.lines, List.map_append, List.reduceOption_append, hblanks, htables]
  rfl

theorem isNamed_of_mem {f : File} : ∀ dep ∈ f.dependencies, dep.IsNamed := by
  intro dep hdep
  obtain ⟨t, -, hmem⟩ := List.mem_flatMap.mp hdep
  obtain ⟨item, -, hitem⟩ := List.mem_filterMap.mp hmem
  cases item with
  | entry e =>
      obtain rfl := Option.some.inj hitem
      exact e.name.property.2.1
  | blank b => cases hitem

/-- **The scanner returns exactly the entries of the tables of dependencies if and only if no
version has an `=`, no entry is behind an empty line of its table, and each of these tables but the
last of the file has an empty line.** -/
theorem scanPythonPoetry_iff (f : File) :
    scanPythonPoetry f.print = f.dependencies ↔ f.Readable := by
  have hprint : scanPythonPoetry f.print =
      (addedBy poetryRules false (f.lines.map (·.1))).reduceOption :=
    scanBySection_print (newline_notMem_lines f)
  rw [← exact_file, hprint]
  constructor
  · intro h
    rw [← reduceOption_lines] at h
    have hnothing : ∀ dep ∈ ([] : List PoetryDependency), dep.IsNamed := by simp
    have hnamed : ∀ dep ∈ (f.lines.map (·.2)).reduceOption, dep.IsNamed := by
      rw [reduceOption_lines]
      exact isNamed_of_mem
    exact (exact_of_reduceOption (honest_file f) hnothing hnamed h).2
  · intro h
    rw [exact_iff.mp h, reduceOption_lines]

section Sample

def sampleEntry : Entry where
  indent := Blanks.empty
  name := ⟨ofString "requests", by decide, by decide, List.all_eq_true.mp rfl⟩
  gap := Blanks.oneSpace
  valueGap := Blanks.oneSpace
  version := ⟨ofString ">=2.0", by decide, by decide⟩
  trailing := Blanks.empty

def sampleFile : File where
  blanks := []
  tables := [⟨⟨ofString "tool.poetry.dependencies", by decide⟩, [.entry sampleEntry]⟩]

/-- A version with an `=` is cut off at it. -/
theorem scanPythonPoetry_cuts_version :
    scanPythonPoetry sampleFile.print = [⟨ofString "requests", some (ofString ">")⟩] ∧
      sampleFile.dependencies = [⟨ofString "requests", some (ofString ">=2.0")⟩] ∧
      scanPythonPoetry sampleFile.print ≠ sampleFile.dependencies := by
  refine ⟨by decide +kernel, by decide +kernel, by decide +kernel⟩

end Sample

end PyProject

end KhulnasoftLsp
