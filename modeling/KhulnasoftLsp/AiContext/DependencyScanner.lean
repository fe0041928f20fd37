import KhulnasoftLsp.JsString
import Mathlib.Data.List.ReduceOption

/-!
# Scanning dependency files

`scanBySection` goes over the lines of a file and collects what it reads on the lines of its
sections. A section begins behind a line with the start condition, and ends with a line with the end
condition.

`lineAdds` is what one line adds to the dependencies, and `addedBy` what the lines of a file add,
one after the other; the dependencies are all of this.
-/

namespace KhulnasoftLsp

open JsString

structure DependencyLibrary where
  name : JsString
  version : JsString
  deriving DecidableEq, Repr

namespace DependencyScanner

def space : UInt16 := 0x0020

/-- `parseDependency`, with a separator of one character. -/
def parseDependency (line : JsString) (separator : UInt16) : DependencyLibrary :=
  let parts := (trim line).splitOn separator
  { name := trim (parts.headD []), version := trim ([separator].intercalate parts.tail) }

/-- The conditions of a section, and what is read on a line of it. A dependency is a `δ`, as the
version may be `undefined`. -/
structure SectionRules (δ : Type) where
  name : δ → JsString
  startCondition : JsString → Bool
  endCondition : JsString → Bool
  parseLine : JsString → Option δ

structure SectionState (δ : Type) where
  deps : List δ
  inSection : Bool
  deriving DecidableEq, Repr

variable {δ : Type} (rules : SectionRules δ)

/-- The body of the loop. -/
def scanLine (s : SectionState δ) (line : JsString) : SectionState δ :=
  if !s.inSection && rules.startCondition line then { s with inSection := true }
  else if s.inSection && rules.endCondition line then { s with inSection := false }
  else if s.inSection then
    match rules.parseLine line with
    | some dep => if rules.name dep != [] then { s with deps := s.deps ++ [dep] } else s
    | none => s
  else s

def scanBySection (lines : List JsString) : List δ :=
  (lines.foldl (scanLine rules) ⟨[], false⟩).deps

/-! ## Line by line -/

/-- What a line adds to the dependencies. -/
def lineAdds (inSection : Bool) (line : JsString) : Option δ :=
  if inSection && !rules.endCondition line then
    (rules.parseLine line).filter fun dep => rules.name dep != []
  else none

/-- Whether the next line is in a section. -/
def nextInSection (inSection : Bool) (line : JsString) : Bool :=
  if inSection then !rules.endCondition line else rules.startCondition line

/-- What each of the lines adds. -/
def addedBy : Bool → List JsString → List (Option δ)
  | _, [] => []
  | inSection, line :: lines =>
    lineAdds rules inSection line :: addedBy (nextInSection rules inSection line) lines

theorem scanLine_eq (s : SectionState δ) (line : JsString) :
    scanLine rules s line = ⟨s.deps ++ (lineAdds rules s.inSection line).toList,
      nextInSection rules s.inSection line⟩ := by
  obtain ⟨deps, inSection⟩ := s
  cases inSection with
  | false =>
      cases hstart : rules.startCondition line <;>
        simp [scanLine, lineAdds, nextInSection, hstart]
  | true =>
      cases hend : rules.endCondition line with
      | true => simp [scanLine, lineAdds, nextInSection, hend]
      | false =>
          cases hparse : rules.parseLine line with
          | none => simp [scanLine, lineAdds, nextInSection, hend, hparse]
          | some dep =>
              by_cases hname : rules.name dep = [] <;>
                simp [scanLine, lineAdds, nextInSection, hend, hparse, hname, Option.filter]

/-- A line of a section adds what is read on it, if this has a name. -/
theorem lineAdds_eq_some_iff {line : JsString} {dep : δ} :
    lineAdds rules true line = some dep ↔ rules.endCondition line = false ∧
      rules.parseLine line = some dep ∧ rules.name dep ≠ [] := by
  rw [lineAdds]
  cases hend : rules.endCondition line <;> simp [Option.filter_eq_some_iff]

theorem lineAdds_eq_none_iff {line : JsString} :
    lineAdds rules true line = none ↔ rules.endCondition line = true ∨
      ∀ dep, rules.parseLine line = some dep → rules.name dep = [] := by
  rw [lineAdds]
  cases hend : rules.endCondition line <;> simp [Option.filter_eq_none_iff]

/-- The dependencies are what the lines add. -/
theorem scanBySection_eq (lines : List JsString) :
    scanBySection rules lines = (addedBy rules false lines).reduceOption := by
  have hfold : ∀ s : SectionState δ, (lines.foldl (scanLine rules) s).deps =
      s.deps ++ (addedBy rules s.inSection lines).reduceOption := by
    induction lines with
    | nil =>
        intro s
        exact (List.append_nil _).symm
    | cons line lines ih =>
        intro s
        rw [List.foldl_cons, ih, scanLine_eq, addedBy, List.append_assoc]
        cases lineAdds rules s.inSection line <;> rfl
  rw [scanBySection, hfold]
  rfl

/-- White space in a line. -/
def isBlank (u : UInt16) : Bool := isWhitespace u && u != 0x000a

/-- White space between two words, if any. -/
structure Blanks where
  val : JsString
  property : ∀ u ∈ val, isBlank u = true

def Blanks.empty : Blanks := ⟨[], by simp⟩

def Blanks.oneSpace : Blanks := ⟨[space], List.all_eq_true.mp rfl⟩

theorem isWhitespace_of_isBlank {u : UInt16} (h : isBlank u = true) : isWhitespace u = true :=
  (Bool.and_eq_true_iff.mp h).1

theorem Blanks.isWhitespace (b : Blanks) : ∀ u ∈ b.val, isWhitespace u = true :=
  fun u hu => isWhitespace_of_isBlank (b.property u hu)

theorem Blanks.newline_notMem (b : Blanks) : 0x000a ∉ b.val := by
  intro h
  exact absurd (b.property _ h) (by decide)

/-! ## What is on the lines of a file

A line is annotated with the dependency that is on it, if any. -/

/-- Each line adds what is on it. -/
def Exact : Bool → List (JsString × Option δ) → Prop
  | _, [] => True
  | inSection, line :: lines =>
    lineAdds rules inSection line.1 = line.2 ∧
      Exact (nextInSection rules inSection line.1) lines

variable {rules} {inSection : Bool} {lines : List (JsString × Option δ)}

theorem exact_iff :
    Exact rules inSection lines ↔
      addedBy rules inSection (lines.map (·.1)) = lines.map (·.2) := by
  induction lines generalizing inSection with
  | nil => simp [Exact, addedBy]
  | cons line lines ih => rw [Exact, ih, List.map_cons, List.map_cons, addedBy, List.cons.injEq]

/-- Outside of a section only a start matters. -/
theorem exact_outside {line : JsString} (h : rules.startCondition line = false) :
    Exact rules false ((line, none) :: lines) ↔ Exact rules false lines := by
  show none = none ∧ Exact rules (rules.startCondition line) lines ↔ _
  rw [h, and_iff_right rfl]

theorem exact_opening {line : JsString} (h : rules.startCondition line = true) :
    Exact rules false ((line, none) :: lines) ↔ Exact rules true lines := by
  show none = none ∧ Exact rules (rules.startCondition line) lines ↔ _
  rw [h, and_iff_right rfl]

/-- A dependency outside of a section is lost. -/
theorem not_exact_of_outside {line : JsString} {dep : δ} :
    ¬ Exact rules false ((line, some dep) :: lines) := by
  rintro ⟨h, -⟩
  cases h

variable (rules) in
/-- What a line adds on which there is no dependency, is none. -/
def Honest (IsDep : δ → Prop) : Bool → List (JsString × Option δ) → Prop
  | _, [] => True
  | inSection, (line, some _) :: lines => Honest IsDep (nextInSection rules inSection line) lines
  | inSection, (line, none) :: lines =>
    (lineAdds rules inSection line = none ∧
        Honest IsDep (nextInSection rules inSection line) lines) ∨
      ∃ dep, lineAdds rules inSection line = some dep ∧ ¬ IsDep dep

/-- The scanner, once it owes a dependency, owes one for the rest of the file. -/
theorem exact_of_reduceOption {IsDep : δ → Prop} {owed : List δ}
    (h : Honest rules IsDep inSection lines) (howed : ∀ dep ∈ owed, IsDep dep)
    (hlines : ∀ dep ∈ (lines.map (·.2)).reduceOption, IsDep dep)
    (heq : (addedBy rules inSection (lines.map (·.1))).reduceOption =
      owed ++ (lines.map (·.2)).reduceOption) : owed = [] ∧ Exact rules inSection lines := by
  induction lines generalizing inSection owed with
  | nil =>
      have hnil : owed = [] := by
        rw [List.map_nil, List.map_nil, addedBy, List.reduceOption_nil, List.append_nil] at heq
        exact heq.symm
      exact ⟨hnil, trivial⟩
  | cons line lines ih =>
      obtain ⟨text, required⟩ := line
      cases required with
      | none =>
          simp only [List.map_cons, addedBy, List.reduceOption_cons_of_none] at heq hlines
          obtain ⟨hadds, hrest⟩ | ⟨dep, hadds, hdep⟩ := h
          · rw [hadds, List.reduceOption_cons_of_none] at heq
            obtain ⟨hnil, hexact⟩ := ih hrest howed hlines heq
            exact ⟨hnil, hadds, hexact⟩
          · rw [hadds, List.reduceOption_cons_of_some] at heq
            have hmem : dep ∈ owed ++ (lines.map (·.2)).reduceOption := by
              rw [← heq]
              exact List.mem_cons_self
            exact absurd ((List.mem_append.mp hmem).elim (howed dep) (hlines dep)) hdep
      | some dep =>
          simp only [List.map_cons, addedBy, List.reduceOption_cons_of_some] at heq hlines
          obtain ⟨hdep, hlater⟩ := List.forall_mem_cons.mp hlines
          have howed' : ∀ x ∈ owed ++ [dep], IsDep x := by
            intro x hx
            obtain hx | hx := List.mem_append.mp hx
            · exact howed x hx
            · rwa [List.mem_singleton.mp hx]
          cases hadds : lineAdds rules inSection text with
          | none =>
              rw [hadds, List.reduceOption_cons_of_none, ← List.singleton_append,
                ← List.append_assoc] at heq
              obtain ⟨hnil, -⟩ := ih h howed' hlater heq
              simp at hnil
          | some x =>
              rw [hadds, List.reduceOption_cons_of_some] at heq
              cases owed with
              | nil =>
                  obtain ⟨rfl, hrest⟩ := List.cons.inj heq
                  have hnothing : ∀ z ∈ ([] : List δ), IsDep z := by simp
                  obtain ⟨-, hexact⟩ := ih h hnothing hlater hrest
                  exact ⟨rfl, hadds, hexact⟩
              | cons y owed =>
                  have hrest := (List.cons.inj heq).2
                  rw [List.append_eq, List.append_cons] at hrest
                  obtain ⟨hnil, -⟩ := ih h (fun z hz => howed' z (List.mem_cons_of_mem y hz))
                    hlater hrest
                  simp at hnil

/-- The scanner goes over the lines that were printed. -/
theorem scanBySection_print (h : ∀ line ∈ lines, 0x000a ∉ line.1) :
    scanBySection rules (JsString.lines ([0x000a].intercalate (lines.map (·.1)))) =
      (addedBy rules false (lines.map (·.1))).reduceOption := by
  rw [scanBySection_eq]
  by_cases hnil : lines = []
  · rw [hnil]
    rfl
  · rw [JsString.lines, List.splitOn_intercalate]
    · intro line hline
      obtain ⟨l, hl, rfl⟩ := List.mem_map.mp hline
      exact h l hl
    · simpa using hnil

/-! ## A dependency on a line -/

section Parse

variable {line a b : JsString} {separator : UInt16}

theorem parseDependency_of_separator (h : trim line = a ++ separator :: b) (ha : separator ∉ a) :
    parseDependency line separator = ⟨trim a, trim b⟩ := by
  rw [parseDependency, h, List.splitOn_append_cons_self_of_not_mem ha, List.headD_cons,
    List.tail_cons, List.intercalate_splitOn]

theorem parseDependency_trim (line : JsString) (separator : UInt16) :
    parseDependency (trim line) separator = parseDependency line separator := by
  rw [parseDependency, trim_trim]
  rfl

theorem parseDependency_of_notMem (h : separator ∉ trim line) :
    parseDependency line separator = ⟨trim line, []⟩ := by
  rw [parseDependency, List.splitOn_eq_singleton h, List.headD_cons, List.tail_cons, trim_trim]
  rfl

/-- The name begins with what begins the line, up to a separator. -/
theorem name_of_start {start t : JsString} (ha : ∀ u ∈ a, isWhitespace u = true)
    (hne : start ≠ []) (hhead : ∀ u ∈ start.head?, isWhitespace u = false)
    (hlast : ∀ u ∈ start.getLast?, isWhitespace u = false) (hstart : separator ∉ start) :
    ∃ x, (parseDependency (a ++ (start ++ t)) separator).name = start ++ x := by
  have hline := trim_append_trimEnd (t := t) ha hne hhead hlast
  by_cases hmem : separator ∈ trimEnd t
  · obtain ⟨x, y, hrest, hx⟩ := List.eq_append_cons_of_mem hmem
    have hsplit : trim (a ++ (start ++ t)) = (start ++ x) ++ separator :: y := by
      rw [hline, hrest, List.append_assoc]
    have hnotMem : separator ∉ start ++ x := by
      rw [List.mem_append, not_or]
      exact ⟨hstart, hx⟩
    have htrim := trim_append_trimEnd (a := []) (t := x) (by simp) hne hhead hlast
    rw [parseDependency_of_separator hsplit hnotMem]
    exact ⟨trimEnd x, htrim⟩
  · have hnotMem : separator ∉ trim (a ++ (start ++ t)) := by
      rw [hline, List.mem_append, not_or]
      exact ⟨hstart, hmem⟩
    rw [parseDependency_of_notMem hnotMem]
    exact ⟨trimEnd t, hline⟩

/-- Two words with a separator between them are the name and the begin of the version. -/
theorem parseDependency_of_words {v g w t : JsString} (ha : ∀ u ∈ a, isWhitespace u = true)
    (hv : IsWord v) (hg : ∀ u ∈ g, isWhitespace u = true) (hmem : separator ∈ g) (hw : IsWord w) :
    parseDependency (a ++ (v ++ (g ++ (w ++ t)))) separator = ⟨v, w ++ trimEnd t⟩ := by
  have hseparator := hg separator hmem
  obtain ⟨x, y, rfl, hx⟩ := List.eq_append_cons_of_mem hmem
  obtain ⟨hxSpace, hySpace⟩ := List.forall_mem_append.mp hg
  have hline : trim (a ++ (v ++ (x ++ separator :: y ++ (w ++ t)))) =
      (v ++ x) ++ separator :: (y ++ (w ++ trimEnd t)) := by
    have hlast := hw.getLast?_append (v ++ (x ++ separator :: y))
    rw [List.append_assoc] at hlast
    have h := trim_append_trimEnd (t := t) ha (by simp) (hv.head?_append _) hlast
    simpa using h
  have hnotMem : separator ∉ v ++ x := by
    rw [List.mem_append, not_or]
    refine ⟨?_, hx⟩
    intro h
    rw [hv.2 separator h] at hseparator
    cases hseparator
  have hname := trim_append_trimEnd (a := []) (t := x) (by simp) hv.1 hv.head? hv.getLast?
  have hversion := trim_append_trimEnd (t := trimEnd t)
    (List.forall_mem_cons.mp hySpace).2 hw.1 hw.head? hw.getLast?
  rw [trimEnd_eq_nil_iff.mpr hxSpace, List.nil_append, List.append_nil] at hname
  rw [trimEnd_trimEnd] at hversion
  rw [parseDependency_of_separator hline hnotMem, hname, hversion]

end Parse

end DependencyScanner

end KhulnasoftLsp
