import KhulnasoftLsp.JsSet
import KhulnasoftLsp.TreeSitter.CommentResolver

/-!
# Small files

A file is small if it has fewer than five lines of code. `isSmallFile` takes the number of its lines
that are not empty, less the number of lines that its comments touch.

These are lines of two kinds: a line of code with a comment is touched by one, and an empty line of
a comment is touched and is none of the lines that are counted. So each such line makes the number
smaller by one than that of the lines of code.
-/

namespace KhulnasoftLsp

open TreeSitter

namespace CommentResolver

variable {tree : SyntaxNode}

/-- The rows from the start of a capture to its end. -/
def rowsOf (capture : NodeIn tree) : List Nat :=
  List.range' capture.node.startPosition.row
    (capture.node.endPosition.row + 1 - capture.node.startPosition.row)

/-- The rows of the captures, each once. -/
def commentLineSet (captures : List (NodeIn tree)) : JsSet Nat :=
  captures.foldl (fun rows capture => (rowsOf capture).foldl JsSet.add rows) JsSet.empty

def capturesOf (query : Option Query) (tree : SyntaxNode) : List (NodeIn tree) :=
  match query with
  | some query => query tree
  | none => []

/-- `getTotalCommentLines` -/
def getTotalCommentLines (query : Option Query) (tree : SyntaxNode) : Nat :=
  (commentLineSet (capturesOf query tree)).size

/-- A comment touches the row. -/
def isTouched (captures : List (NodeIn tree)) (row : Nat) : Bool :=
  captures.any fun capture =>
    capture.node.startPosition.row ≤ row && row ≤ capture.node.endPosition.row

theorem mem_rowsOf {capture : NodeIn tree} {row : Nat} :
    row ∈ rowsOf capture ↔
      capture.node.startPosition.row ≤ row ∧ row ≤ capture.node.endPosition.row := by
  rw [rowsOf, List.mem_range'_1]
  omega

theorem has_commentLineSet {captures : List (NodeIn tree)} {row : Nat} :
    (commentLineSet captures).has row = true ↔ isTouched captures row = true := by
  have hfold : ∀ rows : JsSet Nat,
      (captures.foldl (fun rows capture => (rowsOf capture).foldl JsSet.add rows) rows).has row =
        true ↔ rows.has row = true ∨ ∃ capture ∈ captures, row ∈ rowsOf capture := by
    induction captures with
    | nil => simp
    | cons capture captures ih =>
        intro rows
        rw [List.foldl_cons, ih, JsSet.has_foldl_add, or_assoc, List.exists_mem_cons_iff]
  rw [commentLineSet, hfold, JsSet.has_empty]
  simp [isTouched, mem_rowsOf]

/-- The number of the touched rows, in a text that has them all. -/
theorem size_commentLineSet {captures : List (NodeIn tree)} {n : Nat}
    (hrows : ∀ capture ∈ captures, capture.node.endPosition.row < n) :
    (commentLineSet captures).size = (List.range n).countP (isTouched captures) := by
  have hperm : (commentLineSet captures).items.Perm
      ((List.range n).filter (isTouched captures)) := by
    rw [List.perm_ext_iff_of_nodup (commentLineSet captures).nodup (List.nodup_range.filter _)]
    intro row
    rw [← JsSet.has_iff, has_commentLineSet, List.mem_filter, List.mem_range]
    constructor
    · intro htouched
      refine ⟨?_, htouched⟩
      obtain ⟨capture, hcapture, hrow⟩ := List.any_eq_true.mp htouched
      have := hrows capture hcapture
      simp only [Bool.and_eq_true, decide_eq_true_eq] at hrow
      omega
    · exact fun h => h.2
  rw [JsSet.size, hperm.length_eq, List.countP_eq_length_filter]

end CommentResolver

namespace SmallFiles

def getTotalNonEmptyLines (textContent : JsString) : Nat :=
  ((JsString.lines textContent).filter fun line => JsString.trim line != []).length

def minLinesOfCode : Nat := 5

def isSmallFile (textContent : JsString) (totalCommentLines : Nat) : Bool :=
  (getTotalNonEmptyLines textContent : Int) - totalCommentLines < minLinesOfCode

/-! ## The lines of code -/

open CommentResolver JsString

variable {tree : SyntaxNode} {captures : List (NodeIn tree)} {textContent : JsString}

/-- A position lies in a comment. -/
def inComment (captures : List (NodeIn tree)) (position : Point) : Bool :=
  captures.any fun capture =>
    capture.node.startPosition ≤ position && position < capture.node.endPosition

/-- A line has something outside of all comments. -/
def isCode (captures : List (NodeIn tree)) (line : JsString) (row : Nat) : Bool :=
  line.zipIdx.any fun u => !isWhitespace u.1 && !inComment captures ⟨row, u.2⟩

def isBlank (line : JsString) : Bool := trim line == []

def linesOfCode (textContent : JsString) (captures : List (NodeIn tree)) : Nat :=
  (lines textContent).zipIdx.countP fun line => isCode captures line.1 line.2

/-- The lines that a comment touches, and that are code or blank all the same. -/
def touchedOtherwise (textContent : JsString) (captures : List (NodeIn tree)) : Nat :=
  (lines textContent).zipIdx.countP fun line =>
    isTouched captures line.2 && (isCode captures line.1 line.2 || isBlank line.1)

/-- A comment touches the row of what lies in it. -/
theorem isTouched_of_inComment {position : Point} (h : inComment captures position = true) :
    isTouched captures position.row = true := by
  obtain ⟨capture, hcapture, h⟩ := List.any_eq_true.mp h
  simp only [Bool.and_eq_true, decide_eq_true_eq] at h
  refine List.any_eq_true.mpr ⟨capture, hcapture, ?_⟩
  simp only [Bool.and_eq_true, decide_eq_true_eq]
  exact ⟨Point.row_le h.1, Point.row_le (le_of_lt h.2)⟩

theorem isBlank_iff {line : JsString} :
    isBlank line = true ↔ ∀ u ∈ line, isWhitespace u = true := by
  rw [isBlank, beq_iff_eq, trim_eq_nil_iff]

theorem isCode_eq_false_of_isBlank {line : JsString} {row : Nat} (h : isBlank line = true) :
    isCode captures line row = false := by
  rw [isCode, List.any_eq_false]
  intro u hu
  have hmem : u.1 ∈ line := List.fst_mem_of_mem_zipIdx hu
  simp [isBlank_iff.mp h u.1 hmem]

/-- A line that is neither blank nor code lies in the comments, and they touch it. -/
theorem isTouched_of_not_isCode {line : JsString} {row : Nat} (hblank : isBlank line = false)
    (hcode : isCode captures line row = false) : isTouched captures row = true := by
  obtain ⟨u, hu, hspace⟩ : ∃ u ∈ line, isWhitespace u = false := by
    by_contra hall
    rw [isBlank_iff.mpr] at hblank
    · cases hblank
    · intro u hu
      by_contra hspace
      exact hall ⟨u, hu, Bool.eq_false_iff.mpr hspace⟩
  obtain ⟨column, hcolumn⟩ := List.mem_iff_getElem?.mp hu
  have hin := List.any_eq_false.mp hcode (u, column) (List.mem_zipIdx_iff_getElem?.mpr hcolumn)
  have hinComment : inComment captures ⟨row, column⟩ = true := by simpa [hspace] using hin
  exact isTouched_of_inComment hinComment

theorem countP_add_countP {α : Type} {p q r s : α → Bool} {l : List α}
    (h : ∀ a ∈ l, (p a).toNat + (q a).toNat = (r a).toNat + (s a).toNat) :
    l.countP p + l.countP q = l.countP r + l.countP s := by
  induction l with
  | nil => rfl
  | cons a l ih =>
      obtain ⟨ha, hl⟩ := List.forall_mem_cons.mp h
      have := ih hl
      simp only [List.countP_cons]
      cases hp : p a <;> cases hq : q a <;> cases hr : r a <;> cases hs : s a <;>
        simp only [hp, hq, hr, hs, Bool.toNat_false, Bool.toNat_true] at ha ⊢ <;> grind

/-- The empty lines aside, each line is counted by what it is. -/
theorem nonEmpty_add_touchedOtherwise
    (hrows : ∀ capture ∈ captures,
      capture.node.endPosition.row < (lines textContent).length) :
    getTotalNonEmptyLines textContent + touchedOtherwise textContent captures =
      linesOfCode textContent captures + (commentLineSet captures).size := by
  have hnonEmpty : getTotalNonEmptyLines textContent =
      (lines textContent).zipIdx.countP fun line => !isBlank line.1 := by
    rw [getTotalNonEmptyLines, ← List.countP_eq_length_filter]
    conv_lhs => rw [← List.zipIdx_map_fst 0 (lines textContent), List.countP_map]
    rfl
  have htouched : (commentLineSet captures).size =
      (lines textContent).zipIdx.countP fun line => isTouched captures line.2 := by
    rw [size_commentLineSet hrows, List.range_eq_range',
      ← List.zipIdx_map_snd 0 (lines textContent), List.countP_map]
    rfl
  rw [hnonEmpty, htouched, touchedOtherwise, linesOfCode]
  apply countP_add_countP
  intro line _
  cases hblank : isBlank line.1 with
  | true => cases isTouched captures line.2 <;> simp [isCode_eq_false_of_isBlank hblank]
  | false =>
      cases hcode : isCode captures line.1 line.2 with
      | true => cases isTouched captures line.2 <;> simp
      | false => simp [isTouched_of_not_isCode hblank hcode]

/-- **A file is small by its lines of code, exactly if as many are left without the lines that a
comment touches.** -/
theorem isSmallFile_iff_linesOfCode {query : Option Query}
    (hrows : ∀ capture ∈ capturesOf query tree,
      capture.node.endPosition.row < (lines textContent).length) :
    (isSmallFile textContent (getTotalCommentLines query tree) = true ↔
        linesOfCode textContent (capturesOf query tree) < minLinesOfCode) ↔
      linesOfCode textContent (capturesOf query tree) < minLinesOfCode ∨
        minLinesOfCode + touchedOtherwise textContent (capturesOf query tree) ≤
          linesOfCode textContent (capturesOf query tree) := by
  have hcount := nonEmpty_add_touchedOtherwise hrows
  rw [isSmallFile, getTotalCommentLines, decide_eq_true_iff]
  omega

section Sample

/-- A comment, and a call on its row, in front of other calls -/
def commentedCalls (text : String) (lastRow : Nat) : SyntaxNode :=
  .node ⟨0, 0⟩ ⟨lastRow, 4⟩ (ofString text)
    (.node ⟨0, 0⟩ ⟨0, 7⟩ (ofString "/* a */") [] :: .node ⟨0, 8⟩ ⟨0, 12⟩ (ofString "f();") [] ::
      (List.range' 1 lastRow).map fun row => .node ⟨row, 0⟩ ⟨row, 4⟩ (ofString "f();") [])

def twoCalls : String := "/* a */ f();\nf();"

def fiveCalls : String := "/* a */ f();\nf();\nf();\nf();\nf();"

theorem isSmallFile_iff_linesOfCode_of_twoCalls :
    (isSmallFile (ofString twoCalls)
          (getTotalCommentLines (some sampleQuery) (commentedCalls twoCalls 1)) = true ↔
        linesOfCode (ofString twoCalls)
          (capturesOf (some sampleQuery) (commentedCalls twoCalls 1)) < minLinesOfCode) ↔
      linesOfCode (ofString twoCalls)
          (capturesOf (some sampleQuery) (commentedCalls twoCalls 1)) < minLinesOfCode ∨
        minLinesOfCode + touchedOtherwise (ofString twoCalls)
            (capturesOf (some sampleQuery) (commentedCalls twoCalls 1)) ≤
          linesOfCode (ofString twoCalls)
            (capturesOf (some sampleQuery) (commentedCalls twoCalls 1)) :=
  isSmallFile_iff_linesOfCode (by decide +kernel)

/-- Five lines of code, of which one has a comment, are a small file. -/
theorem not_linesOfCode_of_fiveCalls :
    isSmallFile (ofString fiveCalls)
        (getTotalCommentLines (some sampleQuery) (commentedCalls fiveCalls 4)) = true ∧
      linesOfCode (ofString fiveCalls)
        (capturesOf (some sampleQuery) (commentedCalls fiveCalls 4)) = minLinesOfCode := by
  decide +kernel

end Sample

end SmallFiles

end KhulnasoftLsp
