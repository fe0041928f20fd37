import KhulnasoftLsp.TreeSitter.SyntaxTree
import Mathlib.Data.List.Sort

/-!
# The comment for the cursor

Of the comments of a file, `getCommentForCursor` finds the one on the row of the cursor, or else the
last one above it. Of this one it is checked that nothing stands between it and the cursor: the
cursor is on the rows of its parent, and no child of the parent starts on a row behind the comment's
last one, up to the row of the cursor.

The check leaves out what starts on the last row of the comment itself. Everything else between the
two lies in a child that it finds, so it is complete apart from that row.
-/

namespace KhulnasoftLsp

open TreeSitter

variable {tree : SyntaxNode}

structure Comment (tree : SyntaxNode) where
  start : Point
  stop : Point
  content : JsString
  capture : NodeIn tree

inductive CommentResolution (tree : SyntaxNode) where
  | commentAtCursor (comment : Comment tree)
  | commentAboveCursor (comment : Comment tree)

/-- What a query captures in a tree. -/
abbrev Query : Type := (tree : SyntaxNode) → List (NodeIn tree)

namespace CommentResolver

def commentOf (capture : NodeIn tree) : Comment tree where
  start := capture.node.startPosition
  stop := capture.node.endPosition
  content := capture.node.text
  capture := capture

/-- `#getLastComment`: the first one of those that end last. -/
def getLastComment (comments : List (Comment tree)) : Option (Comment tree) :=
  (comments.insertionSort fun a b => b.stop.row ≤ a.stop.row).head?

/-- `#getCommentAtCursor` -/
def getCommentAtCursor (comments : List (Comment tree)) (cursorPosition : Point) :
    Option (Comment tree) :=
  getLastComment (comments.filter fun comment =>
    comment.start.row ≤ cursorPosition.row && comment.stop.row ≥ cursorPosition.row)

/-- `#getCommentAboveCursor` -/
def getCommentAboveCursor (comments : List (Comment tree)) (cursorPosition : Point) :
    Option (Comment tree) :=
  getLastComment (comments.filter fun comment => comment.stop.row < cursorPosition.row)

/-- `#isPositionInNode` -/
def isPositionInNode (position : Point) (node : SyntaxNode) : Bool :=
  position.row ≥ node.startPosition.row && position.row ≤ node.endPosition.row

/-- A child of the comment's parent starts on a row between the two. -/
def hasNodeBetween (comment : Comment tree) (cursorPosition : Point) (child : SyntaxNode) : Bool :=
  child.startPosition.row > comment.capture.node.endPosition.row &&
    child.startPosition.row ≤ cursorPosition.row

/-- `getCommentForCursor`, with the query for the comments of the language, if there is one. -/
def getCommentForCursor (query : Option Query) (tree : SyntaxNode) (cursorPosition : Point) :
    Option (CommentResolution tree) := do
  let query ← query
  let comments := (query tree).map commentOf
  match getCommentAtCursor comments cursorPosition with
  | some commentAtCursor => return .commentAtCursor commentAtCursor
  | none =>
    let commentAboveCursor ← getCommentAboveCursor comments cursorPosition
    let commentParentNode ← commentAboveCursor.capture.parent
    if !isPositionInNode cursorPosition commentParentNode.node then none
    else if commentParentNode.node.children.any
        (hasNodeBetween commentAboveCursor cursorPosition) then none
    else return .commentAboveCursor commentAboveCursor

/-! ## What the checks say -/

theorem mem_of_getLastComment {comments : List (Comment tree)} {comment : Comment tree}
    (h : getLastComment comments = some comment) : comment ∈ comments :=
  (List.mem_insertionSort _).mp (List.mem_of_head? h)

/-- The comment above the cursor is one of the comments, and ends above it. -/
theorem mem_of_getCommentAboveCursor {comments : List (Comment tree)} {comment : Comment tree}
    {cursorPosition : Point} (h : getCommentAboveCursor comments cursorPosition = some comment) :
    comment ∈ comments ∧ comment.stop.row < cursorPosition.row := by
  simpa using mem_of_getLastComment h

/-- The comments that the query captures. -/
def capturedComments (query : Option Query) (tree : SyntaxNode) : List (Comment tree) :=
  match query with
  | none => []
  | some query => (query tree).map commentOf

theorem stop_of_mem_capturedComments {query : Option Query} {comment : Comment tree}
    (h : comment ∈ capturedComments query tree) :
    comment.stop = comment.capture.node.endPosition := by
  cases query with
  | none => cases h
  | some query =>
      obtain ⟨capture, -, rfl⟩ := List.mem_map.mp h
      rfl

/-- What is checked of the comment above the cursor. -/
structure PassesChecks (comments : List (Comment tree)) (cursorPosition : Point)
    (comment : Comment tree) : Prop where
  notAtCursor : getCommentAtCursor comments cursorPosition = none
  above : getCommentAboveCursor comments cursorPosition = some comment
  inParent : ∃ parent, comment.capture.parent = some parent ∧
    isPositionInNode cursorPosition parent.node = true ∧
    ∀ child ∈ parent.node.children, hasNodeBetween comment cursorPosition child = false

theorem getCommentForCursor_eq_above_iff {query : Option Query} {cursorPosition : Point}
    {comment : Comment tree} :
    getCommentForCursor query tree cursorPosition = some (.commentAboveCursor comment) ↔
      PassesChecks (capturedComments query tree) cursorPosition comment := by
  cases query with
  | none =>
      constructor
      · intro h
        cases h
      · intro h
        cases h.above
  | some query =>
      unfold getCommentForCursor
      simp only [Option.bind_eq_bind, Option.bind_some, capturedComments]
      constructor
      · intro h
        split at h
        · cases h
        · rename_i hat
          obtain ⟨above, habove, h⟩ := Option.bind_eq_some_iff.mp h
          obtain ⟨parent, hparent, h⟩ := Option.bind_eq_some_iff.mp h
          split at h
          · cases h
          · rename_i hin
            split at h
            · cases h
            · rename_i hchildren
              cases h
              refine ⟨hat, habove, parent, hparent, by simpa using hin, ?_⟩
              simpa using hchildren
      · rintro ⟨hat, habove, parent, hparent, hin, hchildren⟩
        simp only [hat, habove, Option.bind_some, hparent, hin]
        rw [if_neg (by simp), if_neg (by simpa using hchildren)]
        rfl

/-! ## Nothing between the comment and the cursor -/

/-- No node but the ancestors of the comment starts behind it, on a row above the cursor's. -/
def NothingBetween (comment : NodeIn tree) (cursorPosition : Point) : Prop :=
  ∀ n : NodeIn tree, ¬ n.IsAncestor comment →
    ¬ (comment.node.endPosition ≤ n.node.startPosition ∧
      n.node.startPosition.row < cursorPosition.row)

/-- No later child of the comment's parent starts on the row on which the comment ends, and no empty
node stands where it ends. -/
structure ClearLastRow (comment : NodeIn tree) : Prop where
  siblings : ∀ s : NodeIn tree, s.IsLaterSibling comment →
    s.node.startPosition.row ≠ comment.node.endPosition.row
  noEmpty : ∀ n : NodeIn tree, ¬ n.IsAncestor comment →
    ¬ (n.node.startPosition = comment.node.endPosition ∧
      n.node.endPosition = comment.node.endPosition)

section Between

variable {comments : List (Comment tree)} {comment : Comment tree} {cursorPosition : Point}

/-- What starts in a later child of the parent starts behind the cursor's row, or on it. -/
theorem not_between_of_laterSibling (hconsistent : tree.Consistent) {s n : NodeIn tree}
    (hlater : s.IsLaterSibling comment.capture) (hs : s.IsAncestor n)
    (hclear : s.node.startPosition.row ≠ comment.capture.node.endPosition.row)
    (hchecked : hasNodeBetween comment cursorPosition s.node = false) :
    ¬ n.node.startPosition.row < cursorPosition.row := by
  obtain ⟨path, i, j, hcomment, hpath, hij⟩ := hlater
  have hbehind : comment.capture.node.endPosition.row ≤ s.node.startPosition.row :=
    Point.row_le (NodeIn.before hconsistent hcomment hpath hij)
  have hstart : s.node.startPosition.row ≤ n.node.startPosition.row :=
    Point.row_le (NodeIn.within hconsistent hs).1
  simp only [hasNodeBetween, Bool.and_eq_false_iff, decide_eq_false_iff_not] at hchecked
  omega

theorem nothingBetween_of_clearLastRow (hconsistent : tree.Consistent)
    (hchecks : PassesChecks comments cursorPosition comment)
    (hclear : ClearLastRow comment.capture) : NothingBetween comment.capture cursorPosition := by
  rintro n hn ⟨hbehind, hrow⟩
  obtain ⟨parent, hparent, hin, hchildren⟩ := hchecks.inParent
  obtain ⟨i, hi⟩ := NodeIn.parent_eq_some_iff.mp hparent
  have hstartEnd := n.start_le_end hconsistent
  obtain habove | hbelow | ⟨r, j, k, p, q, hnPath, hpath, hne⟩ :=
    NodeIn.isAncestor_or_part n comment.capture
  · exact hn habove
  · -- in the comment only its end is left
    have hend := (NodeIn.within hconsistent hbelow).2
    exact hclear.noEmpty n hn
      ⟨le_antisymm (le_trans hstartEnd hend) hbehind, le_antisymm hend (le_trans hbehind hstartEnd)⟩
  · obtain hjk | hkj := Nat.lt_or_gt_of_ne hne
    · -- and so it is in front of the comment
      have hend : n.node.endPosition ≤ comment.capture.node.endPosition :=
        le_trans (NodeIn.before hconsistent hnPath hpath hjk)
          (comment.capture.start_le_end hconsistent)
      exact hclear.noEmpty n hn
        ⟨le_antisymm (le_trans hstartEnd hend) hbehind,
          le_antisymm hend (le_trans hbehind hstartEnd)⟩
    · obtain rfl | ⟨q, i', rfl⟩ := List.eq_nil_or_concat q
      · -- behind the comment, in a child of its parent
        obtain ⟨s, hs⟩ := n.exists_of_path_append (p := r ++ [j]) (q := p) (by simpa using hnPath)
        obtain ⟨hr, -⟩ := List.append_inj' (hi.symm.trans hpath) rfl
        have hlater : s.IsLaterSibling comment.capture := ⟨r, k, j, hpath, hs, hkj⟩
        have hmem : s.node ∈ parent.node.children := NodeIn.mem_children (by rw [hs, hr])
        exact not_between_of_laterSibling hconsistent hlater ⟨p, by rw [hs, hnPath]; simp⟩
          (hclear.siblings s hlater) (hchildren _ hmem) hrow
      · -- behind the parent, and so behind the cursor
        have hparentPath : parent.path = r ++ k :: q := by
          have h := hi.symm.trans hpath
          rw [List.concat_eq_append, ← List.cons_append, ← List.append_assoc] at h
          exact (List.append_inj' h rfl).1
        have hend := Point.row_le (NodeIn.before hconsistent hparentPath hnPath hkj)
        simp only [isPositionInNode, Bool.and_eq_true, decide_eq_true_eq] at hin
        omega

theorem clearLastRow_of_nothingBetween (hconsistent : tree.Consistent)
    (hrow : comment.capture.node.endPosition.row < cursorPosition.row)
    (h : NothingBetween comment.capture cursorPosition) : ClearLastRow comment.capture where
  siblings s hlater hs := by
    obtain ⟨path, i, j, hcomment, hpath, hij⟩ := hlater
    have hbehind := NodeIn.before hconsistent hcomment hpath hij
    exact h s (NodeIn.IsLaterSibling.not_isAncestor ⟨path, i, j, hcomment, hpath, hij⟩)
      ⟨hbehind, by omega⟩
  noEmpty n hn := by
    rintro ⟨hstart, -⟩
    apply h n hn
    rw [hstart]
    exact ⟨le_refl _, hrow⟩

/-- **Nothing starts between the comment above the cursor and the cursor, exactly if nothing starts
behind the comment on its last row.** -/
theorem nothingBetween_iff {query : Option Query} (hconsistent : tree.Consistent) :
    (∀ comment, getCommentForCursor query tree cursorPosition =
        some (.commentAboveCursor comment) → NothingBetween comment.capture cursorPosition) ↔
      ∀ comment, PassesChecks (capturedComments query tree) cursorPosition comment →
        ClearLastRow comment.capture := by
  constructor
  · intro h comment hchecks
    obtain ⟨hmem, hrow⟩ := mem_of_getCommentAboveCursor hchecks.above
    rw [stop_of_mem_capturedComments hmem] at hrow
    exact clearLastRow_of_nothingBetween hconsistent hrow
      (h comment (getCommentForCursor_eq_above_iff.mpr hchecks))
  · intro h comment hcomment
    have hchecks := getCommentForCursor_eq_above_iff.mp hcomment
    exact nothingBetween_of_clearLastRow hconsistent hchecks (h comment hchecks)

end Between

section Sample

/-- `/* a */` on the first row, with what stands behind it, and an empty row -/
def sampleTree (behind : List SyntaxNode) : SyntaxNode :=
  .node ⟨0, 0⟩ ⟨1, 0⟩ (JsString.ofString "/* a */\n")
    (.node ⟨0, 0⟩ ⟨0, 7⟩ (JsString.ofString "/* a */") [] :: behind)

/-- `f();` behind the comment -/
def call : SyntaxNode := .node ⟨0, 8⟩ ⟨0, 12⟩ (JsString.ofString "f();") []

/-- The first child of the tree is a comment. -/
def sampleQuery : Query := fun tree =>
  match h : tree.nodeAt [0] with
  | some node => [⟨[0], node, h⟩]
  | none => []

theorem nothingBetween_iff_of_comment_alone :
    (∀ comment, getCommentForCursor (some sampleQuery) (sampleTree []) ⟨1, 0⟩ =
        some (.commentAboveCursor comment) → NothingBetween comment.capture ⟨1, 0⟩) ↔
      ∀ comment, PassesChecks (capturedComments (some sampleQuery) (sampleTree [])) ⟨1, 0⟩ comment →
        ClearLastRow comment.capture :=
  nothingBetween_iff (SyntaxNode.consistent_of_leaves (by decide) (by decide))

/-- The call behind the comment stands between it and the cursor on the row below. -/
theorem not_nothingBetween_of_call_on_last_row :
    (sampleTree [call]).Consistent ∧
      ∃ comment, getCommentForCursor (some sampleQuery) (sampleTree [call]) ⟨1, 0⟩ =
          some (.commentAboveCursor comment) ∧
        ¬ NothingBetween comment.capture ⟨1, 0⟩ := by
  refine ⟨SyntaxNode.consistent_of_leaves (by decide) (by decide), commentOf ⟨[0], _, rfl⟩, rfl, ?_⟩
  intro h
  exact h ⟨[1], call, rfl⟩ (by decide) (by decide)

end Sample

end CommentResolver

end KhulnasoftLsp
