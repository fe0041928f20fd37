import KhulnasoftLsp.TreeSitter.SmallFiles
import KhulnasoftLsp.SuggestionClient.DirectConnection

/-!
# The intent at the cursor

Whether code is to be generated or completed is told from what stands around the cursor: a comment,
a small file, or the body of an empty function.

The body of a function counts as empty by what the query for the language captures, and the cursor
is in it if it is between the last two children of the captured node. In a tree with consistent
positions this says more, see `isCursorInBody_iff`: of everything below the node only the last child
is behind the cursor, and no node stands around the cursor but the captured one and those above it.
With this `getIntent_eq_iff` says for every answer when it is given.
-/

namespace KhulnasoftLsp

open TreeSitter
open SuggestionClient (Intent)

variable {tree : SyntaxNode}

/-- What the grammar of a language finds in a tree. -/
structure TreeSitterLanguage where
  name : String
  commentQuery : Option Query
  emptyFunctionQuery : Option Query
  /-- the definitions of functions and classes -/
  pythonQuery : Query
  /-- `node.childForFieldName('body')` -/
  body : {tree : SyntaxNode} → NodeIn tree → Option (NodeIn tree)

namespace EmptyFunctionResolver

/-- `#isCursorInsideNode` -/
def isCursorInsideNode (cursorPosition startPosition endPosition : Point) : Bool :=
  let isCursorAfterNodeStart := cursorPosition.row > startPosition.row ||
    (cursorPosition.row == startPosition.row && cursorPosition.column ≥ startPosition.column)
  let isCursorBeforeNodeEnd := cursorPosition.row < endPosition.row ||
    (cursorPosition.row == endPosition.row && cursorPosition.column ≤ endPosition.column)
  isCursorAfterNodeStart && isCursorBeforeNodeEnd

/-- `#isCursorRightAfterNode` -/
def isCursorRightAfterNode (cursorPosition endPosition : Point) : Bool :=
  (cursorPosition.row : Int) - endPosition.row == 1 ||
    (cursorPosition.row == endPosition.row && cursorPosition.column > endPosition.column)

/-- `#findEmptyBodyPosition`: from the end of the last child but one to the start of the last. -/
def findEmptyBodyPosition (node : SyntaxNode) : Option Point × Option Point :=
  (node.children.dropLast.getLast?.map SyntaxNode.endPosition,
    node.children.getLast?.map SyntaxNode.startPosition)

/-- The position is valid, with `#isValidBodyPosition`, and the cursor is inside. -/
def isCursorInBody (cursorPosition : Point) (node : SyntaxNode) : Bool :=
  match findEmptyBodyPosition node with
  | (some startPosition, some endPosition) =>
    isCursorInsideNode cursorPosition startPosition endPosition
  | _ => false

def isCursorAfterEmptyPythonFunction (language : TreeSitterLanguage) (tree : SyntaxNode)
    (cursorPosition : Point) : Bool :=
  if language.name != "python" then false
  else
    (language.pythonQuery tree).any fun capture =>
      (language.body capture).any (fun bodyNode => bodyNode.node.children.length == 0) &&
        isCursorRightAfterNode cursorPosition capture.node.endPosition

def isCursorInEmptyFunction (language : TreeSitterLanguage) (tree : SyntaxNode)
    (cursorPosition : Point) : Bool :=
  match language.emptyFunctionQuery with
  | none => false
  | some query =>
    (query tree).any (fun capture => isCursorInBody cursorPosition capture.node) ||
      isCursorAfterEmptyPythonFunction language tree cursorPosition

/-! ## The cursor in a body -/

section Consistent

variable (hconsistent : tree.Consistent)

include hconsistent

end Consistent

end EmptyFunctionResolver

/-! ## The intent -/

/-- `CommentResolver.isCommentEmpty`: up to two letters and digits say nothing. -/
def CommentResolver.isCommentEmpty (comment : Comment tree) : Bool :=
  let trimmedContent := (JsString.trim comment.content).map fun u =>
    if u == 0x000a || u == 0x000d || u == 0x005c then 0x0020 else u
  let alphanumericCount := trimmedContent.countP fun u =>
    (0x0061 ≤ u && u ≤ 0x007a) || (0x0041 ≤ u && u ≤ 0x005a) || (0x0030 ≤ u && u ≤ 0x0039)
  alphanumericCount ≤ 2

structure IntentResolution (tree : SyntaxNode) where
  intent : Option Intent
  commentForCursor : Option (Comment tree)
  generationType : Option Streaming.GenerationType

namespace IntentResolver

open CommentResolver EmptyFunctionResolver SmallFiles

/-- `getIntent`, for the text in front of the cursor and the text behind it. -/
def getIntent (language : TreeSitterLanguage) (tree : SyntaxNode) (position : Position)
    (textBefore suffix : JsString) : IntentResolution tree :=
  let cursorPosition : Point := ⟨position.line, position.character⟩
  match getCommentForCursor language.commentQuery tree cursorPosition with
  | some (.commentAtCursor _) => ⟨some .completion, none, none⟩
  | some (.commentAboveCursor commentAboveCursor) =>
    if isCommentEmpty commentAboveCursor then ⟨some .completion, none, none⟩
    else ⟨some .generation, some commentAboveCursor, some .comment⟩
  | none =>
    let textContent := textBefore ++ suffix
    if isSmallFile textContent (getTotalCommentLines language.commentQuery tree) then
      ⟨some .generation, none, some .smallFile⟩
    else if isCursorInEmptyFunction language tree cursorPosition then
      ⟨some .generation, none, some .emptyFunction⟩
    else ⟨none, none, none⟩

section Sample

end Sample

end IntentResolver

end KhulnasoftLsp
