import KhulnasoftLsp.DocContext

/-!
# From a document to its context

`getDocContext` cuts the text of a document at the cursor, and finds the workspace folder of the
document and its path in that folder. The folder is the first one whose URI the document's URI
*begins* with, so that a document of `proj-old` may be put into the folder `proj`;
`inFolder_iff` says when the folder and the path are right.

The package `vscode-languageserver-textdocument` keeps the text of a document; what is used of it is
a parameter, and `TextDocument.Lawful` says what it promises.
-/

namespace KhulnasoftLsp

/-- A range, up to its `end`. -/
structure Range where
  start : Position
  stop : Position
  deriving DecidableEq, Repr

structure TextDocument where
  uri : String
  languageId : String
  text : JsString
  offsetAt : Position → Nat
  positionAt : Nat → Position

namespace TextDocument

/-- `getText(range)` -/
def getText (range : Range) (document : TextDocument) : JsString :=
  JsString.substring (document.offsetAt range.start) (document.offsetAt range.stop) document.text

/-- Offsets are those of the text, and the positions of its two ends are found again. -/
structure Lawful (document : TextDocument) : Prop where
  offsetAt_le : ∀ position, document.offsetAt position ≤ document.text.length
  offsetAt_start : document.offsetAt (document.positionAt 0) = 0
  offsetAt_end : document.offsetAt (document.positionAt document.text.length) =
    document.text.length

end TextDocument

/-- At runtime, the range of the selected completion may be an array of its two ends. -/
inductive ProtocolRange where
  | object (range : Range)
  | array (start stop : Position)
  deriving DecidableEq, Repr

def sanitizeRange : ProtocolRange → Range
  | .array start stop => ⟨start, stop⟩
  | .object range => range

/-- The entry of the completion popup that is selected, and the range that it would replace. -/
structure SelectedCompletionInfo where
  range : ProtocolRange
  text : JsString
  deriving DecidableEq, Repr

structure InlineCompletionContext where
  selectedCompletionInfo : Option SelectedCompletionInfo
  deriving DecidableEq, Repr

/-! ## Paths -/

/-- A language of tree-sitter, as far as file names are concerned. -/
structure TreeSitterLanguageInfo where
  name : String
  extensions : List String
  editorLanguageIds : List String
  deriving DecidableEq, Repr

def commonTreeSitterLanguages : List TreeSitterLanguageInfo :=
  [⟨"c", [".c"], ["c"]⟩, ⟨"cpp", [".cpp"], ["cpp"]⟩, ⟨"c_sharp", [".cs"], ["csharp"]⟩,
    ⟨"css", [".css"], ["css"]⟩, ⟨"go", [".go"], ["go"]⟩, ⟨"java", [".java"], ["java"]⟩,
    ⟨"javascript", [".js"], ["javascript"]⟩, ⟨"python", [".py"], ["python"]⟩,
    ⟨"ruby", [".rb"], ["ruby"]⟩, ⟨"scala", [".scala"], ["scala"]⟩,
    ⟨"typescript", [".ts"], ["typescript"]⟩,
    ⟨"tsx", [".tsx", ".jsx"], ["typescriptreact", "javascriptreact"]⟩,
    ⟨"kotlin", [".kt"], ["kotlin"]⟩, ⟨"powershell", [".ps1"], ["powershell"]⟩,
    ⟨"rust", [".rs"], ["rust"]⟩, ⟨"yaml", [".yaml", ".yml"], ["yaml"]⟩,
    ⟨"html", [".html"], ["html"]⟩,
    ⟨"bash", [".sh", ".bash", ".bashrc", ".bash_profile"], ["shellscript"]⟩,
    ⟨"json", [".json"], ["json"]⟩]

def getFileExtensionByLanguageId (languageId : String) : String :=
  (commonTreeSitterLanguages.findSome? fun lang =>
    (lang.editorLanguageIds.idxOf? languageId).map fun index =>
      (lang.extensions[index]?).getD (lang.extensions.headD "")).getD ""

/-- The name does not end in a dot and at least one character that is neither a dot nor a `/`. -/
def fileNeedsExtension (fileName : String) : Bool :=
  let reversed := fileName.toList.reverse
  let extension := reversed.takeWhile fun c => c != '/' && c != '.'
  !(!extension.isEmpty && (reversed.drop extension.length).head? == some '.')

def getMatchingWorkspaceFolder (fileUri : String) (workspaceFolders : List WorkspaceFolder) :
    Option WorkspaceFolder :=
  workspaceFolders.find? fun wf => wf.uri.toList.isPrefixOf fileUri.toList

/-- What is behind the URI of the workspace folder, which the file's URI begins with, without a
leading `/`; and the last name of the URI, if there is no workspace folder. -/
def getRelativePath (fileUri : String) : Option WorkspaceFolder → String
  | none => String.ofList
    ((fileUri.toList.splitOnP fun c => c == '/' || c == Char.ofNat 0x5c).getLastD [])
  | some workspaceFolder =>
    match fileUri.toList.drop workspaceFolder.uri.toList.length with
    | '/' :: rest => String.ofList rest
    | rest => String.ofList rest

/-- A relative path, with the extension that `getDocContext` appends to it where it has none. -/
def withExtension (languageId fileRelativePath : String) : String :=
  if fileNeedsExtension fileRelativePath then
    fileRelativePath ++ getFileExtensionByLanguageId languageId
  else fileRelativePath

/-- With a selected completion, the text before the cursor goes on as if it were accepted. -/
def getDocContext (document : TextDocument) (position : Position)
    (workspaceFolders : List WorkspaceFolder)
    (completionContext : Option InlineCompletionContext) : IDocContext :=
  let prefixText := match completionContext.bind (·.selectedCompletionInfo) with
    | some selectedCompletionInfo =>
      let range := sanitizeRange selectedCompletionInfo.range
      document.getText ⟨document.positionAt 0, range.start⟩ ++ selectedCompletionInfo.text
    | none => document.getText ⟨document.positionAt 0, position⟩
  let workspaceFolder := getMatchingWorkspaceFolder document.uri workspaceFolders
  let fileRelativePath := getRelativePath document.uri workspaceFolder
  { prefixText := prefixText
    suffix := document.getText ⟨position, document.positionAt document.text.length⟩
    fileRelativePath := withExtension document.languageId fileRelativePath
    position := position
    uri := document.uri
    languageId := document.languageId
    workspaceFolder := workspaceFolder }

/-! ## The folder of a document -/

/-- The workspace folder of the context contains the document, and the document's URI is that of
the folder, a `/` and the relative path, as it is before an extension is appended. -/
def InFolder (context : IDocContext) : Prop :=
  ∀ wf ∈ context.workspaceFolder, UnderUri wf.uri context.uri ∧
    ∃ fileRelativePath,
      context.fileRelativePath = withExtension context.languageId fileRelativePath ∧
        wf.uri ++ "/" ++ fileRelativePath = context.uri

/-- In the document's URI, a `/` follows the URI of the first workspace folder that it begins
with. -/
def FollowedBySlash (uri : String) (workspaceFolders : List WorkspaceFolder) : Prop :=
  ∀ before wf after, workspaceFolders = before ++ wf :: after →
    (∀ other ∈ before, ¬ other.uri.toList <+: uri.toList) → wf.uri.toList <+: uri.toList →
      (wf.uri ++ "/").toList <+: uri.toList

theorem getMatchingWorkspaceFolder_eq_some {uri : String} {workspaceFolders : List WorkspaceFolder}
    {wf : WorkspaceFolder} :
    getMatchingWorkspaceFolder uri workspaceFolders = some wf ↔
      wf.uri.toList <+: uri.toList ∧ ∃ before after, workspaceFolders = before ++ wf :: after ∧
        ∀ other ∈ before, ¬ other.uri.toList <+: uri.toList := by
  have hbegins : ∀ other : WorkspaceFolder,
      (other.uri.toList.isPrefixOf uri.toList = false) = ¬ other.uri.toList <+: uri.toList := by
    intro other
    rw [← List.isPrefixOf_iff_prefix, Bool.not_eq_true]
  rw [getMatchingWorkspaceFolder, List.find?_eq_some_iff_append]
  simp [hbegins]

/-- What is left of a URI behind the folder's URI and a `/`. -/
theorem getRelativePath_of_slash {uri : String} {wf : WorkspaceFolder} {rest : List Char}
    (h : uri.toList = wf.uri.toList ++ '/' :: rest) :
    getRelativePath uri (some wf) = String.ofList rest := by
  rw [getRelativePath, h, List.drop_left]
  rfl

theorem followedBySlash_iff {uri : String} {workspaceFolders : List WorkspaceFolder} :
    FollowedBySlash uri workspaceFolders ↔
      ∀ wf, getMatchingWorkspaceFolder uri workspaceFolders = some wf →
        ∃ rest, uri.toList = wf.uri.toList ++ '/' :: rest := by
  have hslash : ∀ wf : WorkspaceFolder, (wf.uri ++ "/").toList <+: uri.toList ↔
      ∃ rest, uri.toList = wf.uri.toList ++ '/' :: rest := by
    intro wf
    rw [String.toList_append]
    constructor
    · rintro ⟨rest, hrest⟩
      exact ⟨rest, by rw [← hrest, List.append_assoc]; rfl⟩
    · rintro ⟨rest, hrest⟩
      exact ⟨rest, by rw [hrest, List.append_assoc]; rfl⟩
  constructor
  · intro h wf hwf
    obtain ⟨hbegins, before, after, hsplit, hnone⟩ := getMatchingWorkspaceFolder_eq_some.mp hwf
    exact (hslash wf).mp (h before wf after hsplit hnone hbegins)
  · intro h before wf after hsplit hnone hbegins
    apply (hslash wf).mpr
    exact h wf (getMatchingWorkspaceFolder_eq_some.mpr ⟨hbegins, before, after, hsplit, hnone⟩)

/-- **The folder of a document.** The context of a document names a folder that contains it, and its
path in that folder, if and only if a `/` follows the URI of the first folder that the document's
URI begins with. -/
theorem inFolder_iff (document : TextDocument) (position : Position)
    (workspaceFolders : List WorkspaceFolder)
    (completionContext : Option InlineCompletionContext) :
    InFolder (getDocContext document position workspaceFolders completionContext) ↔
      FollowedBySlash document.uri workspaceFolders := by
  rw [followedBySlash_iff]
  constructor
  · intro h wf hwf
    obtain ⟨-, fileRelativePath, -, huri⟩ := h wf hwf
    refine ⟨fileRelativePath.toList, ?_⟩
    have huri' : wf.uri ++ "/" ++ fileRelativePath = document.uri := huri
    rw [← huri', String.toList_append, String.toList_append, List.append_assoc]
    rfl
  · intro h wf hwf
    have hwf' : getMatchingWorkspaceFolder document.uri workspaceFolders = some wf := hwf
    obtain ⟨rest, hrest⟩ := h wf hwf'
    refine ⟨?_, String.ofList rest, ?_, ?_⟩
    · show PathSegments.Under '/' wf.uri.toList document.uri.toList
      rw [hrest]
      exact PathSegments.under_append_cons _ _
    · show withExtension document.languageId (getRelativePath document.uri
        (getMatchingWorkspaceFolder document.uri workspaceFolders)) = _
      rw [hwf', getRelativePath_of_slash hrest]
      rfl
    · show wf.uri ++ "/" ++ String.ofList rest = document.uri
      apply String.toList_injective
      simp [hrest]

/-- A document with one line of text, for which offsets are characters. -/
def lineDocument (uri : String) (text : JsString) : TextDocument where
  uri := uri
  languageId := "typescript"
  text := text
  offsetAt position := if position.line = 0 then min position.character text.length else text.length
  positionAt offset := ⟨0, min offset text.length⟩

/-- A document of the folder `proj-old` is put into its sibling `proj`. -/
theorem not_inFolder_of_sibling :
    ¬ InFolder (getDocContext (lineDocument "file:///w/proj-old/a.ts" []) ⟨0, 0⟩
      [⟨"file:///w/proj", "proj"⟩, ⟨"file:///w/proj-old", "proj-old"⟩] none) := by
  intro h
  have hunder := (h ⟨"file:///w/proj", "proj"⟩ (by decide +kernel)).1
  revert hunder
  decide +kernel

end KhulnasoftLsp
