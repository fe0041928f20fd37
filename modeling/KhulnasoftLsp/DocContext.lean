import KhulnasoftLsp.JsString
import KhulnasoftLsp.PathSegments

/-!
# The document context of a suggestion request
-/

namespace KhulnasoftLsp

structure Position where
  line : Nat
  character : Nat
  deriving DecidableEq, Repr

structure WorkspaceFolder where
  uri : String
  name : String
  deriving DecidableEq, Repr

/-- `IDocContext`: the text around the cursor and where it comes from. -/
structure IDocContext where
  prefixText : JsString
  suffix : JsString
  fileRelativePath : String
  position : Position
  uri : String
  languageId : String
  workspaceFolder : Option WorkspaceFolder
  deriving DecidableEq, Repr

open PathSegments in
/-- The path of a URI, with the scheme as its first name, is the directory's or lies under it. -/
def UnderUri (directoryUri uri : String) : Prop := Under '/' directoryUri.toList uri.toList

open PathSegments in
/-- The path of a URI lies under the directory, and is another. -/
def ProperlyUnderUri (directoryUri uri : String) : Prop :=
  ProperlyUnder '/' directoryUri.toList uri.toList

instance (directoryUri uri : String) : Decidable (UnderUri directoryUri uri) :=
  inferInstanceAs (Decidable (PathSegments.Under '/' _ _))

instance (directoryUri uri : String) : Decidable (ProperlyUnderUri directoryUri uri) :=
  inferInstanceAs (Decidable (PathSegments.ProperlyUnder '/' _ _))

end KhulnasoftLsp
