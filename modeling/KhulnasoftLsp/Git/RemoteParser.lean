import KhulnasoftLsp.JsString
import KhulnasoftLsp.Regex

/-!
# Parsing the URL of a remote

`parseKhulnaSoftRemote` rewrites an SSH remote to a URL, has it parsed, and takes the namespace and
the slug of the project out of the path. The rewriting is a chain of patterns, of which the first
one that is found decides. The path of the instance is skipped in front of the namespace, and a
`.git` behind the slug: its dot matches any character.

The URL parser of the platform is a parameter, `tryParseUrl`.
-/

namespace KhulnasoftLsp.Git

open JsString Pattern

/-- What is read off a URL. -/
structure ParsedUrl where
  hostname : JsString
  host : JsString
  pathname : JsString
  deriving DecidableEq, Repr

structure KhulnaSoftRemote where
  host : JsString
  pathNamespace : JsString
  projectPath : JsString
  namespaceWithPath : JsString
  deriving DecidableEq, Repr

/-! ## The patterns -/

def isDigit (u : UInt16) : Bool := 0x0030 ≤ u && u ≤ 0x0039

/-- `[a-zA-Z0-9_-]` -/
def isUserChar (u : UInt16) : Bool :=
  (0x0061 ≤ u && u ≤ 0x007a) || (0x0041 ≤ u && u ≤ 0x005a) || isDigit u || u == 0x005f ||
    u == 0x002d

/-- `.` -/
def dot (u : UInt16) : Bool := u != 0x000a && u != 0x000d && u != 0x2028 && u != 0x2029

/-- `^\[([a-zA-Z0-9_-]+@.*?):\d+\](.*)$` -/
def sshRemoteWithCustomPort : Pattern UInt16 (JsString × JsString) := do
  let _ ← literal (ofString "[")
  let user ← greedy 1 isUserChar
  let _ ← literal (ofString "@")
  let host ← lazy 0 dot
  let _ ← literal (ofString ":")
  let _ ← greedy 1 isDigit
  let _ ← literal (ofString "]")
  let path ← greedy 0 dot
  let _ ← atEnd
  return (user ++ (ofString "@" ++ host), path)

/-- `^ssh://([a-zA-Z0-9_-]+@.*?):\d+(.*)$` -/
def sshRemoteWithSchemeAndCustomPort : Pattern UInt16 (JsString × JsString) := do
  let _ ← literal (ofString "ssh://")
  let user ← greedy 1 isUserChar
  let _ ← literal (ofString "@")
  let host ← lazy 0 dot
  let _ ← literal (ofString ":")
  let _ ← greedy 1 isDigit
  let path ← greedy 0 dot
  let _ ← atEnd
  return (user ++ (ofString "@" ++ host), path)

/-- `([a-zA-Z0-9_-]+@.*?):(.*)` -/
def sshRemoteWithPath : Pattern UInt16 (JsString × JsString) := do
  let user ← greedy 1 isUserChar
  let _ ← literal (ofString "@")
  let host ← lazy 0 dot
  let _ ← literal (ofString ":")
  let path ← greedy 0 dot
  return (user ++ (ofString "@" ++ host), path)

/-- `^[a-zA-Z0-9_-]+@` -/
def startingName : Pattern UInt16 JsString := do
  let user ← greedy 1 isUserChar
  let _ ← literal (ofString "@")
  return user

def sshScheme : JsString := ofString "ssh://"

def normalizeSshRemote (remote : JsString) : JsString :=
  match search atStart sshRemoteWithCustomPort remote with
  | some m => sshScheme ++ (m.value.1 ++ (ofString "/" ++ m.value.2))
  | none =>
    match search atStart sshRemoteWithSchemeAndCustomPort remote with
    | some m => sshScheme ++ (m.value.1 ++ m.value.2)
    | none =>
      match search anywhere sshRemoteWithPath remote with
      | some m => sshScheme ++ (m.value.1 ++ (ofString "/" ++ m.value.2))
      | none =>
        match search atStart startingName remote with
        | some _ => sshScheme ++ remote
        | none => remote

/-- `[^/]` -/
def notSlash (u : UInt16) : Bool := u != 0x002f

/-- `(?:.git)?/?$` -/
def pathEnd : Pattern UInt16 Unit := do
  let _ ← optional do
    let c ← char dot
    let git ← literal (ofString "git")
    return c :: git
  let _ ← optional (literal (ofString "/"))
  atEnd

/-- `/:?(.+)/([^/]+?)(?:.git)?/?$` -/
def projectPattern : Pattern UInt16 (JsString × JsString) := do
  let _ ← literal (ofString "/")
  let _ ← optional (literal (ofString ":"))
  let pathNamespace ← greedy 1 dot
  let _ ← literal (ofString "/")
  let projectPath ← lazy 1 notSlash
  let _ ← pathEnd
  return (pathNamespace, projectPath)

/-- The same, behind the path of the instance, which is escaped and so matches itself. -/
def pathPattern (instancePath : JsString) : Pattern UInt16 (JsString × JsString) := do
  let _ ← optional (literal instancePath)
  projectPattern

/-! ## The parser -/

section Parser

variable (tryParseUrl : JsString → Option ParsedUrl)

/-- `pathname.replace(/\/$/, '')` -/
def withoutTrailingSlash (pathname : JsString) : JsString :=
  if pathname.getLast? = some 0x002f then pathname.dropLast else pathname

def getInstancePath (instanceUrl : JsString) : JsString :=
  match tryParseUrl instanceUrl with
  | some url => if url.pathname ≠ [] then withoutTrailingSlash url.pathname else []
  | none => []

def parseKhulnaSoftRemote (remote instanceUrl : JsString) : Option KhulnaSoftRemote := do
  let url ← tryParseUrl (normalizeSshRemote remote)
  if url.host = [] ∨ url.pathname = [] then none
  else if some url.hostname ≠
      (tryParseUrl (normalizeSshRemote instanceUrl)).map ParsedUrl.hostname then none
  else
    let instancePath :=
      if instanceUrl ≠ [] ∨ trim instanceUrl ≠ [] then getInstancePath tryParseUrl instanceUrl
      else []
    let found ← search anywhere (pathPattern instancePath) url.pathname
    let (pathNamespace, projectPath) := found.value
    return {
      host := url.host
      pathNamespace
      projectPath
      namespaceWithPath := pathNamespace ++ (ofString "/" ++ projectPath) }

end Parser

end KhulnasoftLsp.Git
