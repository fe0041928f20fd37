import KhulnasoftLsp.Transition
import KhulnasoftLsp.Trie
import KhulnasoftLsp.Utf8

/-!
# The repositories of a workspace folder

`#workspaceToRepositories` keeps, for each workspace folder, the repositories that were detected in
it, and a `FastDirectoryMatcher` that finds the repository of a file. A rebuild clears the folder,
creates a `Repository` for each git config file and adds it to the folder, all before its first
`await`.

`getMatchingRepository_spec` says that the matcher and the map belong together in every state: a
file finds the innermost repository around it. `owned_iff` says when no repository gets lost: the
repositories of a folder that is cleared are looked for after its entry has been deleted, so that
none of them is disposed.
-/

namespace KhulnasoftLsp.Git

open Transition

/-! ## Path segments -/

abbrev Segment := List Char

def hexDigit (c : Char) : Option Nat :=
  if '0' ≤ c ∧ c ≤ '9' then some (c.toNat - 48)
  else if 'A' ≤ c ∧ c ≤ 'F' then some (c.toNat - 55)
  else if 'a' ≤ c ∧ c ≤ 'f' then some (c.toNat - 87)
  else none

/-- The text of bytes that were escaped, if they are well-formed UTF-8. -/
def decodeEscaped (bytes : List UInt8) : Option (List Char) :=
  if Utf8.encode (Utf8.decode bytes) = bytes then some (Utf8.decode bytes) else none

/-- `decodeURIComponent`, behind the escaped bytes that have been read. It throws at what is not
well formed. -/
def decodeURIComponent (bytes : List UInt8) : List Char → Option (List Char)
  | [] => decodeEscaped bytes
  | '%' :: high :: low :: rest => do
    let high ← hexDigit high
    let low ← hexDigit low
    decodeURIComponent (bytes ++ [UInt8.ofNat (16 * high + low)]) rest
  | c :: rest =>
    if c = '%' then none
    else do
      let text ← decodeEscaped bytes
      let more ← decodeURIComponent [] rest
      return text ++ c :: more

def isSeparator (c : Char) : Bool := c == '/' || c == Char.ofNat 0x5c

def splitPath (path : String) : Option (List Segment) :=
  (decodeURIComponent [] path.toList).map fun decodedPath =>
    (decodedPath.splitOnP isSeparator).filter fun part => !part.isEmpty

/-- What is used of the package `vscode-uri`. -/
structure UriPackage (URI : Type) where
  toString : URI → String
  parse : String → URI
  resolvePath : URI → List String → URI

namespace UriPackage

variable {URI : Type}

/-- To print and to parse a URI are inverse; and the string of a URI, which begins with its scheme,
is one that can be decoded. -/
structure Lawful (uris : UriPackage URI) : Prop where
  parse_toString : ∀ uri, uris.parse (uris.toString uri) = uri
  splitPath : ∀ uri, ∃ segments, splitPath (uris.toString uri) = some segments ∧ segments ≠ []

/-- The second law in a form that can be evaluated at each URI. -/
theorem Lawful.of_any {uris : UriPackage URI}
    (hparse : ∀ uri, uris.parse (uris.toString uri) = uri)
    (hany : ∀ uri, (Git.splitPath (uris.toString uri)).any (fun segments => !segments.isEmpty) =
      true) : uris.Lawful where
  parse_toString := hparse
  splitPath := by
    intro uri
    obtain ⟨segments, hsegments, hne⟩ := (Option.any_eq_true _ _).mp (hany uri)
    exact ⟨segments, hsegments, by simpa using hne⟩

end UriPackage

section Service

variable {URI : Type} (uris : UriPackage URI)

/-! ## The matcher -/

/-- The nodes keep the string of the directory that ends at them, their `dirToMatch`. -/
abbrev FastDirectoryMatcher := Trie Segment String

namespace FastDirectoryMatcher

def new : FastDirectoryMatcher := Trie.empty

def addDirectoryToMatch (directoryUri : URI) (m : FastDirectoryMatcher) :
    Option FastDirectoryMatcher :=
  (splitPath (uris.toString directoryUri)).map fun pathSegments =>
    m.insert pathSegments (uris.toString directoryUri)

def findMatchingDirectories (uri : URI) (m : FastDirectoryMatcher) : Option (List URI) :=
  (splitPath (uris.toString uri)).map fun parts =>
    ((m.walk parts).filter fun dirToMatch => dirToMatch != "").map uris.parse

end FastDirectoryMatcher

/-! ## The service -/

/-- A `Repository` object. -/
structure RepositoryObject (URI : Type) where
  uri : URI
  configFileUri : URI
  disposed : Bool
  deriving DecidableEq, Repr

/-- An entry of `#workspaceToRepositories`. The repositories are named by their place among all that
were ever created. -/
structure WorkspaceRepositories where
  fastDirectoryMatcher : FastDirectoryMatcher
  repositories : OrderedMap String Nat

structure Registrations (URI : Type) where
  /-- The `Repository` objects that were ever created. -/
  objects : List (RepositoryObject URI)
  workspaceToRepositories : OrderedMap String WorkspaceRepositories

namespace Registrations

def new : Registrations URI := ⟨[], .empty⟩

def getRepositoriesForWorkspace (workspaceFolderUri : String) (s : Registrations URI) :
    OrderedMap String Nat :=
  ((s.workspaceToRepositories.get workspaceFolderUri).map
    WorkspaceRepositories.repositories).getD .empty

def getDirectoryMatcherForWorkspace (workspaceFolderUri : String) (s : Registrations URI) :
    FastDirectoryMatcher :=
  ((s.workspaceToRepositories.get workspaceFolderUri).map
    WorkspaceRepositories.fastDirectoryMatcher).getD .new

/-- `#addRepositoryToWorkspace`. It is `none` if it throws, and has changed nothing then. -/
def addRepositoryToWorkspace (workspaceFolderUri : String) (repository : URI × Nat)
    (s : Registrations URI) : Option (Registrations URI) := do
  let fastDirectoryMatcher ← FastDirectoryMatcher.addDirectoryToMatch uris repository.1
    (s.getDirectoryMatcherForWorkspace workspaceFolderUri)
  let repositories := (s.getRepositoriesForWorkspace workspaceFolderUri).set
    (uris.toString repository.1) repository.2
  return { s with
    workspaceToRepositories := s.workspaceToRepositories.set workspaceFolderUri
      { fastDirectoryMatcher, repositories } }

/-- The loop that adds the detected repositories, up to the first one for which it throws. -/
def addRepositories (workspaceFolderUri : String) :
    List (URI × Nat) → Registrations URI → Registrations URI
  | [], s => s
  | repository :: repositories, s =>
    match s.addRepositoryToWorkspace uris workspaceFolderUri repository with
    | none => s
    | some t => addRepositories workspaceFolderUri repositories t

/-- `Repository.dispose` -/
def dispose (repository : Nat) (s : Registrations URI) : Registrations URI :=
  { s with objects := s.objects.modify repository fun o => { o with disposed := true } }

/-- `#clearRepositoriesForWorkspace`. The matcher that it disposes is that of the entry. -/
def clearRepositoriesForWorkspace (workspaceFolderUri : String) (s : Registrations URI) :
    Registrations URI :=
  let s := { s with
    workspaceToRepositories := s.workspaceToRepositories.delete workspaceFolderUri }
  let repositoryMap := s.getRepositoriesForWorkspace workspaceFolderUri
  let s := repositoryMap.entries.foldl (fun s e => s.dispose e.2) s
  { s with workspaceToRepositories := s.workspaceToRepositories.delete workspaceFolderUri }

def isGitConfigFile (file : URI) : Bool :=
  decide ("/.git/config".toList <:+ (uris.toString file).toList) ||
    decide ("\\.git\\config".toList <:+ (uris.toString file).toList)

def getRepoRootFromGitConfig (gitConfigUri : URI) : URI :=
  uris.resolvePath gitConfigUri ["..", ".."]

/-- The repositories that `#detectRepositories` creates. -/
def detectRepositories (files : List URI) : List (RepositoryObject URI) :=
  (files.filter (isGitConfigFile uris)).map fun file =>
    { uri := getRepoRootFromGitConfig uris file, configFileUri := file, disposed := false }

/-- `#setWorkspaceRepositories`, up to its `await`. -/
def setWorkspaceRepositories (workspaceFolderUri : String) (files : List URI)
    (s : Registrations URI) : Registrations URI :=
  let s := s.clearRepositoriesForWorkspace workspaceFolderUri
  let repositories := detectRepositories uris files
  let created := (repositories.map RepositoryObject.uri).zipIdx s.objects.length
  addRepositories uris workspaceFolderUri created { s with objects := s.objects ++ repositories }

/-- `#getRepositoryUriForFile`; it is `none` if it throws. -/
def getRepositoryUriForFile (fileUri : URI) (workspaceFolderUri : String)
    (s : Registrations URI) : Option (Option URI) :=
  (FastDirectoryMatcher.findMatchingDirectories uris fileUri
    (s.getDirectoryMatcherForWorkspace workspaceFolderUri)).map List.getLast?

/-- `getMatchingRepository`; it is `none` if it throws. -/
def getMatchingRepository (fileUri : URI) (workspaceFolderUri : String) (s : Registrations URI) :
    Option (Option Nat) :=
  (s.getRepositoryUriForFile uris fileUri workspaceFolderUri).map fun repositoryUri =>
    repositoryUri.bind fun uri =>
      (s.getRepositoriesForWorkspace workspaceFolderUri).get (uris.toString uri)

/-- A rebuild of the folder for these files, up to its `await`. Nothing else changes which
repositories there are. -/
structure Rebuilt (URI : Type) where
  workspaceFolderUri : String
  files : List URI
  deriving DecidableEq, Repr

def step (s : Registrations URI) (a : Rebuilt URI) : Option (Registrations URI) :=
  some (s.setWorkspaceRepositories uris a.workspaceFolderUri a.files)

/-! ## Registered repositories -/

/-- The repository is in the map of the folder. -/
def Registered (s : Registrations URI) (workspaceFolderUri : String) (r : Nat) : Prop :=
  ∃ key, (s.getRepositoriesForWorkspace workspaceFolderUri).get key = some r

/-- The path segments of a repository. -/
def pathOf (s : Registrations URI) (r : Nat) : Option (List Segment) :=
  s.objects[r]?.bind fun o => splitPath (uris.toString o.uri)

/-- The repository is registered for the folder and around the file, and no other one that is has
a longer path. -/
structure Innermost (s : Registrations URI) (workspaceFolderUri : String)
    (segments : List Segment) (r : Nat) : Prop where
  registered : s.Registered workspaceFolderUri r
  longest : ∃ path, s.pathOf uris r = some path ∧ path <+: segments ∧
    ∀ r' path', s.Registered workspaceFolderUri r' → s.pathOf uris r' = some path' →
      path' <+: segments → path'.length ≤ path.length

variable {uris}

/-! ## What a rebuild does to the folders -/

@[simp] theorem getRepositoriesForWorkspace_set (s : Registrations URI) (w w' : String)
    (e : WorkspaceRepositories) (objects : List (RepositoryObject URI)) :
    getRepositoriesForWorkspace w' ⟨objects, s.workspaceToRepositories.set w e⟩ =
      if w' = w then e.repositories else s.getRepositoriesForWorkspace w' := by
  unfold getRepositoriesForWorkspace
  dsimp only
  rw [OrderedMap.get_set]
  split <;> rfl

@[simp] theorem getDirectoryMatcherForWorkspace_set (s : Registrations URI) (w w' : String)
    (e : WorkspaceRepositories) (objects : List (RepositoryObject URI)) :
    getDirectoryMatcherForWorkspace w' ⟨objects, s.workspaceToRepositories.set w e⟩ =
      if w' = w then e.fastDirectoryMatcher else s.getDirectoryMatcherForWorkspace w' := by
  unfold getDirectoryMatcherForWorkspace
  dsimp only
  rw [OrderedMap.get_set]
  split <;> rfl

@[simp] theorem getRepositoriesForWorkspace_delete (s : Registrations URI) (w w' : String)
    (objects : List (RepositoryObject URI)) :
    getRepositoriesForWorkspace w' ⟨objects, s.workspaceToRepositories.delete w⟩ =
      if w' = w then .empty else s.getRepositoriesForWorkspace w' := by
  unfold getRepositoriesForWorkspace
  dsimp only
  rw [OrderedMap.get_delete]
  split <;> rfl

@[simp] theorem getDirectoryMatcherForWorkspace_delete (s : Registrations URI) (w w' : String)
    (objects : List (RepositoryObject URI)) :
    getDirectoryMatcherForWorkspace w' ⟨objects, s.workspaceToRepositories.delete w⟩ =
      if w' = w then .new else s.getDirectoryMatcherForWorkspace w' := by
  unfold getDirectoryMatcherForWorkspace
  dsimp only
  rw [OrderedMap.get_delete]
  split <;> rfl

/-- **What clearing a folder does**: its entry is deleted. The repositories are looked for in the
entry that is gone, and none is disposed. -/
theorem clearRepositoriesForWorkspace_eq (w : String) (s : Registrations URI) :
    s.clearRepositoriesForWorkspace w =
      ⟨s.objects, s.workspaceToRepositories.delete w⟩ := by
  have htwice : (s.workspaceToRepositories.delete w).delete w =
      s.workspaceToRepositories.delete w := by
    unfold OrderedMap.delete
    simp
  have hnone : getRepositoriesForWorkspace w
      ⟨s.objects, s.workspaceToRepositories.delete w⟩ = .empty := by simp
  unfold clearRepositoriesForWorkspace
  dsimp only
  rw [hnone]
  show Registrations.mk s.objects ((s.workspaceToRepositories.delete w).delete w) = _
  rw [htwice]

/-- What it does to add a repository to a folder. -/
theorem addRepositoryToWorkspace_eq_some {w : String} {repository : URI × Nat}
    {s t : Registrations URI} (h : s.addRepositoryToWorkspace uris w repository = some t) :
    ∃ path, splitPath (uris.toString repository.1) = some path ∧
      t = ⟨s.objects, s.workspaceToRepositories.set w
        { fastDirectoryMatcher := (s.getDirectoryMatcherForWorkspace w).insert path
            (uris.toString repository.1)
          repositories := (s.getRepositoriesForWorkspace w).set (uris.toString repository.1)
            repository.2 }⟩ := by
  unfold addRepositoryToWorkspace FastDirectoryMatcher.addDirectoryToMatch at h
  obtain ⟨matcher, hmatcher, h⟩ := Option.bind_eq_some_iff.mp h
  obtain ⟨path, hpath, rfl⟩ := Option.map_eq_some_iff.mp hmatcher
  cases h
  exact ⟨path, hpath, rfl⟩

/-! ## The matcher and the map belong together -/

variable (uris) in
/-- Each repository of the map has a node in the matcher, and each node with a directory is that of
a repository of the map. -/
structure Matches (objects : List (RepositoryObject URI)) (matcher : FastDirectoryMatcher)
    (repositories : OrderedMap String Nat) : Prop where
  found : ∀ key r, repositories.get key = some r →
    ∃ o, objects[r]? = some o ∧ uris.toString o.uri = key ∧
      ∃ path, splitPath key = some path ∧ (matcher.get path).isSome = true
  kept : ∀ path key, matcher.get path = some key →
    splitPath key = some path ∧ (repositories.get key).isSome = true

theorem Matches.empty (objects : List (RepositoryObject URI)) :
    Matches uris objects .new .empty where
  found := by
    intro key r h
    cases h
  kept := by
    intro path key h
    rw [FastDirectoryMatcher.new, Trie.get_empty] at h
    cases h

theorem Matches.append {objects more : List (RepositoryObject URI)}
    {matcher : FastDirectoryMatcher} {repositories : OrderedMap String Nat}
    (h : Matches uris objects matcher repositories) :
    Matches uris (objects ++ more) matcher repositories where
  found := by
    intro key r hr
    obtain ⟨o, ho, hkey⟩ := h.found key r hr
    refine ⟨o, ?_, hkey⟩
    rw [List.getElem?_append_left (List.getElem?_eq_some_iff.mp ho).1, ho]
  kept := h.kept

/-- A repository is added to both. -/
theorem Matches.add {objects : List (RepositoryObject URI)} {matcher : FastDirectoryMatcher}
    {repositories : OrderedMap String Nat} (h : Matches uris objects matcher repositories)
    {o : RepositoryObject URI} {r : Nat} (ho : objects[r]? = some o) {path : List Segment}
    (hpath : splitPath (uris.toString o.uri) = some path) :
    Matches uris objects (matcher.insert path (uris.toString o.uri))
      (repositories.set (uris.toString o.uri) r) where
  found := by
    intro key r' hr'
    rw [OrderedMap.get_set] at hr'
    split at hr'
    · next hkey =>
      cases hr'
      exact ⟨o, ho, hkey.symm, path, hkey ▸ hpath, by rw [Trie.get_insert, if_pos rfl]; rfl⟩
    · obtain ⟨o', ho', hkey, path', hpath', hsome⟩ := h.found key r' hr'
      refine ⟨o', ho', hkey, path', hpath', ?_⟩
      rw [Trie.get_insert]
      split
      · rfl
      · exact hsome
  kept := by
    intro path' key hkey
    rw [Trie.get_insert] at hkey
    rw [OrderedMap.get_set]
    split at hkey
    · next heq =>
      cases hkey
      rw [if_pos rfl, heq]
      exact ⟨hpath, rfl⟩
    · obtain ⟨hsplit, hsome⟩ := h.kept path' key hkey
      refine ⟨hsplit, ?_⟩
      split
      · rfl
      · exact hsome

variable (uris) in
/-- In every folder, the matcher and the map belong together. -/
def Consistent (s : Registrations URI) : Prop :=
  ∀ w, Matches uris s.objects (s.getDirectoryMatcherForWorkspace w)
    (s.getRepositoriesForWorkspace w)

theorem Consistent.addRepositories {w : String} : ∀ {repositories : List (URI × Nat)}
    {s : Registrations URI}, s.Consistent uris →
    (∀ p ∈ repositories, ∃ o, s.objects[p.2]? = some o ∧ o.uri = p.1) →
      (s.addRepositories uris w repositories).Consistent uris := by
  intro repositories
  induction repositories with
  | nil =>
      intro s hs _
      exact hs
  | cons repository repositories ih =>
      intro s hs hobjects
      obtain ⟨⟨o, ho, huri⟩, hrest⟩ := List.forall_mem_cons.mp hobjects
      rw [Registrations.addRepositories]
      split
      · exact hs
      · next t ht =>
        obtain ⟨path, hpath, rfl⟩ := addRepositoryToWorkspace_eq_some ht
        apply ih
        · intro w'
          rw [getDirectoryMatcherForWorkspace_set, getRepositoriesForWorkspace_set]
          split
          · rw [← huri] at hpath ⊢
            exact (hs w).add ho hpath
          · exact hs w'
        · exact hrest

theorem Consistent.setWorkspaceRepositories {s : Registrations URI} (hs : s.Consistent uris)
    (w : String) (files : List URI) :
    (s.setWorkspaceRepositories uris w files).Consistent uris := by
  unfold Registrations.setWorkspaceRepositories
  dsimp only
  rw [clearRepositoriesForWorkspace_eq]
  apply Consistent.addRepositories
  · intro w'
    apply Matches.append
    rw [getDirectoryMatcherForWorkspace_delete, getRepositoriesForWorkspace_delete]
    split
    · exact Matches.empty _
    · exact hs w'
  · rintro ⟨uri, r⟩ hmem
    obtain ⟨hle, hget⟩ := List.mem_zipIdx_iff_le_and_getElem?_sub.mp hmem
    rw [List.getElem?_map] at hget
    obtain ⟨o, ho, rfl⟩ := Option.map_eq_some_iff.mp hget
    refine ⟨o, ?_, rfl⟩
    rw [List.getElem?_append_right hle]
    exact ho

theorem consistent_new : (Registrations.new : Registrations URI).Consistent uris :=
  fun _ => Matches.empty _

theorem consistent_of_run {actions : List (Rebuilt URI)} {s : Registrations URI}
    (h : run (Registrations.step uris) .new actions = some s) : s.Consistent uris := by
  apply run_invariant (I := Consistent uris) _ consistent_new h
  intro s a t hs hstep
  cases hstep
  exact hs.setWorkspaceRepositories a.workspaceFolderUri a.files

/-! ## The repository of a file -/

theorem splitPath_empty : splitPath "" = some [] := by decide

theorem pathOf_eq {s : Registrations URI} {r : Nat} {o : RepositoryObject URI}
    (ho : s.objects[r]? = some o) : s.pathOf uris r = splitPath (uris.toString o.uri) := by
  rw [pathOf, ho, Option.bind_some]

/-- A registered repository has a node in the matcher of its folder. -/
theorem Consistent.node {s : Registrations URI} (hs : s.Consistent uris) {w : String} {r : Nat}
    (hr : s.Registered w r) {path : List Segment} (hpath : s.pathOf uris r = some path) :
    ((s.getDirectoryMatcherForWorkspace w).get path).isSome = true := by
  obtain ⟨key, hkey⟩ := hr
  obtain ⟨o, ho, rfl, path', hpath', hsome⟩ := (hs w).found key r hkey
  rw [pathOf_eq ho, hpath'] at hpath
  cases hpath
  exact hsome

/-- What the matcher of a folder finds. -/
theorem Consistent.getRepositoryUriForFile {s : Registrations URI} (hs : s.Consistent uris)
    {w : String} {file : URI} {segments : List Segment}
    (hfile : splitPath (uris.toString file) = some segments) :
    s.getRepositoryUriForFile uris file w =
      some (((s.getDirectoryMatcherForWorkspace w).walk segments).getLast?.map uris.parse) := by
  have hall : ((s.getDirectoryMatcherForWorkspace w).walk segments).filter
      (fun dirToMatch => dirToMatch != "") =
        (s.getDirectoryMatcherForWorkspace w).walk segments := by
    apply List.filter_eq_self.mpr
    intro key hkey
    obtain ⟨start, -, hne, hget⟩ := Trie.mem_walk_iff.mp hkey
    have hsplit := ((hs w).kept start key hget).1
    rw [bne_iff_ne]
    rintro rfl
    rw [splitPath_empty] at hsplit
    exact hne (Option.some.inj hsplit).symm
  rw [Registrations.getRepositoryUriForFile, FastDirectoryMatcher.findMatchingDirectories, hfile,
    Option.map_some, Option.map_some, hall, List.getLast?_map]

theorem Consistent.getMatchingRepository {s : Registrations URI} (hs : s.Consistent uris)
    (hlawful : uris.Lawful) (w : String) {file : URI} {segments : List Segment}
    (hfile : splitPath (uris.toString file) = some segments) :
    ∃ result, s.getMatchingRepository uris file w = some result ∧
      (∀ r, result = some r → s.Innermost uris w segments r) ∧
      (result = none ↔
        ∀ r path, s.Registered w r → s.pathOf uris r = some path → ¬ path <+: segments) := by
  rw [Registrations.getMatchingRepository, hs.getRepositoryUriForFile hfile, Option.map_some]
  refine ⟨_, rfl, ?_⟩
  cases hlast : ((s.getDirectoryMatcherForWorkspace w).walk segments).getLast? with
  | none =>
      refine ⟨by simp, ?_⟩
      simp only [Option.map_none, Option.bind_none, true_iff]
      intro r path hr hpath hstart
      obtain ⟨key, hkey⟩ := Option.isSome_iff_exists.mp (hs.node hr hpath)
      have hne : path ≠ [] := by
        obtain ⟨o, -, hsplit⟩ := Option.bind_eq_some_iff.mp hpath
        obtain ⟨segments', hsegments', hne⟩ := hlawful.splitPath o.uri
        rw [hsplit] at hsegments'
        cases hsegments'
        exact hne
      have hmem := Trie.mem_walk_iff.mpr ⟨path, hstart, hne, hkey⟩
      rw [List.getLast?_eq_none_iff.mp hlast] at hmem
      cases hmem
  | some key =>
      obtain ⟨start, hstart, hget, hlongest⟩ := Trie.getLast?_walk hlast
      obtain ⟨hsplit, hregistered⟩ := (hs w).kept start key hget
      obtain ⟨r, hr⟩ := Option.isSome_iff_exists.mp hregistered
      obtain ⟨o, ho, rfl, -⟩ := (hs w).found key r hr
      have hpath : s.pathOf uris r = some start := (pathOf_eq ho).trans hsplit
      simp only [Option.map_some, Option.bind_some, hlawful.parse_toString, hr]
      constructor
      · rintro r' ⟨⟩
        refine ⟨⟨_, hr⟩, start, hpath, hstart, ?_⟩
        intro r' path' hr' hpath' hstart'
        exact hlongest path' hstart' (hs.node hr' hpath')
      · simp only [reduceCtorEq, false_iff]
        intro h
        exact h r start ⟨_, hr⟩ hpath hstart

end Registrations

/-- **The repository of a file.** After any rebuilds, `getMatchingRepository` returns the innermost
of the registered repositories around the file, and `undefined` exactly if there is none. -/
theorem getMatchingRepository_spec (hlawful : uris.Lawful)
    (actions : List (Registrations.Rebuilt URI)) (s : Registrations URI)
    (h : run (Registrations.step uris) .new actions = some s) (workspaceFolderUri : String)
    (fileUri : URI) :
    ∃ segments result, splitPath (uris.toString fileUri) = some segments ∧
      s.getMatchingRepository uris fileUri workspaceFolderUri = some result ∧
      (∀ r, result = some r → s.Innermost uris workspaceFolderUri segments r) ∧
      (result = none ↔ ∀ r path, s.Registered workspaceFolderUri r →
        s.pathOf uris r = some path → ¬ path <+: segments) := by
  obtain ⟨segments, hfile, -⟩ := hlawful.splitPath fileUri
  obtain ⟨result, hresult⟩ := (Registrations.consistent_of_run h).getMatchingRepository hlawful
    workspaceFolderUri hfile
  exact ⟨segments, result, hfile, hresult⟩

/-! ## What becomes of the repositories -/

namespace Registrations

variable {uris}

/-- Every `Repository` that was created has been disposed or is registered. -/
def Owned (s : Registrations URI) : Prop :=
  ∀ r o, s.objects[r]? = some o → o.disposed = true ∨ ∃ w, s.Registered w r

variable (uris) in
/-- The folder that is rebuilt has no repository, and no two of those that are detected in it have
the same URI. -/
def BuildsFirst (s : Registrations URI) (a : Rebuilt URI) : Prop :=
  (s.getRepositoriesForWorkspace a.workspaceFolderUri).entries = [] ∧
    ((detectRepositories uris a.files).map fun o => uris.toString o.uri).Nodup

/-- Each repository is registered at one place at most, and none has been disposed. -/
structure Traced (s : Registrations URI) : Prop where
  created : ∀ w r, s.Registered w r → r < s.objects.length
  once : ∀ w w' r, s.Registered w r → s.Registered w' r → w = w'
  undisposed : ∀ o ∈ s.objects, o.disposed = false

theorem traced_new : (new : Registrations URI).Traced where
  created := by
    rintro w r ⟨key, h⟩
    cases h
  once := by
    rintro w w' r ⟨key, h⟩
    cases h
  undisposed := by
    rintro o ⟨⟩

theorem owned_new : (new : Registrations URI).Owned := by
  intro r o h
  cases h

/-- Without errors, all the repositories are added to the map of the folder. -/
theorem addRepositories_spec (hlawful : uris.Lawful) (w : String) :
    ∀ (repositories : List (URI × Nat)) (s : Registrations URI),
      (s.addRepositories uris w repositories).objects = s.objects ∧
      ∀ w', (s.addRepositories uris w repositories).getRepositoriesForWorkspace w' =
        if w' = w then (s.getRepositoriesForWorkspace w).setAll
          (repositories.map fun p => (uris.toString p.1, p.2))
        else s.getRepositoriesForWorkspace w' := by
  intro repositories
  induction repositories with
  | nil =>
      intro s
      refine ⟨rfl, ?_⟩
      intro w'
      rw [addRepositories]
      split
      · next h =>
        rw [h]
        rfl
      · rfl
  | cons repository repositories ih =>
      intro s
      rw [addRepositories]
      split
      · next hnone =>
        obtain ⟨segments, hsegments, -⟩ := hlawful.splitPath repository.1
        simp [addRepositoryToWorkspace, FastDirectoryMatcher.addDirectoryToMatch,
          hsegments] at hnone
      · next t ht =>
        obtain ⟨path, -, rfl⟩ := addRepositoryToWorkspace_eq_some ht
        obtain ⟨hobjects, hmaps⟩ := ih ⟨s.objects, s.workspaceToRepositories.set w
          { fastDirectoryMatcher := (s.getDirectoryMatcherForWorkspace w).insert path
              (uris.toString repository.1)
            repositories := (s.getRepositoriesForWorkspace w).set (uris.toString repository.1)
              repository.2 }⟩
        refine ⟨hobjects, ?_⟩
        intro w'
        rw [hmaps w', getRepositoriesForWorkspace_set, getRepositoriesForWorkspace_set,
          if_pos rfl]
        split
        · rfl
        · rfl

variable (uris) in
/-- The repositories that a rebuild creates, with their URIs. -/
def created (a : Rebuilt URI) (s : Registrations URI) : List (String × Nat) :=
  (((detectRepositories uris a.files).map RepositoryObject.uri).zipIdx s.objects.length).map
    fun p => (uris.toString p.1, p.2)

/-- **What a rebuild does**: it creates the detected repositories, and only they are registered for
its folder. -/
theorem step_spec (hlawful : uris.Lawful) {s t : Registrations URI} {a : Rebuilt URI}
    (h : s.step uris a = some t) :
    t.objects = s.objects ++ detectRepositories uris a.files ∧
      ∀ w, t.getRepositoriesForWorkspace w =
        if w = a.workspaceFolderUri then OrderedMap.empty.setAll (s.created uris a)
        else s.getRepositoriesForWorkspace w := by
  cases h
  unfold setWorkspaceRepositories
  dsimp only
  rw [clearRepositoriesForWorkspace_eq]
  obtain ⟨hobjects, hmaps⟩ := addRepositories_spec hlawful a.workspaceFolderUri
    (((detectRepositories uris a.files).map RepositoryObject.uri).zipIdx s.objects.length)
    ⟨s.objects ++ detectRepositories uris a.files,
      s.workspaceToRepositories.delete a.workspaceFolderUri⟩
  refine ⟨hobjects, ?_⟩
  intro w
  rw [hmaps w]
  split
  · rw [getRepositoriesForWorkspace_delete, if_pos rfl]
    rfl
  · next hne => rw [getRepositoriesForWorkspace_delete, if_neg hne]

theorem mem_of_lookup {κ ν : Type} [DecidableEq κ] {es : List (κ × ν)} {k : κ} {v : ν}
    (h : es.lookup k = some v) : (k, v) ∈ es := by
  obtain ⟨before, after, rfl, -⟩ := List.lookup_eq_some_iff.mp h
  simp

/-- In a map that entries with different values are written to one after the other, all values are
found exactly if the keys are different. -/
theorem found_iff_nodup {κ ν : Type} [DecidableEq κ] {es : List (κ × ν)}
    (hvalues : (es.map Prod.snd).Nodup) :
    (∀ e ∈ es, ∃ k, (OrderedMap.empty.setAll es).get k = some e.2) ↔
      (es.map Prod.fst).Nodup := by
  have hget : ∀ k, (OrderedMap.empty.setAll es).get k = es.reverse.lookup k := by
    intro k
    rw [OrderedMap.get_setAll, OrderedMap.get_empty, Option.or_none]
  simp only [hget]
  constructor
  · intro hfound
    have hself : ∀ e ∈ es, es.reverse.lookup e.1 = some e.2 := by
      intro e he
      obtain ⟨k, hk⟩ := hfound e he
      have hmem : (k, e.2) ∈ es := by
        rw [← List.mem_reverse]
        exact mem_of_lookup hk
      have heq : (k, e.2) = e := List.inj_on_of_nodup_map hvalues hmem he rfl
      rw [← heq]
      exact hk
    apply List.Nodup.map_on _ hvalues.of_map
    intro e he e' he' hkey
    have hsame : some e.2 = some e'.2 := by
      rw [← hself e he, ← hself e' he', hkey]
    exact Prod.ext hkey (Option.some.inj hsame)
  · intro hkeys e he
    have hreverse : (es.reverse.map Prod.fst).Nodup := by
      rw [List.map_reverse]
      exact List.nodup_reverse.mpr hkeys
    have hlookup : OrderedMap.get e.1 ⟨es.reverse, hreverse⟩ = some e.2 :=
      OrderedMap.get_eq_some_iff.mpr (List.mem_reverse.mpr he)
    exact ⟨e.1, hlookup⟩

theorem map_snd_created (a : Rebuilt URI) (s : Registrations URI) :
    (s.created uris a).map Prod.snd =
      List.range' s.objects.length (detectRepositories uris a.files).length := by
  unfold created
  rw [List.map_map]
  show List.map Prod.snd _ = _
  rw [List.zipIdx_map_snd, List.length_map]

theorem map_fst_created (a : Rebuilt URI) (s : Registrations URI) :
    (s.created uris a).map Prod.fst =
      (detectRepositories uris a.files).map fun o => uris.toString o.uri := by
  unfold created
  rw [List.map_map]
  show List.map (uris.toString ∘ Prod.fst) _ = _
  rw [← List.map_map, List.zipIdx_map_fst, List.map_map]
  rfl

/-- What is registered after a rebuild. -/
theorem registered_iff (hlawful : uris.Lawful) {s t : Registrations URI} {a : Rebuilt URI}
    (h : s.step uris a = some t) {w : String} {r : Nat} :
    t.Registered w r ↔
      if w = a.workspaceFolderUri then
        ∃ key, (OrderedMap.empty.setAll (s.created uris a)).get key = some r
      else s.Registered w r := by
  unfold Registered
  rw [(step_spec hlawful h).2 w]
  split <;> rfl

/-- What is registered for the folder of a rebuild has been created by it. -/
theorem mem_range_of_get {s : Registrations URI} {a : Rebuilt URI} {key : String} {r : Nat}
    (h : (OrderedMap.empty.setAll (s.created uris a)).get key = some r) :
    s.objects.length ≤ r ∧ r < s.objects.length + (detectRepositories uris a.files).length := by
  rw [OrderedMap.get_setAll, OrderedMap.get_empty, Option.or_none] at h
  have hmem := List.mem_map_of_mem (f := Prod.snd) (mem_of_lookup h)
  rw [List.map_reverse, List.mem_reverse, map_snd_created, List.mem_range'_1] at hmem
  exact hmem

theorem Traced.step (hlawful : uris.Lawful) {s t : Registrations URI} {a : Rebuilt URI}
    (hs : s.Traced) (h : s.step uris a = some t) : t.Traced where
  created := by
    intro w r hr
    rw [registered_iff hlawful h] at hr
    rw [(step_spec hlawful h).1, List.length_append]
    split at hr
    · obtain ⟨key, hkey⟩ := hr
      exact (mem_range_of_get hkey).2
    · have hlt := hs.created w r hr
      omega
  once := by
    intro w w' r hr hr'
    rw [registered_iff hlawful h] at hr hr'
    split at hr
    · next hw =>
      split at hr'
      · next hw' => rw [hw, hw']
      · obtain ⟨key, hkey⟩ := hr
        have hle := (mem_range_of_get hkey).1
        have hlt := hs.created w' r hr'
        omega
    · split at hr'
      · obtain ⟨key, hkey⟩ := hr'
        have hle := (mem_range_of_get hkey).1
        have hlt := hs.created w r hr
        omega
      · exact hs.once w w' r hr hr'
  undisposed := by
    intro o ho
    rw [(step_spec hlawful h).1] at ho
    rcases List.mem_append.mp ho with ho | ho
    · exact hs.undisposed o ho
    · obtain ⟨file, -, rfl⟩ := List.mem_map.mp ho
      rfl

/-- Where nothing is disposed, owned means registered. -/
theorem Traced.owned_iff_registered {s : Registrations URI} (hs : s.Traced) :
    s.Owned ↔ ∀ r < s.objects.length, ∃ w, s.Registered w r := by
  constructor
  · intro howned r hr
    rcases howned r _ (List.getElem?_eq_getElem hr) with hdisposed | hregistered
    · rw [hs.undisposed _ (List.getElem_mem hr)] at hdisposed
      cases hdisposed
    · exact hregistered
  · intro hall r o ho
    exact .inr (hall r (List.getElem?_eq_some_iff.mp ho).1)

section Step

variable {s t : Registrations URI} {a : Rebuilt URI}

/-- The old repositories stay registered exactly if none was for the folder. -/
theorem old_registered_iff (hlawful : uris.Lawful) (hs : s.Traced) (howned : s.Owned)
    (h : s.step uris a = some t) :
    (∀ r < s.objects.length, ∃ w, t.Registered w r) ↔
      (s.getRepositoriesForWorkspace a.workspaceFolderUri).entries = [] := by
  constructor
  · intro hold
    rw [List.eq_nil_iff_forall_not_mem]
    rintro ⟨key, r⟩ hmem
    have hregistered : s.Registered a.workspaceFolderUri r :=
      ⟨key, OrderedMap.get_eq_some_iff.mpr hmem⟩
    have hlt := hs.created _ r hregistered
    obtain ⟨w, hw⟩ := hold r hlt
    rw [registered_iff hlawful h] at hw
    split at hw
    · obtain ⟨key, hkey⟩ := hw
      have hle := (mem_range_of_get hkey).1
      omega
    · next hne => exact hne (hs.once _ _ r hw hregistered)
  · intro hnone r hr
    obtain ⟨w, hw⟩ := hs.owned_iff_registered.mp howned r hr
    have hne : w ≠ a.workspaceFolderUri := by
      rintro rfl
      obtain ⟨key, hkey⟩ := hw
      have hmem := OrderedMap.get_eq_some_iff.mp hkey
      rw [hnone] at hmem
      cases hmem
    refine ⟨w, ?_⟩
    rw [registered_iff hlawful h, if_neg hne]
    exact hw

/-- The new repositories are registered exactly if they have different URIs. -/
theorem new_registered_iff (hlawful : uris.Lawful) (hs : s.Traced)
    (h : s.step uris a = some t) :
    (∀ r, s.objects.length ≤ r → r < t.objects.length → ∃ w, t.Registered w r) ↔
      ((detectRepositories uris a.files).map fun o => uris.toString o.uri).Nodup := by
  have hvalues : ((s.created uris a).map Prod.snd).Nodup := by
    rw [map_snd_created]
    exact List.nodup_range'
  have hlength : t.objects.length =
      s.objects.length + (detectRepositories uris a.files).length := by
    rw [(step_spec hlawful h).1, List.length_append]
  rw [← map_fst_created a s, ← found_iff_nodup hvalues]
  constructor
  · intro hnew e he
    have hmem := List.mem_map_of_mem (f := Prod.snd) he
    rw [map_snd_created, List.mem_range'_1] at hmem
    obtain ⟨w, hw⟩ := hnew e.2 hmem.1 (hlength ▸ hmem.2)
    rw [registered_iff hlawful h] at hw
    split at hw
    · exact hw
    · have hlt := hs.created w e.2 hw
      omega
  · intro hfound r hle hlt
    have hmem : r ∈ (s.created uris a).map Prod.snd := by
      rw [map_snd_created, List.mem_range'_1]
      exact ⟨hle, hlength ▸ hlt⟩
    obtain ⟨e, he, rfl⟩ := List.mem_map.mp hmem
    refine ⟨a.workspaceFolderUri, ?_⟩
    rw [registered_iff hlawful h, if_pos rfl]
    exact hfound e he

/-- **A rebuild keeps all repositories owned** exactly if its folder had none and those that it
detects have different URIs. -/
theorem owned_step_iff (hlawful : uris.Lawful) (hs : s.Traced) (howned : s.Owned)
    (h : s.step uris a = some t) : t.Owned ↔ s.BuildsFirst uris a := by
  have hle : s.objects.length ≤ t.objects.length := by
    rw [(step_spec hlawful h).1, List.length_append]
    omega
  rw [(hs.step hlawful h).owned_iff_registered, BuildsFirst,
    ← old_registered_iff hlawful hs howned h, ← new_registered_iff hlawful hs h]
  constructor
  · intro hall
    exact ⟨fun r hr => hall r (by omega), fun r _ hr => hall r hr⟩
  · rintro ⟨hold, hnew⟩ r hr
    by_cases hlt : r < s.objects.length
    · exact hold r hlt
    · exact hnew r (by omega) hr

end Step
end Registrations

/-- **When no repository gets lost.** In a run of rebuilds, every repository that was ever created
is always registered or disposed, exactly if each rebuild finds its folder without repositories and
detects no URI twice. -/
theorem owned_iff (hlawful : uris.Lawful) (actions : List (Registrations.Rebuilt URI))
    (s : Registrations URI) (h : run (Registrations.step uris) .new actions = some s) :
    Always (Registrations.step uris) Registrations.Owned .new actions ↔
      Guarded (Registrations.step uris) (Registrations.BuildsFirst uris) .new actions := by
  apply always_iff_guarded (I := Registrations.Traced) _ _ Registrations.traced_new
    Registrations.owned_new h
  · intro s a t hs _ _ hstep
    exact hs.step hlawful hstep
  · intro s a t hs howned hstep
    exact Registrations.owned_step_iff hlawful hs howned hstep

end Service
/-! ## A repository in a repository -/

section Sample

/-- A repository, one in it, and files of both. -/
inductive SampleUri where
  | work
  | workConfig
  | lib
  | libConfig
  | libFile
  | libraryFile
  deriving DecidableEq, Repr

namespace SampleUri

def print : SampleUri → String
  | work => "file:///work"
  | workConfig => "file:///work/.git/config"
  | lib => "file:///work/lib"
  | libConfig => "file:///work/lib/.git/config"
  | libFile => "file:///work/lib/a%20b.ts"
  | libraryFile => "file:///work/library/c.ts"

def parse (s : String) : SampleUri :=
  ([work, workConfig, lib, libConfig, libFile, libraryFile].find? fun uri =>
    uri.print == s).getD work

def grandparent : SampleUri → SampleUri
  | libConfig => lib
  | _ => work

end SampleUri

def sampleUris : UriPackage SampleUri where
  toString := SampleUri.print
  parse := SampleUri.parse
  resolvePath uri _ := uri.grandparent

theorem sampleUris_lawful : sampleUris.Lawful := by
  apply UriPackage.Lawful.of_any
  · intro uri
    cases uri <;> decide +kernel
  · intro uri
    cases uri <;> decide +kernel

/-- A rebuild that detects both repositories. -/
def rebuiltWork : Registrations.Rebuilt SampleUri where
  workspaceFolderUri := "file:///work"
  files := [.workConfig, .libFile, .libConfig, .libraryFile]

/-- A file of the inner repository belongs to it, and one beside it does not. -/
theorem getMatchingRepository_spec_of_nested :
    ∃ s : Registrations SampleUri,
      run (Registrations.step sampleUris) .new [rebuiltWork] = some s ∧
      s.Innermost sampleUris "file:///work"
        ["file:".toList, "work".toList, "lib".toList, "a b.ts".toList] 1 ∧
      s.getMatchingRepository sampleUris .libraryFile "file:///work" = some (some 0) := by
  obtain ⟨s, hs⟩ : ∃ s, run (Registrations.step sampleUris) .new [rebuiltWork] = some s :=
    ⟨_, rfl⟩
  have hfacts : ∀ s ∈ run (Registrations.step sampleUris) .new [rebuiltWork],
      s.getMatchingRepository sampleUris .libFile "file:///work" = some (some 1) ∧
      s.getMatchingRepository sampleUris .libraryFile "file:///work" = some (some 0) := by
    decide +kernel
  obtain ⟨hfile, hbeside⟩ := hfacts s hs
  refine ⟨s, hs, ?_, hbeside⟩
  obtain ⟨segments, result, hsegments, hresult, hinnermost, -⟩ := getMatchingRepository_spec
    sampleUris sampleUris_lawful [rebuiltWork] s hs "file:///work" .libFile
  rw [hfile] at hresult
  have hpath : splitPath (sampleUris.toString .libFile) =
      some ["file:".toList, "work".toList, "lib".toList, "a b.ts".toList] := by decide +kernel
  rw [hpath] at hsegments
  cases hsegments
  exact hinnermost 1 (Option.some.inj hresult).symm

/-- Folders that are built once. -/
theorem owned_iff_of_first_build :
    ∃ s : Registrations SampleUri,
      run (Registrations.step sampleUris) .new [rebuiltWork] = some s ∧
      Always (Registrations.step sampleUris) Registrations.Owned .new [rebuiltWork] := by
  obtain ⟨s, hs⟩ : ∃ s, run (Registrations.step sampleUris) .new [rebuiltWork] = some s :=
    ⟨_, rfl⟩
  refine ⟨s, hs, (owned_iff sampleUris sampleUris_lawful [rebuiltWork] s hs).mpr ?_⟩
  refine ⟨⟨rfl, ?_⟩, trivial⟩
  decide +kernel

/-- With the second rebuild of a folder, its repositories are neither registered nor disposed. -/
theorem not_owned_of_second_build :
    ¬ ∀ (actions : List (Registrations.Rebuilt SampleUri)) (s : Registrations SampleUri),
      run (Registrations.step sampleUris) .new actions = some s → s.Owned := by
  intro h
  obtain ⟨s, hs⟩ : ∃ s, run (Registrations.step sampleUris) .new [rebuiltWork, rebuiltWork] =
    some s := ⟨_, rfl⟩
  have hfacts : ∀ s ∈ run (Registrations.step sampleUris) .new [rebuiltWork, rebuiltWork],
      (∃ o ∈ s.objects[0]?, o.disposed = false) ∧
        ∀ e ∈ s.workspaceToRepositories.entries, ∀ e' ∈ e.2.repositories.entries, e'.2 ≠ 0 := by
    decide +kernel
  obtain ⟨⟨o, ho, hundisposed⟩, hnone⟩ := hfacts s hs
  rcases h _ s hs 0 o ho with hdisposed | ⟨w, key, hkey⟩
  · rw [hundisposed] at hdisposed
    cases hdisposed
  · unfold Registrations.getRepositoriesForWorkspace at hkey
    cases hw : s.workspaceToRepositories.get w with
    | none =>
        rw [hw] at hkey
        cases hkey
    | some e =>
        rw [hw] at hkey
        have hmem := OrderedMap.get_eq_some_iff.mp hw
        exact hnone _ hmem _ (OrderedMap.get_eq_some_iff.mp hkey) rfl

end Sample
end KhulnasoftLsp.Git
