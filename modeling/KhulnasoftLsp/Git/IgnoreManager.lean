import KhulnasoftLsp.Git.DirMatcher
import KhulnasoftLsp.JsString

/-!
# Ignored files

`GitIgnoreManager` asks the exclude file of a repository and the gitignore files around a file, from
the outermost to the innermost, and each that has something to say overrules the ones before it. A
file in a directory that is excluded cannot be re-included; the package `ignore` sees to that for
the patterns of one gitignore file, but nothing does across several of them. `isIgnored_iff` says
when the answer is git's nevertheless.
-/

namespace KhulnasoftLsp.Git.Ignore

open Transition

/-! ## What is used of packages -/

/-- What `test` returns. -/
structure TestResult where
  ignored : Bool
  unignored : Bool
  deriving DecidableEq, Repr

/-- What is used of the package `ignore`. To test a path is `none` if it throws, as it does for an
empty path and for one that leaves the directory. -/
structure IgnorePackage (Ignore : Type) where
  /-- `ignore().add(content)` -/
  add : String → Ignore
  test : Ignore → JsString → Option TestResult
  ignores : Ignore → JsString → Option Bool

def slash : UInt16 := 0x2f

/-- A file is not both ignored and unignored; and what is in a directory that is ignored cannot be
re-included. -/
structure IgnorePackage.Lawful {Ignore : Type} (ignore : IgnorePackage Ignore) : Prop where
  ignores_eq : ∀ ig path, ignore.ignores ig path = (ignore.test ig path).map TestResult.ignored
  exclusive : ∀ ig path t, ignore.test ig path = some t → ¬ (t.ignored = true ∧ t.unignored = true)
  parent : ∀ ig dir rest t, ignore.test ig (dir ++ [slash]) = some t → t.ignored = true →
    ignore.test ig (dir ++ [slash] ++ rest) = some t

/-- What is used of the packages `vscode-uri` and `path` besides, and of the platform. -/
structure PathTools (URI : Type) where
  dirname : URI → URI
  basename : URI → JsString
  scheme : URI → String
  path : URI → JsString
  fsPath : URI → JsString
  platform : String
  relative : JsString → JsString → JsString
  posixRelative : JsString → JsString → JsString
  /-- `toLowerCase` of a single code unit. -/
  toLowerCase : UInt16 → JsString

section RelativePath

variable {URI : Type} (tools : PathTools URI)

/-- `osPath.replace(/[\\/]/g, '/')` -/
def toSlashes (osPath : JsString) : JsString :=
  osPath.map fun u => if u = 0x5c then slash else u

def ignorePathCasing (uri : URI) (isLinux : Bool) : Bool :=
  if tools.scheme uri = "file" then !isLinux else true

/-- The number of code units up to which the paths differ in their case only. -/
def matchingLength : JsString → JsString → Nat
  | u :: fromPath, v :: toPath =>
    if u ≠ v ∧ tools.toLowerCase u ≠ tools.toLowerCase v then 0
    else matchingLength fromPath toPath + 1
  | _, _ => 0

/-- `path || '/'` -/
def pathOrRoot (path : JsString) : JsString := if path = [] then [slash] else path

def getRelativePath (fromUri toUri : URI) : JsString :=
  if tools.scheme fromUri = "file" then
    let relativePath := tools.relative (tools.fsPath fromUri) (tools.fsPath toUri)
    if tools.platform = "win32" then toSlashes relativePath else relativePath
  else
    let fromPath := pathOrRoot (tools.path fromUri)
    let toPath := pathOrRoot (tools.path toUri)
    let fromPath :=
      if ignorePathCasing tools fromUri (tools.platform == "linux") then
        let i := matchingLength tools fromPath toPath
        toPath.take i ++ fromPath.drop i
      else fromPath
    tools.posixRelative fromPath toPath

end RelativePath

/-! ## The manager -/

section Manager

variable {URI Ignore : Type} (uris : UriPackage URI) (tools : PathTools URI)
  (ignore : IgnorePackage Ignore)

structure GitIgnoreManager (URI Ignore : Type) where
  rootUri : URI
  matcher : FastDirectoryMatcher
  excludeFileIgnore : Option Ignore
  ignoreMap : OrderedMap String Ignore

namespace GitIgnoreManager

def new (rootUri : URI) : GitIgnoreManager URI Ignore :=
  ⟨rootUri, FastDirectoryMatcher.new, none, .empty⟩

def addExcludeFile (content : String) (m : GitIgnoreManager URI Ignore) :
    GitIgnoreManager URI Ignore :=
  { m with excludeFileIgnore := some (ignore.add content) }

/-- It is `none` if it throws. -/
def addGitignore (uri : URI) (content : String) (m : GitIgnoreManager URI Ignore) :
    Option (GitIgnoreManager URI Ignore) := do
  let matcher ← FastDirectoryMatcher.addFileToMatch uris tools.dirname uri m.matcher
  return { m with
    matcher
    ignoreMap := m.ignoreMap.set (uris.toString (tools.dirname uri)) (ignore.add content) }

def dispose (m : GitIgnoreManager URI Ignore) : GitIgnoreManager URI Ignore :=
  { m with matcher := m.matcher.dispose }

/-- What the loop over the matching directories does for one of them. -/
def testAgainst (fileUri : URI) (m : GitIgnoreManager URI Ignore) (ignoredStatus : Bool)
    (dir : URI) : Option Bool :=
  match m.ignoreMap.get (uris.toString dir) with
  | none => some ignoredStatus
  | some ig => do
    let t ← ignore.test ig (getRelativePath tools dir fileUri)
    return if ignoredStatus then !t.unignored else t.ignored

/-- `isIgnored`; it is `none` if it throws. -/
def isIgnored (fileUri : URI) (m : GitIgnoreManager URI Ignore) : Option Bool :=
  if tools.basename fileUri = JsString.ofString ".git" then some true
  else if tools.path fileUri = JsString.ofString "." then some false
  else do
    let matchingDirs ← FastDirectoryMatcher.findMatchingDirectories uris fileUri m.matcher
    let ignoredStatus ← match m.excludeFileIgnore with
      | none => some false
      | some ig => ignore.ignores ig (getRelativePath tools m.rootUri fileUri)
    matchingDirs.foldlM (testAgainst uris tools ignore fileUri m) ignoredStatus

/-- A call that changes the manager. -/
inductive IgnoreAction (URI : Type) where
  | addExcludeFile (content : String)
  | addGitignore (uri : URI) (content : String)
  | dispose
  deriving DecidableEq, Repr

def step (m : GitIgnoreManager URI Ignore) :
    IgnoreAction URI → Option (GitIgnoreManager URI Ignore)
  | .addExcludeFile content => some (m.addExcludeFile ignore content)
  | .addGitignore uri content => m.addGitignore uris tools ignore uri content
  | .dispose => some m.dispose

end GitIgnoreManager

/-! ## The files that were added -/

/-- The exclude file, and the directories of the gitignore files that were added since the last
`dispose`, in their order. -/
structure IgnoreFiles (URI Ignore : Type) where
  excludeFile : Option Ignore
  gitignores : List (URI × Ignore)

namespace IgnoreFiles

def note (files : IgnoreFiles URI Ignore) :
    GitIgnoreManager.IgnoreAction URI → IgnoreFiles URI Ignore
  | .addExcludeFile content => { files with excludeFile := some (ignore.add content) }
  | .addGitignore uri content =>
    { files with gitignores := files.gitignores ++ [(tools.dirname uri, ignore.add content)] }
  | .dispose => { files with gitignores := [] }

def added (actions : List (GitIgnoreManager.IgnoreAction URI)) : IgnoreFiles URI Ignore :=
  actions.foldl (note tools ignore) ⟨none, []⟩

/-- The gitignore file of a directory: the one that was added last, of those in directories with
these segments. -/
def gitignoreAt (files : IgnoreFiles URI Ignore) (path : List Segment) : Option (URI × Ignore) :=
  lastAt (fun e => FastDirectoryMatcher.segmentsOf uris e.1) files.gitignores path

/-- The files that have a say about a path, from the outermost to the innermost, each with the path
relative to its directory. -/
def levels (rootUri : URI) (files : IgnoreFiles URI Ignore) (fileUri : URI) :
    List (Ignore × JsString) :=
  (files.excludeFile.toList.map fun ig => (ig, getRelativePath tools rootUri fileUri)) ++
    ((FastDirectoryMatcher.segmentsOf uris fileUri).inits.tail.filterMap
      (files.gitignoreAt uris)).map fun e => (e.2, getRelativePath tools e.1 fileUri)

end IgnoreFiles

/-! ## What git says -/

/-- What the patterns of one file say about a path. -/
def verdict (level : Ignore × JsString) : Option Bool :=
  (ignore.test level.1 level.2).bind fun t =>
    if t.ignored then some true else if t.unignored then some false else none

/-- What the innermost file says that says anything. -/
def deepestVerdict (levels : List (Ignore × JsString)) : Option Bool :=
  (levels.filterMap (verdict ignore)).getLast?

/-- The directories that a path leads through, each with a slash at its end. -/
def directoriesOf (path : JsString) : List JsString :=
  path.dropLast.inits.filter fun start => start.getLast? == some slash

/-- One of the files excludes a directory around the path. -/
def ExcludedByOne (levels : List (Ignore × JsString)) : Prop :=
  ∃ level ∈ levels, ∃ dir ∈ directoriesOf level.2, verdict ignore (level.1, dir) = some true

/-- The files that have a say about the `n`-th directory around the path, counted from inside. -/
def levelsAround (n : Nat) (levels : List (Ignore × JsString)) : List (Ignore × JsString) :=
  levels.filterMap fun level =>
    (directoriesOf level.2).reverse[n]?.map fun dir => (level.1, dir)

/-- A directory around the path is excluded, where inner files overrule the outer ones. -/
def Excluded (levels : List (Ignore × JsString)) : Prop :=
  ∃ n, deepestVerdict ignore (levelsAround n levels) = some true

/-- What is in an excluded directory is ignored, and about everything else the innermost file
decides that says anything. A path about which none does is ignored only if it is a `.git`. -/
structure FollowsGit (excluded : Prop) (levels : List (Ignore × JsString)) (fileUri : URI)
    (answer : Option Bool) : Prop where
  inside : excluded → answer = some true
  otherwise : ¬ excluded → answer = some ((deepestVerdict ignore levels).getD
    (tools.basename fileUri == JsString.ofString ".git"))

/-- Each path can be tested, and nothing is re-included in an excluded directory. The files are not
asked for a `.git` or the path `.`, and must not say the opposite of what is answered. -/
def NothingReincluded (excluded : Prop) (levels : List (Ignore × JsString)) (fileUri : URI) :
    Prop :=
  if tools.basename fileUri = JsString.ofString ".git" then
    excluded ∨ deepestVerdict ignore levels ≠ some false
  else if tools.path fileUri = JsString.ofString "." then
    ¬ excluded ∧ deepestVerdict ignore levels ≠ some true
  else
    (∀ level ∈ levels, (ignore.test level.1 level.2).isSome = true) ∧
      ¬ (excluded ∧ deepestVerdict ignore levels = some false)

variable {uris tools ignore}

/-! ## The loop over the files -/

variable (ignore) in
/-- What one file does to the status that the ones before it have left. -/
def ask (ignoredStatus : Bool) (level : Ignore × JsString) : Option Bool := do
  let t ← ignore.test level.1 level.2
  return if ignoredStatus then !t.unignored else t.ignored

theorem ask_eq_some (hignore : ignore.Lawful) {level : Ignore × JsString} {t : TestResult}
    (ht : ignore.test level.1 level.2 = some t) (ignoredStatus : Bool) :
    ask ignore ignoredStatus level = some ((verdict ignore level).getD ignoredStatus) := by
  have hnot := hignore.exclusive level.1 level.2 t ht
  obtain ⟨ignored, unignored⟩ := t
  unfold ask verdict
  rw [ht]
  cases ignored <;> cases unignored <;> cases ignoredStatus <;> simp_all

theorem deepestVerdict_cons_getD (level : Ignore × JsString) (levels : List (Ignore × JsString))
    (ignoredStatus : Bool) :
    (deepestVerdict ignore (level :: levels)).getD ignoredStatus =
      (deepestVerdict ignore levels).getD ((verdict ignore level).getD ignoredStatus) := by
  unfold deepestVerdict
  cases hverdict : verdict ignore level with
  | none =>
      rw [List.filterMap_cons_none hverdict]
      rfl
  | some ignored =>
      rw [List.filterMap_cons_some hverdict, List.getLast?_cons]
      rfl

/-- **The loop**: it answers what the innermost file says that says anything, if no path is one that
cannot be tested. -/
theorem foldlM_ask (hignore : ignore.Lawful) (levels : List (Ignore × JsString))
    (ignoredStatus : Bool) :
    levels.foldlM (ask ignore) ignoredStatus =
      if ∀ level ∈ levels, (ignore.test level.1 level.2).isSome = true then
        some ((deepestVerdict ignore levels).getD ignoredStatus)
      else none := by
  induction levels generalizing ignoredStatus with
  | nil => rfl
  | cons level levels ih =>
      rw [List.foldlM_cons, deepestVerdict_cons_getD]
      cases ht : ignore.test level.1 level.2 with
      | none =>
          have hask : ask ignore ignoredStatus level = none := by
            unfold ask
            rw [ht]
            rfl
          rw [hask, if_neg]
          · rfl
          · intro h
            have hsome := h level List.mem_cons_self
            rw [ht] at hsome
            cases hsome
      | some t =>
          rw [ask_eq_some hignore ht]
          show levels.foldlM (ask ignore) _ = _
          rw [ih]
          by_cases hrest : ∀ level ∈ levels, (ignore.test level.1 level.2).isSome = true
          · have hall : ∀ level' ∈ level :: levels,
                (ignore.test level'.1 level'.2).isSome = true := by
              rw [List.forall_mem_cons]
              exact ⟨Option.isSome_iff_exists.mpr ⟨t, ht⟩, hrest⟩
            rw [if_pos hrest, if_pos hall]
          · rw [if_neg hrest, if_neg]
            intro h
            exact hrest (List.forall_mem_cons.mp h).2

variable (tools ignore) in
theorem foldlM_testAgainst (fileUri : URI) {m : GitIgnoreManager URI Ignore}
    {gitignores : List (URI × Ignore)}
    (hgitignores : ∀ e ∈ gitignores, m.ignoreMap.get (uris.toString e.1) = some e.2)
    (ignoredStatus : Bool) :
    (gitignores.map Prod.fst).foldlM (m.testAgainst uris tools ignore fileUri) ignoredStatus =
      (gitignores.map fun e => (e.2, getRelativePath tools e.1 fileUri)).foldlM (ask ignore)
        ignoredStatus := by
  rw [List.foldlM_map, List.foldlM_map]
  induction gitignores generalizing ignoredStatus with
  | nil => rfl
  | cons e gitignores ih =>
      have hone : m.testAgainst uris tools ignore fileUri ignoredStatus e.1 =
          ask ignore ignoredStatus (e.2, getRelativePath tools e.1 fileUri) := by
        unfold GitIgnoreManager.testAgainst
        rw [hgitignores e List.mem_cons_self]
        rfl
      rw [List.foldlM_cons, List.foldlM_cons, hone]
      congr 1
      funext ignoredStatus
      exact ih (fun e he => hgitignores e (List.mem_cons_of_mem _ he)) ignoredStatus

/-! ## The manager and the files -/

open IgnoreFiles

open FastDirectoryMatcher hiding note step

variable (uris) in
/-- The manager keeps these files. -/
structure Keeps (rootUri : URI) (m : GitIgnoreManager URI Ignore) (files : IgnoreFiles URI Ignore) :
    Prop where
  rootUri : m.rootUri = rootUri
  excludeFile : m.excludeFileIgnore = files.excludeFile
  matcher : Represents uris m.matcher (files.gitignores.map Prod.fst)
  ignoreMap : ∀ path e, files.gitignoreAt uris path = some e →
    m.ignoreMap.get (uris.toString e.1) = some e.2

theorem keeps_new (rootUri : URI) :
    Keeps uris rootUri (GitIgnoreManager.new rootUri : GitIgnoreManager URI Ignore) ⟨none, []⟩ where
  rootUri := rfl
  excludeFile := rfl
  matcher := represents_new
  ignoreMap := by
    intro path e h
    cases h

theorem segmentsOf_eq_of_toString_eq {uri uri' : URI} (h : uris.toString uri = uris.toString uri') :
    segmentsOf uris uri = segmentsOf uris uri' := by
  unfold segmentsOf
  rw [h]

theorem segmentsOf_of_gitignoreAt {files : IgnoreFiles URI Ignore} {path : List Segment}
    {e : URI × Ignore} (h : files.gitignoreAt uris path = some e) : segmentsOf uris e.1 = path := by
  unfold gitignoreAt at h
  have hkey := key_eq_of_lastAt h
  exact hkey

variable (uris tools ignore) in
theorem gitignoreAt_addGitignore (files : IgnoreFiles URI Ignore) (uri : URI) (content : String)
    (path : List Segment) :
    (files.note tools ignore (.addGitignore uri content)).gitignoreAt uris path =
      if path = segmentsOf uris (tools.dirname uri) then
        some (tools.dirname uri, ignore.add content)
      else files.gitignoreAt uris path := by
  unfold gitignoreAt IgnoreFiles.note
  dsimp only
  rw [lastAt_append_singleton]

variable (tools ignore) in
theorem Keeps.step (hlawful : uris.Lawful) {rootUri : URI} {m : GitIgnoreManager URI Ignore}
    {files : IgnoreFiles URI Ignore} (h : Keeps uris rootUri m files)
    (a : GitIgnoreManager.IgnoreAction URI) :
    ∃ m', m.step uris tools ignore a = some m' ∧
      Keeps uris rootUri m' (files.note tools ignore a) := by
  cases a with
  | addExcludeFile content =>
      refine ⟨_, rfl, ?_⟩
      exact { h with excludeFile := rfl }
  | addGitignore uri content =>
      have hadd := addDirectoryToMatch_eq hlawful (tools.dirname uri) m.matcher
      refine ⟨{ m with
        matcher := m.matcher.insert (segmentsOf uris (tools.dirname uri))
          (uris.toString (tools.dirname uri))
        ignoreMap := m.ignoreMap.set (uris.toString (tools.dirname uri)) (ignore.add content) },
        ?_, ?_⟩
      · show m.addGitignore uris tools ignore uri content = _
        unfold GitIgnoreManager.addGitignore addFileToMatch
        rw [hadd]
        rfl
      · refine ⟨h.rootUri, h.excludeFile, ?_, ?_⟩
        · show Represents uris _ ((files.gitignores ++ [(tools.dirname uri, _)]).map Prod.fst)
          rw [List.map_append]
          exact h.matcher.insert (tools.dirname uri)
        · intro path e he
          rw [gitignoreAt_addGitignore] at he
          show (m.ignoreMap.set _ _).get _ = _
          rw [OrderedMap.get_set]
          by_cases hpath : path = segmentsOf uris (tools.dirname uri)
          · rw [if_pos hpath] at he
            cases he
            rw [if_pos rfl]
          · rw [if_neg hpath] at he
            have hne : uris.toString e.1 ≠ uris.toString (tools.dirname uri) := by
              intro hsame
              apply hpath
              rw [← segmentsOf_of_gitignoreAt he]
              exact segmentsOf_eq_of_toString_eq hsame
            rw [if_neg hne]
            exact h.ignoreMap path e he
  | dispose =>
      refine ⟨_, rfl, h.rootUri, h.excludeFile, represents_new, ?_⟩
      intro path e he
      cases he

variable (tools ignore) in
/-- No call throws, and the manager keeps the files of all of them. -/
theorem exists_run_keeps (hlawful : uris.Lawful) (rootUri : URI)
    (actions : List (GitIgnoreManager.IgnoreAction URI)) :
    ∃ m : GitIgnoreManager URI Ignore,
      run (GitIgnoreManager.step uris tools ignore) (.new rootUri) actions = some m ∧
      Keeps uris rootUri m (added tools ignore actions) := by
  apply exists_run (I := fun actions m => Keeps uris rootUri m (added tools ignore actions))
  · exact keeps_new rootUri
  · intro actions m a hm
    unfold added
    rw [List.foldl_append]
    exact hm.step tools ignore hlawful a

/-- **What is answered**: what the innermost file says, apart from the two paths that are not asked
for. -/
theorem Keeps.isIgnored_eq (hlawful : uris.Lawful) (hignore : ignore.Lawful) {rootUri : URI}
    {m : GitIgnoreManager URI Ignore} {files : IgnoreFiles URI Ignore}
    (h : Keeps uris rootUri m files) (fileUri : URI) :
    m.isIgnored uris tools ignore fileUri =
      if tools.basename fileUri = JsString.ofString ".git" then some true
      else if tools.path fileUri = JsString.ofString "." then some false
      else if ∀ level ∈ files.levels uris tools rootUri fileUri,
          (ignore.test level.1 level.2).isSome = true then
        some ((deepestVerdict ignore (files.levels uris tools rootUri fileUri)).getD false)
      else none := by
  unfold GitIgnoreManager.isIgnored
  split
  · rfl
  split
  · rfl
  rw [← foldlM_ask hignore, h.matcher.findMatchingDirectories_eq hlawful]
  have hdirs : (segmentsOf uris fileUri).inits.tail.filterMap
      (lastAt (segmentsOf uris) (files.gitignores.map Prod.fst)) =
      ((segmentsOf uris fileUri).inits.tail.filterMap (files.gitignoreAt uris)).map Prod.fst := by
    rw [List.map_filterMap]
    congr 1
    funext path
    exact lastAt_map _ _ _ _
  have hentries : ∀ e ∈ (segmentsOf uris fileUri).inits.tail.filterMap (files.gitignoreAt uris),
      m.ignoreMap.get (uris.toString e.1) = some e.2 := by
    intro e he
    obtain ⟨path, -, hpath⟩ := List.mem_filterMap.mp he
    exact h.ignoreMap path e hpath
  have hloop := foldlM_testAgainst tools ignore fileUri hentries
  rw [hdirs, levels, List.foldlM_append, h.excludeFile, h.rootUri]
  cases files.excludeFile with
  | none => exact hloop false
  | some ig =>
      have hask : ignore.ignores ig (getRelativePath tools rootUri fileUri) =
          ask ignore false (ig, getRelativePath tools rootUri fileUri) := by
        rw [hignore.ignores_eq]
        unfold ask
        cases ignore.test ig (getRelativePath tools rootUri fileUri) <;> rfl
      show (ignore.ignores ig (getRelativePath tools rootUri fileUri)).bind _ =
        (List.foldlM (ask ignore) false [(ig, getRelativePath tools rootUri fileUri)]).bind _
      have hsingle : List.foldlM (ask ignore) false [(ig, getRelativePath tools rootUri fileUri)] =
          ask ignore false (ig, getRelativePath tools rootUri fileUri) := by
        rw [List.foldlM_cons]
        exact bind_pure _
      rw [hask, hsingle]
      congr 1
      funext ignoredStatus
      exact hloop ignoredStatus

/-! ## Excluded directories -/

theorem mem_directoriesOf {path dir : JsString} (h : dir ∈ directoriesOf path) :
    ∃ start rest, dir = start ++ [slash] ∧ path = dir ++ rest := by
  unfold directoriesOf at h
  obtain ⟨hinits, hlast⟩ := List.mem_filter.mp h
  obtain ⟨start, hstart⟩ := List.getLast?_eq_some_iff.mp (beq_iff_eq.mp hlast)
  have hbegins : dir <+: path := (List.mem_inits _ _).mp hinits |>.trans (List.dropLast_prefix path)
  obtain ⟨rest, hrest⟩ := hbegins
  exact ⟨start, rest, hstart, hrest.symm⟩

theorem exists_test_of_verdict {level : Ignore × JsString} (h : verdict ignore level = some true) :
    ∃ t, ignore.test level.1 level.2 = some t ∧ t.ignored = true := by
  unfold verdict at h
  obtain ⟨t, ht, hignored⟩ := Option.bind_eq_some_iff.mp h
  refine ⟨t, ht, ?_⟩
  by_contra hnot
  rw [if_neg hnot] at hignored
  split at hignored <;> cases hignored

/-- Within one file, what is in an excluded directory is ignored. -/
theorem verdict_of_directory (hignore : ignore.Lawful) {level : Ignore × JsString} {dir : JsString}
    (hdir : dir ∈ directoriesOf level.2) (h : verdict ignore (level.1, dir) = some true) :
    verdict ignore level = some true := by
  obtain ⟨ig, path⟩ := level
  obtain ⟨start, rest, rfl, hpath⟩ := mem_directoriesOf hdir
  obtain ⟨t, ht, hignored⟩ := exists_test_of_verdict h
  have hbelow := hignore.parent ig start rest t ht hignored
  dsimp only at hpath
  rw [← hpath] at hbelow
  unfold verdict
  rw [hbelow, Option.bind_some, if_pos hignored]

theorem excludedByOne_of_excluded {levels : List (Ignore × JsString)} (h : Excluded ignore levels) :
    ExcludedByOne ignore levels := by
  obtain ⟨n, hn⟩ := h
  obtain ⟨around, haround, hverdict⟩ := List.mem_filterMap.mp (List.mem_of_getLast? hn)
  obtain ⟨level, hlevel, hdir⟩ := List.mem_filterMap.mp haround
  obtain ⟨dir, hget, rfl⟩ := Option.map_eq_some_iff.mp hdir
  exact ⟨level, hlevel, dir, List.mem_reverse.mp (List.mem_of_getElem? hget), hverdict⟩

/-- A file that excludes a directory around a path says something about the path. -/
theorem deepestVerdict_ne_none (hignore : ignore.Lawful) {levels : List (Ignore × JsString)}
    (h : ExcludedByOne ignore levels) : deepestVerdict ignore levels ≠ none := by
  obtain ⟨level, hlevel, dir, hdir, hverdict⟩ := h
  intro hnone
  have hmem : true ∈ levels.filterMap (verdict ignore) :=
    List.mem_filterMap.mpr ⟨level, hlevel, verdict_of_directory hignore hdir hverdict⟩
  unfold deepestVerdict at hnone
  rw [List.getLast?_eq_none_iff.mp hnone] at hmem
  cases hmem

/-! ## When an answer is git's -/

section Answers

variable {excluded : Prop} {levels : List (Ignore × JsString)} {fileUri : URI}

theorem followsGit_true_iff :
    FollowsGit tools ignore excluded levels fileUri (some true) ↔
      excluded ∨ (deepestVerdict ignore levels).getD
        (tools.basename fileUri == JsString.ofString ".git") = true := by
  constructor
  · intro h
    by_cases hin : excluded
    · exact .inl hin
    · exact .inr (Option.some.inj (h.otherwise hin)).symm
  · intro h
    refine ⟨fun _ => rfl, fun hout => ?_⟩
    rw [h.resolve_left hout]

theorem followsGit_false_iff :
    FollowsGit tools ignore excluded levels fileUri (some false) ↔
      ¬ excluded ∧ (deepestVerdict ignore levels).getD
        (tools.basename fileUri == JsString.ofString ".git") = false := by
  constructor
  · intro h
    have hout : ¬ excluded := by
      intro hin
      cases h.inside hin
    exact ⟨hout, (Option.some.inj (h.otherwise hout)).symm⟩
  · rintro ⟨hout, hverdict⟩
    refine ⟨fun hin => absurd hin hout, fun _ => ?_⟩
    rw [hverdict]

theorem not_followsGit_none : ¬ FollowsGit tools ignore excluded levels fileUri none := by
  intro h
  by_cases hin : excluded
  · cases h.inside hin
  · cases h.otherwise hin

end Answers

theorem Keeps.followsGit_iff (hlawful : uris.Lawful) (hignore : ignore.Lawful) {rootUri : URI}
    {m : GitIgnoreManager URI Ignore} {files : IgnoreFiles URI Ignore}
    (h : Keeps uris rootUri m files) (fileUri : URI) {excluded : Prop}
    (hexcluded : excluded →
      deepestVerdict ignore (files.levels uris tools rootUri fileUri) ≠ none) :
    FollowsGit tools ignore excluded (files.levels uris tools rootUri fileUri) fileUri
        (m.isIgnored uris tools ignore fileUri) ↔
      NothingReincluded tools ignore excluded (files.levels uris tools rootUri fileUri)
        fileUri := by
  rw [h.isIgnored_eq hlawful hignore, NothingReincluded]
  generalize files.levels uris tools rootUri fileUri = levels at hexcluded ⊢
  by_cases hgit : tools.basename fileUri = JsString.ofString ".git"
  · have hdefault : (tools.basename fileUri == JsString.ofString ".git") = true :=
      beq_iff_eq.mpr hgit
    rw [if_pos hgit, if_pos hgit, followsGit_true_iff, hdefault]
    cases deepestVerdict ignore levels <;> simp
  have hdefault : (tools.basename fileUri == JsString.ofString ".git") = false :=
    beq_eq_false_iff_ne.mpr hgit
  rw [if_neg hgit, if_neg hgit]
  by_cases hdot : tools.path fileUri = JsString.ofString "."
  · rw [if_pos hdot, if_pos hdot, followsGit_false_iff, hdefault]
    cases deepestVerdict ignore levels <;> simp
  rw [if_neg hdot, if_neg hdot]
  by_cases htested : ∀ level ∈ levels, (ignore.test level.1 level.2).isSome = true
  · rw [if_pos htested, and_iff_right htested]
    cases hverdict : deepestVerdict ignore levels with
    | none =>
        have hout : ¬ excluded := fun hin => hexcluded hin hverdict
        simp [followsGit_false_iff, hdefault, hverdict, hout]
    | some ignored =>
        cases ignored with
        | true => simp [followsGit_true_iff, hdefault, hverdict]
        | false => simp [followsGit_false_iff, hdefault, hverdict]
  · rw [if_neg htested]
    constructor
    · intro hfollows
      exact absurd hfollows not_followsGit_none
    · rintro ⟨hall, -⟩
      exact absurd hall htested

variable (uris tools ignore) in
/-- **When git's answer is given.** After any calls, the answer about a file is that of git exactly
if nothing is re-included in an excluded directory, no matter whether inner gitignore files may
re-include the directory itself. -/
theorem isIgnored_iff (hlawful : uris.Lawful) (hignore : ignore.Lawful) (rootUri : URI)
    (actions : List (GitIgnoreManager.IgnoreAction URI)) :
    ∃ m : GitIgnoreManager URI Ignore,
      run (GitIgnoreManager.step uris tools ignore) (.new rootUri) actions = some m ∧
      ∀ fileUri levels, levels = (added tools ignore actions).levels uris tools rootUri fileUri →
        (FollowsGit tools ignore (ExcludedByOne ignore levels) levels fileUri
            (m.isIgnored uris tools ignore fileUri) ↔
          NothingReincluded tools ignore (ExcludedByOne ignore levels) levels fileUri) ∧
        (FollowsGit tools ignore (Excluded ignore levels) levels fileUri
            (m.isIgnored uris tools ignore fileUri) ↔
          NothingReincluded tools ignore (Excluded ignore levels) levels fileUri) := by
  obtain ⟨m, hrun, hm⟩ := exists_run_keeps tools ignore hlawful rootUri actions
  refine ⟨m, hrun, ?_⟩
  rintro fileUri levels rfl
  constructor
  · apply hm.followsGit_iff hlawful hignore
    exact deepestVerdict_ne_none hignore
  · apply hm.followsGit_iff hlawful hignore
    intro hexcluded
    exact deepestVerdict_ne_none hignore (excludedByOne_of_excluded hexcluded)

end Manager

/-! ## A file that is kept in a directory that is ignored -/

section SampleRepository

inductive RepositoryUri where
  | repository
  | gitignore
  | build
  | buildGitignore
  | keep
  | output
  deriving DecidableEq, Repr

namespace RepositoryUri

def fsPath : RepositoryUri → String
  | repository => "/work"
  | gitignore => "/work/.gitignore"
  | build => "/work/build"
  | buildGitignore => "/work/build/.gitignore"
  | keep => "/work/build/keep.txt"
  | output => "/work/build/out.txt"

def print (uri : RepositoryUri) : String := "file://" ++ uri.fsPath

def parse (s : String) : RepositoryUri :=
  ([repository, gitignore, build, buildGitignore, keep, output].find? fun uri =>
    uri.print == s).getD repository

def dirname : RepositoryUri → RepositoryUri
  | buildGitignore | keep | output => build
  | _ => repository

def basename : RepositoryUri → String
  | repository => "work"
  | gitignore | buildGitignore => ".gitignore"
  | build => "build"
  | keep => "keep.txt"
  | output => "out.txt"

end RepositoryUri

def repositoryUris : UriPackage RepositoryUri where
  toString := RepositoryUri.print
  parse := RepositoryUri.parse
  resolvePath uri _ := uri.dirname.dirname

theorem repositoryUris_lawful : repositoryUris.Lawful := by
  apply UriPackage.Lawful.of_any
  · intro uri
    cases uri <;> decide +kernel
  · intro uri
    cases uri <;> decide +kernel

/-- The paths of the sample are relative to a directory that they are in. -/
def repositoryTools : PathTools RepositoryUri where
  dirname := RepositoryUri.dirname
  basename uri := JsString.ofString uri.basename
  scheme _ := "file"
  path uri := JsString.ofString uri.fsPath
  fsPath uri := JsString.ofString uri.fsPath
  platform := "linux"
  relative dir path := path.drop (dir.length + 1)
  posixRelative dir path := path.drop (dir.length + 1)
  toLowerCase u := [u]

/-- What the two patterns of the sample say. A file is its content. -/
def testPattern (content : String) (path : JsString) : Option TestResult :=
  if path = [] then none
  else if content = "build/" ∧ JsString.ofString "/build/" <:+: slash :: path then
    some ⟨true, false⟩
  else if content = "!keep.txt" ∧ JsString.ofString "/keep.txt" <:+ slash :: path then
    some ⟨false, true⟩
  else some ⟨false, false⟩

def samplePackage : IgnorePackage String where
  add content := content
  test := testPattern
  ignores content path := (testPattern content path).map TestResult.ignored

theorem samplePackage_lawful : samplePackage.Lawful where
  ignores_eq := by
    intro content path
    rfl
  exclusive := by
    intro content path t h
    have htest : testPattern content path = some t := h
    unfold testPattern at htest
    split_ifs at htest <;> cases htest <;> simp
  parent := by
    intro content dir rest t h hignored
    have htest : testPattern content (dir ++ [slash]) = some t := h
    unfold testPattern at htest
    split_ifs at htest with hempty hbuild hkeep
    · cases htest
      have hbelow : JsString.ofString "/build/" <:+: slash :: (dir ++ [slash] ++ rest) :=
        hbuild.2.trans (List.prefix_append (slash :: (dir ++ [slash])) rest).isInfix
      show testPattern content (dir ++ [slash] ++ rest) = _
      unfold testPattern
      rw [if_neg (by simp), if_pos ⟨hbuild.1, hbelow⟩]
    · cases htest
      cases hignored
    · cases htest
      cases hignored

/-- The repository ignores a directory, and a file in there is to be kept. -/
def keptFile : List (GitIgnoreManager.IgnoreAction RepositoryUri) :=
  [.addGitignore .gitignore "build/", .addGitignore .buildGitignore "!keep.txt"]

def keptFileLevels (fileUri : RepositoryUri) : List (String × JsString) :=
  (IgnoreFiles.added repositoryTools samplePackage keptFile).levels repositoryUris repositoryTools
    .repository fileUri

/-- Another file in there is ignored, as git would have it. -/
theorem isIgnored_iff_of_output :
    ∃ m : GitIgnoreManager RepositoryUri String,
      run (GitIgnoreManager.step repositoryUris repositoryTools samplePackage)
        (.new .repository) keptFile = some m ∧
      FollowsGit repositoryTools samplePackage (Excluded samplePackage (keptFileLevels .output))
        (keptFileLevels .output) .output
        (m.isIgnored repositoryUris repositoryTools samplePackage .output) := by
  obtain ⟨m, hrun, hm⟩ := isIgnored_iff repositoryUris repositoryTools samplePackage
    repositoryUris_lawful samplePackage_lawful .repository keptFile
  refine ⟨m, hrun, (hm .output _ rfl).2.mpr ?_⟩
  have htested : ∀ level ∈ keptFileLevels .output,
      (samplePackage.test level.1 level.2).isSome = true := by decide +kernel
  have hverdict : deepestVerdict samplePackage (keptFileLevels .output) = some true := by
    decide +kernel
  refine ⟨htested, ?_⟩
  rintro ⟨-, hnot⟩
  cases hverdict.symm.trans hnot

/-- The file that is to be kept is not ignored, though it is in a directory that is excluded. -/
theorem not_followsGit_of_kept :
    (¬ ∀ (actions : List (GitIgnoreManager.IgnoreAction RepositoryUri))
        (m : GitIgnoreManager RepositoryUri String) (fileUri : RepositoryUri)
        (levels : List (String × JsString)),
      run (GitIgnoreManager.step repositoryUris repositoryTools samplePackage)
        (.new .repository) actions = some m →
      levels = (IgnoreFiles.added repositoryTools samplePackage actions).levels repositoryUris
        repositoryTools .repository fileUri →
      FollowsGit repositoryTools samplePackage (ExcludedByOne samplePackage levels) levels fileUri
        (m.isIgnored repositoryUris repositoryTools samplePackage fileUri)) ∧
    ¬ ∀ (actions : List (GitIgnoreManager.IgnoreAction RepositoryUri))
        (m : GitIgnoreManager RepositoryUri String) (fileUri : RepositoryUri)
        (levels : List (String × JsString)),
      run (GitIgnoreManager.step repositoryUris repositoryTools samplePackage)
        (.new .repository) actions = some m →
      levels = (IgnoreFiles.added repositoryTools samplePackage actions).levels repositoryUris
        repositoryTools .repository fileUri →
      FollowsGit repositoryTools samplePackage (Excluded samplePackage levels) levels fileUri
        (m.isIgnored repositoryUris repositoryTools samplePackage fileUri) := by
  obtain ⟨m, hm⟩ : ∃ m, run (GitIgnoreManager.step repositoryUris repositoryTools samplePackage)
      (.new .repository) keptFile = some m := ⟨_, rfl⟩
  have hanswer : ∀ m ∈ run (GitIgnoreManager.step repositoryUris repositoryTools samplePackage)
      (.new .repository) keptFile,
      m.isIgnored repositoryUris repositoryTools samplePackage .keep = some false := by
    decide +kernel
  have hexcluded : Excluded samplePackage (keptFileLevels .keep) := ⟨0, by decide +kernel⟩
  constructor
  · intro h
    have htrue := (h keptFile m .keep _ hm rfl).inside (excludedByOne_of_excluded hexcluded)
    rw [hanswer m hm] at htrue
    cases htrue
  · intro h
    have htrue := (h keptFile m .keep _ hm rfl).inside hexcluded
    rw [hanswer m hm] at htrue
    cases htrue

end SampleRepository
end KhulnasoftLsp.Git.Ignore
