import KhulnasoftLsp.Transition
import KhulnasoftLsp.OrderedMap
import KhulnasoftLsp.DocContext
import Mathlib.Data.List.Infix

/-!
# The files of one git repository

A `Repository` remembers its files and directories, the set of files that git tracks, and a
`GitIgnoreManager` that answers whether a file is ignored. A URI stands for what `toString()`
makes of it, and `verdict` for `isIgnored` of the manager, which rests on the package `ignore`.

Whether a file is ignored is decided when it is stored, and `getFile` later reads that old answer
beside the tracked files of the moment. `filterAgrees_iff` says when the two still agree with
`isFileIgnored`.
-/

namespace KhulnasoftLsp.Git

open Transition

structure RepositoryFile where
  uri : String
  repositoryUri : String
  isIgnored : Bool
  workspaceFolder : WorkspaceFolder
  deriving DecidableEq, Repr

structure RepositoryDirectory where
  uri : String
  repositoryUri : String
  isIgnored : Bool
  workspaceFolder : WorkspaceFolder
  deriving DecidableEq, Repr

structure GetFileOptions where
  excludeGitFolder : Bool := false
  excludeIgnored : Bool := false
  deriving DecidableEq, Repr

structure GitFiles where
  /-- The `.gitignore` files and their contents. -/
  ignoreFiles : List (String × String)
  excludeFile : Option String
  trackedFiles : List String
  deriving DecidableEq, Repr

/-- The patterns that a `GitIgnoreManager` has been given. -/
structure GitIgnoreManager where
  rootUri : String
  gitignores : List (String × String)
  excludeFileContent : Option String
  deriving DecidableEq, Repr

structure Repository where
  workspaceFolder : WorkspaceFolder
  uri : String
  configFileUri : String
  files : OrderedMap String RepositoryFile
  directories : OrderedMap String RepositoryDirectory
  ignoreManager : Option GitIgnoreManager
  gitFiles : GitFiles

namespace Repository

def isGitIgnoreFile (file : String) : Bool := decide (".gitignore".toList <:+ file.toList)

def isGitExcludeFile (file : String) : Bool :=
  decide ("/.git/info/exclude".toList <:+: file.toList) ||
    decide ("\\.git\\info\\exclude".toList <:+: file.toList)

def isInGitFolder (fileUri : String) : Bool :=
  decide ("/.git/".toList <:+: fileUri.toList) || decide ("\\.git\\".toList <:+: fileUri.toList)

def new (workspaceFolder : WorkspaceFolder) (uri configFileUri : String) : Repository where
  workspaceFolder := workspaceFolder
  uri := uri
  configFileUri := configFileUri
  files := .empty
  directories := .empty
  ignoreManager := none
  gitFiles := { ignoreFiles := [], excludeFile := none, trackedFiles := [] }

/-- What a `Repository` asks of code elsewhere. -/
structure Environment where
  /-- `isIgnored` of the manager -/
  verdict : GitIgnoreManager → String → Bool
  /-- `fsPathToUri(path.join(directoryUri.fsPath, '**'))` -/
  everythingIn : String → String

variable (env : Environment)

def isFileIgnored (fileUri : String) (r : Repository) : Bool :=
  if fileUri ∈ r.gitFiles.trackedFiles then false
  else (r.ignoreManager.map fun m => env.verdict m fileUri).getD false

def isDirectoryIgnored (directoryUri : String) (r : Repository) : Bool :=
  (r.ignoreManager.map fun m => env.verdict m (env.everythingIn directoryUri)).getD false

def setFile (fileUri : String) (r : Repository) : Repository × RepositoryFile :=
  let repositoryFile : RepositoryFile :=
    { uri := fileUri
      isIgnored := r.isFileIgnored env fileUri
      repositoryUri := r.uri
      workspaceFolder := r.workspaceFolder }
  ({ r with files := r.files.set fileUri repositoryFile }, repositoryFile)

def setDirectory (directoryUri : String) (r : Repository) : Repository × RepositoryDirectory :=
  let repositoryDirectory : RepositoryDirectory :=
    { uri := directoryUri
      repositoryUri := r.uri
      isIgnored := r.isDirectoryIgnored env directoryUri
      workspaceFolder := r.workspaceFolder }
  ({ r with directories := r.directories.set directoryUri repositoryDirectory },
    repositoryDirectory)

/-- `#filter`: a tracked file passes whatever was stored with it. -/
def filter (uri : String) (isIgnored : Bool) (options : GetFileOptions) (r : Repository) : Bool :=
  if options.excludeGitFolder && isInGitFolder uri then false
  else if uri ∈ r.gitFiles.trackedFiles then true
  else if options.excludeIgnored && isIgnored then false
  else true

def getFile (fileUri : String) (options : GetFileOptions) (r : Repository) :
    Option RepositoryFile :=
  (r.files.get fileUri).filter fun file => r.filter file.uri file.isIgnored options

def getDirectory (directoryUri : String) (options : GetFileOptions) (r : Repository) :
    Option RepositoryDirectory :=
  (r.directories.get directoryUri).filter fun directory =>
    r.filter directory.uri directory.isIgnored options

def removeFile (fileUri : String) (r : Repository) : Repository :=
  { r with files := r.files.delete fileUri }

/-- The string of `uri` starts with that of the directory. -/
def startsWith (directoryPath uri : String) : Bool := directoryPath.toList.isPrefixOf uri.toList

def removeFilesUnderDirectory (directoryUri : String) (r : Repository) :
    Repository × List RepositoryFile :=
  let urisToDelete :=
    (r.files.entries.filter fun e => startsWith directoryUri e.1).map Prod.snd
  let directories := (r.directories.entries.map Prod.fst).filter (startsWith directoryUri)
  ({ r with
      files := urisToDelete.foldl (fun files file => files.delete file.uri) r.files
      directories := directories.foldl (fun ds directory => ds.delete directory) r.directories },
    urisToDelete)

/-- `#getGitFiles`, if `readFile` and the listing of the tracked files give what they give. It
fails as soon as one of the two does. -/
def getGitFiles (readFile : String → Option String) (trackedFiles : Option (List String))
    (files : List String) : Option GitFiles := do
  let ignoreFiles := files.filter isGitIgnoreFile
  let excludeFiles := files.filter fun file => !isGitIgnoreFile file && isGitExcludeFile file
  let ignoreContents ← ignoreFiles.mapM readFile
  let trackedFiles ← trackedFiles
  return { ignoreFiles := ignoreFiles.zip ignoreContents
           excludeFile := excludeFiles.getLast?
           trackedFiles := trackedFiles }

/-- The manager that `setupGitForRepository` fills from the git files. -/
def newIgnoreManager (readFile : String → Option String) (gitFiles : GitFiles) (r : Repository) :
    Option GitIgnoreManager := do
  let excludeFileContent ← match gitFiles.excludeFile with
    | some file => (readFile file).map some
    | none => some none
  return { rootUri := r.uri
           gitignores := gitFiles.ignoreFiles
           excludeFileContent := excludeFileContent }

/-- `setupGitForRepository`, at its end: until then it only reads files. If a read has failed it
returns the error, and has stored nothing. -/
def setupGitForRepository (readFile : String → Option String)
    (trackedFiles : Option (List String)) (files : List String) (r : Repository) :
    Repository × Option GitFiles :=
  match getGitFiles readFile trackedFiles files with
  | none => (r, none)
  | some gitFiles =>
    match r.newIgnoreManager readFile gitFiles with
    | none => (r, none)
    | some ignoreManager =>
      ({ r with ignoreManager := some ignoreManager, gitFiles := gitFiles }, some gitFiles)

def updateTrackedFiles (trackedFiles : List String) (r : Repository) : Repository :=
  { r with gitFiles := { r.gitFiles with trackedFiles := trackedFiles } }

/-- `#refreshTrackedFilesImpl`, once the tracked files are listed. -/
def refreshTrackedFiles (trackedFiles : Option (List String)) (r : Repository) : Repository :=
  match trackedFiles with
  | some trackedFiles => r.updateTrackedFiles trackedFiles
  | none => r

inductive Action where
  | setFile (fileUri : String)
  | setDirectory (directoryUri : String)
  | removeFile (fileUri : String)
  | removeFilesUnderDirectory (directoryUri : String)
  /-- A setup of these files ends. -/
  | setupGitForRepository (readFile : String → Option String)
      (trackedFiles : Option (List String)) (files : List String)
  /-- A refresh ends. -/
  | refreshTrackedFiles (trackedFiles : Option (List String))

def step (r : Repository) : Action → Option Repository
  | .setFile fileUri => some (r.setFile env fileUri).1
  | .setDirectory directoryUri => some (r.setDirectory env directoryUri).1
  | .removeFile fileUri => some (r.removeFile fileUri)
  | .removeFilesUnderDirectory directoryUri => some (r.removeFilesUnderDirectory directoryUri).1
  | .setupGitForRepository readFile trackedFiles files =>
    some (r.setupGitForRepository readFile trackedFiles files).1
  | .refreshTrackedFiles trackedFiles => some (r.refreshTrackedFiles trackedFiles)

/-! ## Files are stored under their own URI -/

theorem get_removeFiles {files : OrderedMap String RepositoryFile} {deleted : List RepositoryFile}
    {uri : String} {file : RepositoryFile}
    (h : (deleted.foldl (fun files file => files.delete file.uri) files).get uri = some file) :
    files.get uri = some file := by
  rw [OrderedMap.get_foldl_delete] at h
  split at h
  · cases h
  · exact h

/-- A file of a map of files is stored under its own URI. -/
def Keyed (r : Repository) : Prop := ∀ uri file, r.files.get uri = some file → file.uri = uri

/-- What a step can leave stored: a file that was stored before, or the file of a `setFile`. -/
theorem step_get {r r' : Repository} {a : Action} {uri : String} {file : RepositoryFile}
    (h : step env r a = some r') (hget : r'.files.get uri = some file) :
    r.files.get uri = some file ∨ a = .setFile uri ∧ file = (r.setFile env uri).2 := by
  cases a with
  | setFile fileUri =>
      cases h
      have hset : (r.files.set fileUri (r.setFile env fileUri).2).get uri = some file := hget
      rw [OrderedMap.get_set] at hset
      split at hset
      · rename_i heq
        cases hset
        exact .inr ⟨by rw [heq], by rw [heq]⟩
      · exact .inl hset
  | setDirectory directoryUri =>
      cases h
      exact .inl hget
  | removeFile fileUri =>
      cases h
      have hdel : (r.files.delete fileUri).get uri = some file := hget
      rw [OrderedMap.get_delete] at hdel
      exact .inl (by grind)
  | removeFilesUnderDirectory directoryUri =>
      cases h
      exact .inl (get_removeFiles hget)
  | setupGitForRepository readFile trackedFiles files =>
      cases h
      unfold setupGitForRepository at hget
      split at hget
      · exact .inl hget
      · split at hget <;> exact .inl hget
  | refreshTrackedFiles trackedFiles =>
      cases h
      cases trackedFiles <;> exact .inl hget

theorem Keyed.step {r r' : Repository} {a : Action} (hr : Keyed r) (h : step env r a = some r') :
    Keyed r' := by
  intro uri file hget
  rcases step_get env h hget with hold | ⟨-, rfl⟩
  · exact hr uri file hold
  · rfl

/-! ## The recorded verdicts -/

/-- With this manager and these tracked files, every stored file that is not tracked would be
ignored exactly if it was ignored when it was stored. -/
def VerdictsHold (manager : Option GitIgnoreManager) (trackedFiles : List String)
    (r : Repository) : Prop :=
  ∀ e ∈ r.files.entries, e.1 ∉ trackedFiles →
    e.2.isIgnored = (manager.map fun m => env.verdict m e.1).getD false

instance (manager : Option GitIgnoreManager) (trackedFiles : List String) (r : Repository) :
    Decidable (VerdictsHold env manager trackedFiles r) :=
  inferInstanceAs (Decidable (∀ e ∈ r.files.entries, _ → _))

/-- `getFile` without the ignored files finds a stored file exactly if `isFileIgnored` says no. -/
def FilterAgrees (r : Repository) : Prop :=
  ∀ uri file, r.files.get uri = some file →
    (r.getFile uri { excludeIgnored := true } = some file ↔ r.isFileIgnored env uri = false)

theorem filterAgrees_iff_verdictsHold {r : Repository} (hr : Keyed r) :
    FilterAgrees env r ↔ VerdictsHold env r.ignoreManager r.gitFiles.trackedFiles r := by
  have hone : ∀ uri file, r.files.get uri = some file →
      ((r.getFile uri { excludeIgnored := true } = some file ↔ r.isFileIgnored env uri = false) ↔
        (uri ∉ r.gitFiles.trackedFiles →
          file.isIgnored = (r.ignoreManager.map fun m => env.verdict m uri).getD false)) := by
    intro uri file hget
    have huri := hr uri file hget
    subst huri
    by_cases ht : file.uri ∈ r.gitFiles.trackedFiles
    · simp [getFile, hget, filter, isFileIgnored, ht]
    · simp only [getFile, hget, filter, isFileIgnored, ht]
      cases hi : file.isIgnored <;>
        cases (r.ignoreManager.map fun m => env.verdict m file.uri).getD false <;>
        simp [hi, ht]
  constructor
  · intro h e he
    have hget : r.files.get e.1 = some e.2 := OrderedMap.get_eq_some_iff.mpr he
    exact (hone e.1 e.2 hget).mp (h e.1 e.2 hget)
  · intro h uri file hget
    exact (hone uri file hget).mpr (h (uri, file) (OrderedMap.get_eq_some_iff.mp hget))

/-- A setup or a refresh that ends finds only files whose recorded verdicts hold of its outcome. -/
def KeepsVerdicts (r : Repository) : Action → Prop
  | .setupGitForRepository readFile trackedFiles files =>
    ∀ gitFiles ∈ getGitFiles readFile trackedFiles files,
      ∀ manager ∈ r.newIgnoreManager readFile gitFiles,
        VerdictsHold env (some manager) gitFiles.trackedFiles r
  | .refreshTrackedFiles trackedFiles =>
    ∀ tracked ∈ trackedFiles, VerdictsHold env r.ignoreManager tracked r
  | _ => True

instance : (r : Repository) → (a : Action) → Decidable (KeepsVerdicts env r a)
  | r, .setupGitForRepository readFile trackedFiles files =>
    inferInstanceAs (Decidable (∀ gitFiles ∈ getGitFiles readFile trackedFiles files,
      ∀ manager ∈ r.newIgnoreManager readFile gitFiles,
        VerdictsHold env (some manager) gitFiles.trackedFiles r))
  | r, .refreshTrackedFiles trackedFiles => inferInstanceAs (Decidable
      (∀ tracked ∈ trackedFiles, VerdictsHold env r.ignoreManager tracked r))
  | _, .setFile _ => isTrue trivial
  | _, .setDirectory _ => isTrue trivial
  | _, .removeFile _ => isTrue trivial
  | _, .removeFilesUnderDirectory _ => isTrue trivial

/-- A step that replaces neither the manager nor the tracked files keeps the recorded verdicts:
`setFile` records the verdict of the moment. -/
theorem VerdictsHold.step_same {r r' : Repository} {a : Action}
    (hr : VerdictsHold env r.ignoreManager r.gitFiles.trackedFiles r)
    (h : step env r a = some r') (hm : r'.ignoreManager = r.ignoreManager)
    (ht : r'.gitFiles = r.gitFiles) :
    VerdictsHold env r'.ignoreManager r'.gitFiles.trackedFiles r' := by
  rw [hm, ht]
  intro e he hnot
  rcases step_get env h (OrderedMap.get_eq_some_iff.mpr he) with hold | ⟨-, hnew⟩
  · exact hr e (OrderedMap.get_eq_some_iff.mp hold) hnot
  · rw [hnew]
    show r.isFileIgnored env e.1 = _
    rw [isFileIgnored, if_neg hnot]

theorem verdictsHold_step {r r' : Repository} {a : Action}
    (hr : VerdictsHold env r.ignoreManager r.gitFiles.trackedFiles r)
    (h : step env r a = some r') :
    VerdictsHold env r'.ignoreManager r'.gitFiles.trackedFiles r' ↔ KeepsVerdicts env r a := by
  cases a with
  | setupGitForRepository readFile trackedFiles files =>
      cases h
      cases hg : getGitFiles readFile trackedFiles files with
      | none => simpa [setupGitForRepository, KeepsVerdicts, hg] using hr
      | some gitFiles =>
          cases hm : r.newIgnoreManager readFile gitFiles with
          | none => simpa [setupGitForRepository, KeepsVerdicts, hg, hm] using hr
          | some manager => simp [setupGitForRepository, KeepsVerdicts, hg, hm, VerdictsHold]
  | refreshTrackedFiles trackedFiles =>
      cases h
      cases trackedFiles with
      | none => simpa [KeepsVerdicts, refreshTrackedFiles] using hr
      | some tracked => simp [KeepsVerdicts, refreshTrackedFiles, updateTrackedFiles, VerdictsHold]
  | setFile fileUri =>
      cases h
      simpa [KeepsVerdicts] using hr.step_same env (a := .setFile fileUri) rfl rfl rfl
  | setDirectory directoryUri =>
      cases h
      simpa [KeepsVerdicts] using hr.step_same env (a := .setDirectory directoryUri) rfl rfl rfl
  | removeFile fileUri =>
      cases h
      simpa [KeepsVerdicts] using hr.step_same env (a := .removeFile fileUri) rfl rfl rfl
  | removeFilesUnderDirectory directoryUri =>
      cases h
      simpa [KeepsVerdicts] using
        hr.step_same env (a := .removeFilesUnderDirectory directoryUri) rfl rfl rfl

/-- **What `getFile` keeps of its contract.** It agrees with `isFileIgnored` in every state of a
run if and only if each setup and each refresh of the run that ends changes the verdict of no
stored file that git then does not track. -/
theorem filterAgrees_iff (workspaceFolder : WorkspaceFolder) (uri configFileUri : String)
    (as : List Action) (r : Repository)
    (hrun : run (step env) (new workspaceFolder uri configFileUri) as = some r) :
    Always (step env) (FilterAgrees env) (new workspaceFolder uri configFileUri) as ↔
      Guarded (step env) (KeepsVerdicts env) (new workspaceFolder uri configFileUri) as := by
  have hkeyed : Keyed (new workspaceFolder uri configFileUri) := by
    rintro uri file ⟨⟩
  have hagrees : FilterAgrees env (new workspaceFolder uri configFileUri) := by
    rintro uri file ⟨⟩
  apply always_iff_guarded (I := Keyed) _ _ hkeyed hagrees hrun
  · intro r a r' hr _ _ h
    exact hr.step env h
  · intro r a r' hr hp h
    rw [filterAgrees_iff_verdictsHold env (hr.step env h)]
    exact verdictsHold_step env ((filterAgrees_iff_verdictsHold env hr).mp hp) h

/-- A manager that ignores what a `.gitignore` file at the root names, and nothing else. -/
def sampleEnvironment : Environment where
  verdict m uri := m.gitignores.any fun e =>
    e.1 == m.rootUri ++ "/.gitignore" && m.rootUri ++ "/" ++ e.2 == uri
  everythingIn directoryUri := directoryUri ++ "/**"

/-- A setup of a repository whose root ignores the file `log`. -/
def sampleSetup (trackedFiles : List String) : Action :=
  .setupGitForRepository (fun _ => some "log") (some trackedFiles)
    ["file:///repo/.gitignore", "file:///repo/log"]

/-- The repository of the samples. -/
def sampleRepository : Repository :=
  new ⟨"file:///repo", "repo"⟩ "file:///repo" "file:///repo/.git/config"

/-- A file that git begins to track is found, whether or not it is ignored. -/
theorem filterAgrees_of_added_file :
    Always (step sampleEnvironment) (FilterAgrees sampleEnvironment) sampleRepository
      [sampleSetup [], .setFile "file:///repo/log",
        .refreshTrackedFiles (some ["file:///repo/log"])] := by
  obtain ⟨r, hr⟩ : ∃ r, run (step sampleEnvironment) sampleRepository
      [sampleSetup [], .setFile "file:///repo/log",
        .refreshTrackedFiles (some ["file:///repo/log"])] = some r :=
    Option.isSome_iff_exists.mp (by decide +kernel)
  apply (filterAgrees_iff sampleEnvironment ⟨"file:///repo", "repo"⟩ "file:///repo"
    "file:///repo/.git/config" _ r hr).mpr
  decide +kernel

/-- A file that git tracks is stored, and then git stops tracking it: it is found although it is
ignored. -/
theorem not_filterAgrees_of_removed_file :
    ¬ Always (step sampleEnvironment) (FilterAgrees sampleEnvironment) sampleRepository
      [sampleSetup ["file:///repo/log"], .setFile "file:///repo/log",
        .refreshTrackedFiles (some [])] := by
  intro h
  obtain ⟨r, hr⟩ : ∃ r, run (step sampleEnvironment) sampleRepository
      [sampleSetup ["file:///repo/log"], .setFile "file:///repo/log",
        .refreshTrackedFiles (some [])] = some r :=
    Option.isSome_iff_exists.mp (by decide +kernel)
  have hfound : ∀ r ∈ run (step sampleEnvironment) sampleRepository
      [sampleSetup ["file:///repo/log"], .setFile "file:///repo/log",
        .refreshTrackedFiles (some [])], (r.files.get "file:///repo/log").isSome ∧
      r.getFile "file:///repo/log" { excludeIgnored := true } =
        r.files.get "file:///repo/log" ∧
      r.isFileIgnored sampleEnvironment "file:///repo/log" = true := by
    decide +kernel
  obtain ⟨hstored, hget, hignored⟩ := hfound r hr
  obtain ⟨file, hfile⟩ := Option.isSome_iff_exists.mp hstored
  have hagrees := (h _ [] r rfl hr "file:///repo/log" file hfile).mp (hget.trans hfile)
  rw [hignored] at hagrees
  cases hagrees

end Repository
end KhulnasoftLsp.Git
