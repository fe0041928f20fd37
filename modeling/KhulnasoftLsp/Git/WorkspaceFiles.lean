import KhulnasoftLsp.Git.Registration
import KhulnasoftLsp.Git.Repository
import KhulnasoftLsp.Tasks
import KhulnasoftLsp.VirtualFileSystem

/-!
# The files of the repositories

The repository service keeps what is in each repository up to date. A rebuild of a workspace folder
creates its repositories anew and then sets up each one and adds its files. A file update finds the
repository of the file, and changes what is in it. Both stop at several `await`s with the
`Repository` object that they have found, and it may be a former one by the time they go on.

The tasks are cut at their `await`s. In which order the queues let them begin is left open, and so
is when the updates of the files in a new directory begin and end: what holds in every
interleaving here holds whatever the queues do.

`currentFiles_of_run` says what a client of the service sees then: the files of a workspace folder
are, each once, those that the innermost repository around them knows.
-/

namespace KhulnasoftLsp.Git

open Transition

/-- What is used of the packages `vscode-uri`, `path` and `minimatch`. -/
structure Packages (URI : Type) where
  uris : UriPackage URI
  fsPath : URI → String
  /-- `URI.file` -/
  fsPathToUri : String → URI
  dirname : String → String
  minimatch : String → String → Bool

def ignoredPaths : List String :=
  ["githooks", ".git/lfs", ".git/logs", ".git/objects", "node_modules", "dist", ".bundle", ".idea",
    ".vscode", "__pycache__", ".mypy_cache", ".pytest_cache", ".tox", ".venv"]

def commonPathsPattern : String := "**/\x7b" ++ ",".intercalate ignoredPaths ++ "\x7d/**"

/-- What is left of a task at the `await` where it has stopped. A repository is named by its place
among all that were ever created. -/
inductive RepositoryTask (URI : Type) where
  /-- `#setWorkspaceRepositories`, in the queue of its folder. -/
  | setWorkspaceRepositories (workspaceFolder : WorkspaceFolder) (files : List URI)
  /-- `setupAndAddFiles`, in `setupGitForRepository`. -/
  | setupGitForRepository (repository : Nat) (files : List URI)
  /-- `setupAndAddFiles`, when the set-up has been successful. -/
  | addFiles (repository : Nat) (files : List URI)
  /-- `#handleWorkspaceFileUpdate`, before it begins. -/
  | handleWorkspaceFileUpdate (fileEvent : FileEvent) (workspaceFolder : WorkspaceFolder)
  /-- `#handleWorkspaceFileUpdate`, at what `refreshTrackedFiles` returns. -/
  | refreshing (repository : Nat) (fileUri : URI) (type : FileChangeType)
      (workspaceFolder : WorkspaceFolder)
  /-- `#handleWorkspaceFileUpdate`, at `lstat` for a file that was created. -/
  | lstat (repository : Nat) (fileUri : URI) (workspaceFolder : WorkspaceFolder)
  /-- `#handleWorkspaceFileUpdate`, at what `#isDirectory` returns for a file that was deleted. -/
  | isDirectory (repository : Nat) (fileUri : URI) (workspaceFolder : WorkspaceFolder)
      (result : Bool)
  /-- `#addFilesForDirectory`, while the files of the directory are looked for. -/
  | addFilesForDirectory (dirUri : URI) (workspaceFolder : WorkspaceFolder)
  /-- `#addFilesForDirectory`, while the updates of these files are handled. -/
  | directoryAdded (dirUri : URI) (workspaceFolder : WorkspaceFolder)
  /-- `#handleWorkspaceFolderStateChange`, while the files of the folder are looked for. -/
  | handleWorkspaceFolderStateChange (workspaceFolder : WorkspaceFolder)
  /-- `#refreshTrackedFilesImpl`, behind its timer. -/
  | refreshTrackedFiles (repository : Nat)
  deriving DecidableEq, Repr

/-- What comes of the promise that a task has awaited. A task looks at what its own promise can
give. -/
structure Answer (URI : Type) where
  failed : Bool := false
  isDirectory : Bool := false
  files : List URI := []
  readFile : String → Option String := fun _ => none
  trackedFiles : Option (List String) := none

namespace Repository

def dispose (r : Repository) : Repository :=
  { r with
    files := .empty
    ignoreManager := r.ignoreManager.map fun m => { m with gitignores := [] } }

def getCurrentTreeFiles (options : GetFileOptions) (r : Repository) : List RepositoryFile :=
  (r.files.entries.map Prod.snd).filter fun file => r.filter file.uri file.isIgnored options

end Repository

/-- The repositories that are registered, and what is in each `Repository` object. -/
structure Repositories (URI : Type) where
  registrations : Registrations URI
  contents : List Repository

namespace Repositories

variable {URI : Type} (packages : Packages URI) (env : Repository.Environment)

def new : Repositories URI := ⟨.new, []⟩

/-! ## What clients read -/

def getMatchingRepository (fileUri : URI) (workspaceFolderUri : String) (s : Repositories URI) :
    Option (Option Nat) :=
  s.registrations.getMatchingRepository packages.uris fileUri workspaceFolderUri

def getRepositoryForWorkspace (workspaceFolderUri : String) (repositoryUri : URI)
    (s : Repositories URI) : Option Repository :=
  ((s.registrations.getRepositoriesForWorkspace workspaceFolderUri).get
    (packages.uris.toString repositoryUri)).bind fun repository => s.contents[repository]?

def getRepositoryFileForUri (fileUri repositoryUri : URI) (workspaceFolder : WorkspaceFolder)
    (s : Repositories URI) : Option RepositoryFile :=
  (s.getRepositoryForWorkspace packages workspaceFolder.uri repositoryUri).bind fun repository =>
    repository.getFile (packages.uris.toString fileUri) {}

def getCurrentFilesForRepository (repositoryUri : URI) (workspaceFolderUri : String)
    (options : GetFileOptions) (s : Repositories URI) : List RepositoryFile :=
  match s.getRepositoryForWorkspace packages workspaceFolderUri repositoryUri with
  | none => []
  | some repository => repository.getCurrentTreeFiles options

def getCurrentFilesForWorkspace (workspaceFolderUri : String) (options : GetFileOptions)
    (s : Repositories URI) : List RepositoryFile :=
  let repositories := s.registrations.getRepositoriesForWorkspace workspaceFolderUri
  repositories.entries.flatMap fun e =>
    (s.contents[e.2]?.map fun repository => repository.getCurrentTreeFiles options).getD []

/-! ## Rebuilds -/

/-- `#getFilesByRepositories`; it is `none` if it throws. -/
def getFilesByRepositories (workspaceFolderUri : String) (s : Registrations URI) :
    List URI → OrderedMap String (OrderedMap String URI) →
      Option (OrderedMap String (OrderedMap String URI))
  | [], filesByRepositories => some filesByRepositories
  | file :: files, filesByRepositories => do
    match ← s.getRepositoryUriForFile packages.uris file workspaceFolderUri with
    | none => getFilesByRepositories workspaceFolderUri s files filesByRepositories
    | some repoUri =>
      let repoUriString := packages.uris.toString repoUri
      let repoFiles := (filesByRepositories.get repoUriString).getD .empty
      getFilesByRepositories workspaceFolderUri s files
        (filesByRepositories.set repoUriString (repoFiles.set (packages.uris.toString file) file))

/-- `#addFilesToRepositories`, up to its `await`: the calls of `setupAndAddFiles`. -/
def addFilesToRepositories (workspaceFolderUri : String) (files : List URI)
    (s : Registrations URI) : List (RepositoryTask URI) :=
  match getFilesByRepositories packages workspaceFolderUri s files .empty with
  -- the rebuild is rejected with its repositories empty
  | none => []
  | some filesByRepositories =>
    filesByRepositories.entries.filterMap fun (repositoryUri, repoFiles) =>
      ((s.getRepositoriesForWorkspace workspaceFolderUri).get repositoryUri).map
        fun repository => .setupGitForRepository repository (repoFiles.entries.map Prod.snd)

/-- What is in the objects that a rebuild has created. -/
def createdBy (workspaceFolder : WorkspaceFolder) (files : List URI) : List Repository :=
  (Registrations.detectRepositories packages.uris files).map fun o =>
    .new workspaceFolder (packages.uris.toString o.uri) (packages.uris.toString o.configFileUri)

/-- The object has been disposed on the way from the first state to the second one. -/
def disposedBetween (s t : Registrations URI) (repository : Nat) : Bool :=
  t.objects[repository]?.any RepositoryObject.disposed &&
    !s.objects[repository]?.any RepositoryObject.disposed

/-- `#setWorkspaceRepositories`, up to its `await`. -/
def setWorkspaceRepositories (workspaceFolder : WorkspaceFolder) (files : List URI)
    (s : Repositories URI) : Repositories URI × List (RepositoryTask URI) :=
  let registrations :=
    s.registrations.setWorkspaceRepositories packages.uris workspaceFolder.uri files
  let contents := (s.contents ++ createdBy packages workspaceFolder files).mapIdx
    fun repository r =>
      if disposedBetween s.registrations registrations repository then r.dispose else r
  (⟨registrations, contents⟩,
    addFilesToRepositories packages workspaceFolder.uri files registrations)

/-! ## Changes of one repository -/

def modifyRepository (repository : Nat) (change : Repository → Repository) (s : Repositories URI) :
    Repositories URI :=
  { s with contents := s.contents.modify repository change }

/-- The loop of `#setDirectoryForFile`, for at most so many rounds. -/
def setDirectories (rootPath : String) : Nat → String → Repository → Option Repository
  | 0, _, _ => none
  | rounds + 1, currentPath, r =>
    if Repository.startsWith rootPath currentPath && currentPath != rootPath then
      let dirUri := packages.uris.toString (packages.fsPathToUri currentPath)
      let r := if (r.getDirectory dirUri {}).isSome then r else (r.setDirectory env dirUri).1
      setDirectories rootPath rounds (packages.dirname currentPath) r
    else some r

/-- `#setDirectoryForFile`. It is `none` if its loop does not end. -/
def setDirectoryForFile (fileUri : URI) (r : Repository) : Option Repository :=
  let currentPath := packages.dirname (packages.fsPath fileUri)
  setDirectories packages env (packages.fsPath (packages.uris.parse r.uri))
    (currentPath.length + 1) currentPath r

/-- The file is set in the repository, with its directories. -/
def setFile (repository : Nat) (fileUri : URI) (s : Repositories URI) :
    Option (Repositories URI) := do
  let r ← s.contents[repository]?
  let r ← setDirectoryForFile packages env fileUri
    (r.setFile env (packages.uris.toString fileUri)).1
  return { s with contents := s.contents.set repository r }

def setFiles (repository : Nat) : List URI → Repositories URI → Option (Repositories URI)
  | [], s => some s
  | file :: files, s => (s.setFile packages env repository file).bind (setFiles repository files)

/-! ## File updates -/

/-- `#handleWorkspaceFileUpdate`, from behind the refresh of the tracked files. -/
def handleFileChange (repository : Nat) (fileUri : URI) (type : FileChangeType)
    (workspaceFolder : WorkspaceFolder) (s : Repositories URI) :
    Option (Repositories URI × List (RepositoryTask URI)) :=
  if ((s.registrations.getRepositoriesForWorkspace workspaceFolder.uri).get
      (packages.uris.toString fileUri)).isSome then
    some (s, [.handleWorkspaceFolderStateChange workspaceFolder])
  else
    match type with
    | .created => some (s, [.lstat repository fileUri workspaceFolder])
    | .changed => (s.setFile packages env repository fileUri).map fun s => (s, [])
    | .deleted =>
      -- the repository is looked for again, here and when the directory is deleted
      match s.getMatchingRepository packages fileUri workspaceFolder.uri with
      | none => some (s, [])
      | some matching =>
        let directory := matching.bind fun r => s.contents[r]?.bind fun r =>
          r.getDirectory (packages.uris.toString fileUri) {}
        some (s, [.isDirectory repository fileUri workspaceFolder directory.isSome])

/-- `#handleWorkspaceFileUpdate` -/
def handleWorkspaceFileUpdate (fileEvent : FileEvent) (workspaceFolder : WorkspaceFolder)
    (s : Repositories URI) : Option (Repositories URI × List (RepositoryTask URI)) :=
  let fileUri := packages.uris.parse fileEvent.uri
  let uriString := packages.uris.toString fileUri
  if packages.minimatch (packages.fsPath fileUri) commonPathsPattern then some (s, [])
  else
    match s.getMatchingRepository packages fileUri workspaceFolder.uri with
    -- what is thrown is caught and logged, and so is that there is no repository
    | none => some (s, [])
    | some none => some (s, [])
    | some (some repository) =>
      if Registrations.isGitConfigFile packages.uris fileUri ||
          Repository.isGitIgnoreFile uriString then
        some (s, [.handleWorkspaceFolderStateChange workspaceFolder])
      else if Repository.isInGitFolder uriString then
        some (s, [.refreshTrackedFiles repository,
          .refreshing repository fileUri fileEvent.type workspaceFolder])
      else s.handleFileChange packages env repository fileUri fileEvent.type workspaceFolder

/-- `#deleteFilesForDirectory` -/
def deleteFilesForDirectory (dirUri : URI) (workspaceFolder : WorkspaceFolder)
    (s : Repositories URI) : Repositories URI × List (RepositoryTask URI) :=
  match s.getMatchingRepository packages dirUri workspaceFolder.uri with
  | some (some repository) =>
    let dirUriString := packages.uris.toString dirUri
    let deletedFiles := (s.contents[repository]?.map fun r =>
      (r.removeFilesUnderDirectory dirUriString).2).getD []
    let gitRelatedFiles := deletedFiles.filter fun file =>
      Registrations.isGitConfigFile packages.uris (packages.uris.parse file.uri) ||
        Repository.isGitIgnoreFile file.uri
    (s.modifyRepository repository fun r => (r.removeFilesUnderDirectory dirUriString).1,
      if gitRelatedFiles.isEmpty then []
      else [.handleWorkspaceFolderStateChange workspaceFolder])
  | _ => (s, [])

/-- The end of `#addFilesForDirectory` -/
def addDirectory (dirUri : URI) (workspaceFolder : WorkspaceFolder) (s : Repositories URI) :
    Repositories URI :=
  match s.getMatchingRepository packages dirUri workspaceFolder.uri with
  | some (some repository) =>
    s.modifyRepository repository fun r => (r.setDirectory env (packages.uris.toString dirUri)).1
  | _ => s

/-! ## Tasks -/

/-- A task goes on up to its next `await`, unless it never gets there. -/
def resume (task : RepositoryTask URI) (answer : Answer URI) (s : Repositories URI) :
    Option (Repositories URI × List (RepositoryTask URI)) :=
  match task with
  | .setWorkspaceRepositories workspaceFolder files =>
    some (s.setWorkspaceRepositories packages workspaceFolder files)
  | .setupGitForRepository repository files =>
    s.contents[repository]?.map fun r =>
      let uriStrings := files.map packages.uris.toString
      let result := r.setupGitForRepository answer.readFile answer.trackedFiles uriStrings
      ({ s with contents := s.contents.set repository result.1 },
        if result.2.isSome then [.addFiles repository files] else [])
  | .addFiles repository files => (s.setFiles packages env repository files).map fun s => (s, [])
  | .handleWorkspaceFileUpdate fileEvent workspaceFolder =>
    s.handleWorkspaceFileUpdate packages env fileEvent workspaceFolder
  | .refreshing repository fileUri type workspaceFolder =>
    if answer.failed then some (s, [])
    else s.handleFileChange packages env repository fileUri type workspaceFolder
  | .lstat repository fileUri workspaceFolder =>
    if answer.failed then some (s, [])
    else if answer.isDirectory then some (s, [.addFilesForDirectory fileUri workspaceFolder])
    else (s.setFile packages env repository fileUri).map fun s => (s, [])
  | .isDirectory repository fileUri workspaceFolder result =>
    if result then some (s.deleteFilesForDirectory packages fileUri workspaceFolder)
    else
      some (s.modifyRepository repository fun r => r.removeFile (packages.uris.toString fileUri),
        [])
  | .addFilesForDirectory dirUri workspaceFolder =>
    if answer.failed then some (s, [])
    else
      -- each is begun before the next one, and whatever it throws it catches itself
      let updates := answer.files.map fun file =>
        .handleWorkspaceFileUpdate ⟨packages.uris.toString file, .created⟩ workspaceFolder
      some (s, updates ++ [.directoryAdded dirUri workspaceFolder])
  | .directoryAdded dirUri workspaceFolder =>
    some (s.addDirectory packages env dirUri workspaceFolder, [])
  | .handleWorkspaceFolderStateChange workspaceFolder =>
    if answer.failed then some (s, [])
    else some (s, [.setWorkspaceRepositories workspaceFolder answer.files])
  | .refreshTrackedFiles repository =>
    some (s.modifyRepository repository fun r => r.refreshTrackedFiles answer.trackedFiles, [])

/-- The listener of the virtual file system. -/
def onFileSystemEvent : FileSystemEvent → List (RepositoryTask URI)
  | .workspaceFilesEvent files workspaceFolder =>
    [.setWorkspaceRepositories workspaceFolder (files.map packages.uris.parse)]
  | .workspaceFileEvent fileEvent workspaceFolder =>
    [.handleWorkspaceFileUpdate fileEvent workspaceFolder]

abbrev System (URI : Type) := Tasks.System (Repositories URI) (RepositoryTask URI)

abbrev Action (URI : Type) := Tasks.Action FileSystemEvent (Answer URI)

def step (s : System URI) (a : Action URI) : Option (System URI) :=
  Tasks.System.step (onFileSystemEvent packages) (resume packages env) s a

/-! ## The rounds of the loop -/

variable {packages env}

theorem setDirectories_of_fixed {rootPath currentPath : String}
    (hinside : (Repository.startsWith rootPath currentPath && currentPath != rootPath) = true)
    (hfixed : packages.dirname currentPath = currentPath) (rounds : Nat) (r : Repository) :
    setDirectories packages env rootPath rounds currentPath r = none := by
  induction rounds generalizing r with
  | zero => rfl
  | succ rounds ih =>
      rw [setDirectories, if_pos hinside, hfixed]
      apply ih

/-- If `dirname` shortens every path but those that it leaves as they are, a loop that has not ended
after as many rounds as the path is long, and one more, never does. -/
theorem setDirectories_eq_none {rootPath : String}
    (hdirname : ∀ path, packages.dirname path = path ∨
      (packages.dirname path).length < path.length) {rounds : Nat} {currentPath : String}
    {r : Repository} (hlength : currentPath.length < rounds)
    (h : setDirectories packages env rootPath rounds currentPath r = none) (more : Nat) :
    setDirectories packages env rootPath more currentPath r = none := by
  induction rounds generalizing currentPath r more with
  | zero => omega
  | succ rounds ih =>
      rw [setDirectories] at h
      split at h
      · next hinside =>
        rcases hdirname currentPath with hfixed | hshorter
        · exact setDirectories_of_fixed hinside hfixed more r
        · cases more with
          | zero => rfl
          | succ more =>
              rw [setDirectories, if_pos hinside]
              exact ih (by omega) h more
      · cases h

end Repositories
end KhulnasoftLsp.Git
