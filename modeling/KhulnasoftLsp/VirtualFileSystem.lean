import KhulnasoftLsp.DocContext
import KhulnasoftLsp.Transition

/-!
# The virtual file system

The service tells its listeners of the files of each workspace folder, once a walk has found them,
and of the file events that come in. A setup that goes on marks the folders that are new as
initialized and starts a walk of each, and it replaces the handler of file events, which takes a
request to the client. Setups overlap.

A folder stays marked when its walk fails, so that no later setup walks it again. Whether a second
handler can be left behind by two setups depends on the connection, which is a parameter:
`filesUpToDate_iff` covers the kind that has one handler for each notification, and the kind that
keeps all handlers it is given.
-/

namespace KhulnasoftLsp

open Transition

inductive FileChangeType where
  | created
  | changed
  | deleted
  deriving DecidableEq, Repr

structure FileEvent where
  uri : String
  type : FileChangeType
  deriving DecidableEq, Repr

inductive FileSystemEvent where
  | workspaceFileEvent (fileEvent : FileEvent) (workspaceFolder : WorkspaceFolder)
  | workspaceFilesEvent (files : List String) (workspaceFolder : WorkspaceFolder)
  deriving DecidableEq, Repr

/-- The part of a connection that watches files. -/
structure LsConnection where
  /-- There is one handler for each notification. A handler takes the place of the one that is
  installed, and whoever disposes of a handler removes the one that is. -/
  replaces : Bool
  handlers : List Nat
  /-- What the client is asked to watch. -/
  registrations : List Nat
  deriving DecidableEq, Repr

namespace LsConnection

def new (replaces : Bool) : LsConnection := ⟨replaces, [], []⟩

def onDidChangeWatchedFiles (handler : Nat) (c : LsConnection) : LsConnection :=
  { c with handlers := if c.replaces then [handler] else c.handlers ++ [handler] }

def disposeHandler (handler : Nat) (c : LsConnection) : LsConnection :=
  { c with handlers := if c.replaces then [] else c.handlers.erase handler }

def register (registration : Nat) (c : LsConnection) : LsConnection :=
  { c with registrations := c.registrations ++ [registration] }

def disposeRegistration (registration : Nat) (c : LsConnection) : LsConnection :=
  { c with registrations := c.registrations.erase registration }

end LsConnection

structure VirtualFileSystemService where
  lsConnection : LsConnection
  /-- `client.workspaceFolders` of the configuration -/
  workspaceFolders : List WorkspaceFolder
  /-- The registration and the handler, which have the same number. -/
  watchersDisposables : Option Nat
  initializedWorkspaceFolders : List String
  /-- The setups that wait for the feature flags. -/
  settingUp : Nat
  /-- The folders that are being walked. -/
  walking : List WorkspaceFolder
  /-- The requests to the client that have not been answered. -/
  registering : Nat
  nextWatcher : Nat
  events : List FileSystemEvent
  /-- The folders whose files have been told of since they were last marked. -/
  emitted : List String
  deriving DecidableEq, Repr

inductive FileSystemAction where
  | configChange (workspaceFolders : List WorkspaceFolder)
  | setup
  /-- A setup goes on, or fails. -/
  | flagsUpdated (isInstanceFlagEnabled : Bool)
  | flagsFailed
  /-- A walk ends. -/
  | filesFound (walk : Nat) (files : List String)
  | walkFailed (walk : Nat)
  /-- The client answers. -/
  | registered
  | registrationFailed
  | didChangeWatchedFiles (changes : List FileEvent)
  deriving DecidableEq, Repr

def getMatchingWorkspaceFolders (fileUri : String) (workspaceFolders : List WorkspaceFolder) :
    List WorkspaceFolder :=
  workspaceFolders.filter fun wf => wf.uri.toList.isPrefixOf fileUri.toList

namespace VirtualFileSystemService

def new (replaces : Bool) : VirtualFileSystemService where
  lsConnection := LsConnection.new replaces
  workspaceFolders := []
  watchersDisposables := none
  initializedWorkspaceFolders := []
  settingUp := 0
  walking := []
  registering := 0
  nextWatcher := 0
  events := []
  emitted := []

def emitFileSystemEvent (event : FileSystemEvent) (s : VirtualFileSystemService) :
    VirtualFileSystemService :=
  { s with events := s.events ++ [event] }

def handleFileEvent (event : FileEvent) (s : VirtualFileSystemService) : List FileSystemEvent :=
  (getMatchingWorkspaceFolders event.uri s.workspaceFolders).map fun workspaceFolder =>
    .workspaceFileEvent event workspaceFolder

/-- What one handler emits for the file events of a notification. -/
def handleFileEvents (changes : List FileEvent) (s : VirtualFileSystemService) :
    List FileSystemEvent :=
  changes.flatMap fun change => s.handleFileEvent change

/-- What all handlers that are installed emit. -/
def deliver (changes : List FileEvent) (s : VirtualFileSystemService) : List FileSystemEvent :=
  s.lsConnection.handlers.flatMap fun _ => s.handleFileEvents changes

/-- `registerWatchers`, until the client has answered. -/
def registerWatchers (s : VirtualFileSystemService) : VirtualFileSystemService :=
  { s with
    lsConnection := s.watchersDisposables.elim s.lsConnection fun watcher =>
      (s.lsConnection.disposeRegistration watcher).disposeHandler watcher
    registering := s.registering + 1 }

/-- An element is added to a set. -/
def addTo (set : List String) (uri : String) : List String :=
  if uri ∈ set then set else set ++ [uri]

/-- `setup`, when the flags are there and the feature is on. -/
def initializeWorkspaceFolders (s : VirtualFileSystemService) : VirtualFileSystemService :=
  let added := s.workspaceFolders.filter fun folder => folder.uri ∉ s.initializedWorkspaceFolders
  let initialized := (added.map (·.uri)).foldl addTo s.initializedWorkspaceFolders
  let configFolders := s.workspaceFolders.map (·.uri)
  registerWatchers { s with
    initializedWorkspaceFolders := initialized.filter (· ∈ configFolders)
    walking := s.walking ++ added
    emitted := s.emitted.filter (· ∉ added.map (·.uri)) }

def step (s : VirtualFileSystemService) : FileSystemAction → Option VirtualFileSystemService
  | .configChange workspaceFolders => some { s with workspaceFolders }
  | .setup => some { s with settingUp := s.settingUp + 1 }
  | .flagsUpdated isInstanceFlagEnabled =>
    if s.settingUp = 0 then none
    else if isInstanceFlagEnabled then
      some ({ s with settingUp := s.settingUp - 1 } :
        VirtualFileSystemService).initializeWorkspaceFolders
    else some { s with settingUp := s.settingUp - 1 }
  | .flagsFailed =>
    if s.settingUp = 0 then none else some { s with settingUp := s.settingUp - 1 }
  | .filesFound n files =>
    s.walking[n]?.map fun workspaceFolder =>
      emitFileSystemEvent (.workspaceFilesEvent files workspaceFolder) { s with
        walking := s.walking.eraseIdx n
        emitted := s.emitted ++ [workspaceFolder.uri] }
  | .walkFailed n =>
    -- the error is logged
    s.walking[n]?.map fun _ => { s with walking := s.walking.eraseIdx n }
  | .registered =>
    if s.registering = 0 then none
    else some { s with
      lsConnection :=
        (s.lsConnection.register s.nextWatcher).onDidChangeWatchedFiles s.nextWatcher
      watchersDisposables := some s.nextWatcher
      registering := s.registering - 1
      nextWatcher := s.nextWatcher + 1 }
  | .registrationFailed =>
    -- what has been disposed of stays in `watchersDisposables`
    if s.registering = 0 then none else some { s with registering := s.registering - 1 }
  | .didChangeWatchedFiles changes =>
    some { s with events := s.events ++ s.deliver changes }

/-- A walk of a folder with this URI is under way. -/
def Walks (s : VirtualFileSystemService) (uri : String) : Prop :=
  ∃ folder ∈ s.walking, folder.uri = uri

structure UpToDate (s : VirtualFileSystemService) : Prop where
  handler : s.lsConnection.handlers.length ≤ 1
  delivered : ∀ changes, s.deliver changes = [] ∨ s.deliver changes = s.handleFileEvents changes
  folders : ∀ uri ∈ s.initializedWorkspaceFolders, s.Walks uri ∨ uri ∈ s.emitted

/-- No handler is added to another, and no walk fails that is all there is of a folder that is
marked. -/
def KeepsUp (s : VirtualFileSystemService) : FileSystemAction → Prop
  | .walkFailed n => ∀ folder ∈ s.walking[n]?, folder.uri ∈ s.initializedWorkspaceFolders →
      folder.uri ∈ s.emitted ∨ ∃ other ∈ s.walking.eraseIdx n, other.uri = folder.uri
  | .registered => s.lsConnection.replaces = true ∨ s.lsConnection.handlers = []
  | _ => True

variable {s t : VirtualFileSystemService}

/-! ## The parts of the property -/

theorem upToDate_iff_parts : s.UpToDate ↔ s.lsConnection.handlers.length ≤ 1 ∧
    ∀ uri ∈ s.initializedWorkspaceFolders, s.Walks uri ∨ uri ∈ s.emitted := by
  refine ⟨fun h => ⟨h.handler, h.folders⟩, fun ⟨hhandler, hfolders⟩ => ⟨hhandler, ?_, hfolders⟩⟩
  intro changes
  rw [deliver]
  cases hhandlers : s.lsConnection.handlers with
  | nil => exact .inl rfl
  | cons handler rest =>
    right
    rw [hhandlers, List.length_cons] at hhandler
    have hrest : rest = [] := by
      rw [← List.length_eq_zero_iff]
      omega
    rw [hrest]
    exact List.append_nil _

theorem mem_foldl_addTo {uris set : List String} {uri : String} :
    uri ∈ uris.foldl addTo set ↔ uri ∈ set ∨ uri ∈ uris := by
  induction uris generalizing set with
  | nil => simp
  | cons new uris ih =>
    have hadd : uri ∈ addTo set new ↔ uri ∈ set ∨ uri = new := by
      rw [addTo]
      split
      · next hnew =>
        constructor
        · exact .inl
        · rintro (h | rfl)
          · exact h
          · exact hnew
      · rw [List.mem_append, List.mem_singleton]
    rw [List.foldl_cons, ih, hadd, List.mem_cons, or_assoc]

/-! ## Handlers -/

theorem length_disposeHandler_le (handler : Nat) (c : LsConnection) :
    (c.disposeHandler handler).handlers.length ≤ c.handlers.length := by
  rw [LsConnection.disposeHandler]
  dsimp only
  split
  · exact Nat.zero_le _
  · exact List.length_erase_le

theorem length_registerWatchers_le :
    s.registerWatchers.lsConnection.handlers.length ≤ s.lsConnection.handlers.length := by
  rw [registerWatchers]
  cases s.watchersDisposables with
  | none => exact Nat.le_refl _
  | some watcher => exact length_disposeHandler_le watcher _

/-- A handler is alone if it takes the place of the others, or if there are none. -/
theorem length_onDidChangeWatchedFiles_le_one_iff (handler : Nat) (c : LsConnection) :
    (c.onDidChangeWatchedFiles handler).handlers.length ≤ 1 ↔
      c.replaces = true ∨ c.handlers = [] := by
  rw [LsConnection.onDidChangeWatchedFiles]
  cases hreplaces : c.replaces with
  | true => exact iff_of_true (Nat.le_refl 1) (.inl rfl)
  | false =>
    show (c.handlers ++ [handler]).length ≤ 1 ↔ _
    rw [List.length_append, List.length_singleton, ← List.length_eq_zero_iff]
    constructor
    · intro h
      right
      omega
    · rintro (h | h)
      · cases h
      · omega

/-! ## Folders -/

/-- What is marked by a setup is walked, or has been told of before. -/
theorem folders_initializeWorkspaceFolders
    (h : ∀ uri ∈ s.initializedWorkspaceFolders, s.Walks uri ∨ uri ∈ s.emitted) :
    ∀ uri ∈ s.initializeWorkspaceFolders.initializedWorkspaceFolders,
      s.initializeWorkspaceFolders.Walks uri ∨ uri ∈ s.initializeWorkspaceFolders.emitted := by
  intro uri huri
  have hadded : ∀ folder ∈ s.workspaceFolders.filter
      (fun folder => folder.uri ∉ s.initializedWorkspaceFolders),
      s.initializeWorkspaceFolders.Walks folder.uri := by
    intro folder hfolder
    exact ⟨folder, List.mem_append_right _ hfolder, rfl⟩
  obtain ⟨huri, -⟩ := List.mem_filter.mp huri
  rcases mem_foldl_addTo.mp huri with hmarked | hnew
  · rcases h uri hmarked with ⟨folder, hfolder, hwalks⟩ | hemitted
    · exact .inl ⟨folder, List.mem_append_left _ hfolder, hwalks⟩
    · right
      refine List.mem_filter.mpr ⟨hemitted, ?_⟩
      rw [decide_eq_true_eq]
      intro hnew
      obtain ⟨folder, hfolder, rfl⟩ := List.mem_map.mp hnew
      obtain ⟨-, hunmarked⟩ := List.mem_filter.mp hfolder
      exact absurd hmarked (of_decide_eq_true hunmarked)
  · obtain ⟨folder, hfolder, rfl⟩ := List.mem_map.mp hnew
    exact .inl (hadded folder hfolder)

/-- A walk of a folder goes on, unless it is the one that ends. -/
theorem walks_or_eq {n : Nat} {folder : WorkspaceFolder} {uri : String}
    (hn : s.walking[n]? = some folder) (h : s.Walks uri) :
    (∃ other ∈ s.walking.eraseIdx n, other.uri = uri) ∨ uri = folder.uri := by
  obtain ⟨other, hother, rfl⟩ := h
  obtain ⟨m, hm⟩ := List.mem_iff_getElem?.mp hother
  by_cases hmn : m = n
  · right
    rw [hmn, hn, Option.some.injEq] at hm
    rw [hm]
  · left
    exact ⟨other, List.mem_eraseIdx_iff_getElem?.mpr ⟨m, hmn, hm⟩, rfl⟩

/-! ## Steps and runs -/

theorem step_upToDate_iff {a : FileSystemAction} (h : s.UpToDate) (hstep : s.step a = some t) :
    t.UpToDate ↔ s.KeepsUp a := by
  obtain ⟨hhandler, hfolders⟩ := upToDate_iff_parts.mp h
  rw [upToDate_iff_parts]
  cases a with
  | configChange workspaceFolders =>
    cases hstep
    exact iff_of_true ⟨hhandler, hfolders⟩ trivial
  | setup =>
    cases hstep
    exact iff_of_true ⟨hhandler, hfolders⟩ trivial
  | flagsUpdated isInstanceFlagEnabled =>
    obtain ⟨-, hset⟩ := Option.ite_none_left_eq_some.mp hstep
    split at hset
    · cases hset
      refine iff_of_true ⟨?_, ?_⟩ trivial
      · exact Nat.le_trans length_registerWatchers_le hhandler
      · exact folders_initializeWorkspaceFolders hfolders
    · cases hset
      exact iff_of_true ⟨hhandler, hfolders⟩ trivial
  | flagsFailed =>
    obtain ⟨-, hset⟩ := Option.ite_none_left_eq_some.mp hstep
    cases hset
    exact iff_of_true ⟨hhandler, hfolders⟩ trivial
  | filesFound n files =>
    obtain ⟨folder, hn, rfl⟩ := Option.map_eq_some_iff.mp hstep
    refine iff_of_true ⟨hhandler, ?_⟩ trivial
    intro uri huri
    rcases hfolders uri huri with hwalks | hemitted
    · rcases walks_or_eq hn hwalks with hother | rfl
      · exact .inl hother
      · exact .inr (List.mem_append_right _ List.mem_cons_self)
    · exact .inr (List.mem_append_left _ hemitted)
  | walkFailed n =>
    obtain ⟨folder, hn, rfl⟩ := Option.map_eq_some_iff.mp hstep
    rw [and_iff_right hhandler]
    constructor
    · intro hall other hother hmarked
      obtain rfl : folder = other := Option.some.inj (hn.symm.trans hother)
      exact (hall folder.uri hmarked).symm
    · intro hkeeps uri huri
      rcases hfolders uri huri with hwalks | hemitted
      · rcases walks_or_eq hn hwalks with hother | rfl
        · exact .inl hother
        · exact (hkeeps folder hn huri).symm
      · exact .inr hemitted
  | registered =>
    obtain ⟨-, hset⟩ := Option.ite_none_left_eq_some.mp hstep
    cases hset
    exact (and_iff_left hfolders).trans
      (length_onDidChangeWatchedFiles_le_one_iff s.nextWatcher
        (s.lsConnection.register s.nextWatcher))
  | registrationFailed =>
    obtain ⟨-, hset⟩ := Option.ite_none_left_eq_some.mp hstep
    cases hset
    exact iff_of_true ⟨hhandler, hfolders⟩ trivial
  | didChangeWatchedFiles changes =>
    cases hstep
    exact iff_of_true ⟨hhandler, hfolders⟩ trivial

/-- **The file system keeps up** with its folders and has one handler, exactly as long as no walk
fails that is all there is of a folder that is marked, and no handler is added to another. -/
theorem filesUpToDate_iff {replaces : Bool} {as : List FileSystemAction}
    (h : run step (new replaces) as = some s) :
    Always step UpToDate (new replaces) as ↔ Guarded step KeepsUp (new replaces) as := by
  apply always_iff_guarded (I := fun _ => True) _ _ trivial _ h
  · exact fun _ _ _ _ _ _ _ => trivial
  · exact fun s a t _ hs hstep => step_upToDate_iff hs hstep
  · exact upToDate_iff_parts.mpr ⟨Nat.zero_le 1, nofun⟩

theorem filesUpToDate_iff_of_folder_removed : ∃ s,
    run step (new true) [.configChange [⟨"file:///a", "a"⟩], .setup, .flagsUpdated true,
      .registered, .configChange [], .setup, .flagsUpdated true, .walkFailed 0] = some s ∧
    (Always step UpToDate (new true) [.configChange [⟨"file:///a", "a"⟩], .setup,
        .flagsUpdated true, .registered, .configChange [], .setup, .flagsUpdated true,
        .walkFailed 0] ↔
      Guarded step KeepsUp (new true) [.configChange [⟨"file:///a", "a"⟩], .setup,
        .flagsUpdated true, .registered, .configChange [], .setup, .flagsUpdated true,
        .walkFailed 0]) := by
  obtain ⟨s, hs⟩ : ∃ s, run step (new true) [.configChange [⟨"file:///a", "a"⟩], .setup,
      .flagsUpdated true, .registered, .configChange [], .setup, .flagsUpdated true,
      .walkFailed 0] = some s := ⟨_, rfl⟩
  exact ⟨s, hs, filesUpToDate_iff hs⟩

/-- A folder whose walk has failed is not walked again. Where handlers are kept side by side, two
setups leave two of them. -/
theorem not_filesUpToDate :
    (∃ s, run step (new true) [.configChange [⟨"file:///a", "a"⟩], .setup, .flagsUpdated true,
        .registered, .walkFailed 0, .setup, .flagsUpdated true, .registered] = some s ∧
      s.initializedWorkspaceFolders = ["file:///a"] ∧ s.walking = [] ∧ s.events = [] ∧
      ¬ s.UpToDate) ∧
    ∃ s, run step (new false) [.configChange [⟨"file:///a", "a"⟩], .setup, .setup,
        .flagsUpdated true, .flagsUpdated true, .registered, .registered] = some s ∧
      s.lsConnection.handlers = [0, 1] ∧ ¬ s.UpToDate := by
  constructor
  · refine ⟨_, rfl, rfl, rfl, rfl, ?_⟩
    intro h
    rcases h.folders "file:///a" List.mem_cons_self with ⟨folder, hfolder, -⟩ | hemitted
    · cases hfolder
    · cases hemitted
  · refine ⟨_, rfl, rfl, ?_⟩
    intro h
    exact absurd h.handler (by decide)

end VirtualFileSystemService
end KhulnasoftLsp
