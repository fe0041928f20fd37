import KhulnasoftLsp.Transition
import KhulnasoftLsp.OrderedMap
import KhulnasoftLsp.DocContext

/-!
# The Duo projects of the workspace folders

`DefaultDuoWorkspaceProjectAccessCache` knows for each workspace folder the projects below it, and
of each project whether it has Duo enabled. `updateCache` empties the cache, walks the folders and
asks the API, and fills the cache at its end; any number of such calls may be under way.
`checkProjectStatus` looks up the project of a document in what the cache holds at that moment.

`parse` stands for `parseKhulnaSoftRemote`, which is given a remote URL and the base URL.
-/

namespace KhulnasoftLsp.DuoAccess

open Transition

structure KhulnaSoftRemote where
  host : String
  pathNamespace : String
  projectPath : String
  namespaceWithPath : String
  deriving DecidableEq, Repr

structure DuoProject where
  remote : KhulnaSoftRemote
  /-- The `.git/config` file of the project. -/
  uri : String
  enabled : Bool
  deriving DecidableEq, Repr

/-- A response to the query for `project.duoFeaturesEnabled`, or the error of the request. -/
abbrev DuoFeaturesResponse := Except Unit (Option Bool)

/-- A `.git/config` file that the directory walker finds. -/
structure GitConfigFile where
  fileUri : String
  /-- The URLs of its `remote` sections, if it can be read and parsed. A section may lack one. -/
  remoteUrls : Option (List (Option String))
  deriving DecidableEq, Repr

/-- `GitlabRemoteAndFileUri`, with the response to the request for it. -/
structure FetchedRemote where
  remote : KhulnaSoftRemote
  fileUri : String
  response : DuoFeaturesResponse
  deriving DecidableEq, Repr

/-- What the outside world answers to the walk through a workspace folder: the files found, or an
error, and the response for each remote. -/
structure FolderAnswers where
  files : Option (List GitConfigFile)
  responses : Nat → DuoFeaturesResponse

structure UpdateArgs where
  baseUrl : String
  workspaceFolders : List WorkspaceFolder
  deriving DecidableEq, Repr

section Fetching

variable (parse : String → String → Option KhulnaSoftRemote)

/-- `#remoteUrlsFromGitConfig`: a file that cannot be read has no remotes. -/
def remoteUrlsFromGitConfig (file : GitConfigFile) : List (Option String) :=
  file.remoteUrls.getD []

/-- `#gitlabRemotesForFileUri`. It throws at a remote without URL. -/
def gitlabRemotesForFileUri (baseUrl : String) (file : GitConfigFile) :
    Option (List (KhulnaSoftRemote × String)) := do
  let remoteUrls ← (remoteUrlsFromGitConfig file).mapM id
  return remoteUrls.filterMap fun remoteUrl =>
    (parse remoteUrl baseUrl).map fun remote => (remote, file.fileUri)

/-- `#gitlabRemotesForWorkspaceFolder` -/
def gitlabRemotesForWorkspaceFolder (baseUrl : String) (answers : FolderAnswers) :
    Option (List (KhulnaSoftRemote × String)) := do
  let files ← answers.files
  let remotes ← files.mapM (gitlabRemotesForFileUri parse baseUrl)
  return remotes.flatten

/-- The remotes of a workspace folder, each with the response to its request. -/
def fetchedRemotes (baseUrl : String) (answers : FolderAnswers) : Option (List FetchedRemote) := do
  let remotes ← gitlabRemotesForWorkspaceFolder parse baseUrl answers
  return remotes.mapIdx fun i (remote, fileUri) =>
    { remote := remote, fileUri := fileUri, response := answers.responses i }

/-- What the requests of an `updateCache` give for its folders. It fails if one of the folders
does. -/
def fetchFolders (args : UpdateArgs) (answers : Nat → FolderAnswers) :
    Option (List (String × List FetchedRemote)) :=
  (args.workspaceFolders.zipIdx).mapM fun (workspaceFolder, i) =>
    (fetchedRemotes parse args.baseUrl (answers i)).map fun fetched =>
      (workspaceFolder.uri, fetched)

end Fetching

/-- `#checkDuoFeaturesEnabled`: a project whose request failed counts as enabled. -/
def checkDuoFeaturesEnabled : DuoFeaturesResponse → Bool
  | .ok duoFeaturesEnabled => duoFeaturesEnabled.getD false
  | .error _ => true

def FetchedRemote.project (f : FetchedRemote) : DuoProject where
  remote := f.remote
  uri := f.fileUri
  enabled := checkDuoFeaturesEnabled f.response

/-- `#duoProjectsForWorkspaceFolder`, for each folder of an update. -/
def duoProjects (folders : List (String × List FetchedRemote)) : List (String × List DuoProject) :=
  folders.map fun folder => (folder.1, folder.2.map FetchedRemote.project)

/-! ## The status of a document -/

inductive DuoProjectStatus where
  | DuoEnabled
  | DuoDisabled
  | NonGitlabProject
  deriving DecidableEq, Repr

/-- `s.replace(pattern, '')`: the first occurrence is cut out. -/
def removeFirst (pattern : List Char) : List Char → List Char
  | [] => []
  | c :: cs =>
    if pattern.isPrefixOf (c :: cs) then (c :: cs).drop pattern.length
    else c :: removeFirst pattern cs

/-- The document `uri` lies below the directory of the `.git/config` file. -/
def isBelow (uri configUri : String) : Bool :=
  (removeFirst ".git/config".toList configUri.toList).isPrefixOf uri.toList

/-- The deepest project so far, when one more is looked at. -/
def deeper {α : Type} (uriOf : α → String) (uri : String) (deepest : Option α) (item : α) :
    Option α :=
  if isBelow uri (uriOf item) then
    match deepest with
    | none => some item
    | some d => if (uriOf d).length < (uriOf item).length then some item else some d
  else deepest

/-- Of the items whose `.git/config` file lies above the document, the first with the longest
URI. -/
def deepestBy {α : Type} (uriOf : α → String) (uri : String) (items : List α) : Option α :=
  items.foldl (deeper uriOf uri) none

/-- `#findDeepestProjectByPath` -/
def findDeepestProjectByPath (uri : String) (projects : List DuoProject) : Option DuoProject :=
  deepestBy DuoProject.uri uri projects

/-- `checkProjectStatus`, given the projects that the cache holds for the workspace folder. -/
def projectStatus (uri : String) (projects : List DuoProject) :
    Option DuoProject × DuoProjectStatus :=
  if projects.length = 0 then (none, .NonGitlabProject)
  else match findDeepestProjectByPath uri projects with
    | none => (none, .NonGitlabProject)
    | some project => (some project, if project.enabled then .DuoEnabled else .DuoDisabled)

/-! ## The cache -/

/-- A call of `updateCache` that has not ended. -/
structure Update where
  id : Nat
  args : UpdateArgs
  deriving DecidableEq, Repr

/-- A call of `updateCache` that has filled the cache, and what it fetched. -/
structure Completed where
  id : Nat
  folders : List (String × List FetchedRemote)
  deriving DecidableEq, Repr

/-- What the call fetched for the folder with this URI: for a folder that it was given twice, the
second time counts. -/
def Completed.fetched (folderUri : String) (c : Completed) : Option (List FetchedRemote) :=
  c.folders.reverse.lookup folderUri

/-- The cache, the calls in flight, and a record of the calls that filled it. -/
structure WorkspaceCache where
  duoProjects : OrderedMap String (List DuoProject)
  /-- The number of calls so far. -/
  started : Nat
  inFlight : List Update
  completed : List Completed
  /-- How many calls had filled the cache when the latest call started. -/
  completedBefore : Nat

inductive Action where
  | updateCache (args : UpdateArgs)
  /-- The call `id` has all its answers, or one of them is an error: it ends. -/
  | updateEnds (id : Nat) (answers : Nat → FolderAnswers)

namespace WorkspaceCache

def new : WorkspaceCache where
  duoProjects := .empty
  started := 0
  inFlight := []
  completed := []
  completedBefore := 0

def getProjectsForWorkspaceFolder (workspaceFolder : WorkspaceFolder) (c : WorkspaceCache) :
    List DuoProject :=
  (c.duoProjects.get workspaceFolder.uri).getD []

def checkProjectStatus (uri : String) (workspaceFolder : WorkspaceFolder) (c : WorkspaceCache) :
    Option DuoProject × DuoProjectStatus :=
  projectStatus uri (c.getProjectsForWorkspaceFolder workspaceFolder)

/-- `updateCache`, up to its first `await`. -/
def updateCache (args : UpdateArgs) (c : WorkspaceCache) : WorkspaceCache :=
  { c with
    duoProjects := .empty
    started := c.started + 1
    inFlight := c.inFlight ++ [{ id := c.started, args := args }]
    completedBefore := c.completed.length }

/-- The end of `updateCache`. An error is logged, and nothing else. -/
def updateEnds (u : Update) (folders : Option (List (String × List FetchedRemote)))
    (c : WorkspaceCache) : WorkspaceCache :=
  let inFlight := c.inFlight.filter (· ≠ u)
  match folders with
  | none => { c with inFlight := inFlight }
  | some folders =>
    { c with
      duoProjects := c.duoProjects.setAll (DuoAccess.duoProjects folders)
      inFlight := inFlight
      completed := c.completed ++ [{ id := u.id, folders := folders }] }

variable (parse : String → String → Option KhulnaSoftRemote)

def step (c : WorkspaceCache) : Action → Option WorkspaceCache
  | .updateCache args => some (c.updateCache args)
  | .updateEnds id answers =>
    (c.inFlight.find? (·.id = id)).map fun u => c.updateEnds u (fetchFolders parse u.args answers)

/-! ## What a call leaves in the cache -/

theorem lookup_reverse_duoProjects (folders : List (String × List FetchedRemote))
    (folderUri : String) :
    (DuoAccess.duoProjects folders).reverse.lookup folderUri =
      (folders.reverse.lookup folderUri).map (List.map FetchedRemote.project) := by
  rw [DuoAccess.duoProjects, ← List.map_reverse]
  induction folders.reverse with
  | nil => rfl
  | cons e es ih =>
      rw [List.map_cons, List.lookup_cons, List.lookup_cons, ih]
      split <;> rfl

/-- A call that fills the cache sets the folders that it was given, and leaves the others. -/
theorem get_updateEnds (u : Update) (folders : List (String × List FetchedRemote))
    (c : WorkspaceCache) (folderUri : String) :
    (c.updateEnds u (some folders)).duoProjects.get folderUri =
      ((Completed.fetched folderUri ⟨u.id, folders⟩).map (List.map FetchedRemote.project)).or
        (c.duoProjects.get folderUri) := by
  show (c.duoProjects.setAll (DuoAccess.duoProjects folders)).get folderUri = _
  rw [OrderedMap.get_setAll, lookup_reverse_duoProjects]
  rfl

/-- What the two steps do. -/
theorem step_cases {c c' : WorkspaceCache} {a : Action} (h : step parse c a = some c') :
    (∃ args, a = .updateCache args ∧ c' = c.updateCache args) ∨
      ∃ u answers, u ∈ c.inFlight ∧ a = .updateEnds u.id answers ∧
        c.inFlight.find? (·.id = u.id) = some u ∧
        c' = c.updateEnds u (fetchFolders parse u.args answers) := by
  cases a with
  | updateCache args =>
      cases h
      exact .inl ⟨args, rfl, rfl⟩
  | updateEnds id answers =>
      obtain ⟨u, hu, rfl⟩ := Option.map_eq_some_iff.mp h
      obtain rfl : u.id = id := by simpa using List.find?_some hu
      exact .inr ⟨u, answers, List.mem_of_find?_eq_some hu, rfl, hu, rfl⟩

/-! ## Overlapping calls -/

/-- The projects that the call has computed for the folder. -/
def projectsOf (folderUri : String) (u : Completed) : Option (List DuoProject) :=
  (u.fetched folderUri).map (List.map FetchedRemote.project)

/-- The calls that have filled the cache since the latest call started. -/
def filledSince (c : WorkspaceCache) : List Completed := c.completed.drop c.completedBefore

/-- What the latest call has computed for the folder: nothing if it failed. -/
def ofLatest (folderUri : String) (c : WorkspaceCache) : Option (List DuoProject) :=
  (c.filledSince.find? (·.id + 1 = c.started)).bind (projectsOf folderUri)

/-- The cache holds exactly the folders and projects of the latest call. -/
def HoldsLatest (c : WorkspaceCache) : Prop :=
  ∀ folderUri, c.duoProjects.get folderUri = c.ofLatest folderUri

/-- Whenever a call has filled the cache for a folder with other projects than those the latest
call computed for it, a call that ended after it has filled it with those. -/
def OlderOverwritten (c : WorkspaceCache) : Prop :=
  ∀ before u after, c.filledSince = before ++ u :: after →
    ∀ folderUri, (projectsOf folderUri u).isSome → projectsOf folderUri u ≠ c.ofLatest folderUri →
      ∃ v ∈ after, (projectsOf folderUri v).isSome ∧
        projectsOf folderUri v = c.ofLatest folderUri

/-- The last value that a list of results gives is the wanted one, if it is given at all, exactly
if every other value is followed by the wanted one. -/
theorem findSome?_reverse_eq_iff {α β : Type} {f : α → Option β} {wanted : Option β}
    {items : List α} (h : wanted.isSome → ∃ a ∈ items, f a = wanted) :
    items.reverse.findSome? f = wanted ↔
      ∀ before a after, items = before ++ a :: after → (f a).isSome → f a ≠ wanted →
        ∃ b ∈ after, (f b).isSome ∧ f b = wanted := by
  constructor
  · rintro hlast before a after rfl ha hne
    rw [List.reverse_append, List.reverse_cons, List.append_assoc, List.findSome?_append] at hlast
    cases hafter : after.reverse.findSome? f with
    | none =>
        obtain ⟨x, hx⟩ := Option.isSome_iff_exists.mp ha
        simp [hafter, hx] at hlast
        exact absurd (hx.trans hlast) hne
    | some x =>
        obtain ⟨b, hb, hfb⟩ := List.exists_of_findSome?_eq_some hafter
        rw [hafter] at hlast
        exact ⟨b, List.mem_reverse.mp hb, by simp [hfb], hfb.trans hlast⟩
  · intro hall
    cases hlast : items.reverse.findSome? f with
    | none =>
        rw [List.findSome?_eq_none_iff] at hlast
        cases hw : wanted with
        | none => rfl
        | some x =>
            obtain ⟨a, ha, hfa⟩ := h (by simp [hw])
            rw [hlast a (List.mem_reverse.mpr ha), hw] at hfa
            cases hfa
    | some x =>
        obtain ⟨after, a, before, hitems, ha, hnone⟩ := List.findSome?_eq_some_iff.mp hlast
        have hitems' : items = before.reverse ++ a :: after.reverse := by
          rw [← List.reverse_reverse items, hitems]
          simp
        by_contra hne
        obtain ⟨b, hb, hsome, -⟩ := hall _ a _ hitems' (by simp [ha]) (by rwa [ha])
        rw [hnone b (List.mem_reverse.mp hb)] at hsome
        cases hsome

/-- The cache remembers of each folder the last call that has filled it since the latest start. -/
def Remembers (c : WorkspaceCache) : Prop :=
  c.completedBefore ≤ c.completed.length ∧ ∀ folderUri,
    c.duoProjects.get folderUri = c.filledSince.reverse.findSome? (projectsOf folderUri)

theorem Remembers.step {c c' : WorkspaceCache} {a : Action} (hc : Remembers c)
    (h : step parse c a = some c') : Remembers c' := by
  obtain ⟨hle, hget⟩ := hc
  rcases step_cases parse h with ⟨args, rfl, rfl⟩ | ⟨u, answers, -, rfl, -, rfl⟩
  · refine ⟨Nat.le_refl _, ?_⟩
    intro folderUri
    simp [updateCache, filledSince]
  · cases hfolders : fetchFolders parse u.args answers with
    | none => exact ⟨hle, hget⟩
    | some folders =>
        constructor
        · simp [updateEnds]
          omega
        · intro folderUri
          have hsince : (c.updateEnds u (some folders)).filledSince =
              c.filledSince ++ [⟨u.id, folders⟩] := by
            simp [updateEnds, filledSince, List.drop_append_of_le_length hle]
          rw [get_updateEnds, hsince, List.reverse_concat, List.findSome?_cons, hget]
          show (projectsOf folderUri _).or _ = _
          cases projectsOf folderUri ⟨u.id, folders⟩ <;> rfl

/-- **What the cache keeps of the latest call.** In every state of every run, and so once all
calls have ended, the cache holds what the latest call has computed if and only if that call comes
last wherever it matters: every call that fills the cache after the latest start with something
else is followed by one that fills it with what the latest call computed. -/
theorem holdsLatest_iff (as : List Action) (c : WorkspaceCache)
    (hrun : run (step parse) new as = some c) : HoldsLatest c ↔ OlderOverwritten c := by
  have hremembers : Remembers c :=
    run_invariant (fun _ _ _ hc h => hc.step parse h) ⟨Nat.le_refl _, fun _ => rfl⟩ hrun
  have hone : ∀ folderUri, c.duoProjects.get folderUri = c.ofLatest folderUri ↔
      ∀ before u after, c.filledSince = before ++ u :: after → (projectsOf folderUri u).isSome →
        projectsOf folderUri u ≠ c.ofLatest folderUri →
          ∃ v ∈ after, (projectsOf folderUri v).isSome ∧
            projectsOf folderUri v = c.ofLatest folderUri := by
    intro folderUri
    rw [hremembers.2 folderUri]
    apply findSome?_reverse_eq_iff
    intro hsome
    obtain ⟨x, hx⟩ := Option.isSome_iff_exists.mp hsome
    obtain ⟨u, hu, hux⟩ := Option.bind_eq_some_iff.mp hx
    exact ⟨u, List.mem_of_find?_eq_some hu, hux.trans hx.symm⟩
  constructor
  · intro h before u after hsince folderUri
    exact (hone folderUri).mp (h folderUri) before u after hsince
  · intro h folderUri
    exact (hone folderUri).mpr fun before u after hsince => h before u after hsince folderUri

/-- The remote of the samples, at the instance `https://gitlab.com`. -/
def sampleParse (remote _instanceUrl : String) : Option KhulnaSoftRemote :=
  if remote = "https://gitlab.com/g/p.git" then some ⟨"gitlab.com", "g", "p", "g/p"⟩ else none

/-- One project at the root of every folder, with this response. -/
def sampleAnswers (folderUri : String) (response : DuoFeaturesResponse) : Nat → FolderAnswers :=
  fun _ =>
    { files := some [⟨folderUri ++ "/.git/config", some [some "https://gitlab.com/g/p.git"]⟩]
      responses := fun _ => response }

def sampleArgs (folderUri : String) : UpdateArgs := ⟨"https://gitlab.com", [⟨folderUri, "a"⟩]⟩

/-- Two calls for one folder that end in the order of their start. -/
def sampleOverlap : List Action :=
  [.updateCache (sampleArgs "file:///a"), .updateCache (sampleArgs "file:///a"),
    .updateEnds 0 (sampleAnswers "file:///a" (.ok (some true))),
    .updateEnds 1 (sampleAnswers "file:///a" (.ok (some false)))]

/-- The call that ends last is the latest one. -/
theorem holdsLatest_iff_of_overlap :
    ∃ c, run (step sampleParse) new sampleOverlap = some c ∧
      (HoldsLatest c ↔ OlderOverwritten c) := by
  obtain ⟨c, hc⟩ : ∃ c, run (step sampleParse) new sampleOverlap = some c :=
    Option.isSome_iff_exists.mp (by decide +kernel)
  exact ⟨c, hc, holdsLatest_iff sampleParse sampleOverlap c hc⟩

/-- Two calls for two folders, of which the older one ends last: the cache holds the folder of the
older call too. -/
theorem not_holdsLatest_of_older_last :
    ∃ c, run (step sampleParse) new
        [.updateCache (sampleArgs "file:///a"), .updateCache (sampleArgs "file:///b"),
          .updateEnds 1 (sampleAnswers "file:///b" (.ok (some false))),
          .updateEnds 0 (sampleAnswers "file:///a" (.ok (some false)))] = some c ∧
      c.inFlight = [] ∧ ¬ HoldsLatest c := by
  obtain ⟨c, hc⟩ : ∃ c, run (step sampleParse) new
      [.updateCache (sampleArgs "file:///a"), .updateCache (sampleArgs "file:///b"),
        .updateEnds 1 (sampleAnswers "file:///b" (.ok (some false))),
        .updateEnds 0 (sampleAnswers "file:///a" (.ok (some false)))] = some c :=
    Option.isSome_iff_exists.mp (by decide +kernel)
  have hstate : ∀ c ∈ run (step sampleParse) new
      [.updateCache (sampleArgs "file:///a"), .updateCache (sampleArgs "file:///b"),
        .updateEnds 1 (sampleAnswers "file:///b" (.ok (some false))),
        .updateEnds 0 (sampleAnswers "file:///a" (.ok (some false)))],
      c.inFlight = [] ∧ c.duoProjects.get "file:///a" ≠ c.ofLatest "file:///a" := by
    decide +kernel
  obtain ⟨hdone, hne⟩ := hstate c hc
  exact ⟨c, hc, hdone, fun h => hne (h "file:///a")⟩

end WorkspaceCache
end KhulnasoftLsp.DuoAccess
