import KhulnasoftLsp.Git.WorkspaceFiles

/-!
# The current files of a workspace folder

A task that waits has captured a repository and files. As long as the repository is registered, the
files are still its own, since the next rebuild of its folder registers new objects only:
`Belongs.succeeds` is what tasks count on while others run.
-/

namespace KhulnasoftLsp.Git

open Transition

/-! ## What is stored in one repository -/

namespace Repository

variable {env : Environment}

/-- Each file is stored under its own URI, and names its repository and workspace folder. -/
structure Files (r : Repository) : Prop where
  keyed : Keyed r
  repositoryUri : ∀ uri file, r.files.get uri = some file → file.repositoryUri = r.uri
  workspaceFolder : ∀ uri file, r.files.get uri = some file →
    file.workspaceFolder = r.workspaceFolder

theorem step_fields {r r' : Repository} {a : Repository.Action} (h : step env r a = some r') :
    r'.uri = r.uri ∧ r'.workspaceFolder = r.workspaceFolder := by
  cases a with
  | setupGitForRepository readFile trackedFiles files =>
      cases h
      unfold setupGitForRepository
      split
      · exact ⟨rfl, rfl⟩
      · split <;> exact ⟨rfl, rfl⟩
  | refreshTrackedFiles trackedFiles =>
      cases h
      cases trackedFiles <;> exact ⟨rfl, rfl⟩
  | setFile fileUri => cases h; exact ⟨rfl, rfl⟩
  | setDirectory directoryUri => cases h; exact ⟨rfl, rfl⟩
  | removeFile fileUri => cases h; exact ⟨rfl, rfl⟩
  | removeFilesUnderDirectory directoryUri => cases h; exact ⟨rfl, rfl⟩

theorem run_fields {r r' : Repository} {as : List Repository.Action}
    (h : run (step env) r as = some r') :
    r'.uri = r.uri ∧ r'.workspaceFolder = r.workspaceFolder := by
  refine run_invariant (I := fun t => t.uri = r.uri ∧ t.workspaceFolder = r.workspaceFolder)
    ?_ ⟨rfl, rfl⟩ h
  rintro s a t ⟨huri, hfolder⟩ hstep
  obtain ⟨huri', hfolder'⟩ := step_fields hstep
  exact ⟨huri'.trans huri, hfolder'.trans hfolder⟩

theorem Files.step {r r' : Repository} {a : Repository.Action} (hr : Files r)
    (h : step env r a = some r') : Files r' := by
  obtain ⟨huri, hfolder⟩ := step_fields h
  refine ⟨hr.keyed.step env h, ?_, ?_⟩
  · intro uri file hget
    rcases step_get env h hget with hold | ⟨-, rfl⟩
    · rw [hr.repositoryUri uri file hold, huri]
    · exact huri.symm
  · intro uri file hget
    rcases step_get env h hget with hold | ⟨-, rfl⟩
    · rw [hr.workspaceFolder uri file hold, hfolder]
    · exact hfolder.symm

/-- What a run can leave stored: a file that was stored before, or one that has been set. -/
theorem run_get {r r' : Repository} {as : List Repository.Action} {uri : String}
    {file : RepositoryFile} (h : run (step env) r as = some r')
    (hget : r'.files.get uri = some file) :
    (∃ old, r.files.get uri = some old) ∨ .setFile uri ∈ as := by
  induction as generalizing r with
  | nil =>
      cases h
      exact .inl ⟨file, hget⟩
  | cons a as ih =>
      rw [run_cons, Option.bind_eq_some_iff] at h
      obtain ⟨m, hm, hrest⟩ := h
      rcases ih hrest with ⟨old, hold⟩ | hmem
      · rcases step_get env hm hold with hbefore | ⟨rfl, -⟩
        · exact .inl ⟨old, hbefore⟩
        · exact .inr List.mem_cons_self
      · exact .inr (List.mem_cons_of_mem a hmem)

variable (env) in
/-- The repository is in a state that its own operations lead to from the start. -/
def Reached (uri configFileUri : String) (r : Repository) : Prop :=
  ∃ workspaceFolder as, run (step env) (.new workspaceFolder uri configFileUri) as = some r

theorem Reached.run {uri configFileUri : String} {r r' : Repository} {as : List Repository.Action}
    (h : Reached env uri configFileUri r) (hrun : run (step env) r as = some r') :
    Reached env uri configFileUri r' := by
  obtain ⟨workspaceFolder, before, hbefore⟩ := h
  exact ⟨workspaceFolder, before ++ as, run_append_eq_some.mpr ⟨r, hbefore, hrun⟩⟩

theorem Reached.uri_eq {uri configFileUri : String} {r : Repository}
    (h : Reached env uri configFileUri r) : r.uri = uri := by
  obtain ⟨workspaceFolder, as, hrun⟩ := h
  exact (run_fields hrun).1

theorem Reached.files {uri configFileUri : String} {r : Repository}
    (h : Reached env uri configFileUri r) : Files r := by
  obtain ⟨workspaceFolder, as, hrun⟩ := h
  refine run_invariant (I := Files) (fun s a t hs ht => hs.step ht) ?_ hrun
  constructor <;> rintro uri file ⟨⟩

theorem filter_default (uri : String) (isIgnored : Bool) (r : Repository) :
    r.filter uri isIgnored {} = true := by
  simp [filter]

theorem getFile_default {r : Repository} {uri : String} {file : RepositoryFile}
    (h : r.files.get uri = some file) : r.getFile uri {} = some file := by
  rw [getFile, h, Option.filter_some, filter_default, if_pos rfl]

theorem mem_getCurrentTreeFiles_iff {r : Repository} (hr : Keyed r) {options : GetFileOptions}
    {file : RepositoryFile} :
    file ∈ r.getCurrentTreeFiles options ↔ r.getFile file.uri options = some file := by
  rw [getCurrentTreeFiles, List.mem_filter, List.mem_map, getFile, Option.filter_eq_some_iff]
  apply and_congr_left'
  constructor
  · rintro ⟨⟨uri, file⟩, he, rfl⟩
    have hget := OrderedMap.get_eq_some_iff.mpr he
    rw [hr uri file hget]
    exact hget
  · intro hget
    exact ⟨_, OrderedMap.get_eq_some_iff.mp hget, rfl⟩

theorem nodup_getCurrentTreeFiles {r : Repository} (hr : Keyed r) (options : GetFileOptions) :
    ((r.getCurrentTreeFiles options).map RepositoryFile.uri).Nodup := by
  have hkeys : (r.files.entries.map Prod.snd).map RepositoryFile.uri =
      r.files.entries.map Prod.fst := by
    rw [List.map_map]
    apply List.map_congr_left
    intro e he
    exact hr e.1 e.2 (OrderedMap.get_eq_some_iff.mpr he)
  have hall : ((r.files.entries.map Prod.snd).map RepositoryFile.uri).Nodup := by
    rw [hkeys]
    exact r.files.nodup
  exact hall.sublist (List.filter_sublist.map RepositoryFile.uri)

end Repository

/-! ## Files that belong to a repository -/

namespace Registrations

variable {URI : Type} {uris : UriPackage URI}

variable (uris) in
/-- The repository is the one of the file in each workspace folder in which it is registered. -/
def Belongs (r : Nat) (fileUri : URI) (s : Registrations URI) : Prop :=
  r < s.objects.length ∧
    ∀ w, s.Registered w r → s.getMatchingRepository uris fileUri w = some (some r)

/-- A folder in which a former repository is still registered has not been rebuilt. -/
structure Succeeds (s t : Registrations URI) : Prop where
  length_le : s.objects.length ≤ t.objects.length
  kept : ∀ w r, r < s.objects.length → t.Registered w r →
    t.workspaceToRepositories.get w = s.workspaceToRepositories.get w

theorem Succeeds.refl (s : Registrations URI) : s.Succeeds s where
  length_le := le_refl _
  kept := by
    intro w r _ _
    rfl

theorem registered_congr {s t : Registrations URI} {w : String}
    (h : t.workspaceToRepositories.get w = s.workspaceToRepositories.get w) (r : Nat) :
    t.Registered w r ↔ s.Registered w r := by
  rw [Registered, Registered, getRepositoriesForWorkspace, getRepositoriesForWorkspace, h]

theorem getMatchingRepository_congr {s t : Registrations URI} {w : String}
    (h : t.workspaceToRepositories.get w = s.workspaceToRepositories.get w) (fileUri : URI) :
    t.getMatchingRepository uris fileUri w = s.getMatchingRepository uris fileUri w := by
  rw [getMatchingRepository, getMatchingRepository, getRepositoryUriForFile,
    getRepositoryUriForFile, getDirectoryMatcherForWorkspace, getDirectoryMatcherForWorkspace,
    getRepositoriesForWorkspace, getRepositoriesForWorkspace, h]

/-- **What a waiting task may count on**: a file goes on belonging to its repository. -/
theorem Belongs.succeeds {s t : Registrations URI} {r : Nat} {fileUri : URI}
    (h : s.Belongs uris r fileUri) (hst : s.Succeeds t) : t.Belongs uris r fileUri := by
  obtain ⟨hlt, hbelongs⟩ := h
  refine ⟨lt_of_lt_of_le hlt hst.length_le, ?_⟩
  intro w hw
  have hkept := hst.kept w r hlt hw
  rw [getMatchingRepository_congr hkept]
  exact hbelongs w ((registered_congr hkept r).mp hw)

theorem registered_of_getMatchingRepository {s : Registrations URI} {w : String} {fileUri : URI}
    {r : Nat} (h : s.getMatchingRepository uris fileUri w = some (some r)) : s.Registered w r := by
  rw [getMatchingRepository, Option.map_eq_some_iff] at h
  obtain ⟨repositoryUri, -, h⟩ := h
  obtain ⟨uri, -, hget⟩ := Option.bind_eq_some_iff.mp h
  exact ⟨_, hget⟩

/-- A file belongs to the repository that is found for it. -/
theorem Traced.belongs {s : Registrations URI} (hs : s.Traced) {w : String} {fileUri : URI}
    {r : Nat} (h : s.getMatchingRepository uris fileUri w = some (some r)) :
    s.Belongs uris r fileUri := by
  have hr := registered_of_getMatchingRepository h
  refine ⟨hs.created w r hr, ?_⟩
  intro w' hw'
  rw [hs.once w' w r hw' hr]
  exact h

theorem get_addRepositories {w w' : String} (hne : w' ≠ w) (repositories : List (URI × Nat))
    (s : Registrations URI) :
    (s.addRepositories uris w repositories).workspaceToRepositories.get w' =
      s.workspaceToRepositories.get w' := by
  induction repositories generalizing s with
  | nil => rfl
  | cons repository repositories ih =>
      rw [addRepositories]
      split
      · rfl
      · next t ht =>
        obtain ⟨path, -, rfl⟩ := addRepositoryToWorkspace_eq_some ht
        rw [ih, OrderedMap.get_set, if_neg hne]

/-- A rebuild does nothing to other folders. -/
theorem get_setWorkspaceRepositories {w w' : String} (hne : w' ≠ w) (files : List URI)
    (s : Registrations URI) :
    (s.setWorkspaceRepositories uris w files).workspaceToRepositories.get w' =
      s.workspaceToRepositories.get w' := by
  unfold setWorkspaceRepositories
  dsimp only
  rw [get_addRepositories hne, clearRepositoriesForWorkspace_eq]
  show (s.workspaceToRepositories.delete w).get w' = _
  rw [OrderedMap.get_delete, if_neg hne]

theorem succeeds_setWorkspaceRepositories (hlawful : uris.Lawful) (w : String) (files : List URI)
    (s : Registrations URI) : s.Succeeds (s.setWorkspaceRepositories uris w files) := by
  have hstep : s.step uris ⟨w, files⟩ = some (s.setWorkspaceRepositories uris w files) := rfl
  constructor
  · rw [(step_spec hlawful hstep).1, List.length_append]
    omega
  · intro w' r hlt hr
    apply get_setWorkspaceRepositories
    -- all that is registered for the folder of the rebuild is new
    rintro rfl
    rw [registered_iff hlawful hstep, if_pos rfl] at hr
    obtain ⟨key, hkey⟩ := hr
    have hle := (mem_range_of_get hkey).1
    omega

end Registrations

/-! ## Files are where they belong -/

namespace Repositories

variable {URI : Type} {packages : Packages URI} {env : Repository.Environment}

variable (packages env) in
/-- Each object has contents of its own, and what is stored in it belongs to it. -/
structure Placed (s : Repositories URI) : Prop where
  consistent : s.registrations.Consistent packages.uris
  traced : s.registrations.Traced
  length : s.contents.length = s.registrations.objects.length
  reached : ∀ (r : Nat) o c, s.registrations.objects[r]? = some o → s.contents[r]? = some c →
    c.Reached env (packages.uris.toString o.uri) (packages.uris.toString o.configFileUri)
  folder : ∀ (w : String) (r : Nat) c, s.registrations.Registered w r → s.contents[r]? = some c →
    c.workspaceFolder.uri = w
  belongs : ∀ (r : Nat) c key file, s.contents[r]? = some c → c.files.get key = some file →
    ∃ fileUri, packages.uris.toString fileUri = key ∧
      s.registrations.Belongs packages.uris r fileUri

/-- What the tasks that stop between finding a repository and changing it rely on. -/
def Owns (uris : UriPackage URI) (s : Registrations URI) : RepositoryTask URI → Prop
  | .setupGitForRepository repository files => ∀ file ∈ files, s.Belongs uris repository file
  | .addFiles repository files => ∀ file ∈ files, s.Belongs uris repository file
  | .refreshing repository fileUri _ _ => s.Belongs uris repository fileUri
  | .lstat repository fileUri _ => s.Belongs uris repository fileUri
  | _ => True

theorem Owns.succeeds {uris : UriPackage URI} {s t : Registrations URI}
    {task : RepositoryTask URI} (h : Owns uris s task) (hst : s.Succeeds t) :
    Owns uris t task := by
  cases task with
  | setupGitForRepository repository files => exact fun file hfile => (h file hfile).succeeds hst
  | addFiles repository files => exact fun file hfile => (h file hfile).succeeds hst
  | refreshing repository fileUri type workspaceFolder => exact Registrations.Belongs.succeeds h hst
  | lstat repository fileUri workspaceFolder => exact Registrations.Belongs.succeeds h hst
  | _ => trivial

variable (packages env) in
/-- A task that goes on keeps files where they belong, and so may the tasks that it leaves. -/
structure Places (s : Repositories URI) (next : Repositories URI × List (RepositoryTask URI)) :
    Prop where
  placed : next.1.Placed packages env
  succeeds : s.registrations.Succeeds next.1.registrations
  owns : ∀ task ∈ next.2, Owns packages.uris next.1.registrations task

theorem Places.same {s t : Repositories URI} {left : List (RepositoryTask URI)}
    (h : t.Placed packages env) (hsame : t.registrations = s.registrations)
    (howns : ∀ task ∈ left, Owns packages.uris s.registrations task) :
    Places packages env s (t, left) where
  placed := h
  succeeds := by
    rw [hsame]
    exact Registrations.Succeeds.refl _
  owns := by
    rw [hsame]
    exact howns

theorem places_nil {s t : Repositories URI} (h : t.Placed packages env)
    (hsame : t.registrations = s.registrations) : Places packages env s (t, []) := by
  apply Places.same h hsame
  rintro task ⟨⟩

theorem getElem?_contents_set {contents : List Repository} {repository r₁ : Nat}
    {r c : Repository} (h : (contents.set repository r)[r₁]? = some c) :
    repository = r₁ ∧ c = r ∨ contents[r₁]? = some c := by
  rw [List.getElem?_set] at h
  split at h
  · next heq =>
    split at h
    · exact .inl ⟨heq, (Option.some.inj h).symm⟩
    · cases h
  · exact .inr h

/-- The repository goes through operations of its own, which set only files that belong to it. -/
theorem Placed.set {s : Repositories URI} (h : s.Placed packages env) {repository : Nat}
    {r r' : Repository} (hr : s.contents[repository]? = some r) (as : List Repository.Action)
    (hrun : run (Repository.step env) r as = some r')
    (hfiles : ∀ key, .setFile key ∈ as → ∃ fileUri, packages.uris.toString fileUri = key ∧
      s.registrations.Belongs packages.uris repository fileUri) :
    Placed packages env { s with contents := s.contents.set repository r' } where
  consistent := h.consistent
  traced := h.traced
  length := by
    rw [List.length_set]
    exact h.length
  reached := by
    intro r₁ o c ho hc
    rcases getElem?_contents_set hc with ⟨rfl, rfl⟩ | hc
    · exact (h.reached repository o r ho hr).run hrun
    · exact h.reached r₁ o c ho hc
  folder := by
    intro w r₁ c hregistered hc
    rcases getElem?_contents_set hc with ⟨rfl, rfl⟩ | hc
    · rw [(Repository.run_fields hrun).2]
      exact h.folder w repository r hregistered hr
    · exact h.folder w r₁ c hregistered hc
  belongs := by
    intro r₁ c key file hc hget
    rcases getElem?_contents_set hc with ⟨rfl, rfl⟩ | hc
    -- the file was stored before, or one of the operations has set it
    · rcases Repository.run_get hrun hget with ⟨old, hold⟩ | hset
      · exact h.belongs repository r key old hr hold
      · exact hfiles key hset
    · exact h.belongs r₁ c key file hc hget

/-- One operation that sets no file. -/
theorem Placed.modifyRepository {s : Repositories URI} (h : s.Placed packages env)
    (repository : Nat) {change : Repository → Repository} {a : Repository.Action}
    (ha : ∀ r, Repository.step env r a = some (change r)) (hfile : ∀ key, a ≠ .setFile key) :
    (s.modifyRepository repository change).Placed packages env := by
  rw [Repositories.modifyRepository, List.modify_eq_set_getElem?]
  cases hr : s.contents[repository]? with
  | none => exact h
  | some r =>
      refine h.set hr [a] ?_ ?_
      · rw [run_cons, ha, Option.bind_some, run_nil]
      · intro key hkey
        exact absurd (List.mem_singleton.mp hkey).symm (hfile key)

/-- The loop of `#setDirectoryForFile` sets directories alone. -/
theorem exists_run_of_setDirectories {rootPath : String} {rounds : Nat} {currentPath : String}
    {r r' : Repository}
    (h : setDirectories packages env rootPath rounds currentPath r = some r') :
    ∃ as, run (Repository.step env) r as = some r' ∧ ∀ key, .setFile key ∉ as := by
  induction rounds generalizing currentPath r with
  | zero => cases h
  | succ rounds ih =>
      rw [setDirectories] at h
      split at h
      · dsimp only at h
        split at h
        · exact ih h
        · obtain ⟨as, hrun, hnone⟩ := ih h
          refine ⟨.setDirectory (packages.uris.toString (packages.fsPathToUri currentPath)) :: as,
            ?_, ?_⟩
          · rw [run_cons]
            exact hrun
          · intro key hkey
            rcases List.mem_cons.mp hkey with heq | hmem
            · cases heq
            · exact hnone key hmem
      · cases h
        exact ⟨[], rfl, by simp⟩

theorem Placed.setFile {s t : Repositories URI} (h : s.Placed packages env) {repository : Nat}
    {fileUri : URI} (hbelongs : s.registrations.Belongs packages.uris repository fileUri)
    (hset : s.setFile packages env repository fileUri = some t) :
    t.Placed packages env ∧ t.registrations = s.registrations := by
  obtain ⟨r, hr, hset⟩ := Option.bind_eq_some_iff.mp hset
  obtain ⟨r', hr', hset⟩ := Option.bind_eq_some_iff.mp hset
  cases hset
  obtain ⟨as, hrun, hnone⟩ := exists_run_of_setDirectories hr'
  refine ⟨?_, rfl⟩
  refine h.set hr (.setFile (packages.uris.toString fileUri) :: as) ?_ ?_
  · rw [run_cons]
    exact hrun
  · intro key hkey
    rcases List.mem_cons.mp hkey with heq | hmem
    · cases heq
      exact ⟨fileUri, rfl, hbelongs⟩
    · exact absurd hmem (hnone key)

theorem Placed.setFiles {s t : Repositories URI} (h : s.Placed packages env) {repository : Nat}
    {files : List URI}
    (hbelongs : ∀ file ∈ files, s.registrations.Belongs packages.uris repository file)
    (hset : s.setFiles packages env repository files = some t) :
    t.Placed packages env ∧ t.registrations = s.registrations := by
  induction files generalizing s with
  | nil =>
      cases hset
      exact ⟨h, rfl⟩
  | cons file files ih =>
      obtain ⟨hfile, hfiles⟩ := List.forall_mem_cons.mp hbelongs
      obtain ⟨m, hm, hrest⟩ := Option.bind_eq_some_iff.mp hset
      obtain ⟨hplaced, hsame⟩ := h.setFile hfile hm
      rw [← hsame] at hfiles ⊢
      exact ih hplaced hfiles hrest

/-! ### Rebuilds -/

/-- Each file is kept under the URI of the repository that is found for it. -/
def SortedByRepository (packages : Packages URI) (w : String) (s : Registrations URI)
    (filesByRepositories : OrderedMap String (OrderedMap String URI)) : Prop :=
  ∀ key repoFiles, filesByRepositories.get key = some repoFiles → ∀ e ∈ repoFiles.entries,
    ∃ uri, s.getRepositoryUriForFile packages.uris e.2 w = some (some uri) ∧
      packages.uris.toString uri = key

theorem SortedByRepository.set {w : String} {s : Registrations URI}
    {filesByRepositories : OrderedMap String (OrderedMap String URI)}
    (h : SortedByRepository packages w s filesByRepositories) {file repoUri : URI}
    (hfile : s.getRepositoryUriForFile packages.uris file w = some (some repoUri)) (k : String) :
    SortedByRepository packages w s
      (filesByRepositories.set (packages.uris.toString repoUri)
        (((filesByRepositories.get (packages.uris.toString repoUri)).getD .empty).set k file)) := by
  intro key repoFiles hget e he
  rw [OrderedMap.get_set] at hget
  split at hget
  · next hkey =>
    cases hget
    have hentry := OrderedMap.get_eq_some_iff.mpr he
    rw [OrderedMap.get_set] at hentry
    split at hentry
    · cases hentry
      exact ⟨repoUri, hfile, hkey.symm⟩
    · cases hold : filesByRepositories.get (packages.uris.toString repoUri) with
      | none =>
          rw [hold] at hentry
          cases hentry
      | some old =>
          rw [hold] at hentry
          rw [hkey]
          exact h _ old hold e (OrderedMap.get_eq_some_iff.mp hentry)
  · exact h key repoFiles hget e he

theorem sortedByRepository_getFilesByRepositories {w : String} {s : Registrations URI}
    {files : List URI} {before after : OrderedMap String (OrderedMap String URI)}
    (h : SortedByRepository packages w s before)
    (hfiles : getFilesByRepositories packages w s files before = some after) :
    SortedByRepository packages w s after := by
  induction files generalizing before with
  | nil =>
      cases hfiles
      exact h
  | cons file files ih =>
      obtain ⟨repositoryUri, hrepository, hrest⟩ := Option.bind_eq_some_iff.mp hfiles
      cases repositoryUri with
      | none => exact ih h hrest
      | some repoUri => exact ih (h.set hrepository _) hrest

/-- The files that are added to a repository after a rebuild belong to it. -/
theorem owns_addFilesToRepositories {s : Registrations URI} (hs : s.Traced) (w : String)
    (files : List URI) :
    ∀ task ∈ addFilesToRepositories packages w files s, Owns packages.uris s task := by
  intro task htask
  unfold addFilesToRepositories at htask
  split at htask
  · cases htask
  · next filesByRepositories hfiles =>
    have hempty : SortedByRepository packages w s .empty := by
      rintro key repoFiles ⟨⟩
    have hsorted := sortedByRepository_getFilesByRepositories hempty hfiles
    obtain ⟨⟨key, repoFiles⟩, he, hsome⟩ := List.mem_filterMap.mp htask
    obtain ⟨repository, hrepository, rfl⟩ := Option.map_eq_some_iff.mp hsome
    intro file hfile
    obtain ⟨e, hentry, rfl⟩ := List.mem_map.mp hfile
    obtain ⟨uri, huri, hkey⟩ := hsorted key repoFiles (OrderedMap.get_eq_some_iff.mpr he) e hentry
    apply hs.belongs (w := w)
    rw [Registrations.getMatchingRepository, huri, Option.map_some, Option.bind_some, hkey]
    exact congrArg some hrepository

/-- A rebuild disposes no repository, since none is left in the map when they are looked for. -/
theorem contents_setWorkspaceRepositories {s : Repositories URI}
    (hlawful : packages.uris.Lawful) (hs : s.registrations.Traced)
    (workspaceFolder : WorkspaceFolder) (files : List URI) :
    (s.setWorkspaceRepositories packages workspaceFolder files).1.contents =
      s.contents ++ createdBy packages workspaceFolder files := by
  have hstep : s.registrations.step packages.uris ⟨workspaceFolder.uri, files⟩ =
      some (s.registrations.setWorkspaceRepositories packages.uris workspaceFolder.uri files) := rfl
  have hundisposed := (hs.step hlawful hstep).undisposed
  unfold setWorkspaceRepositories
  apply List.ext_getElem?
  intro r
  dsimp only
  rw [List.getElem?_mapIdx]
  cases hr : (s.contents ++ createdBy packages workspaceFolder files)[r]? with
  | none => rfl
  | some c =>
      rw [Option.map_some, disposedBetween]
      cases ho : (s.registrations.setWorkspaceRepositories packages.uris workspaceFolder.uri
          files).objects[r]? with
      | none => rfl
      | some o => simp [hundisposed o (List.mem_of_getElem? ho)]

/-- What is in an object after a rebuild: what was in it before, or nothing yet. -/
theorem getElem?_contents_rebuilt {s : Repositories URI} (h : s.Placed packages env)
    {workspaceFolder : WorkspaceFolder} {files : List URI} {r : Nat} {c : Repository}
    (hc : (s.contents ++ createdBy packages workspaceFolder files)[r]? = some c) :
    r < s.registrations.objects.length ∧ s.contents[r]? = some c ∨
      s.registrations.objects.length ≤ r ∧
        ∃ o, (Registrations.detectRepositories packages.uris files)[
            r - s.registrations.objects.length]? = some o ∧
          c = .new workspaceFolder (packages.uris.toString o.uri)
            (packages.uris.toString o.configFileUri) := by
  rcases Nat.lt_or_ge r s.registrations.objects.length with hlt | hle
  · rw [List.getElem?_append_left (h.length ▸ hlt)] at hc
    exact .inl ⟨hlt, hc⟩
  · rw [List.getElem?_append_right (h.length ▸ hle), createdBy, List.getElem?_map, h.length] at hc
    obtain ⟨o, ho, rfl⟩ := Option.map_eq_some_iff.mp hc
    exact .inr ⟨hle, o, ho, rfl⟩

theorem Placed.setWorkspaceRepositories {s : Repositories URI} (h : s.Placed packages env)
    (hlawful : packages.uris.Lawful) (workspaceFolder : WorkspaceFolder) (files : List URI) :
    (s.setWorkspaceRepositories packages workspaceFolder files).1.Placed packages env := by
  have hstep : s.registrations.step packages.uris ⟨workspaceFolder.uri, files⟩ =
      some (s.setWorkspaceRepositories packages workspaceFolder files).1.registrations := rfl
  have hcontents := contents_setWorkspaceRepositories hlawful h.traced workspaceFolder files
  obtain ⟨hobjects, -⟩ := Registrations.step_spec hlawful hstep
  have hsucceeds : s.registrations.Succeeds
      (s.setWorkspaceRepositories packages workspaceFolder files).1.registrations :=
    Registrations.succeeds_setWorkspaceRepositories hlawful workspaceFolder.uri files
      s.registrations
  refine ⟨h.consistent.setWorkspaceRepositories workspaceFolder.uri files,
    h.traced.step hlawful hstep, ?_, ?_, ?_, ?_⟩
  · rw [hcontents, hobjects, List.length_append, List.length_append, h.length, createdBy,
      List.length_map]
  · intro r o c ho hc
    rw [hobjects] at ho
    rw [hcontents] at hc
    rcases getElem?_contents_rebuilt h hc with ⟨hlt, hold⟩ | ⟨hle, o', ho', rfl⟩
    · rw [List.getElem?_append_left hlt] at ho
      exact h.reached r o c ho hold
    · rw [List.getElem?_append_right hle, ho'] at ho
      cases ho
      exact ⟨workspaceFolder, [], rfl⟩
  · intro w r c hr hc
    rw [hcontents] at hc
    -- a former object that is registered is so in a folder that was not rebuilt
    rcases getElem?_contents_rebuilt h hc with ⟨hlt, hold⟩ | ⟨hle, o, -, rfl⟩
    · exact h.folder w r c ((Registrations.registered_congr (hsucceeds.kept w r hlt hr) r).mp hr)
        hold
    · rw [Registrations.registered_iff hlawful hstep] at hr
      split at hr
      · next hw => exact hw.symm
      · have hlt := h.traced.created w r hr
        omega
  · intro r c key file hc hget
    rw [hcontents] at hc
    rcases getElem?_contents_rebuilt h hc with ⟨-, hold⟩ | ⟨-, o, -, rfl⟩
    · obtain ⟨fileUri, hkey, hbelongs⟩ := h.belongs r c key file hold hget
      exact ⟨fileUri, hkey, hbelongs.succeeds hsucceeds⟩
    · cases hget

/-! ### File updates -/

theorem Placed.places_setFile {s : Repositories URI} (h : s.Placed packages env)
    {repository : Nat} {fileUri : URI}
    (hbelongs : s.registrations.Belongs packages.uris repository fileUri)
    {next : Repositories URI × List (RepositoryTask URI)}
    (hnext : (s.setFile packages env repository fileUri).map (fun s => (s, [])) = some next) :
    Places packages env s next := by
  obtain ⟨t, ht, rfl⟩ := Option.map_eq_some_iff.mp hnext
  obtain ⟨hplaced, hsame⟩ := h.setFile hbelongs ht
  exact places_nil hplaced hsame

theorem Placed.handleFileChange {s : Repositories URI} (h : s.Placed packages env)
    {repository : Nat} {fileUri : URI} {type : FileChangeType} {workspaceFolder : WorkspaceFolder}
    (hbelongs : s.registrations.Belongs packages.uris repository fileUri)
    {next : Repositories URI × List (RepositoryTask URI)}
    (hnext : s.handleFileChange packages env repository fileUri type workspaceFolder =
      some next) : Places packages env s next := by
  unfold Repositories.handleFileChange at hnext
  split at hnext
  · cases hnext
    exact Places.same h rfl (by simp [Owns])
  · cases type with
    | created =>
        cases hnext
        exact Places.same h rfl (by simpa [Owns] using hbelongs)
    | changed => exact h.places_setFile hbelongs hnext
    | deleted =>
        dsimp only at hnext
        split at hnext
        · cases hnext
          exact places_nil h rfl
        · cases hnext
          exact Places.same h rfl (by simp [Owns])

theorem Placed.handleWorkspaceFileUpdate {s : Repositories URI} (h : s.Placed packages env)
    {fileEvent : FileEvent} {workspaceFolder : WorkspaceFolder}
    {next : Repositories URI × List (RepositoryTask URI)}
    (hnext : s.handleWorkspaceFileUpdate packages env fileEvent workspaceFolder = some next) :
    Places packages env s next := by
  unfold Repositories.handleWorkspaceFileUpdate at hnext
  dsimp only at hnext
  split at hnext
  · cases hnext
    exact places_nil h rfl
  · split at hnext
    · cases hnext
      exact places_nil h rfl
    · cases hnext
      exact places_nil h rfl
    · next repository hmatching =>
      have hbelongs := h.traced.belongs hmatching
      split at hnext
      · cases hnext
        exact Places.same h rfl (by simp [Owns])
      · split at hnext
        · cases hnext
          exact Places.same h rfl (by simpa [Owns] using hbelongs)
        · exact h.handleFileChange hbelongs hnext

theorem Placed.deleteFilesForDirectory {s : Repositories URI} (h : s.Placed packages env)
    (dirUri : URI) (workspaceFolder : WorkspaceFolder) :
    Places packages env s (s.deleteFilesForDirectory packages dirUri workspaceFolder) := by
  unfold Repositories.deleteFilesForDirectory
  split
  · next repository _ =>
    refine Places.same (h.modifyRepository repository
      (a := .removeFilesUnderDirectory (packages.uris.toString dirUri)) ?_ ?_) rfl ?_
    · intro r
      rfl
    · rintro key ⟨⟩
    · intro task htask
      split at htask
      · cases htask
      · obtain rfl := List.mem_singleton.mp htask
        trivial
  · exact places_nil h rfl

theorem Placed.addDirectory {s : Repositories URI} (h : s.Placed packages env)
    (dirUri : URI) (workspaceFolder : WorkspaceFolder) :
    Places packages env s (s.addDirectory packages env dirUri workspaceFolder, []) := by
  unfold Repositories.addDirectory
  split
  · next repository _ =>
    refine places_nil (h.modifyRepository repository
      (a := .setDirectory (packages.uris.toString dirUri)) ?_ ?_) rfl
    · intro r
      rfl
    · rintro key ⟨⟩
  · exact places_nil h rfl

/-- **A task that goes on keeps files where they belong.** -/
theorem Placed.resume (hlawful : packages.uris.Lawful) {s : Repositories URI}
    (h : s.Placed packages env) {task : RepositoryTask URI} {answer : Answer URI}
    (howns : Owns packages.uris s.registrations task)
    {next : Repositories URI × List (RepositoryTask URI)}
    (hnext : s.resume packages env task answer = some next) : Places packages env s next := by
  cases task with
  | setWorkspaceRepositories workspaceFolder files =>
      cases hnext
      have hplaced := h.setWorkspaceRepositories hlawful workspaceFolder files
      exact ⟨hplaced, Registrations.succeeds_setWorkspaceRepositories hlawful _ files _,
        owns_addFilesToRepositories hplaced.traced workspaceFolder.uri files⟩
  | setupGitForRepository repository files =>
      obtain ⟨r, hr, rfl⟩ := Option.map_eq_some_iff.mp hnext
      refine Places.same (h.set hr [.setupGitForRepository answer.readFile
        answer.trackedFiles (files.map packages.uris.toString)] rfl ?_) rfl ?_
      · simp
      · intro task htask
        split at htask
        · obtain rfl := List.mem_singleton.mp htask
          exact howns
        · cases htask
  | addFiles repository files =>
      obtain ⟨t, ht, rfl⟩ := Option.map_eq_some_iff.mp hnext
      obtain ⟨hplaced, hsame⟩ := h.setFiles howns ht
      exact places_nil hplaced hsame
  | handleWorkspaceFileUpdate fileEvent workspaceFolder => exact h.handleWorkspaceFileUpdate hnext
  | refreshing repository fileUri type workspaceFolder =>
      rw [Repositories.resume] at hnext
      split at hnext
      · cases hnext
        exact places_nil h rfl
      · exact h.handleFileChange howns hnext
  | lstat repository fileUri workspaceFolder =>
      rw [Repositories.resume] at hnext
      split at hnext
      · cases hnext
        exact places_nil h rfl
      · split at hnext
        · cases hnext
          exact Places.same h rfl (by simp [Owns])
        · exact h.places_setFile howns hnext
  | isDirectory repository fileUri workspaceFolder result =>
      rw [Repositories.resume] at hnext
      split at hnext
      · cases hnext
        exact h.deleteFilesForDirectory fileUri workspaceFolder
      · cases hnext
        refine places_nil (h.modifyRepository repository
          (a := .removeFile (packages.uris.toString fileUri)) ?_ ?_) rfl
        · intro r
          rfl
        · rintro key ⟨⟩
  | addFilesForDirectory dirUri workspaceFolder =>
      rw [Repositories.resume] at hnext
      split at hnext
      · cases hnext
        exact places_nil h rfl
      · cases hnext
        refine Places.same h rfl ?_
        intro task htask
        rcases List.mem_append.mp htask with hmem | hmem
        · obtain ⟨file, -, rfl⟩ := List.mem_map.mp hmem
          trivial
        · obtain rfl := List.mem_singleton.mp hmem
          trivial
  | directoryAdded dirUri workspaceFolder =>
      cases hnext
      exact h.addDirectory dirUri workspaceFolder
  | handleWorkspaceFolderStateChange workspaceFolder =>
      rw [Repositories.resume] at hnext
      split at hnext
      · cases hnext
        exact places_nil h rfl
      · cases hnext
        exact Places.same h rfl (by simp [Owns])
  | refreshTrackedFiles repository =>
      cases hnext
      refine places_nil (h.modifyRepository repository
        (a := .refreshTrackedFiles answer.trackedFiles) ?_ ?_) rfl
      · intro r
        rfl
      · rintro key ⟨⟩

theorem placed_new : (new : Repositories URI).Placed packages env where
  consistent := Registrations.consistent_new
  traced := Registrations.traced_new
  length := rfl
  reached := by
    intro r o c ho
    cases ho
  folder := by
    intro w r c _ hc
    cases hc
  belongs := by
    intro r c key file hc
    cases hc

/-- In every interleaving, files are where they belong. -/
theorem placed_of_run (hlawful : packages.uris.Lawful) {as : List (Action URI)} {s : System URI}
    (h : run (step packages env) ⟨new, []⟩ as = some s) : s.shared.Placed packages env := by
  have hsound := Tasks.System.sound_of_run (I := fun s => s.Placed packages env)
    (P := fun s task => Owns packages.uris s.registrations task)
    (R := fun s t => s.registrations.Succeeds t.registrations) ?_ ?_ ?_ placed_new h
  · exact hsound.shared
  · intro event s _ task htask
    cases event with
    | workspaceFileEvent fileEvent workspaceFolder =>
        obtain rfl := List.mem_singleton.mp htask
        trivial
    | workspaceFilesEvent files workspaceFolder =>
        obtain rfl := List.mem_singleton.mp htask
        trivial
  · intro task answer s t left hs howns hnext
    have hplaces := Placed.resume hlawful hs howns hnext
    exact ⟨hplaces.placed, hplaces.succeeds, hplaces.owns⟩
  · intro s t task _ hsucceeds howns
    exact howns.succeeds hsucceeds

/-! ## What clients see -/

variable (packages) in
/-- The files of a workspace folder are those that the repositories of the files know, each is
listed once, and what a listed file tells of itself leads back to it. -/
structure CurrentFiles (s : Repositories URI) : Prop where
  listed : ∀ w options fileUri file,
    file ∈ s.getCurrentFilesForWorkspace w options ∧ file.uri = packages.uris.toString fileUri ↔
      ∃ (repository : Nat) (r : Repository),
        s.getMatchingRepository packages fileUri w = some (some repository) ∧
        s.contents[repository]? = some r ∧
        r.getFile (packages.uris.toString fileUri) options = some file
  once : ∀ w options, ((s.getCurrentFilesForWorkspace w options).map RepositoryFile.uri).Nodup
  found : ∀ w options, ∀ file ∈ s.getCurrentFilesForWorkspace w options,
    file.workspaceFolder.uri = w ∧
      file ∈ s.getCurrentFilesForRepository packages (packages.uris.parse file.repositoryUri) w
        options ∧
      s.getRepositoryFileForUri packages (packages.uris.parse file.uri)
        (packages.uris.parse file.repositoryUri) file.workspaceFolder = some file

theorem mem_getCurrentFilesForWorkspace_iff {s : Repositories URI} {w : String}
    {options : GetFileOptions} {file : RepositoryFile} :
    file ∈ s.getCurrentFilesForWorkspace w options ↔
      ∃ key repository r,
        (s.registrations.getRepositoriesForWorkspace w).get key = some repository ∧
        s.contents[repository]? = some r ∧ file ∈ r.getCurrentTreeFiles options := by
  unfold getCurrentFilesForWorkspace
  dsimp only
  rw [List.mem_flatMap]
  constructor
  · rintro ⟨⟨key, repository⟩, he, hfile⟩
    cases hr : s.contents[repository]? with
    | none =>
        rw [hr] at hfile
        cases hfile
    | some r =>
        rw [hr] at hfile
        exact ⟨key, repository, r, OrderedMap.get_eq_some_iff.mpr he, hr, hfile⟩
  · rintro ⟨key, repository, r, hget, hr, hfile⟩
    refine ⟨(key, repository), OrderedMap.get_eq_some_iff.mp hget, ?_⟩
    rw [hr]
    exact hfile

section

variable {s : Repositories URI} (h : s.Placed packages env)
include h

/-- A registered repository is in the map under its own URI. -/
theorem Placed.object {w key : String} {repository : Nat} {r : Repository}
    (hget : (s.registrations.getRepositoriesForWorkspace w).get key = some repository)
    (hr : s.contents[repository]? = some r) :
    ∃ o, s.registrations.objects[repository]? = some o ∧
      packages.uris.toString o.uri = key ∧ r.uri = key ∧ r.Files := by
  obtain ⟨o, ho, hkey, -⟩ := (h.consistent w).found key repository hget
  have hreached := h.reached repository o r ho hr
  exact ⟨o, ho, hkey, hreached.uri_eq.trans hkey, hreached.files⟩

/-- The repository of a listed file is the one that lists it. -/
theorem Placed.matching {w key : String} {repository : Nat} {r : Repository}
    {options : GetFileOptions} {file : RepositoryFile}
    (hget : (s.registrations.getRepositoriesForWorkspace w).get key = some repository)
    (hr : s.contents[repository]? = some r) (hfile : file ∈ r.getCurrentTreeFiles options) :
    ∃ fileUri, packages.uris.toString fileUri = file.uri ∧
      s.getMatchingRepository packages fileUri w = some (some repository) := by
  obtain ⟨o, -, -, -, hfiles⟩ := h.object hget hr
  obtain ⟨hstored, -⟩ := Option.filter_eq_some_iff.mp
    ((Repository.mem_getCurrentTreeFiles_iff hfiles.keyed).mp hfile)
  obtain ⟨fileUri, huri, -, hbelongs⟩ := h.belongs repository r file.uri file hr hstored
  exact ⟨fileUri, huri, hbelongs w ⟨key, hget⟩⟩

theorem Placed.listed_iff (hlawful : packages.uris.Lawful) {w : String} {options : GetFileOptions}
    {fileUri : URI} {file : RepositoryFile} :
    file ∈ s.getCurrentFilesForWorkspace w options ∧ file.uri = packages.uris.toString fileUri ↔
      ∃ (repository : Nat) (r : Repository),
        s.getMatchingRepository packages fileUri w = some (some repository) ∧
        s.contents[repository]? = some r ∧
        r.getFile (packages.uris.toString fileUri) options = some file := by
  constructor
  · rintro ⟨hmem, huri⟩
    obtain ⟨key, repository, r, hget, hr, hfile⟩ := mem_getCurrentFilesForWorkspace_iff.mp hmem
    obtain ⟨fileUri', huri', hmatching⟩ := h.matching hget hr hfile
    obtain ⟨o, -, -, -, hfiles⟩ := h.object hget hr
    have hsame : fileUri' = fileUri := by
      rw [← hlawful.parse_toString fileUri', huri', huri, hlawful.parse_toString]
    subst hsame
    refine ⟨repository, r, hmatching, hr, ?_⟩
    rw [← huri]
    exact (Repository.mem_getCurrentTreeFiles_iff hfiles.keyed).mp hfile
  · rintro ⟨repository, r, hmatching, hr, hfile⟩
    obtain ⟨key, hget⟩ := Registrations.registered_of_getMatchingRepository hmatching
    obtain ⟨o, -, -, -, hfiles⟩ := h.object hget hr
    obtain ⟨hstored, -⟩ := Option.filter_eq_some_iff.mp hfile
    have huri := hfiles.keyed _ file hstored
    refine ⟨mem_getCurrentFilesForWorkspace_iff.mpr ⟨key, repository, r, hget, hr, ?_⟩, huri⟩
    rw [Repository.mem_getCurrentTreeFiles_iff hfiles.keyed, huri]
    exact hfile

theorem Placed.nodup (hlawful : packages.uris.Lawful) (w : String) (options : GetFileOptions) :
    ((s.getCurrentFilesForWorkspace w options).map RepositoryFile.uri).Nodup := by
  unfold getCurrentFilesForWorkspace
  dsimp only
  rw [List.map_flatMap, List.nodup_flatMap]
  constructor
  · rintro ⟨key, repository⟩ he
    cases hr : s.contents[repository]? with
    | none => exact List.nodup_nil
    | some r =>
        obtain ⟨o, -, -, -, hfiles⟩ := h.object (OrderedMap.get_eq_some_iff.mpr he) hr
        exact Repository.nodup_getCurrentTreeFiles hfiles.keyed options
  · have hkeys := List.pairwise_map.mp (s.registrations.getRepositoriesForWorkspace w).nodup
    refine hkeys.imp_of_mem ?_
    -- a URI that two repositories list has both as its repository, and so they are the same
    rintro ⟨key, repository⟩ ⟨key', repository'⟩ he he' hne uri huri huri'
    dsimp only at huri huri' hne
    have hget := OrderedMap.get_eq_some_iff.mpr he
    have hget' := OrderedMap.get_eq_some_iff.mpr he'
    cases hr : s.contents[repository]? with
    | none => simp [hr] at huri
    | some r =>
        cases hr' : s.contents[repository']? with
        | none => simp [hr'] at huri'
        | some r' =>
            rw [hr] at huri
            rw [hr'] at huri'
            obtain ⟨file, hfile, rfl⟩ := List.mem_map.mp huri
            obtain ⟨file', hfile', heq⟩ := List.mem_map.mp huri'
            obtain ⟨fileUri, hprint, hmatching⟩ := h.matching hget hr hfile
            obtain ⟨fileUri', hprint', hmatching'⟩ := h.matching hget' hr' hfile'
            have hsame : fileUri' = fileUri := by
              rw [← hlawful.parse_toString fileUri', hprint', heq, ← hprint,
                hlawful.parse_toString]
            rw [hsame, hmatching] at hmatching'
            cases hmatching'
            obtain ⟨o, ho, hkey, -⟩ := h.object hget hr
            obtain ⟨o', ho', hkey', -⟩ := h.object hget' hr
            rw [ho] at ho'
            cases ho'
            exact hne (hkey.symm.trans hkey')

theorem Placed.found (hlawful : packages.uris.Lawful) {w : String} {options : GetFileOptions}
    {file : RepositoryFile} (hmem : file ∈ s.getCurrentFilesForWorkspace w options) :
    file.workspaceFolder.uri = w ∧
      file ∈ s.getCurrentFilesForRepository packages (packages.uris.parse file.repositoryUri) w
        options ∧
      s.getRepositoryFileForUri packages (packages.uris.parse file.uri)
        (packages.uris.parse file.repositoryUri) file.workspaceFolder = some file := by
  obtain ⟨key, repository, r, hget, hr, hfile⟩ := mem_getCurrentFilesForWorkspace_iff.mp hmem
  obtain ⟨fileUri, huri, hmatching⟩ := h.matching hget hr hfile
  obtain ⟨o, -, hkey, hrkey, hfiles⟩ := h.object hget hr
  obtain ⟨hstored, -⟩ := Option.filter_eq_some_iff.mp
    ((Repository.mem_getCurrentTreeFiles_iff hfiles.keyed).mp hfile)
  have hfolder : file.workspaceFolder.uri = w := by
    rw [hfiles.workspaceFolder file.uri file hstored]
    exact h.folder w repository r ⟨key, hget⟩ hr
  have hprint : packages.uris.toString (packages.uris.parse file.uri) = file.uri := by
    rw [← huri, hlawful.parse_toString]
  have hrepository : packages.uris.toString (packages.uris.parse file.repositoryUri) = key := by
    rw [hfiles.repositoryUri file.uri file hstored, hrkey, ← hkey, hlawful.parse_toString]
  have hlookup : s.getRepositoryForWorkspace packages w (packages.uris.parse file.repositoryUri) =
      some r := by
    rw [getRepositoryForWorkspace, hrepository, hget, Option.bind_some, hr]
  refine ⟨hfolder, ?_, ?_⟩
  · rw [getCurrentFilesForRepository, hlookup]
    exact hfile
  · rw [getRepositoryFileForUri, hfolder, hlookup, Option.bind_some, hprint]
    exact Repository.getFile_default hstored

end

/-- **The files that clients see.** In every interleaving of rebuilds and file updates, and
whatever repositories their tasks still hold: the files of a workspace folder are, each once, those
that the innermost repository around them knows. -/
theorem currentFiles_of_run (hlawful : packages.uris.Lawful) (as : List (Action URI))
    (s : System URI) (h : run (step packages env) ⟨new, []⟩ as = some s) :
    s.shared.CurrentFiles packages where
  listed := by
    intro w options fileUri file
    exact (placed_of_run hlawful h).listed_iff hlawful
  once := (placed_of_run hlawful h).nodup hlawful
  found := by
    intro w options file hfile
    exact (placed_of_run hlawful h).found hlawful hfile

/-- The file system of the samples. -/
def samplePackages : Packages SampleUri where
  uris := sampleUris
  fsPath
    | .work => "/work"
    | .workConfig => "/work/.git/config"
    | .lib => "/work/lib"
    | .libConfig => "/work/lib/.git/config"
    | .libFile => "/work/lib/a b.ts"
    | .libraryFile => "/work/library/c.ts"
  fsPathToUri path := if path = "/work/lib" then .lib else .work
  dirname path := String.ofList ((path.toList.reverse.dropWhile (· != '/')).drop 1).reverse
  minimatch _ _ := false

def sampleFolder : WorkspaceFolder := { uri := "file:///work", name := "work" }

/-- The files of the folder are known, and both repositories are detected. -/
def filesKnown : Action SampleUri :=
  .event (.workspaceFilesEvent ["file:///work/.git/config", "file:///work/lib/.git/config"]
    sampleFolder)

/-- A file of the inner repository is created. While `lstat` is asked about it, the folder is
rebuilt, and the file ends up in an object that is no longer registered. Then it is changed. -/
def createdDuringRebuild : List (Action SampleUri) :=
  [filesKnown, .resume 0 {},
    .event (.workspaceFileEvent ⟨"file:///work/lib/a%20b.ts", .created⟩ sampleFolder),
    .resume 2 {}, filesKnown, .resume 3 {}, .resume 2 {},
    .event (.workspaceFileEvent ⟨"file:///work/lib/a%20b.ts", .changed⟩ sampleFolder),
    .resume 4 {}]

/-- Two objects hold the file, and it is listed once. -/
theorem currentFiles_of_run_of_rebuild :
    ∃ s : System SampleUri,
      run (step samplePackages Repository.sampleEnvironment) ⟨new, []⟩ createdDuringRebuild =
        some s ∧
      (∃ former ∈ s.shared.contents[1]?,
        (former.getFile "file:///work/lib/a%20b.ts" {}).isSome = true) ∧
      (∃ file ∈ s.shared.getCurrentFilesForWorkspace "file:///work" {},
        file.uri = "file:///work/lib/a%20b.ts") ∧
      ((s.shared.getCurrentFilesForWorkspace "file:///work" {}).map RepositoryFile.uri).Nodup := by
  obtain ⟨s, hs⟩ : ∃ s, run (step samplePackages Repository.sampleEnvironment) ⟨new, []⟩
      createdDuringRebuild = some s := Option.isSome_iff_exists.mp (by decide +kernel)
  have hfacts : ∀ s ∈ run (step samplePackages Repository.sampleEnvironment) ⟨new, []⟩
      createdDuringRebuild,
      (∃ former ∈ s.shared.contents[1]?,
        (former.getFile "file:///work/lib/a%20b.ts" {}).isSome = true) ∧
      s.shared.getMatchingRepository samplePackages .libFile "file:///work" = some (some 3) ∧
      ∃ current ∈ s.shared.contents[3]?,
        (current.getFile "file:///work/lib/a%20b.ts" {}).isSome = true := by
    decide +kernel
  obtain ⟨hformer, hmatching, current, hcurrent, hstored⟩ := hfacts s hs
  obtain ⟨file, hfile⟩ := Option.isSome_iff_exists.mp hstored
  have hfiles := currentFiles_of_run sampleUris_lawful createdDuringRebuild s hs
  obtain ⟨hlisted, huri⟩ := (hfiles.listed "file:///work" {} .libFile file).mpr
    ⟨3, current, hmatching, hcurrent, hfile⟩
  exact ⟨s, hs, hformer, ⟨file, hlisted, huri⟩, hfiles.once "file:///work" {}⟩

end Repositories
end KhulnasoftLsp.Git
