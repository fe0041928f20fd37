import KhulnasoftLsp.DuoAccess.WorkspaceProjectAccessCache
import KhulnasoftLsp.Git.MainBranch

/-!
# The local git provider

A search offers, for each repository of the workspace folders, the changes of the working state and
the differences from its branches. A query that is not blank goes to the fuzzy filter, which is
given the titles of the items: the items are put into a map under their titles first, and the titles
that the filter keeps are looked up there.

A title does not name the repository. `searchKeeps_iff` says when no item is lost to another one.
-/

namespace KhulnasoftLsp

open JsString Git DuoAccess

structure LocalRepository where
  workspaceFolder : WorkspaceFolder
  uri : String
  configFileUri : String
  git : GitClient

structure RepositoryBranches where
  mainBranch : JsString
  currentBranch : JsString
  allBranches : List JsString

structure RepositoryInfo where
  branches : RepositoryBranches
  headRef : JsString
  repository : LocalRepository
  name : String
  enabled : Bool
  workspaceFolder : WorkspaceFolder

structure LocalGitContextMetadata where
  title : JsString
  enabled : Bool
  subType : String
  repositoryUri : String
  repositoryName : String
  disabledReasons : List String
  gitType : String
  workspaceFolder : WorkspaceFolder
  selectedBranch : Option JsString
  icon : String
  secondaryText : JsString
  subTypeLabel : String
  deriving DecidableEq, Repr

structure GitContextItem where
  id : JsString
  category : String
  metadata : LocalGitContextMetadata
  deriving DecidableEq, Repr

structure LocalGitSearchQuery where
  query : JsString
  workspaceFolders : Option (List WorkspaceFolder)
  deriving DecidableEq, Repr

/-- The provider with what it asks: the repository service, the access checker, and `filter` of
`fuzzaldrin-plus`, which is given the candidates, the query and the number of results at most. -/
structure LocalGitContextProvider where
  getRepositoriesForWorkspace : String → List LocalRepository
  projectAccess : WorkspaceCache
  filter : List JsString → JsString → Nat → List JsString

/-! ## The items of a repository -/

namespace RepositoryInfo

/-- The title of a diff: from a branch, or from the working state. -/
def diffTitle : Option JsString → JsString
  | some branch => ofString "Diff from " ++ branch
  | none => ofString "Diff from HEAD (working state)"

def createDiffItem (info : RepositoryInfo) (branch : Option JsString) : GitContextItem where
  id := ofString s!"diff:{info.repository.uri}:" ++ branch.getD info.headRef
  category := "local_git"
  metadata :=
    { title := diffTitle branch
      enabled := info.enabled
      subType := "local_git"
      repositoryUri := info.repository.uri
      repositoryName := info.name
      disabledReasons := if info.enabled then [] else ["Project disabled"]
      gitType := "diff"
      workspaceFolder := info.workspaceFolder
      selectedBranch := branch
      icon := "git"
      secondaryText := ofString "Compare Changes with " ++ branch.getD info.headRef
      subTypeLabel := "Diff" }

/-- The repositories of the test suite of the monolith. -/
def isIgnored (info : RepositoryInfo) : Bool :=
  info.name == "gitlab-org/gitlab-test" || info.name == "gitlab-org/gitlab-test-fork"

def getStaticOptionsForRepository (info : RepositoryInfo) : List GitContextItem :=
  if info.isIgnored then
    []
  else
    let main :=
      if info.branches.currentBranch != info.branches.mainBranch then
        [info.createDiffItem (some info.branches.mainBranch)]
      else
        []
    let others := info.branches.allBranches.filter fun branch =>
      branch != info.branches.mainBranch && branch != info.branches.currentBranch
    main ++ [info.createDiffItem none] ++ others.map fun branch => info.createDiffItem (some branch)

/-- The repository has a diff from this branch to offer: not from the one that is checked out. -/
def Offers (info : RepositoryInfo) (branch : Option JsString) : Prop :=
  info.isIgnored = false ∧ ∀ b ∈ branch, b ≠ info.branches.currentBranch ∧
    (b = info.branches.mainBranch ∨ b ∈ info.branches.allBranches)

theorem mem_getStaticOptions {info : RepositoryInfo} {item : GitContextItem} :
    item ∈ info.getStaticOptionsForRepository ↔
      ∃ branch, info.Offers branch ∧ item = info.createDiffItem branch := by
  unfold getStaticOptionsForRepository Offers
  cases info.isIgnored with
  | true => simp
  | false =>
      simp only [Bool.false_eq_true, if_false, List.mem_append, List.mem_singleton, List.mem_map,
        List.mem_filter]
      constructor
      · rintro ((hmain | rfl) | ⟨branch, ⟨hmem, hne⟩, rfl⟩)
        · split at hmain
          · next hcurrent =>
              refine ⟨some info.branches.mainBranch, ⟨trivial, ?_⟩, List.mem_singleton.mp hmain⟩
              have hne : info.branches.mainBranch ≠ info.branches.currentBranch :=
                (bne_iff_ne.mp hcurrent).symm
              simp [hne]
          · cases hmain
        · exact ⟨none, by simp, rfl⟩
        · exact ⟨some branch, by simp_all, rfl⟩
      · rintro ⟨branch, ⟨-, hoffers⟩, rfl⟩
        cases branch with
        | none => exact Or.inl (Or.inr rfl)
        | some b =>
            obtain ⟨hcurrent, hmain | hall⟩ := hoffers b rfl
            · left; left
              rw [← hmain, if_pos (by simpa using Ne.symm hcurrent)]
              exact List.mem_singleton.mpr rfl
            · by_cases hmain : b = info.branches.mainBranch
              · left; left
                rw [← hmain, if_pos (by simpa using Ne.symm hcurrent)]
                exact List.mem_singleton.mpr rfl
              · right
                exact ⟨b, ⟨hall, by simp [hmain, hcurrent]⟩, rfl⟩

end RepositoryInfo

/-! ## The search -/

namespace LocalGitContextProvider

variable (p : LocalGitContextProvider)

/-- `uniqueRepositories` -/
def uniqueRepositories (query : LocalGitSearchQuery) : OrderedMap String LocalRepository :=
  OrderedMap.empty.setAll <| (query.workspaceFolders.getD []).flatMap fun workspaceFolder =>
    (p.getRepositoriesForWorkspace workspaceFolder.uri).map fun repository =>
      (repository.uri, repository)

def branchesForRepository (repository : LocalRepository) : Option RepositoryBranches := do
  let currentBranch ← repository.git.getCurrentBranch
  let allBranches ← repository.git.listBranches
  return { mainBranch := repository.git.getMainBranch, currentBranch, allBranches }

/-- `#repositoryInfo`, `none` where git rejects a promise. -/
def repositoryInfo (repository : LocalRepository) : Option RepositoryInfo := do
  let workspaceFolder := repository.workspaceFolder
  let (project, status) :=
    p.projectAccess.checkProjectStatus repository.configFileUri workspaceFolder
  let name := match project with
    | some project => project.remote.namespaceWithPath
    | none => String.ofList (removeFirst workspaceFolder.uri.toList repository.uri.toList)
  let branches ← branchesForRepository repository
  let headRef ← repository.git.headRef
  return { name, enabled := status != .DuoDisabled, branches, repository, workspaceFolder, headRef }

def repositoryInfos (query : LocalGitSearchQuery) : Option (List RepositoryInfo) :=
  ((p.uniqueRepositories query).entries.map Prod.snd).mapM p.repositoryInfo

/-- `contextItemMap`: of the items with one title the last is kept. -/
def contextItemMap (contextItems : List GitContextItem) : OrderedMap JsString GitContextItem :=
  OrderedMap.empty.setAll (contextItems.map fun item => (item.metadata.title, item))

/-- The titles that the filter keeps, of those that it is given. -/
def fuzzyResults (query : LocalGitSearchQuery) (contextItems : List GitContextItem) :
    List JsString :=
  p.filter ((contextItemMap contextItems).entries.map Prod.fst) query.query 100

def search (query : LocalGitSearchQuery) : Option (List GitContextItem) := do
  let repositoryInfos ← p.repositoryInfos query
  let contextItems := repositoryInfos.flatMap (·.getStaticOptionsForRepository)
  if trim query.query = [] then
    return contextItems
  else
    return (p.fuzzyResults query contextItems).filterMap (contextItemMap contextItems).get

/-- The search with a query returns those items of the blank search whose titles the filter
keeps. -/
def SearchKeeps (query : LocalGitSearchQuery) : Prop :=
  ∀ contextItems, p.search { query with query := [] } = some contextItems →
    ∃ found, p.search query = some found ∧
      ∀ item, item ∈ found ↔
        item ∈ contextItems ∧ item.metadata.title ∈ p.fuzzyResults query contextItems

/-- No two diffs on offer have one title, if the filter keeps it: of no two repositories, and of
none that has a branch called like the working state. -/
def TitlesTellApart (query : LocalGitSearchQuery) : Prop :=
  ∀ infos, p.repositoryInfos query = some infos →
    ∀ info ∈ infos, ∀ info' ∈ infos, ∀ branch branch', info.Offers branch → info'.Offers branch' →
      RepositoryInfo.diffTitle branch = RepositoryInfo.diffTitle branch' →
      RepositoryInfo.diffTitle branch ∈
        p.fuzzyResults query (infos.flatMap (·.getStaticOptionsForRepository)) →
      info.repository.uri = info'.repository.uri ∧ branch = branch'

variable {p} {query : LocalGitSearchQuery} {infos : List RepositoryInfo}

/-- The information on a repository is about that repository. -/
theorem repository_of_repositoryInfo {repository : LocalRepository} {info : RepositoryInfo}
    (h : p.repositoryInfo repository = some info) : info.repository = repository := by
  unfold repositoryInfo at h
  simp only [Option.bind_eq_bind, Option.bind_eq_some_iff, Option.pure_def, Option.some.injEq] at h
  obtain ⟨_, -, _, -, rfl⟩ := h
  rfl

theorem mem_of_mapM_eq_some {α β : Type} {f : α → Option β} {as : List α} {bs : List β}
    (h : as.mapM f = some bs) {b : β} (hb : b ∈ bs) : ∃ a ∈ as, f a = some b := by
  induction as generalizing bs with
  | nil =>
      cases h
      cases hb
  | cons a as ih =>
      simp only [List.mapM_cons, Option.bind_eq_bind, Option.bind_eq_some_iff, Option.pure_def,
        Option.some.injEq] at h
      obtain ⟨first, hfirst, rest, hrest, rfl⟩ := h
      rcases List.mem_cons.mp hb with rfl | hmem
      · exact ⟨a, List.mem_cons_self, hfirst⟩
      · obtain ⟨a', ha', hf⟩ := ih hrest hmem
        exact ⟨a', List.mem_cons_of_mem a ha', hf⟩

/-- A repository is found under its URI. -/
theorem get_uniqueRepositories {uri : String} {repository : LocalRepository}
    (h : (p.uniqueRepositories query).get uri = some repository) : repository.uri = uri := by
  obtain ⟨folder, -, hfolder⟩ := List.mem_flatMap.mp (OrderedMap.mem_of_get_setAll h)
  obtain ⟨r, -, hr⟩ := List.mem_map.mp hfolder
  cases hr
  rfl

theorem repositoryInfo_of_mem (h : p.repositoryInfos query = some infos) {info : RepositoryInfo}
    (hinfo : info ∈ infos) :
    (p.uniqueRepositories query).get info.repository.uri = some info.repository ∧
      p.repositoryInfo info.repository = some info := by
  obtain ⟨repository, hmem, hget⟩ := mem_of_mapM_eq_some h hinfo
  obtain rfl := repository_of_repositoryInfo hget
  obtain ⟨entry, hentry, hrepository⟩ := List.mem_map.mp hmem
  have hfound := OrderedMap.get_eq_some_iff.mpr hentry
  rw [hrepository] at hfound
  exact ⟨(get_uniqueRepositories hfound).symm ▸ hfound, hget⟩

/-- Each repository is asked once. -/
theorem eq_of_uri_eq (h : p.repositoryInfos query = some infos) {info info' : RepositoryInfo}
    (hinfo : info ∈ infos) (hinfo' : info' ∈ infos)
    (huri : info.repository.uri = info'.repository.uri) : info = info' := by
  obtain ⟨hfound, hget⟩ := repositoryInfo_of_mem h hinfo
  obtain ⟨hfound', hget'⟩ := repositoryInfo_of_mem h hinfo'
  rw [huri, hfound'] at hfound
  rw [Option.some.inj hfound, hget] at hget'
  exact Option.some.inj hget'

theorem mem_staticOptions {item : GitContextItem} :
    item ∈ infos.flatMap (·.getStaticOptionsForRepository) ↔
      ∃ info ∈ infos, ∃ branch, info.Offers branch ∧ item = info.createDiffItem branch := by
  simp only [List.mem_flatMap, RepositoryInfo.mem_getStaticOptions]

/-! ### The items under their titles -/

/-- An item found under a title has this title and is one of the items. -/
theorem mem_of_get_contextItemMap {items : List GitContextItem} {title : JsString}
    {item : GitContextItem} (h : (contextItemMap items).get title = some item) :
    item ∈ items ∧ item.metadata.title = title := by
  obtain ⟨i, hi, hentry⟩ := List.mem_map.mp (OrderedMap.mem_of_get_setAll h)
  cases hentry
  exact ⟨hi, rfl⟩

/-- Under the title of an item some item is found. -/
theorem exists_get_contextItemMap {items : List GitContextItem} {item : GitContextItem}
    (h : item ∈ items) : ∃ found, (contextItemMap items).get item.metadata.title = some found :=
  OrderedMap.exists_get_setAll (List.mem_map_of_mem h)

/-- Looking up titles gives all items that have them exactly when no two items share one. -/
theorem mem_filterMap_get_iff {items : List GitContextItem} {titles : List JsString} :
    (∀ item, item ∈ titles.filterMap (contextItemMap items).get ↔
        item ∈ items ∧ item.metadata.title ∈ titles) ↔
      ∀ item ∈ items, ∀ item' ∈ items, item.metadata.title = item'.metadata.title →
        item.metadata.title ∈ titles → item = item' := by
  have hfound : ∀ item, item ∈ titles.filterMap (contextItemMap items).get ↔
      item.metadata.title ∈ titles ∧
        (contextItemMap items).get item.metadata.title = some item := by
    intro item
    rw [List.mem_filterMap]
    constructor
    · intro h
      obtain ⟨title, htitle, hget⟩ := h
      obtain ⟨-, rfl⟩ := mem_of_get_contextItemMap hget
      exact ⟨htitle, hget⟩
    · intro h
      exact ⟨_, h⟩
  simp only [hfound]
  constructor
  · intro h item hitem item' hitem' heq htitle
    have hget := ((h item).mpr ⟨hitem, htitle⟩).2
    have hget' := ((h item').mpr ⟨hitem', heq ▸ htitle⟩).2
    rw [← heq, hget] at hget'
    exact Option.some.inj hget'
  · intro h item
    constructor
    · intro hkept
      exact ⟨(mem_of_get_contextItemMap hkept.2).1, hkept.1⟩
    · intro hkept
      obtain ⟨hitem, htitle⟩ := hkept
      obtain ⟨other, hget⟩ := exists_get_contextItemMap hitem
      obtain ⟨hother, hsame⟩ := mem_of_get_contextItemMap hget
      obtain rfl := h item hitem other hother hsame.symm htitle
      exact ⟨htitle, hget⟩

/-! ### Blank and other queries -/

theorem search_blank :
    p.search { query with query := [] } =
      (p.repositoryInfos query).map fun infos =>
        infos.flatMap (·.getStaticOptionsForRepository) := by
  show (p.repositoryInfos query).bind _ = _
  cases p.repositoryInfos query <;> rfl

theorem search_of_not_blank (hblank : trim query.query ≠ []) :
    p.search query = (p.repositoryInfos query).map fun infos =>
      let items := infos.flatMap (·.getStaticOptionsForRepository)
      (p.fuzzyResults query items).filterMap (contextItemMap items).get := by
  unfold search
  cases p.repositoryInfos query with
  | none => rfl
  | some infos => simp [hblank]

/-- **When a search loses no item.** A query that is not blank returns every item of the blank
search whose title the filter keeps, and no other, if and only if no two diffs on offer have one
title that the filter keeps. -/
theorem searchKeeps_iff (hblank : trim query.query ≠ []) :
    p.SearchKeeps query ↔ p.TitlesTellApart query := by
  unfold SearchKeeps TitlesTellApart
  rw [search_blank, search_of_not_blank hblank]
  cases hinfos : p.repositoryInfos query with
  | none => simp
  | some infos =>
      simp only [Option.map_some, Option.some.injEq, forall_eq', exists_eq_left']
      rw [mem_filterMap_get_iff]
      simp only [mem_staticOptions]
      constructor
      · intro h info hinfo info' hinfo' branch branch' hoffers hoffers' htitle hkept
        have heq := h _ ⟨info, hinfo, branch, hoffers, rfl⟩ _
          ⟨info', hinfo', branch', hoffers', rfl⟩ htitle hkept
        have hmetadata := congrArg GitContextItem.metadata heq
        exact ⟨congrArg LocalGitContextMetadata.repositoryUri hmetadata,
          congrArg LocalGitContextMetadata.selectedBranch hmetadata⟩
      · intro h item hitem item' hitem' htitle hkept
        obtain ⟨info, hinfo, branch, hoffers, rfl⟩ := hitem
        obtain ⟨info', hinfo', branch', hoffers', rfl⟩ := hitem'
        obtain ⟨huri, rfl⟩ := h info hinfo info' hinfo' branch branch' hoffers hoffers' htitle hkept
        rw [eq_of_uri_eq hinfos hinfo hinfo' huri]

/-! ### Two repositories -/

def sampleFolder : WorkspaceFolder := ⟨"file:///ws", "ws"⟩

/-- A repository with the branch `main` alone, which is checked out. -/
def sampleRepository (uri : String) : LocalRepository where
  workspaceFolder := sampleFolder
  uri
  configFileUri := uri ++ "/.git/config"
  git :=
    { listRemotes := some []
      readFile := fun _ => none
      getRemoteInfo := fun _ => none
      listBranches := some [ofString "main"]
      currentBranch := some (some (ofString "main"))
      headRef := some (ofString "5d1f") }

/-- The filter keeps the titles in which the query stands. -/
def sampleProvider (repositories : List LocalRepository) : LocalGitContextProvider where
  getRepositoriesForWorkspace _ := repositories
  projectAccess := WorkspaceCache.new
  filter titles query maxResults :=
    (titles.filter fun title => decide (query <:+: title)).take maxResults

def sampleQuery : LocalGitSearchQuery := ⟨ofString "HEAD", some [sampleFolder]⟩

def sampleItem (uri name : String) : GitContextItem :=
  RepositoryInfo.createDiffItem
    { branches := ⟨ofString "main", ofString "main", [ofString "main"]⟩
      headRef := ofString "5d1f"
      repository := sampleRepository uri
      name
      enabled := true
      workspaceFolder := sampleFolder } none

/-- A repository that has a branch besides `main`. -/
def branchRepository (uri : String) (branch : JsString) : LocalRepository :=
  { sampleRepository uri with
    git := { (sampleRepository uri).git with listBranches := some [ofString "main", branch] } }

def branchItem (uri name : String) (branch : JsString) : GitContextItem :=
  RepositoryInfo.createDiffItem
    { branches := ⟨ofString "main", ofString "main", [ofString "main", branch]⟩
      headRef := ofString "5d1f"
      repository := branchRepository uri branch
      name
      enabled := true
      workspaceFolder := sampleFolder } (some branch)

def branchProvider : LocalGitContextProvider :=
  sampleProvider [branchRepository "file:///ws/a" (ofString "fix-1"),
    branchRepository "file:///ws/b" (ofString "fix-2")]

def branchQuery : LocalGitSearchQuery := ⟨ofString "fix", some [sampleFolder]⟩

/-- Two repositories offer a diff from a branch of their own, and both are found. -/
theorem searchKeeps_iff_of_two_branches :
    branchProvider.search branchQuery =
        some [branchItem "file:///ws/a" "/a" (ofString "fix-1"),
          branchItem "file:///ws/b" "/b" (ofString "fix-2")] ∧
      branchProvider.SearchKeeps branchQuery ∧ branchProvider.TitlesTellApart branchQuery := by
  have hfound : branchProvider.search branchQuery =
      some [branchItem "file:///ws/a" "/a" (ofString "fix-1"),
        branchItem "file:///ws/b" "/b" (ofString "fix-2")] := by decide +kernel
  have hblank : branchProvider.search { branchQuery with query := [] } =
      some [sampleItem "file:///ws/a" "/a", branchItem "file:///ws/a" "/a" (ofString "fix-1"),
        sampleItem "file:///ws/b" "/b", branchItem "file:///ws/b" "/b" (ofString "fix-2")] := by
    decide +kernel
  have hkeeps : branchProvider.SearchKeeps branchQuery := by
    intro contextItems hall
    obtain rfl := Option.some.inj (hblank.symm.trans hall)
    refine ⟨_, hfound, ?_⟩
    intro item
    constructor
    · intro hitem
      rcases List.mem_pair.mp hitem with rfl | rfl
      · exact ⟨by decide +kernel, by decide +kernel⟩
      · exact ⟨by decide +kernel, by decide +kernel⟩
    · intro hitem
      obtain ⟨hmem, htitle⟩ := hitem
      simp only [List.mem_cons, List.not_mem_nil, or_false] at hmem
      rcases hmem with rfl | rfl | rfl | rfl
      · exact absurd htitle (by decide +kernel)
      · exact List.mem_cons_self
      · exact absurd htitle (by decide +kernel)
      · exact List.mem_pair.mpr (.inr rfl)
  exact ⟨hfound, hkeeps, (searchKeeps_iff (by decide +kernel)).mp hkeeps⟩

/-- Of two repositories only the second can be found. -/
theorem second_repository_replaces_first :
    ¬ (sampleProvider
        [sampleRepository "file:///ws/a", sampleRepository "file:///ws/b"]).SearchKeeps
      sampleQuery := by
  intro h
  obtain ⟨found, hfound, hall⟩ :=
    h [sampleItem "file:///ws/a" "/a", sampleItem "file:///ws/b" "/b"] (by decide +kernel)
  have hb : found = [sampleItem "file:///ws/b" "/b"] :=
    Option.some.inj (hfound.symm.trans (by decide +kernel))
  have ha := (hall (sampleItem "file:///ws/a" "/a")).mpr ⟨List.mem_cons_self, by decide +kernel⟩
  rw [hb] at ha
  exact absurd ha (by decide +kernel)

end LocalGitContextProvider

end KhulnasoftLsp
