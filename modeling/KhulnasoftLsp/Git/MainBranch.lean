import KhulnasoftLsp.Git.RemoteParser
import KhulnasoftLsp.Masking

/-!
# The main branch of a repository

`getMainBranch` asks three sources for a short name, one after the other: the file in which git
keeps the `HEAD` of a remote, the server of the remote, and a list of usual names among the local
branches. The first two have the name behind a prefix, which each of them takes off in its own way.

What isomorphic-git and the file system answer are the fields of `GitClient`; `none` stands for a
promise that is rejected. `mainBranch_iff` compares the answer with the branch that the sources tell
of.
-/

namespace KhulnasoftLsp.Git

open JsString Pattern Masking

/-- A remote as `git.listRemotes` gives it. -/
structure ListedRemote where
  remote : JsString
  url : JsString
  deriving DecidableEq, Repr

/-- `GetRemoteInfoResult` -/
structure RemoteInfo where
  HEAD : Option JsString
  deriving DecidableEq, Repr

/-- What a repository asks of git and of its files. Files are named by their path in it. -/
structure GitClient where
  listRemotes : Option (List ListedRemote)
  readFile : JsString → Option JsString
  /-- The remote under an HTTP URL -/
  getRemoteInfo : JsString → Option RemoteInfo
  listBranches : Option (List JsString)
  /-- `git.currentBranch`, which may be undefined -/
  currentBranch : Option (Option JsString)
  /-- `git.resolveRef` of `HEAD` -/
  headRef : Option JsString

/-! ## The URL of the remote -/

/-- `[^:]` -/
def notColon (u : UInt16) : Bool := u != 0x003a

/-- `git@([^:]+):(.+)` -/
def scpRemote : Pattern UInt16 (JsString × JsString) := do
  let _ ← literal (ofString "git@")
  let domain ← greedy 1 notColon
  let _ ← literal (ofString ":")
  let path ← greedy 1 dot
  return (domain, path)

/-- `git@([^/]+)` -/
def gitUser : Pattern UInt16 JsString := do
  let _ ← literal (ofString "git@")
  greedy 1 notSlash

/-- `url.replace(/git@([^/]+)/, '$1')` -/
def withoutGitUser (url : JsString) : JsString :=
  match search anywhere gitUser url with
  | none => url
  | some m => url.take m.index ++ (m.value ++ url.drop (m.index + m.text.length))

def convertToHttpUrl (remoteUrl : JsString) : JsString :=
  let scp :=
    if (ofString "git@").isPrefixOf remoteUrl then search anywhere scpRemote remoteUrl else none
  match scp with
  | some m => ofString "https://" ++ (m.value.1 ++ (ofString "/" ++ m.value.2))
  | none =>
    if (ofString "git://").isPrefixOf remoteUrl then
      replaceFirst (ofString "git://") (ofString "https://") remoteUrl
    else if (ofString "ssh://").isPrefixOf remoteUrl then
      withoutGitUser (replaceFirst (ofString "ssh://") (ofString "https://") remoteUrl)
    else
      remoteUrl

/-! ## The sources -/

namespace GitClient

/-- A string counts as an answer unless it is empty. -/
def truthy (answer : Option JsString) : Option JsString := answer.filter (!·.isEmpty)

/-- `origin`, or else the first remote -/
def chosenRemote (remotes : List ListedRemote) : Option ListedRemote :=
  (remotes.find? fun r => r.remote == ofString "origin").or remotes.head?

def refFilePath (origin : JsString) : JsString :=
  ofString ".git/refs/remotes/" ++ (origin ++ ofString "/HEAD")

/-- What a ref file has in front of the branch. -/
def refTo (origin : JsString) : JsString :=
  ofString "ref: refs/remotes/" ++ (origin ++ ofString "/")

def getMainBranchFromRef (git : GitClient) (origin : JsString) : Option JsString :=
  (git.readFile (refFilePath origin)).map fun remoteHeadRef =>
    replaceFirst (refTo origin) [] (trim remoteHeadRef)

def getRemoteRepositoryInfo (git : GitClient) (remoteUrl : JsString) : Option RemoteInfo :=
  git.getRemoteInfo (convertToHttpUrl remoteUrl)

def getMainBranchFromRemoteRepoInfo (git : GitClient) (remoteUrl : JsString) : Option JsString :=
  (git.getRemoteRepositoryInfo remoteUrl).bind fun repositoryInfo =>
    repositoryInfo.HEAD.map (replaceFirst (ofString "refs/head/") [])

def mainBranchNames : List JsString :=
  [ofString "main", ofString "master", ofString "trunk", ofString "development"]

def tryGetMainBranchFromLocalBranches (git : GitClient) : Option (Option JsString) :=
  git.listBranches.map fun branches => mainBranchNames.find? branches.contains

/-- The body of the `try`, `none` where it throws or comes to its end. -/
def tryGetMainBranch (git : GitClient) : Option JsString := do
  let remotes ← git.listRemotes
  let fromRemote := (chosenRemote remotes).bind fun origin =>
    (truthy (git.getMainBranchFromRef origin.remote)).or
      (truthy (git.getMainBranchFromRemoteRepoInfo origin.url))
  match fromRemote with
  | some branch => some branch
  | none => truthy (← git.tryGetMainBranchFromLocalBranches)

def getMainBranch (git : GitClient) : JsString := git.tryGetMainBranch.getD (ofString "main")

def getCurrentBranch (git : GitClient) : Option JsString :=
  git.currentBranch.map fun branch => branch.getD git.getMainBranch

def getCurrentCommit (git : GitClient) : JsString :=
  match git.headRef with
  | some headRef => replaceFirst (ofString "refs/heads/") [] headRef
  | none => git.getMainBranch

/-! ## The branch that the sources tell of -/

/-- The remote that is chosen has the main branch `branch`: its ref file points there if it can be
read. The server names some branch if it answers, and this one if there is no ref file. One of the
two answers. -/
structure Tells (git : GitClient) (origin : ListedRemote) (branch : JsString) : Prop where
  chosen : ∃ remotes, git.listRemotes = some remotes ∧ chosenRemote remotes = some origin
  refFile : ∀ content, git.readFile (refFilePath origin.remote) = some content →
    ∃ before after, (∀ u ∈ before, isWhitespace u = true) ∧ (∀ u ∈ after, isWhitespace u = true) ∧
      content = before ++ (refTo origin.remote ++ (branch ++ after))
  remoteInfo : ∀ info, git.getRemoteRepositoryInfo origin.url = some info →
    ∀ head, info.HEAD = some head → ∃ name, head = ofString "refs/heads/" ++ name ∧
      (git.readFile (refFilePath origin.remote) = none → name = branch)
  answers : (git.readFile (refFilePath origin.remote)).isSome ∨
    ∃ info, git.getRemoteRepositoryInfo origin.url = some info ∧ info.HEAD.isSome

variable {git : GitClient} {origin : ListedRemote} {branch : JsString}

theorem truthy_eq_some {answer : Option JsString} {s : JsString} :
    truthy answer = some s ↔ answer = some s ∧ s ≠ [] := by
  simp [truthy, Option.filter_eq_some_iff]

/-- A ref file gives the branch, trimmed at its end. -/
theorem refFile_trimEnd {before after : JsString} (hbefore : ∀ u ∈ before, isWhitespace u = true)
    (hafter : ∀ u ∈ after, isWhitespace u = true) (r : JsString) :
    replaceFirst (refTo r) [] (trim (before ++ (refTo r ++ (branch ++ after)))) =
      trimEnd branch := by
  have hstart : IsWord (ofString "ref:") := isWord_of_all (by decide) rfl
  have hslash : IsWord (ofString "/") := isWord_of_all (by decide) rfl
  have hsplit : ofString "ref: refs/remotes/" = ofString "ref:" ++ ofString " refs/remotes/" := rfl
  have hne : refTo r ≠ [] := by simp [refTo, hsplit, hstart.1]
  have hhead : ∀ u ∈ (refTo r).head?, isWhitespace u = false := by
    rw [refTo, hsplit, List.append_assoc]
    exact hstart.head?_append _
  have hlast : ∀ u ∈ (refTo r).getLast?, isWhitespace u = false := by
    rw [refTo, ← List.append_assoc]
    exact hslash.getLast?_append _
  rw [trim_append_trimEnd hbefore hne hhead hlast, trimEnd_append_white hafter,
    replaceFirst_append hne, List.nil_append]

/-- How many characters of a text are not white. -/
def visibleLength (s : JsString) : Nat := s.countP fun u => !isWhitespace u

theorem ne_nil_of_visibleLength_pos {s : JsString} (h : 0 < visibleLength s) : s ≠ [] := by
  rintro rfl
  exact lt_irrefl _ h

/-- The server gives a longer name than the branch, as the word that is taken out is too short. -/
theorem visibleLength_lt_of_remoteInfo (name : JsString) :
    visibleLength name <
      visibleLength (replaceFirst (ofString "refs/head/") [] (ofString "refs/heads/" ++ name)) := by
  have h := countP_le_countP_replaceFirst_nil (fun u => !isWhitespace u) (ofString "refs/head/")
    (ofString "refs/heads/" ++ name)
  have hword : visibleLength (ofString "refs/head/") = 10 := by decide +kernel
  have hfull : visibleLength (ofString "refs/heads/") = 11 := by decide +kernel
  rw [List.countP_append] at h
  unfold visibleLength at *
  omega

/-- Without an answer of the remote the main branch has one of the usual names. -/
theorem getD_mem_mainBranchNames (git : GitClient) :
    (git.tryGetMainBranchFromLocalBranches.bind truthy).getD (ofString "main") ∈
      mainBranchNames := by
  cases h : git.tryGetMainBranchFromLocalBranches.bind truthy with
  | none => exact List.mem_cons_self
  | some name =>
      obtain ⟨found, hfound, hname⟩ := Option.bind_eq_some_iff.mp h
      obtain ⟨rfl, -⟩ := truthy_eq_some.mp hname
      obtain ⟨branches, -, hfind⟩ := Option.map_eq_some_iff.mp hfound
      exact List.mem_of_find?_eq_some hfind

theorem exists_not_whitespace_of_mem {name : JsString} (h : name ∈ mainBranchNames) :
    ∃ u ∈ name, isWhitespace u = false := by
  have hall : ∀ name ∈ mainBranchNames, name.any (fun u => !isWhitespace u) = true := by
    decide +kernel
  simpa using hall name h

/-- The answers of a chosen remote, and then the usual names. -/
theorem getMainBranch_of_chosen {remotes : List ListedRemote}
    (hremotes : git.listRemotes = some remotes) (hchosen : chosenRemote remotes = some origin) :
    git.getMainBranch = ((truthy (git.getMainBranchFromRef origin.remote)).or
      (truthy (git.getMainBranchFromRemoteRepoInfo origin.url))).getD
        ((git.tryGetMainBranchFromLocalBranches.bind truthy).getD (ofString "main")) := by
  rw [getMainBranch, tryGetMainBranch, hremotes]
  simp only [Option.bind_eq_bind, Option.bind_some, hchosen]
  cases (truthy (git.getMainBranchFromRef origin.remote)).or
    (truthy (git.getMainBranchFromRemoteRepoInfo origin.url)) <;> rfl

/-- What the server says is not the branch that it names, and not white space. -/
theorem Tells.remote_answer (h : Tells git origin branch) {answer : JsString}
    (hanswer : git.getMainBranchFromRemoteRepoInfo origin.url = some answer) :
    0 < visibleLength answer ∧
      (git.readFile (refFilePath origin.remote) = none → answer ≠ branch) := by
  obtain ⟨info, hinfo, hhead⟩ := Option.bind_eq_some_iff.mp hanswer
  obtain ⟨head, hHEAD, rfl⟩ := Option.map_eq_some_iff.mp hhead
  obtain ⟨name, rfl, hname⟩ := h.remoteInfo info hinfo head hHEAD
  have hlt := visibleLength_lt_of_remoteInfo name
  refine ⟨by omega, ?_⟩
  intro hnone heq
  rw [heq, hname hnone] at hlt
  exact lt_irrefl _ hlt

/-- A branch that is not trimmed. -/
theorem last_not_whitespace_iff :
    (∃ u ∈ branch.getLast?, isWhitespace u = false) ↔ branch ≠ [] ∧ trimEnd branch = branch := by
  constructor
  · intro h
    obtain ⟨u, hu, hwhite⟩ := h
    have hne : branch ≠ [] := by
      rintro rfl
      cases hu
    refine ⟨hne, ?_⟩
    have hlast : ∀ v ∈ branch.getLast?, isWhitespace v = false := by
      intro v hv
      cases Option.mem_unique hu hv
      exact hwhite
    have htrim := trimEnd_append (t := []) hlast
    rw [List.append_nil] at htrim
    exact htrim.trans (List.append_nil branch)
  · intro h
    obtain ⟨hne, htrim⟩ := h
    have hlast := getLast?_trimEnd (s := branch)
    rw [htrim] at hlast
    have hend := List.getLast?_eq_some_getLast hne
    exact ⟨branch.getLast hne, hend, hlast _ hend⟩

/-- **Which source gives the branch.** The main branch is the one that the sources tell of if and
only if the ref file can be read and the branch does not end in white space. -/
theorem mainBranch_iff (h : Tells git origin branch) :
    git.getMainBranch = branch ↔
      (git.readFile (refFilePath origin.remote)).isSome ∧
        ∃ u ∈ branch.getLast?, isWhitespace u = false := by
  obtain ⟨remotes, hremotes, hchosen⟩ := h.chosen
  rw [last_not_whitespace_iff, getMainBranch_of_chosen hremotes hchosen]
  cases hfile : git.readFile (refFilePath origin.remote) with
  | none =>
      have href : git.getMainBranchFromRef origin.remote = none := by
        rw [getMainBranchFromRef, hfile, Option.map_none]
      obtain ⟨info, hinfo, hsome⟩ := h.answers.resolve_left (by simp [hfile])
      obtain ⟨head, hHEAD⟩ := Option.isSome_iff_exists.mp hsome
      have hanswer : git.getMainBranchFromRemoteRepoInfo origin.url =
          some (replaceFirst (ofString "refs/head/") [] head) := by
        rw [getMainBranchFromRemoteRepoInfo, hinfo, Option.bind_some, hHEAD, Option.map_some]
      obtain ⟨hvisible, hne⟩ := h.remote_answer hanswer
      have htruthy := truthy_eq_some.mpr ⟨hanswer, ne_nil_of_visibleLength_pos hvisible⟩
      have hnone : truthy (none : Option JsString) = none := rfl
      rw [href, hnone, Option.none_or, htruthy, Option.getD_some]
      apply iff_of_false (hne hfile)
      simp
  | some content =>
      obtain ⟨before, after, hbefore, hafter, rfl⟩ := h.refFile content hfile
      have href : git.getMainBranchFromRef origin.remote = some (trimEnd branch) := by
        rw [getMainBranchFromRef, hfile, Option.map_some, refFile_trimEnd hbefore hafter]
      rw [href]
      by_cases hblank : trimEnd branch = []
      · have hnone : truthy (some (trimEnd branch)) = none := by
          rw [hblank]
          rfl
        rw [hnone, Option.none_or]
        -- A branch of white space: neither the server nor the usual names give it.
        have hwhite := trimEnd_eq_nil_iff.mp hblank
        apply iff_of_false
        · cases htruthy : truthy (git.getMainBranchFromRemoteRepoInfo origin.url) with
          | some answer =>
              intro heq
              obtain ⟨u, hu, hnot⟩ :=
                List.countP_pos_iff.mp (h.remote_answer (truthy_eq_some.mp htruthy).1).1
              rw [Option.getD_some] at heq
              simp [hwhite u (heq ▸ hu)] at hnot
          | none =>
              rw [Option.getD_none]
              intro heq
              obtain ⟨u, hu, hnot⟩ := exists_not_whitespace_of_mem
                (heq ▸ getD_mem_mainBranchNames git)
              rw [hwhite u hu] at hnot
              cases hnot
        · grind
      · have htruthy := truthy_eq_some.mpr ⟨rfl, hblank⟩
        rw [htruthy, Option.some_or, Option.getD_some]
        grind

/-! ### A repository without the ref file -/

/-- A clone of a server with the main branch `main`. -/
def sampleGit (refFile : Option JsString) : GitClient where
  listRemotes := some [⟨ofString "origin", ofString "https://host/p.git"⟩]
  readFile _ := refFile
  getRemoteInfo _ := some ⟨some (ofString "refs/heads/main")⟩
  listBranches := some [ofString "main"]
  currentBranch := some (some (ofString "main"))
  headRef := none

def sampleOrigin : ListedRemote := ⟨ofString "origin", ofString "https://host/p.git"⟩

theorem sample_tells : Tells (sampleGit none) sampleOrigin (ofString "main") where
  chosen := ⟨_, rfl, by decide +kernel⟩
  refFile content hcontent := by cases hcontent
  remoteInfo info hinfo head hhead := by
    cases hinfo
    cases hhead
    exact ⟨_, rfl, fun _ => rfl⟩
  answers := Or.inr ⟨_, rfl, rfl⟩

theorem mainBranch_iff_sample :
    (sampleGit none).getMainBranch = ofString "main" ↔
      ((sampleGit none).readFile (refFilePath sampleOrigin.remote)).isSome ∧
        ∃ u ∈ (ofString "main").getLast?, isWhitespace u = false :=
  mainBranch_iff sample_tells

/-- The server tells of `main`, and the answer is another name. -/
theorem server_answer_keeps_path :
    Tells (sampleGit none) sampleOrigin (ofString "main") ∧
      (sampleGit none).getMainBranch = ofString "refs/heads/main" ∧
      (sampleGit none).getMainBranch ≠ ofString "main" := by
  refine ⟨sample_tells, ?_, ?_⟩
  · decide +kernel
  · decide +kernel

end GitClient

end KhulnasoftLsp.Git
