import KhulnasoftLsp.DuoAccess.WorkspaceProjectAccessCache
import Mathlib.Data.List.MinMax

/-!
# The project of a document

`checkProjectStatus` matches a document to the project with the longest root. A project is known by
its `.git/config` file, and what is in front of this name is its root. The code cuts the name out at
its *first* occurrence, so a root in which `.git/config` occurs itself is cut in the wrong place.
-/

namespace KhulnasoftLsp.DuoAccess

/-! ## Roots -/

/-- The name under which a project is found. -/
def gitConfig : List Char := ".git/config".toList

/-- The file is found as the `.git/config` of a directory. -/
def IsGitConfig (configUri : String) : Prop := '/' :: gitConfig <:+ configUri.toList

/-- The directory that the `.git/config` file is in. -/
def repositoryRoot (configUri : String) : List Char :=
  configUri.toList.take (configUri.length - (gitConfig.length + 1))

/-- The document lies below the root of the repository. -/
def RootContains (configUri uri : String) : Prop := repositoryRoot configUri ++ ['/'] <+: uri.toList

/-- The name occurs in the root already. -/
def RootHoldsName (configUri : String) : Prop := gitConfig <:+: repositoryRoot configUri

instance : DecidablePred IsGitConfig := fun _ => inferInstanceAs (Decidable (_ <:+ _))

instance (configUri uri : String) : Decidable (RootContains configUri uri) :=
  inferInstanceAs (Decidable (_ <+: _))

instance : DecidablePred RootHoldsName := fun _ => inferInstanceAs (Decidable (_ <:+: _))

theorem IsGitConfig.toList_eq {configUri : String} (h : IsGitConfig configUri) :
    configUri.toList = repositoryRoot configUri ++ '/' :: gitConfig := by
  obtain ⟨root, hroot⟩ := h
  have hlen : configUri.length = root.length + (gitConfig.length + 1) := by
    rw [← String.length_toList, ← hroot, List.length_append, List.length_cons]
  rw [repositoryRoot, ← hroot, hlen, Nat.add_sub_cancel, List.take_left']
  rfl

theorem IsGitConfig.length_eq {configUri : String} (h : IsGitConfig configUri) :
    configUri.length = (repositoryRoot configUri).length + 12 := by
  rw [← String.length_toList, h.toList_eq, List.length_append]
  rfl

/-- The only slash of the name is not in front of its only dot, so the name does not begin in front
of the slash that it comes after. -/
theorem gitConfig_prefix_of_append {l : List Char} (h : gitConfig <+: l ++ '/' :: gitConfig) :
    gitConfig <+: l := by
  by_cases hlen : gitConfig.length ≤ l.length
  · exact List.prefix_of_prefix_length_le h (List.prefix_append _ _) hlen
  · exfalso
    have hget := List.prefix_iff_getElem?.mp h
    have hlt : l.length < 11 := by
      have : gitConfig.length = 11 := rfl
      omega
    have hslash : gitConfig[l.length]? = some '/' := by
      have := hget l.length (by omega)
      rw [List.getElem?_append_right (Nat.le_refl _), Nat.sub_self] at this
      rw [List.getElem?_eq_getElem (by omega), ← this]
      rfl
    have hfour : l.length = 4 := by
      generalize l.length = n at hlt hslash
      revert n
      decide
    have hfive := hget 5 (by decide)
    rw [List.getElem?_append_right (by omega), hfour] at hfive
    exact absurd hfive (by decide)

/-- What the code takes for the root, with the slash behind it. -/
theorem removeFirst_root (root : List Char) :
    removeFirst gitConfig (root ++ '/' :: gitConfig) =
      if gitConfig <:+: root then removeFirst gitConfig root ++ '/' :: gitConfig
      else root ++ ['/'] := by
  induction root with
  | nil => decide
  | cons c cs ih =>
      show removeFirst gitConfig (c :: (cs ++ '/' :: gitConfig)) = _
      by_cases hhead : gitConfig <+: c :: cs
      · have hhead' : gitConfig <+: c :: (cs ++ '/' :: gitConfig) :=
          hhead.trans (List.prefix_append _ _)
        have hdrop : ((c :: cs) ++ '/' :: gitConfig).drop gitConfig.length =
            (c :: cs).drop gitConfig.length ++ '/' :: gitConfig :=
          List.drop_append_of_le_length hhead.length_le
        rw [if_pos hhead.isInfix, removeFirst, removeFirst,
          if_pos (List.isPrefixOf_iff_prefix.mpr hhead),
          if_pos (List.isPrefixOf_iff_prefix.mpr hhead'), ← hdrop]
        rfl
      · have hhead' : ¬ gitConfig <+: c :: (cs ++ '/' :: gitConfig) :=
          fun h => hhead (gitConfig_prefix_of_append h)
        have hinfix : gitConfig <:+: c :: cs ↔ gitConfig <:+: cs := by
          rw [List.infix_cons_iff]
          exact or_iff_right hhead
        simp only [removeFirst, List.isPrefixOf_iff_prefix, if_neg hhead, if_neg hhead', ih, hinfix]
        split <;> rfl

theorem length_removeFirst_of_infix {l : List Char} (h : gitConfig <:+: l) :
    (removeFirst gitConfig l).length + 11 = l.length := by
  induction l with
  | nil => exact absurd h (by decide)
  | cons c cs ih =>
      rw [removeFirst]
      split
      · rename_i hhead
        have hle := (List.isPrefixOf_iff_prefix.mp hhead).length_le
        have : gitConfig.length = 11 := rfl
        rw [List.length_drop]
        omega
      · rename_i hhead
        rw [List.isPrefixOf_iff_prefix] at hhead
        have := ih ((List.infix_cons_iff.mp h).resolve_left hhead)
        rw [List.length_cons, List.length_cons]
        omega

theorem isBelow_iff_of_root {uri configUri : String} (hconfig : IsGitConfig configUri)
    (hname : ¬ RootHoldsName configUri) :
    isBelow uri configUri = true ↔ RootContains configUri uri := by
  rw [RootHoldsName] at hname
  show (removeFirst gitConfig configUri.toList).isPrefixOf uri.toList = true ↔ _
  rw [hconfig.toList_eq, removeFirst_root, if_neg hname, List.isPrefixOf_iff_prefix]
  rfl

/-- A root that is cut in the wrong place ends in the name, and no root ends there. -/
theorem length_ne_of_isBelow {uri configUri other : String} (hconfig : IsGitConfig configUri)
    (hname : RootHoldsName configUri) (hbelow : isBelow uri configUri = true)
    (hother : RootContains other uri) :
    (repositoryRoot configUri).length ≠ (repositoryRoot other).length := by
  rw [RootHoldsName] at hname
  intro hlen
  have hcut : removeFirst gitConfig (repositoryRoot configUri) ++ '/' :: gitConfig <+:
      uri.toList := by
    have := List.isPrefixOf_iff_prefix.mp hbelow
    rwa [show ".git/config".toList = gitConfig from rfl, hconfig.toList_eq, removeFirst_root,
      if_pos hname] at this
  have hlen' : (removeFirst gitConfig (repositoryRoot configUri) ++ '/' :: gitConfig).length =
      (repositoryRoot other ++ ['/']).length := by
    have := length_removeFirst_of_infix hname
    have hgit : gitConfig.length = 11 := rfl
    simp only [List.length_append, List.length_cons, List.length_nil, hgit]
    omega
  have heq := (List.prefix_of_prefix_length_le hcut hother (Nat.le_of_eq hlen')).eq_of_length hlen'
  have hlast := congrArg List.getLast? heq
  rw [List.getLast?_append, List.getLast?_append] at hlast
  cases hlast

/-- Of two roots that contain a document, the shorter one contains the longer one. -/
theorem repositoryRoot_eq_of_length {uri configUri other : String}
    (h : RootContains configUri uri) (hother : RootContains other uri)
    (hlen : (repositoryRoot configUri).length = (repositoryRoot other).length) :
    repositoryRoot configUri = repositoryRoot other := by
  have hpre := (List.prefix_append _ _).trans h
  have hpre' := (List.prefix_append _ _).trans hother
  exact (List.prefix_of_prefix_length_le hpre hpre' (Nat.le_of_eq hlen)).eq_of_length hlen

/-! ## The deepest project -/

/-- The loop keeps the first of the longest URIs. -/
theorem deepestBy_eq_argmax {α : Type} (uriOf : α → String) (uri : String) (items : List α) :
    deepestBy uriOf uri items =
      (items.filter fun item => isBelow uri (uriOf item)).argmax fun item =>
        (uriOf item).length := by
  have hstep : ∀ (deepest : Option α) (item : α), deeper uriOf uri deepest item =
      if isBelow uri (uriOf item) = true then
        List.argAux (fun b c => (uriOf c).length < (uriOf b).length) deepest item
      else deepest := by
    intro deepest item
    cases deepest <;> rfl
  rw [List.argmax, List.foldl_filter, deepestBy]
  congr
  funext deepest item
  exact hstep deepest item

/-- `DuoEnabled` or `DuoDisabled`, as the project says. -/
def DuoProject.status (project : DuoProject) : DuoProjectStatus :=
  if project.enabled then .DuoEnabled else .DuoDisabled

/-- No root that contains the document is longer. -/
def IsLongestRoot (uri : String) (projects : List DuoProject) (p : DuoProject) : Prop :=
  RootContains p.uri uri ∧ ∀ q ∈ projects, RootContains q.uri uri →
    (repositoryRoot q.uri).length ≤ (repositoryRoot p.uri).length

/-- The answer is the project with the longest root that contains the document, and the status of
this project; or there is none. -/
def NamesDeepest (uri : String) (projects : List DuoProject) :
    Option DuoProject × DuoProjectStatus → Prop
  | (some p, status) => (p ∈ projects ∧ IsLongestRoot uri projects p) ∧ status = p.status
  | (none, status) => (∀ q ∈ projects, ¬ RootContains q.uri uri) ∧ status = .NonGitlabProject

def DistinctRoots (projects : List DuoProject) : Prop :=
  (projects.map fun p => repositoryRoot p.uri).Nodup

/-- The document is matched to its deepest project; and if no two projects have the same root, the
status is the same for every order of the projects. -/
def MatchedToDeepest (uri : String) (projects : List DuoProject) : Prop :=
  NamesDeepest uri projects (projectStatus uri projects) ∧
    (DistinctRoots projects → ∀ projects', projects'.Perm projects →
      (projectStatus uri projects').2 = (projectStatus uri projects).2)

/-- No root with the name `.git/config` in it matters: the longest root that contains the document
is without it; and where the document begins with what is left of such a root, a longer root
contains the document. -/
def NameOnlyAtEnd (uri : String) (projects : List DuoProject) : Prop :=
  (∀ p ∈ projects, IsLongestRoot uri projects p → ¬ RootHoldsName p.uri) ∧
    ∀ q ∈ projects, RootHoldsName q.uri → isBelow uri q.uri = true →
      ∃ p ∈ projects, RootContains p.uri uri ∧
        (repositoryRoot q.uri).length < (repositoryRoot p.uri).length

theorem projectStatus_eq (uri : String) (projects : List DuoProject) :
    projectStatus uri projects =
      match findDeepestProjectByPath uri projects with
      | none => (none, .NonGitlabProject)
      | some p => (some p, p.status) := by
  cases projects <;> rfl

theorem exists_isLongestRoot {uri : String} {projects : List DuoProject} {q : DuoProject}
    (hq : q ∈ projects) (hcontains : RootContains q.uri uri) :
    ∃ p ∈ projects, IsLongestRoot uri projects p := by
  have hmem : q ∈ projects.filter fun p => decide (RootContains p.uri uri) :=
    List.mem_filter.mpr ⟨hq, decide_eq_true hcontains⟩
  cases hmax : (projects.filter fun p => decide (RootContains p.uri uri)).argmax fun p =>
      (repositoryRoot p.uri).length with
  | none =>
      rw [List.argmax_eq_none.mp hmax] at hmem
      cases hmem
  | some p =>
      obtain ⟨hp, hp'⟩ := List.mem_filter.mp (List.argmax_mem hmax)
      refine ⟨p, hp, of_decide_eq_true hp', ?_⟩
      intro r hr hrc
      have hmem' : r ∈ projects.filter fun p => decide (RootContains p.uri uri) :=
        List.mem_filter.mpr ⟨hr, decide_eq_true hrc⟩
      exact List.le_of_mem_argmax (f := fun p : DuoProject => (repositoryRoot p.uri).length)
        hmem' hmax

/-- At most one answer is right if no two projects have the same root, whatever their order. -/
theorem NamesDeepest.unique {uri : String} {projects projects' : List DuoProject}
    {a a' : Option DuoProject × DuoProjectStatus} (hdistinct : DistinctRoots projects)
    (hmem : ∀ p, p ∈ projects' ↔ p ∈ projects) (h : NamesDeepest uri projects a)
    (h' : NamesDeepest uri projects' a') : a' = a := by
  obtain ⟨answer, status⟩ := a
  obtain ⟨answer', status'⟩ := a'
  cases answer with
  | none =>
      obtain ⟨hnone, rfl⟩ := h
      cases answer' with
      | none => rw [h'.2]
      | some p' => exact absurd h'.1.2.1 (hnone p' ((hmem p').mp h'.1.1))
  | some p =>
      obtain ⟨⟨hp, hpc, hpmax⟩, rfl⟩ := h
      cases answer' with
      | none => exact absurd hpc (h'.1 p ((hmem p).mpr hp))
      | some p' =>
          obtain ⟨⟨hp', hpc', hpmax'⟩, rfl⟩ := h'
          have hp'' := (hmem p').mp hp'
          have hlen := Nat.le_antisymm (hpmax p' hp'' hpc') (hpmax' p ((hmem p).mpr hp) hpc)
          obtain rfl : p' = p :=
            List.inj_on_of_nodup_map hdistinct hp'' hp (repositoryRoot_eq_of_length hpc' hpc hlen)
          rfl

section Matched

variable {uri : String} {projects : List DuoProject}

/-- Two lists of the same projects. -/
theorem NameOnlyAtEnd.of_mem_iff {projects' : List DuoProject}
    (hmem : ∀ p, p ∈ projects' ↔ p ∈ projects) (h : NameOnlyAtEnd uri projects) :
    NameOnlyAtEnd uri projects' := by
  simpa only [NameOnlyAtEnd, IsLongestRoot, hmem] using h

variable (hprojects : ∀ p ∈ projects, IsGitConfig p.uri)
include hprojects

theorem namesDeepest_of_nameOnlyAtEnd (h : NameOnlyAtEnd uri projects) :
    NamesDeepest uri projects (projectStatus uri projects) := by
  obtain ⟨hlongest, hcut⟩ := h
  have hbelow : ∀ p ∈ projects, IsLongestRoot uri projects p →
      p ∈ projects.filter fun p => isBelow uri p.uri := by
    intro p hp hmax
    have := (isBelow_iff_of_root (hprojects p hp) (hlongest p hp hmax)).mpr hmax.1
    exact List.mem_filter.mpr ⟨hp, this⟩
  rw [projectStatus_eq, findDeepestProjectByPath, deepestBy_eq_argmax]
  cases hd : (projects.filter fun p => isBelow uri p.uri).argmax fun p => p.uri.length with
  | none =>
      refine ⟨?_, rfl⟩
      intro q hq hqc
      obtain ⟨p, hp, hmax⟩ := exists_isLongestRoot hq hqc
      have := hbelow p hp hmax
      rw [List.argmax_eq_none.mp hd] at this
      cases this
  | some d =>
      obtain ⟨hdm, hdb⟩ := List.mem_filter.mp (List.argmax_mem hd)
      -- no longest root is longer than the root of the answer
      have hle : ∀ p ∈ projects, IsLongestRoot uri projects p →
          (repositoryRoot p.uri).length ≤ (repositoryRoot d.uri).length := by
        intro p hp hmax
        have hlen : p.uri.length ≤ d.uri.length :=
          List.le_of_mem_argmax (f := fun p : DuoProject => p.uri.length) (hbelow p hp hmax) hd
        rw [(hprojects p hp).length_eq, (hprojects d hdm).length_eq] at hlen
        omega
      have hname : ¬ RootHoldsName d.uri := by
        intro hname
        obtain ⟨q, hq, hqc, hlt⟩ := hcut d hdm hname hdb
        obtain ⟨p, hp, hmax⟩ := exists_isLongestRoot hq hqc
        have h₁ := hle p hp hmax
        have h₂ := hmax.2 q hq hqc
        omega
      refine ⟨⟨hdm, (isBelow_iff_of_root (hprojects d hdm) hname).mp hdb, ?_⟩, rfl⟩
      intro q hq hqc
      obtain ⟨p, hp, hmax⟩ := exists_isLongestRoot hq hqc
      exact Nat.le_trans (hmax.2 q hq hqc) (hle p hp hmax)

theorem nameOnlyAtEnd_of_namesDeepest
    (h : NamesDeepest uri projects (projectStatus uri projects)) : NameOnlyAtEnd uri projects := by
  rw [projectStatus_eq, findDeepestProjectByPath, deepestBy_eq_argmax] at h
  cases hd : (projects.filter fun p => isBelow uri p.uri).argmax fun p => p.uri.length with
  | none =>
      rw [hd] at h
      refine ⟨fun p hp hmax => absurd hmax.1 (h.1 p hp), ?_⟩
      intro q hq _ hbelow
      have hmem : q ∈ projects.filter fun p => isBelow uri p.uri := List.mem_filter.mpr ⟨hq, hbelow⟩
      rw [List.argmax_eq_none.mp hd] at hmem
      cases hmem
  | some d =>
      rw [hd] at h
      obtain ⟨⟨hdm, hdc, hdmax⟩, -⟩ := h
      have hdb := (List.mem_filter.mp (List.argmax_mem hd)).2
      have hname : ¬ RootHoldsName d.uri :=
        fun hname => length_ne_of_isBelow (hprojects d hdm) hname hdb hdc rfl
      constructor
      · intro p hp hmax
        have hlen := Nat.le_antisymm (hdmax p hp hmax.1) (hmax.2 d hdm hdc)
        rw [RootHoldsName, repositoryRoot_eq_of_length hmax.1 hdc hlen]
        exact hname
      · intro q hq hqname hqb
        have hlen : q.uri.length ≤ d.uri.length :=
          List.le_of_mem_argmax (f := fun p : DuoProject => p.uri.length)
            (List.mem_filter.mpr ⟨hq, hqb⟩) hd
        have hne := length_ne_of_isBelow (hprojects q hq) hqname hqb hdc
        rw [(hprojects q hq).length_eq, (hprojects d hdm).length_eq] at hlen
        exact ⟨d, hdm, hdc, by omega⟩

/-- **The project of a document.** A document is matched to the project with the longest root that
contains it, in every order of the projects, if and only if no root with `.git/config` in it
matters. -/
theorem matchedToDeepest_iff : MatchedToDeepest uri projects ↔ NameOnlyAtEnd uri projects := by
  constructor
  · intro h
    exact nameOnlyAtEnd_of_namesDeepest hprojects h.1
  · intro h
    have hdeepest := namesDeepest_of_nameOnlyAtEnd hprojects h
    refine ⟨hdeepest, ?_⟩
    intro hdistinct projects' hperm
    have hdeepest' : NamesDeepest uri projects' (projectStatus uri projects') :=
      namesDeepest_of_nameOnlyAtEnd (fun p hp => hprojects p (hperm.mem_iff.mp hp))
        (h.of_mem_iff fun _ => hperm.mem_iff)
    rw [hdeepest.unique hdistinct (fun _ => hperm.mem_iff) hdeepest']

end Matched

def sampleProject (root : String) (enabled : Bool) : DuoProject where
  remote := ⟨"gitlab.com", "g", "p", "g/p"⟩
  uri := root ++ "/.git/config"
  enabled := enabled

/-- A project in another one. -/
theorem matchedToDeepest_iff_of_nested :
    MatchedToDeepest "file:///a/b/x.ts" [sampleProject "file:///a" true,
        sampleProject "file:///a/b" false] ↔
      NameOnlyAtEnd "file:///a/b/x.ts" [sampleProject "file:///a" true,
        sampleProject "file:///a/b" false] :=
  matchedToDeepest_iff (by decide +kernel)

/-- The root is cut to `file:///x-tool`, and its documents lie outside of any project. -/
theorem not_matchedToDeepest_of_name_in_root :
    ¬ MatchedToDeepest "file:///x.git/config-tool/a.ts"
      [sampleProject "file:///x.git/config-tool" true] := by
  have hstatus : projectStatus "file:///x.git/config-tool/a.ts"
      [sampleProject "file:///x.git/config-tool" true] = (none, .NonGitlabProject) := by
    decide +kernel
  intro h
  rw [MatchedToDeepest, hstatus] at h
  exact h.1.1 _ List.mem_cons_self (by decide +kernel)

end KhulnasoftLsp.DuoAccess
