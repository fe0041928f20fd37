import KhulnasoftLsp.AiContext.Provider
import KhulnasoftLsp.DocContext

/-!
# The policies of the workspace folders

A workspace folder may have a file `.ai-context-policy.yml`, which says of the files below the
folder whether they may be used as context. `DefaultFilePolicyProvider` reads it whenever the
repositories of a folder are set. The reads of several folders overlap, and the provider has one
policy, whatever the folder it was read from.
-/

namespace KhulnasoftLsp.AiContext

open Transition

inductive POLICIES where
  | allow
  | block
  deriving DecidableEq, Repr

/-- A value that is not falsy need not be an array. -/
inductive Exclude (Pattern : Type*) where
  | falsy
  | array (patterns : List Pattern)
  | noArray
  deriving DecidableEq, Repr

/-- `exclude || []`, with `none` for what has no method `some` -/
def Exclude.orEmpty {Pattern : Type*} : Exclude Pattern → Option (List Pattern)
  | .falsy => some []
  | .array patterns => some patterns
  | .noArray => none

/-- What is loaded from a file. A policy other than the two of `POLICIES` is `none`. -/
structure PolicyConfig (Pattern : Type*) where
  ai_context_policy : Option POLICIES
  exclude : Exclude Pattern
  deriving DecidableEq, Repr

def DefaultPolicy {Pattern : Type*} : PolicyConfig Pattern where
  ai_context_policy := some .allow
  exclude := .array []

def DisabledReason : String := "File disabled by context policy"

/-- The packages that the provider calls. -/
structure Packages (Pattern : Type*) where
  minimatch : String → Pattern → Except String Bool
  /-- A file without a document in it is loaded as `none`. -/
  load : String → Except String (Option (PolicyConfig Pattern))
  /-- The path of the policy file of a folder, if the URI of the folder can be parsed. -/
  policyFile : WorkspaceFolder → Option String

variable {Pattern : Type*} (packages : Packages Pattern)

/-! ## The policy of one folder -/

/-- What the provider takes from a config. -/
structure Policy (Pattern : Type*) where
  policyType : Option POLICIES
  excludePatterns : Option (List Pattern)
  deriving DecidableEq, Repr

def PolicyConfig.policy (config : PolicyConfig Pattern) : Policy Pattern where
  policyType := config.ai_context_policy
  excludePatterns := config.exclude.orEmpty

/-- `some` of an array: a call that throws ends it. -/
def someMatches (relativePath : String) : List Pattern → Except String Bool
  | [] => .ok false
  | pattern :: patterns => do
    if ← packages.minimatch relativePath pattern then
      return true
    someMatches relativePath patterns

/-- A path is allowed if it is excluded from `block`, or not excluded from `allow`. -/
def Policy.Allows (policy : Policy Pattern) (relativePath : String) : Prop :=
  ∃ patterns ∈ policy.excludePatterns,
    someMatches packages relativePath patterns = .ok (decide (policy.policyType = some .block))

/-- The two policies allow the same paths. -/
def Policy.Agrees (policy policy' : Policy Pattern) : Prop :=
  ∀ relativePath ≠ "", policy.Allows packages relativePath ↔ policy'.Allows packages relativePath

/-! ## The provider -/

structure DefaultFilePolicyProvider (Pattern : Type*) where
  policyConfig : Option (PolicyConfig Pattern)
  policyType : Option POLICIES
  excludePatterns : Option (List Pattern)
  /-- The reads that have not ended, with the paths of the files. -/
  reads : List (WorkspaceFolder × String)
  /-- The policies that were loaded, with their folders, the last one first. -/
  loaded : List (WorkspaceFolder × Policy Pattern)

inductive PolicyEvent where
  | init (workspaceFolder : Option WorkspaceFolder)
  /-- The read of a file ends. -/
  | readFile (workspaceFolder : WorkspaceFolder) (filePath : String)
    (content : Except String String)
  deriving Repr

/-- The config is the default one if the file cannot be read or loaded. -/
def configOf (content : Except String String) : Option (PolicyConfig Pattern) :=
  match content with
  | .error _ => some DefaultPolicy
  | .ok content =>
    if content = "" then some DefaultPolicy
    else match packages.load content with
      | .ok config => config
      | .error _ => some DefaultPolicy

namespace DefaultFilePolicyProvider

def new : DefaultFilePolicyProvider Pattern where
  policyConfig := some DefaultPolicy
  policyType := some .allow
  excludePatterns := some []
  reads := []
  loaded := []

/-- The end of `init`. Nothing can be taken from a config that is `none`: that throws. -/
def useConfig (workspaceFolder : WorkspaceFolder) (config : Option (PolicyConfig Pattern))
    (s : DefaultFilePolicyProvider Pattern) : DefaultFilePolicyProvider Pattern :=
  match config with
  | none => { s with policyConfig := none }
  | some config =>
    { s with
      policyConfig := some config
      policyType := config.ai_context_policy
      excludePatterns := config.exclude.orEmpty
      loaded := (workspaceFolder, config.policy) :: s.loaded }

def step (folders : List WorkspaceFolder) (s : DefaultFilePolicyProvider Pattern) :
    PolicyEvent → Option (DefaultFilePolicyProvider Pattern)
  | .init none => some s
  | .init (some workspaceFolder) =>
    if workspaceFolder ∈ folders then
      match packages.policyFile workspaceFolder with
      | none => some (s.useConfig workspaceFolder (some DefaultPolicy))
      | some filePath => some { s with reads := s.reads ++ [(workspaceFolder, filePath)] }
    else none
  | .readFile workspaceFolder filePath content =>
    if (workspaceFolder, filePath) ∈ s.reads then
      some (useConfig workspaceFolder (configOf packages content)
        { s with reads := s.reads.erase (workspaceFolder, filePath) })
    else none

def isContextItemAllowed (s : DefaultFilePolicyProvider Pattern) (relativePath : Option String) :
    Except String AIContextPolicyResponse :=
  match relativePath with
  | none => .ok { enabled := false, disabledReasons := ["File not found"] }
  | some relativePath =>
    if relativePath = "" then .ok { enabled := false, disabledReasons := ["File not found"] }
    else match s.excludePatterns with
      | none => .error "TypeError"
      | some patterns => do
        let isInExcludePattern ← someMatches packages relativePath patterns
        if s.policyType = some .block then
          return ⟨isInExcludePattern, if !isInExcludePattern then [DisabledReason] else []⟩
        return ⟨!isInExcludePattern, if isInExcludePattern then [DisabledReason] else []⟩

/-- The provider answers that the item is enabled. -/
def Enables (s : DefaultFilePolicyProvider Pattern) (relativePath : Option String) : Prop :=
  ∃ response, s.isContextItemAllowed packages relativePath = .ok response ∧
    response.enabled = true

/-! ## What it should answer -/

/-- The policy of a folder is the one that was loaded last for it. -/
def policyOf (s : DefaultFilePolicyProvider Pattern) (workspaceFolder : WorkspaceFolder) :
    Policy Pattern :=
  (s.loaded.lookup workspaceFolder).getD DefaultPolicy.policy

end DefaultFilePolicyProvider

/-- The file that a context item is about, and the folder that contains it. -/
structure FileMetadata where
  workspaceFolder : WorkspaceFolder
  relativePath : Option String

namespace PolicyEvent

def folder : PolicyEvent → Option WorkspaceFolder
  | .init workspaceFolder => workspaceFolder
  | .readFile workspaceFolder _ _ => some workspaceFolder

/-- The policy whose loading ends with the event. -/
def loads : PolicyEvent → Option (WorkspaceFolder × Policy Pattern)
  | .init none => none
  | .init (some workspaceFolder) =>
    match packages.policyFile workspaceFolder with
    | none => some (workspaceFolder, DefaultPolicy.policy)
    | some _ => none
  | .readFile workspaceFolder _ content =>
    (configOf packages content).map fun config => (workspaceFolder, config.policy)

end PolicyEvent

namespace DefaultFilePolicyProvider

variable (folders : List WorkspaceFolder)

/-- An item is enabled just if it has a path that the policy of its folder allows. -/
def Right (s : DefaultFilePolicyProvider Pattern) : Prop :=
  ∀ item : FileMetadata, item.workspaceFolder ∈ folders →
    (s.Enables packages item.relativePath ↔ ∃ relativePath ∈ item.relativePath,
      relativePath ≠ "" ∧ (s.policyOf item.workspaceFolder).Allows packages relativePath)

/-- What happens to one folder does not change the answers for the items of the others. -/
def Undisturbed (s : DefaultFilePolicyProvider Pattern) (e : PolicyEvent) : Prop :=
  ∀ t, s.step packages folders e = some t → ∀ item : FileMetadata,
    item.workspaceFolder ∈ folders → e.folder ≠ some item.workspaceFolder →
    (t.Enables packages item.relativePath ↔ s.Enables packages item.relativePath)

/-- When a policy is loaded, those of the other folders allow the same paths. -/
def OthersAgree (s : DefaultFilePolicyProvider Pattern) (e : PolicyEvent) : Prop :=
  ∀ load ∈ e.loads packages, ∀ other ∈ folders, other ≠ load.1 →
    load.2.Agrees packages (s.policyOf other)

/-! ## The policy that answers -/

def policy (s : DefaultFilePolicyProvider Pattern) : Policy Pattern where
  policyType := s.policyType
  excludePatterns := s.excludePatterns

variable {packages folders}

theorem enables_iff {s : DefaultFilePolicyProvider Pattern} {path : Option String} :
    s.Enables packages path ↔
      ∃ relativePath ∈ path, relativePath ≠ "" ∧ s.policy.Allows packages relativePath := by
  unfold Enables isContextItemAllowed
  cases path with
  | none => simp
  | some relativePath =>
    by_cases hempty : relativePath = ""
    · simp [hempty]
    · cases hpatterns : s.excludePatterns with
      | none => simp [hempty, Policy.Allows, policy, hpatterns]
      | some patterns =>
        have hallows : s.policy.Allows packages relativePath ↔
            someMatches packages relativePath patterns =
              .ok (decide (s.policyType = some .block)) := by
          simp [Policy.Allows, policy, hpatterns]
        simp only [Option.mem_some_iff, exists_eq_left', ne_eq, hempty, not_false_eq_true,
          true_and, if_false, hallows]
        cases someMatches packages relativePath patterns with
        | error message => simp [bind, Except.bind]
        | ok isInExcludePattern =>
          cases isInExcludePattern <;> by_cases hblock : s.policyType = some .block <;>
            simp [bind, Except.bind, pure, Except.pure, hblock]

theorem right_iff {s : DefaultFilePolicyProvider Pattern} :
    Right packages folders s ↔
      ∀ folder ∈ folders, s.policy.Agrees packages (s.policyOf folder) := by
  constructor
  · intro hright folder hfolder relativePath hne
    have hitem := hright ⟨folder, some relativePath⟩ hfolder
    rw [enables_iff] at hitem
    simpa [hne] using hitem
  · intro hagrees item hfolder
    rw [enables_iff]
    have hsame := hagrees item.workspaceFolder hfolder
    constructor
    · rintro ⟨relativePath, hpath, hne, hallows⟩
      exact ⟨relativePath, hpath, hne, (hsame relativePath hne).mp hallows⟩
    · rintro ⟨relativePath, hpath, hne, hallows⟩
      exact ⟨relativePath, hpath, hne, (hsame relativePath hne).mpr hallows⟩

/-- A step ends the loading of at most one policy, which is then the one that answers. -/
theorem step_loads {s t : DefaultFilePolicyProvider Pattern} {e : PolicyEvent}
    (h : s.step packages folders e = some t) :
    (e.loads packages = none ∧ t.policy = s.policy ∧ t.loaded = s.loaded) ∨
      ∃ load, e.loads packages = some load ∧ e.folder = some load.1 ∧ t.policy = load.2 ∧
        t.loaded = load :: s.loaded := by
  cases e with
  | init workspaceFolder =>
    cases workspaceFolder with
    | none =>
      cases h
      exact Or.inl ⟨rfl, rfl, rfl⟩
    | some workspaceFolder =>
      obtain ⟨-, hstep⟩ := Option.ite_none_right_eq_some.mp h
      cases hfile : packages.policyFile workspaceFolder with
      | none =>
        rw [hfile] at hstep
        cases hstep
        refine Or.inr ⟨(workspaceFolder, DefaultPolicy.policy), ?_, rfl, rfl, rfl⟩
        simp [PolicyEvent.loads, hfile]
      | some filePath =>
        rw [hfile] at hstep
        cases hstep
        refine Or.inl ⟨?_, rfl, rfl⟩
        simp [PolicyEvent.loads, hfile]
  | readFile workspaceFolder filePath content =>
    obtain ⟨-, hstep⟩ := Option.ite_none_right_eq_some.mp h
    cases hconfig : configOf packages content with
    | none =>
      rw [hconfig] at hstep
      cases hstep
      refine Or.inl ⟨?_, rfl, rfl⟩
      simp [PolicyEvent.loads, hconfig]
    | some config =>
      rw [hconfig] at hstep
      cases hstep
      refine Or.inr ⟨(workspaceFolder, config.policy), ?_, rfl, rfl, rfl⟩
      simp [PolicyEvent.loads, hconfig]

theorem Agrees.refl (policy : Policy Pattern) : policy.Agrees packages policy :=
  fun _ _ => Iff.rfl

theorem policyOf_of_loaded {s t : DefaultFilePolicyProvider Pattern}
    {load : WorkspaceFolder × Policy Pattern} (h : t.loaded = load :: s.loaded)
    (folder : WorkspaceFolder) :
    t.policyOf folder = if folder = load.1 then load.2 else s.policyOf folder := by
  unfold policyOf
  rw [h, List.lookup_cons]
  by_cases hfolder : folder = load.1
  · simp [hfolder]
  · have hne : (folder == load.1) = false := by simpa using hfolder
    rw [hne, if_neg hfolder]

/-- The policy of a folder does not depend on the others. -/
theorem policyOf_step_of_ne {s t : DefaultFilePolicyProvider Pattern} {e : PolicyEvent}
    (h : s.step packages folders e = some t) {folder : WorkspaceFolder}
    (hfolder : e.folder ≠ some folder) : t.policyOf folder = s.policyOf folder := by
  rcases step_loads h with ⟨-, -, hloaded⟩ | ⟨load, -, hload, -, hloaded⟩
  · unfold policyOf
    rw [hloaded]
  · rw [policyOf_of_loaded hloaded, if_neg]
    intro heq
    exact hfolder (heq ▸ hload)

theorem right_new : Right packages folders (new : DefaultFilePolicyProvider Pattern) := by
  apply right_iff.mpr
  intro folder _
  exact Agrees.refl _

theorem right_step_iff {s t : DefaultFilePolicyProvider Pattern} {e : PolicyEvent}
    (hright : Right packages folders s) (h : s.step packages folders e = some t) :
    Right packages folders t ↔ OthersAgree packages folders s e := by
  rw [right_iff] at hright ⊢
  rcases step_loads h with ⟨hnone, hpolicy, hloaded⟩ | ⟨load, hload, -, hpolicy, hloaded⟩
  · apply iff_of_true
    · intro folder hfolder
      unfold policyOf
      rw [hpolicy, hloaded]
      exact hright folder hfolder
    · intro load hload
      rw [hnone] at hload
      nomatch hload
  · constructor
    · intro hagrees load' hload' other hother hne
      obtain rfl : load = load' := Option.some.inj (hload.symm.trans hload')
      have hsame := hagrees other hother
      rwa [hpolicy, policyOf_of_loaded hloaded, if_neg hne] at hsame
    · intro hothers folder hfolder
      rw [hpolicy, policyOf_of_loaded hloaded]
      split
      · exact Agrees.refl _
      · exact hothers load hload folder hfolder ‹_›

/-- While the answers are right, they change with the policies of their own folders only. -/
theorem undisturbed_of_right {s : DefaultFilePolicyProvider Pattern} {e : PolicyEvent}
    (hright : Right packages folders s)
    (h : ∀ t, s.step packages folders e = some t → Right packages folders t) :
    Undisturbed packages folders s e := by
  intro t ht item hfolder hne
  rw [h t ht item hfolder, hright item hfolder, policyOf_step_of_ne ht hne]

/-- **When the answers are right.** There is one policy for all folders. The items of every folder
are treated by their own exactly as long as the policies of all folders allow the same. -/
theorem right_iff_othersAgree {es : List PolicyEvent} {t : DefaultFilePolicyProvider Pattern}
    (hrun : run (step packages folders) new es = some t) :
    (Always (step packages folders) (Right packages folders) new es ∧
        Guarded (step packages folders) (Undisturbed packages folders) new es) ↔
      Guarded (step packages folders) (OthersAgree packages folders) new es := by
  have hiff : Always (step packages folders) (Right packages folders) new es ↔
      Guarded (step packages folders) (OthersAgree packages folders) new es := by
    apply always_iff_guarded (I := fun _ => True) _ _ trivial right_new hrun
    · intro _ _ _ _ _ _ _
      trivial
    · intro s e t _ hright hstep
      exact right_step_iff hright hstep
  constructor
  · intro hclaim
    exact hiff.mp hclaim.1
  · intro hguarded
    have hall := hiff.mpr hguarded
    exact ⟨hall, hall.guarded fun s e hs ht => undisturbed_of_right hs ht⟩

def sampleFolders : List WorkspaceFolder := [⟨"file:///a", "a"⟩, ⟨"file:///b", "b"⟩]

/-- Patterns without special characters, and a file with a policy only. -/
def samplePackages : Packages String where
  minimatch := fun relativePath pattern => .ok (relativePath == pattern)
  load := fun content =>
    .ok (some ⟨if content = "ai_context_policy: block" then some .block else none, .falsy⟩)
  policyFile := fun folder => some ("/" ++ folder.name ++ "/.ai-context-policy.yml")

/-- The first folder has a policy file, the second one has none. -/
def sampleLoads : List PolicyEvent :=
  [.init (some ⟨"file:///a", "a"⟩), .init (some ⟨"file:///b", "b"⟩),
    .readFile ⟨"file:///a", "a"⟩ "/a/.ai-context-policy.yml" (.ok "ai_context_policy: block"),
    .readFile ⟨"file:///b", "b"⟩ "/b/.ai-context-policy.yml" (.error "ENOENT")]

theorem right_iff_othersAgree_of_two_folders :
    (Always (step samplePackages sampleFolders) (Right samplePackages sampleFolders) new
        sampleLoads ∧
      Guarded (step samplePackages sampleFolders) (Undisturbed samplePackages sampleFolders) new
        sampleLoads) ↔
      Guarded (step samplePackages sampleFolders) (OthersAgree samplePackages sampleFolders) new
        sampleLoads := by
  obtain ⟨t, ht⟩ : ∃ t, run (step samplePackages sampleFolders) new sampleLoads = some t :=
    Option.isSome_iff_exists.mp (by decide +kernel)
  exact right_iff_othersAgree ht

/-- The policy of the first folder blocks everything. Its items are allowed again once no file is
found for the second folder. -/
theorem not_right_of_missing_file :
    ∃ s t, run (step samplePackages sampleFolders) new (sampleLoads.take 3) = some s ∧
      run (step samplePackages sampleFolders) new sampleLoads = some t ∧
      s.isContextItemAllowed samplePackages (some "src/main.js") = .ok ⟨false, [DisabledReason]⟩ ∧
      t.isContextItemAllowed samplePackages (some "src/main.js") = .ok ⟨true, []⟩ ∧
      t.policyOf ⟨"file:///a", "a"⟩ = ⟨some .block, some []⟩ ∧
      ¬ Right samplePackages sampleFolders t := by
  obtain ⟨s, hs⟩ : ∃ s, run (step samplePackages sampleFolders) new (sampleLoads.take 3) =
      some s := Option.isSome_iff_exists.mp (by decide +kernel)
  obtain ⟨t, ht⟩ : ∃ t, run (step samplePackages sampleFolders) new sampleLoads = some t :=
    Option.isSome_iff_exists.mp (by decide +kernel)
  have hbefore : ∀ s ∈ run (step samplePackages sampleFolders) new (sampleLoads.take 3),
      s.policyType = some .block ∧ s.excludePatterns = some [] := by
    decide +kernel
  have hafter : ∀ t ∈ run (step samplePackages sampleFolders) new sampleLoads,
      t.policyType = some .allow ∧ t.excludePatterns = some [] ∧
        t.policyOf ⟨"file:///a", "a"⟩ = ⟨some .block, some []⟩ := by
    decide +kernel
  obtain ⟨hblock, hpatterns⟩ := hbefore s hs
  obtain ⟨hallow, hpatterns', hpolicy⟩ := hafter t ht
  have hanswer : t.isContextItemAllowed samplePackages (some "src/main.js") = .ok ⟨true, []⟩ := by
    simp [isContextItemAllowed, hpatterns', hallow, someMatches, bind, Except.bind, pure,
      Except.pure]
  refine ⟨s, t, hs, ht, ?_, hanswer, hpolicy, ?_⟩
  · simp [isContextItemAllowed, hpatterns, hblock, someMatches, bind, Except.bind, pure,
      Except.pure]
  · intro hright
    obtain ⟨path, hpath, -, hallows⟩ :=
      (hright ⟨⟨"file:///a", "a"⟩, some "src/main.js"⟩ (by decide +kernel)).mp ⟨_, hanswer, rfl⟩
    obtain rfl := Option.some.inj hpath
    rw [hpolicy] at hallows
    simp [Policy.Allows, someMatches] at hallows

/-! ## Two runs -/

theorem loaded_of_run {es : List PolicyEvent} {t : DefaultFilePolicyProvider Pattern}
    (hrun : run (step packages folders) new es = some t) :
    t.loaded = (es.filterMap (PolicyEvent.loads packages)).reverse := by
  apply run_trace (I := fun es t => t.loaded = (es.filterMap (PolicyEvent.loads packages)).reverse)
    rfl _ hrun
  intro es s e t hs hstep
  rw [List.filterMap_append, List.reverse_append, ← hs]
  rcases step_loads hstep with ⟨hnone, -, hloaded⟩ | ⟨load, hload, -, -, hloaded⟩
  · simp [hnone, hloaded]
  · simp [hload, hloaded]

theorem lookup_eq_of_filter (folder : WorkspaceFolder)
    (loads : List (WorkspaceFolder × Policy Pattern)) :
    loads.lookup folder =
      ((loads.filter fun load => load.1 = folder).head?).map Prod.snd := by
  induction loads with
  | nil => rfl
  | cons load loads ih =>
    rw [List.lookup_cons, List.filter_cons]
    by_cases hfolder : folder = load.1
    · simp [hfolder]
    · have hne : (folder == load.1) = false := by simpa using hfolder
      have hne' : ¬ load.1 = folder := fun heq => hfolder heq.symm
      simp [hne, hne', ih]

/-- **Noninterference.** Two runs that load the same policies for a folder, in the same order,
answer the same for its items, if nothing goes wrong in either. -/
theorem enables_iff_of_same_loads {es es' : List PolicyEvent}
    {t t' : DefaultFilePolicyProvider Pattern}
    (hrun : run (step packages folders) new es = some t)
    (hrun' : run (step packages folders) new es' = some t')
    (hothers : Guarded (step packages folders) (OthersAgree packages folders) new es)
    (hothers' : Guarded (step packages folders) (OthersAgree packages folders) new es')
    {item : FileMetadata} (hfolder : item.workspaceFolder ∈ folders)
    (hsame : (es.filterMap (PolicyEvent.loads packages)).filter
        (fun load => load.1 = item.workspaceFolder) =
      (es'.filterMap (PolicyEvent.loads packages)).filter
        fun load => load.1 = item.workspaceFolder) :
    t.Enables packages item.relativePath ↔ t'.Enables packages item.relativePath := by
  have hright := ((right_iff_othersAgree hrun).mpr hothers).1 es [] t (by simp) hrun
  have hright' := ((right_iff_othersAgree hrun').mpr hothers').1 es' [] t' (by simp) hrun'
  have hpolicy : t.policyOf item.workspaceFolder = t'.policyOf item.workspaceFolder := by
    unfold policyOf
    rw [loaded_of_run hrun, loaded_of_run hrun', lookup_eq_of_filter, lookup_eq_of_filter,
      List.filter_reverse, List.filter_reverse, hsame]
  rw [hright item hfolder, hright' item hfolder, hpolicy]

end DefaultFilePolicyProvider
end KhulnasoftLsp.AiContext
