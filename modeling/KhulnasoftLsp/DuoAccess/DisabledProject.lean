import KhulnasoftLsp.DuoAccess.DeepestProject

/-!
# Documents in a project that has Duo disabled

A document lies in the project with the longest root folder that contains it. If every response
for this project says that Duo is disabled, the document should count as one of a disabled project
from the first completed call of `updateCache` on. The cache is emptied when the next call starts,
a request that fails counts as enabled, and a root with `.git/config` in it is not recognised:
`disabledOnceCovered_iff` says that nothing else goes wrong.
-/

namespace KhulnasoftLsp.DuoAccess

open Transition

/-! ## The first of the deepest projects -/

theorem deepestBy_map {α β : Type} (f : α → β) (uriOf : β → String) (uri : String)
    (items : List α) :
    deepestBy uriOf uri (items.map f) = (deepestBy (fun a => uriOf (f a)) uri items).map f := by
  have hstep : ∀ (deepest : Option α) (a : α), deeper uriOf uri (deepest.map f) (f a) =
      (deeper (fun a => uriOf (f a)) uri deepest a).map f := by
    intro deepest a
    unfold deeper
    cases deepest <;> grind
  have hfold : ∀ deepest : Option α, (items.map f).foldl (deeper uriOf uri) (deepest.map f) =
      (items.foldl (deeper (fun a => uriOf (f a)) uri) deepest).map f := by
    induction items with
    | nil => exact fun _ => rfl
    | cons a items ih =>
        intro deepest
        rw [List.map_cons, List.foldl_cons, List.foldl_cons, hstep, ih]
  exact hfold none

/-- The loop keeps the first of the longest URIs above the document. -/
theorem deepestBy_split {α : Type} {uriOf : α → String} {uri : String} {items : List α} {d : α}
    (h : deepestBy uriOf uri items = some d) :
    ∃ before after, items = before ++ d :: after ∧
      ∀ b ∈ before, isBelow uri (uriOf b) = true → (uriOf b).length < (uriOf d).length := by
  induction items using List.reverseRecOn with
  | nil => cases h
  | append_singleton items item ih =>
      rw [deepestBy, List.foldl_append, List.foldl_cons, List.foldl_nil, deeper.eq_def] at h
      have hkeep : items.foldl (deeper uriOf uri) none = some d →
          ∃ before after, items ++ [item] = before ++ d :: after ∧
            ∀ b ∈ before, isBelow uri (uriOf b) = true → (uriOf b).length < (uriOf d).length := by
        intro hd
        obtain ⟨before, after, rfl, hbefore⟩ := ih hd
        exact ⟨before, after ++ [item], by simp, hbefore⟩
      split at h
      · cases hd : items.foldl (deeper uriOf uri) none with
        | none =>
            rw [hd] at h
            cases h
            refine ⟨items, [], rfl, ?_⟩
            intro b hb hbelow
            have hmax := deepestBy_eq_argmax uriOf uri items
            rw [deepestBy, hd] at hmax
            have hmem : b ∈ items.filter fun item => isBelow uri (uriOf item) :=
              List.mem_filter.mpr ⟨hb, hbelow⟩
            rw [List.argmax_eq_none.mp hmax.symm] at hmem
            cases hmem
        | some d' =>
            rw [hd] at h
            dsimp only at h
            split at h
            · next hlt =>
              cases h
              refine ⟨items, [], rfl, ?_⟩
              intro b hb hbelow
              have hmax := deepestBy_eq_argmax uriOf uri items
              rw [deepestBy, hd] at hmax
              have hle : (uriOf b).length ≤ (uriOf d').length :=
                List.le_of_mem_argmax (f := fun a => (uriOf a).length)
                  (List.mem_filter.mpr ⟨hb, hbelow⟩) hmax.symm
              omega
            · cases h
              exact hkeep hd
      · exact hkeep h

instance (uri : String) (projects : List DuoProject) (p : DuoProject) :
    Decidable (IsLongestRoot uri projects p) :=
  inferInstanceAs (Decidable (_ ∧ ∀ q ∈ projects, _ → _))

instance (uri : String) (projects : List DuoProject) : Decidable (NameOnlyAtEnd uri projects) :=
  inferInstanceAs (Decidable ((∀ p ∈ projects, _ → _) ∧ ∀ q ∈ projects, _ → _ → ∃ p ∈ projects, _))

namespace WorkspaceCache

/-! ## A document whose project has Duo disabled -/

section Disabled

variable (parse : String → String → Option KhulnaSoftRemote) (uri : String)
  (workspaceFolder : WorkspaceFolder)

/-- A call that was given the workspace folder has filled the cache. -/
def Covered (c : WorkspaceCache) : Prop :=
  ∃ u ∈ c.completed, (u.fetched workspaceFolder.uri).isSome

instance (c : WorkspaceCache) : Decidable (Covered workspaceFolder c) :=
  inferInstanceAs (Decidable (∃ u ∈ c.completed, _))

/-- Once a call has filled the cache for the folder, the document is reported as Duo-disabled. -/
def DisabledOnceCovered (c : WorkspaceCache) : Prop :=
  Covered workspaceFolder c → (c.checkProjectStatus uri workspaceFolder).2 = .DuoDisabled

/-- A property of what the step fetches for the workspace folder, if it fills the cache for it. -/
def OnFetched (p : List FetchedRemote → Prop) (c : WorkspaceCache) : Action → Prop
  | .updateCache _ => True
  | .updateEnds id answers =>
    ∀ u ∈ c.inFlight.find? (·.id = id), ∀ folders ∈ fetchFolders parse u.args answers,
      ∀ fetched ∈ Completed.fetched workspaceFolder.uri ⟨u.id, folders⟩, p fetched

instance {p : List FetchedRemote → Prop} [DecidablePred p] :
    (c : WorkspaceCache) → (a : Action) → Decidable (OnFetched parse workspaceFolder p c a)
  | _, .updateCache _ => isTrue trivial
  | c, .updateEnds id answers =>
    inferInstanceAs (Decidable (∀ u ∈ c.inFlight.find? (·.id = id),
      ∀ folders ∈ fetchFolders parse u.args answers,
        ∀ fetched ∈ Completed.fetched workspaceFolder.uri ⟨u.id, folders⟩, p fetched))

/-- No root that contains the document is longer than that of this result. -/
def IsDeepest (fetched : List FetchedRemote) (f : FetchedRemote) : Prop :=
  IsLongestRoot uri (fetched.map FetchedRemote.project) f.project

instance (fetched : List FetchedRemote) : DecidablePred (IsDeepest uri fetched) := fun f =>
  inferInstanceAs (Decidable (IsLongestRoot uri (fetched.map FetchedRemote.project) f.project))

/-- The document lies in a project, by the root folders of the `.git/config` files found, and no
result for the innermost one says that Duo is enabled. -/
structure InDisabledProject (fetched : List FetchedRemote) : Prop where
  configs : ∀ f ∈ fetched, IsGitConfig f.fileUri
  contained : ∃ f ∈ fetched, RootContains f.fileUri uri
  disabled : ∀ f ∈ fetched, IsDeepest uri fetched f → f.response ≠ .ok (some true)

instance : DecidablePred (InDisabledProject uri) := fun fetched =>
  decidable_of_iff ((∀ f ∈ fetched, IsGitConfig f.fileUri) ∧
      (∃ f ∈ fetched, RootContains f.fileUri uri) ∧
      ∀ f ∈ fetched, IsDeepest uri fetched f → f.response ≠ .ok (some true))
    ⟨fun ⟨h₁, h₂, h₃⟩ => ⟨h₁, h₂, h₃⟩, fun h => ⟨h.configs, h.contained, h.disabled⟩⟩

/-- The request for the project of the document has not failed. A `.git/config` file may have
several remotes, and the first one stands for the project. -/
def ProjectFetched (fetched : List FetchedRemote) : Prop :=
  ∀ f ∈ fetched.find? (IsDeepest uri fetched), f.response ≠ .error ()

instance : DecidablePred (ProjectFetched uri) := fun fetched =>
  inferInstanceAs (Decidable (∀ f ∈ fetched.find? _, _))

/-- The document begins with what is left of the URI of the file when the name is cut out, and no
file of which it does so has a longer URI. -/
def IsLongestCut (fetched : List FetchedRemote) (f : FetchedRemote) : Prop :=
  isBelow uri f.fileUri = true ∧ ∀ g ∈ fetched, isBelow uri g.fileUri = true →
    g.fileUri.length ≤ f.fileUri.length

instance (fetched : List FetchedRemote) : DecidablePred (IsLongestCut uri fetched) := fun f =>
  inferInstanceAs (Decidable (_ ∧ ∀ g ∈ fetched, _ → _))

/-- There is a project that the document is mistaken to lie in, and it is disabled as well. -/
def MistakenForDisabled (fetched : List FetchedRemote) : Prop :=
  ∃ f ∈ fetched.find? (IsLongestCut uri fetched),
    f.response ≠ .error () ∧ f.response ≠ .ok (some true)

instance : DecidablePred (MistakenForDisabled uri) := fun fetched =>
  inferInstanceAs (Decidable (∃ f ∈ fetched.find? _, _))

/-- No root with the name `.git/config` in it matters, and the request for the project has not
failed. Where such a root does matter, the document is mistaken for one of another project, and it
takes chance that this one is disabled as well. -/
def Recognised (fetched : List FetchedRemote) : Prop :=
  if NameOnlyAtEnd uri (fetched.map FetchedRemote.project) then ProjectFetched uri fetched
  else MistakenForDisabled uri fetched

instance : DecidablePred (Recognised uri) := fun fetched => by
  unfold Recognised
  split <;> infer_instance

/-- No call starts once the cache has been filled for the folder, and when a call fills it, the
project of the document is recognised and its request has not failed. -/
def FilledOnce (c : WorkspaceCache) (a : Action) : Prop :=
  (∀ args, a = .updateCache args → ¬ Covered workspaceFolder c) ∧
    OnFetched parse workspaceFolder (Recognised uri) c a

instance : (c : WorkspaceCache) → (a : Action) →
    Decidable (FilledOnce parse uri workspaceFolder c a)
  | c, .updateCache args =>
    decidable_of_iff (¬ Covered workspaceFolder c) (by simp [FilledOnce, OnFetched])
  | c, .updateEnds id answers =>
    decidable_of_iff (OnFetched parse workspaceFolder (Recognised uri) c
      (.updateEnds id answers)) (by simp [FilledOnce])

theorem findDeepestProjectByPath_map (fetched : List FetchedRemote) :
    findDeepestProjectByPath uri (fetched.map FetchedRemote.project) =
      (deepestBy FetchedRemote.fileUri uri fetched).map FetchedRemote.project :=
  deepestBy_map _ _ _ _

theorem checkDuoFeaturesEnabled_eq_false_iff {response : DuoFeaturesResponse} :
    checkDuoFeaturesEnabled response = false ↔
      response ≠ .error () ∧ response ≠ .ok (some true) := by
  cases response with
  | error e => simp [checkDuoFeaturesEnabled]
  | ok duoFeaturesEnabled => cases duoFeaturesEnabled <;> simp [checkDuoFeaturesEnabled]

theorem projectStatus_eq_disabled_iff {fetched : List FetchedRemote} :
    (projectStatus uri (fetched.map FetchedRemote.project)).2 = .DuoDisabled ↔
      ∃ f ∈ deepestBy FetchedRemote.fileUri uri fetched,
        f.response ≠ .error () ∧ f.response ≠ .ok (some true) := by
  rw [projectStatus_eq, findDeepestProjectByPath_map]
  cases hd : deepestBy FetchedRemote.fileUri uri fetched with
  | none => simp
  | some f =>
      simp only [Option.mem_def, Option.some.injEq, exists_eq_left',
        ← checkDuoFeaturesEnabled_eq_false_iff]
      show (if checkDuoFeaturesEnabled f.response then _ else _) = _ ↔ _
      cases checkDuoFeaturesEnabled f.response <;> simp

theorem find?_isLongestCut (fetched : List FetchedRemote) :
    fetched.find? (IsLongestCut uri fetched) = deepestBy FetchedRemote.fileUri uri fetched := by
  have hmax := deepestBy_eq_argmax FetchedRemote.fileUri uri fetched
  cases hd : deepestBy FetchedRemote.fileUri uri fetched with
  | none =>
      rw [hd] at hmax
      apply List.find?_eq_none.mpr
      intro f hf hcut
      have hmem : f ∈ fetched.filter fun f => isBelow uri f.fileUri :=
        List.mem_filter.mpr ⟨hf, (of_decide_eq_true hcut).1⟩
      rw [List.argmax_eq_none.mp hmax.symm] at hmem
      cases hmem
  | some d =>
      rw [hd] at hmax
      have hbelow := (List.mem_filter.mp (List.argmax_mem hmax.symm)).2
      have hcut : IsLongestCut uri fetched d := by
        refine ⟨hbelow, ?_⟩
        intro g hg hgbelow
        exact List.le_of_mem_argmax (f := fun g : FetchedRemote => g.fileUri.length)
          (List.mem_filter.mpr ⟨hg, hgbelow⟩) hmax.symm
      obtain ⟨before, after, hsplit, hbefore⟩ := deepestBy_split hd
      refine List.find?_eq_some_iff_append.mpr
        ⟨decide_eq_true hcut, before, after, hsplit, ?_⟩
      intro b hb
      rw [Bool.not_eq_true', decide_eq_false_iff_not]
      intro hbcut
      have hlt := hbefore b hb hbcut.1
      have hle := hbcut.2 d (by simp [hsplit]) hbelow
      omega

/-- Where no root with the name in it matters, the document is matched to the first of the results
for its innermost project. -/
theorem find?_isDeepest {fetched : List FetchedRemote} (h : InDisabledProject uri fetched)
    (hname : NameOnlyAtEnd uri (fetched.map FetchedRemote.project)) :
    ∃ f ∈ fetched, IsDeepest uri fetched f ∧
      deepestBy FetchedRemote.fileUri uri fetched = some f ∧
      fetched.find? (IsDeepest uri fetched) = some f := by
  have hconfigs : ∀ p ∈ fetched.map FetchedRemote.project, IsGitConfig p.uri := by
    intro p hp
    obtain ⟨f, hf, rfl⟩ := List.mem_map.mp hp
    exact h.configs f hf
  have hnames := namesDeepest_of_nameOnlyAtEnd hconfigs hname
  rw [projectStatus_eq, findDeepestProjectByPath_map] at hnames
  cases hd : deepestBy FetchedRemote.fileUri uri fetched with
  | none =>
      rw [hd] at hnames
      obtain ⟨f, hf, hcontains⟩ := h.contained
      exact absurd hcontains (hnames.1 f.project (List.mem_map_of_mem hf))
  | some f =>
      rw [hd] at hnames
      have hdeepest : IsDeepest uri fetched f := hnames.1.2
      obtain ⟨before, after, hsplit, hbefore⟩ := deepestBy_split hd
      have hf : f ∈ fetched := by simp [hsplit]
      refine ⟨f, hf, hdeepest, rfl, List.find?_eq_some_iff_append.mpr
        ⟨decide_eq_true hdeepest, before, after, hsplit, ?_⟩⟩
      intro b hb
      rw [Bool.not_eq_true', decide_eq_false_iff_not]
      intro hdeep
      have hbmem : b ∈ fetched := by simp [hsplit, hb]
      -- two innermost roots are equally long, and so are the files that they are found by
      have hbelow := (isBelow_iff_of_root (h.configs b hbmem)
        (hname.1 b.project (List.mem_map_of_mem hbmem) hdeep)).mpr hdeep.1
      have hlt := hbefore b hb hbelow
      have hle := hdeep.2 f.project (List.mem_map_of_mem hf) hdeepest.1
      rw [(h.configs b hbmem).length_eq, (h.configs f hf).length_eq] at hlt
      exact absurd hle (Nat.not_le.mpr (Nat.lt_of_add_lt_add_right hlt))

/-- The status of a document in a disabled project. -/
theorem projectStatus_of_disabled {fetched : List FetchedRemote}
    (h : InDisabledProject uri fetched) :
    (projectStatus uri (fetched.map FetchedRemote.project)).2 = .DuoDisabled ↔
      Recognised uri fetched := by
  rw [projectStatus_eq_disabled_iff, Recognised]
  split
  · next hname =>
    obtain ⟨f, hf, hdeepest, hmatched, hfirst⟩ := find?_isDeepest uri h hname
    have hresponse := h.disabled f hf hdeepest
    simp [ProjectFetched, hmatched, hfirst, hresponse]
  · rw [MistakenForDisabled, find?_isLongestCut]

/-- The empty cache knows no project. -/
theorem checkProjectStatus_updateCache (args : UpdateArgs) (c : WorkspaceCache) :
    ((c.updateCache args).checkProjectStatus uri workspaceFolder).2 = .NonGitlabProject := rfl

theorem disabledOnceCovered_step {c c' : WorkspaceCache} {a : Action}
    (hc : DisabledOnceCovered uri workspaceFolder c)
    (hdisabled : OnFetched parse workspaceFolder (InDisabledProject uri) c a)
    (h : step parse c a = some c') :
    DisabledOnceCovered uri workspaceFolder c' ↔ FilledOnce parse uri workspaceFolder c a := by
  rcases step_cases parse h with ⟨args, rfl, rfl⟩ | ⟨u, answers, -, rfl, hu, rfl⟩
  · have hsame : Covered workspaceFolder (c.updateCache args) ↔ Covered workspaceFolder c := Iff.rfl
    simp [DisabledOnceCovered, FilledOnce, OnFetched, checkProjectStatus_updateCache, hsame]
  · cases hfolders : fetchFolders parse u.args answers with
    | none =>
        have hsame : DisabledOnceCovered uri workspaceFolder (c.updateEnds u none) := hc
        simp [FilledOnce, OnFetched, hu, hfolders, hsame]
    | some folders =>
        have hget := get_updateEnds u folders c workspaceFolder.uri
        have hcovered : Covered workspaceFolder (c.updateEnds u (some folders)) ↔
            Covered workspaceFolder c ∨
              (Completed.fetched workspaceFolder.uri ⟨u.id, folders⟩).isSome := by
          simp [Covered, updateEnds, or_and_right, exists_or]
        have hstatus : ∀ c : WorkspaceCache, (c.checkProjectStatus uri workspaceFolder).2 =
            (projectStatus uri ((c.duoProjects.get workspaceFolder.uri).getD [])).2 :=
          fun _ => rfl
        cases hfetched : Completed.fetched workspaceFolder.uri ⟨u.id, folders⟩ with
        | none =>
            rw [hfetched] at hget hcovered
            have hsame : DisabledOnceCovered uri workspaceFolder
                (c.updateEnds u (some folders)) := by
              intro hcov
              rw [hstatus, hget]
              apply hc
              simpa using hcovered.mp hcov
            simp [FilledOnce, OnFetched, hu, hfolders, hfetched, hsame]
        | some fetched =>
            rw [hfetched] at hget hcovered
            have hin : InDisabledProject uri fetched :=
              hdisabled u hu folders hfolders fetched hfetched
            have hfilled : FilledOnce parse uri workspaceFolder c (.updateEnds u.id answers) ↔
                Recognised uri fetched := by
              simp [FilledOnce, OnFetched, hu, hfolders, hfetched]
            rw [hfilled, ← projectStatus_of_disabled uri hin, DisabledOnceCovered, hstatus, hget]
            simp [hcovered]

/-- **What the cache keeps of a disabled project.** If a document lies in a project of which no
result of any call says that Duo is enabled, it is reported as Duo-disabled in every state from the
first completed call on if and only if no further call starts from then on, and each call that
completes recognises the project and has had no failed request for it. -/
theorem disabledOnceCovered_iff (as : List Action) (c : WorkspaceCache)
    (hrun : run (step parse) new as = some c)
    (hdisabled : Guarded (step parse) (OnFetched parse workspaceFolder (InDisabledProject uri))
      new as) :
    Always (step parse) (DisabledOnceCovered uri workspaceFolder) new as ↔
      Guarded (step parse) (FilledOnce parse uri workspaceFolder) new as := by
  have hnew : DisabledOnceCovered uri workspaceFolder new := by
    rintro ⟨u, hu, -⟩
    cases hu
  apply always_iff_guarded_of_guarded (I := fun _ => True) _ _ trivial hnew hdisabled hrun
  · exact fun _ _ _ _ _ _ _ _ => trivial
  · exact fun _ _ _ _ hc hgiven h => disabledOnceCovered_step parse uri workspaceFolder hc hgiven h

end Disabled

/-- One call, and no other after it. -/
theorem disabledOnceCovered_of_one_call :
    Always (step sampleParse) (DisabledOnceCovered "file:///a/x.ts" ⟨"file:///a", "a"⟩) new
      [.updateCache (sampleArgs "file:///a"),
        .updateEnds 0 (sampleAnswers "file:///a" (.ok (some false)))] := by
  obtain ⟨c, hc⟩ : ∃ c, run (step sampleParse) new [.updateCache (sampleArgs "file:///a"),
      .updateEnds 0 (sampleAnswers "file:///a" (.ok (some false)))] = some c :=
    Option.isSome_iff_exists.mp (by decide +kernel)
  apply (disabledOnceCovered_iff sampleParse "file:///a/x.ts" ⟨"file:///a", "a"⟩ _ c hc
    (by decide +kernel)).mpr
  decide +kernel

/-- While the next call is under way, the document counts as one outside of any project. -/
theorem not_disabledOnceCovered_of_next_call :
    Guarded (step sampleParse) (OnFetched sampleParse ⟨"file:///a", "a"⟩
        (InDisabledProject "file:///a/x.ts")) new
        [.updateCache (sampleArgs "file:///a"),
          .updateEnds 0 (sampleAnswers "file:///a" (.ok (some false))),
          .updateCache (sampleArgs "file:///a")] ∧
      ¬ Always (step sampleParse) (DisabledOnceCovered "file:///a/x.ts" ⟨"file:///a", "a"⟩) new
        [.updateCache (sampleArgs "file:///a"),
          .updateEnds 0 (sampleAnswers "file:///a" (.ok (some false))),
          .updateCache (sampleArgs "file:///a")] := by
  refine ⟨by decide +kernel, ?_⟩
  intro h
  obtain ⟨c, hc⟩ : ∃ c, run (step sampleParse) new [.updateCache (sampleArgs "file:///a"),
      .updateEnds 0 (sampleAnswers "file:///a" (.ok (some false))),
      .updateCache (sampleArgs "file:///a")] = some c :=
    Option.isSome_iff_exists.mp (by decide +kernel)
  have hstate : ∀ c ∈ run (step sampleParse) new [.updateCache (sampleArgs "file:///a"),
      .updateEnds 0 (sampleAnswers "file:///a" (.ok (some false))),
      .updateCache (sampleArgs "file:///a")],
      Covered ⟨"file:///a", "a"⟩ c ∧ (c.checkProjectStatus "file:///a/x.ts"
        ⟨"file:///a", "a"⟩).2 = .NonGitlabProject := by
    decide +kernel
  have hdisabled := h _ [] c rfl hc (hstate c hc).1
  rw [(hstate c hc).2] at hdisabled
  cases hdisabled

end WorkspaceCache
end KhulnasoftLsp.DuoAccess
