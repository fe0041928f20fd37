import KhulnasoftLsp.AiContext.Provider
import Mathlib.Data.List.Basic

/-!
# The context manager

The manager hands each request to the providers that were available when it last asked them. It
clears the items of those alone: what a provider holds that is not available then is left, and is
returned again once the provider is available. For each selected item there is kept here how many
clears the manager had made, so that `returned` says which items are older than the last one.
-/

namespace KhulnasoftLsp.AiContext

open Transition

inductive AIContextCategory where
  | file
  | snippet
  | issue
  | mergeRequest
  | dependency
  | localGit
  deriving DecidableEq, Repr

def AIContextMapping : List (AIContextCategory × List AIContextProviderType) :=
  [(.file, [.openTab, .localFileSearch]), (.snippet, [.snippet]), (.issue, [.issue]),
    (.mergeRequest, [.mergeRequest]), (.dependency, [.dependency]), (.localGit, [.localGit])]

/-- A provider of the manager. -/
structure ManagedProvider where
  provider : AIContextProvider
  /-- How many clears there had been when each of the items was selected. -/
  selectedAt : List Nat
  /-- A clear has left some of the items. -/
  skipped : Bool
  deriving DecidableEq, Repr

/-- `featureType` of an `AIRequest` -/
inductive AIRequestFeatureType where
  | codeSuggestions
  | duoChat
  deriving DecidableEq, Repr

structure DefaultAIContextManager where
  providers : List ManagedProvider
  /-- Places in `providers` -/
  availableProviders : List Nat
  clears : Nat
  deriving DecidableEq, Repr

inductive ManagerAction where
  | addSelectedContextItem (contextItem : AIContextItem)
  | policyAnswers (provider call : Nat) (answer : AIContextPolicyResponse)
  | policyRejects (provider call : Nat)
  | removeSelectedContextItem (contextItem : AIContextItem)
  /-- What `isAvailable` of each provider answers, unless its promise rejects. -/
  | getAvailableCategories (isInstanceFlagEnabled : Bool) (isAvailable : List (Option Bool))
  | clearSelectedContextItems
  deriving DecidableEq, Repr

namespace ManagedProvider

def new (type : AIContextProviderType) (canItemBeAdded : Bool) : ManagedProvider where
  provider := AIContextProvider.new type canItemBeAdded
  selectedAt := []
  skipped := false

/-- What an action of the provider does to the numbers of clears. -/
def selectedAtAfter (clears : Nat) (a : Action) (p : ManagedProvider) : List Nat :=
  match a with
  | .removeSelectedContextItem id =>
    match p.provider.findItemIndex id with
    | .ok index => p.selectedAt.eraseIdx index
    | .error _ => p.selectedAt
  | .clearSelectedContextItems => []
  | a => p.selectedAt ++ (p.provider.selects a).map fun _ => clears

def step (clears : Nat) (p : ManagedProvider) (a : Action) : Option ManagedProvider :=
  (p.provider.step a).map fun provider =>
    { p with provider, selectedAt := p.selectedAtAfter clears a }

def clear (p : ManagedProvider) : ManagedProvider :=
  { p with provider := p.provider.clearSelectedContextItems, selectedAt := [] }

/-- The provider is not available when the manager is cleared. -/
def skip (p : ManagedProvider) : ManagedProvider :=
  { p with skipped := p.skipped || !p.provider.selectedContextItems.isEmpty }

def returned (p : ManagedProvider) : List (AIContextItem × Nat) :=
  p.provider.getSelectedContextItems.zip p.selectedAt

end ManagedProvider

namespace DefaultAIContextManager

def new (providers : List (AIContextProviderType × Bool)) : DefaultAIContextManager where
  providers := providers.map fun p => ManagedProvider.new p.1 p.2
  availableProviders := []
  clears := 0

/-- The providers that are available. -/
def available (s : DefaultAIContextManager) : List ManagedProvider :=
  s.availableProviders.filterMap (s.providers[·]?)

/-- The place of the provider, if there is one that is available. -/
def getProvider (subType : AIContextProviderType) (s : DefaultAIContextManager) : Option Nat :=
  s.availableProviders.find? fun i =>
    s.providers[i]?.any fun p => decide (p.provider.type = subType)

/-- An action of one provider. -/
def stepProvider (i : Nat) (a : Action) (s : DefaultAIContextManager) :
    Option DefaultAIContextManager :=
  s.providers[i]?.bind fun p =>
    (p.step s.clears a).map fun p => { s with providers := s.providers.set i p }

def getSelectedContextItems (s : DefaultAIContextManager) : List AIContextItem :=
  s.available.flatMap fun p => p.provider.getSelectedContextItems

/-- Given what `getItemWithContent` returns for an item and how it is transformed. -/
def retrieveContextItemsWithContent (featureType : AIRequestFeatureType)
    (getItemWithContent transformItemContent : AIContextItem → AIContextItem)
    (s : DefaultAIContextManager) : Except String (List AIContextItem) :=
  if featureType = .codeSuggestions then .error "Code suggestions are not supported"
  else .ok ((s.available.flatMap fun p =>
    p.provider.retrieveSelectedContextItemsWithContent getItemWithContent).map
      transformItemContent)

/-- The categories that `getAvailableCategories` returns. -/
def availableCategories (s : DefaultAIContextManager) : List AIContextCategory :=
  s.available.filterMap fun p =>
    (AIContextMapping.find? fun category => category.2.contains p.provider.type).map Prod.fst

def clearSelectedContextItems (s : DefaultAIContextManager) : DefaultAIContextManager :=
  { s with
    providers := s.providers.mapIdx fun i p =>
      if i ∈ s.availableProviders then p.clear else p.skip
    clears := s.clears + 1 }

def step (s : DefaultAIContextManager) : ManagerAction → Option DefaultAIContextManager
  | .addSelectedContextItem contextItem =>
    match s.getProvider contextItem.metadata.subType with
    | some i => s.stepProvider i (.addSelectedContextItem contextItem)
    | none => some s
  | .policyAnswers i call answer => s.stepProvider i (.policyAnswers call answer)
  | .policyRejects i call => s.stepProvider i (.policyRejects call)
  | .removeSelectedContextItem contextItem =>
    match s.getProvider contextItem.metadata.subType with
    | some i => s.stepProvider i (.removeSelectedContextItem contextItem.id)
    | none => some s
  | .getAvailableCategories isInstanceFlagEnabled isAvailable =>
    if isAvailable.length ≠ s.providers.length then none
    else if isInstanceFlagEnabled && isAvailable.all Option.isSome then
      some { s with
        availableProviders := (List.range s.providers.length).filter fun i =>
          isAvailable[i]? == some (some true) }
    else some s
  | .clearSelectedContextItems => some s.clearSelectedContextItems

/-- The items that are returned, with how many clears there had been when each was selected. -/
def returned (s : DefaultAIContextManager) : List (AIContextItem × Nat) :=
  s.available.flatMap ManagedProvider.returned

/-- No item is returned that was selected before the last clear. -/
structure Forgets (s : DefaultAIContextManager) : Prop where
  returned : ∀ item ∈ s.returned, item.2 = s.clears
  getSelectedContextItems : s.getSelectedContextItems = s.returned.map Prod.fst
  retrieveContextItemsWithContent : ∀ featureType getItemWithContent transformItemContent items,
    s.retrieveContextItemsWithContent featureType getItemWithContent transformItemContent =
      .ok items → items = s.returned.map fun item =>
        transformItemContent (getItemWithContent item.1)

/-- No provider becomes available of which a clear has left some items. -/
def RestoresNone (s : DefaultAIContextManager) : ManagerAction → Prop
  | .getAvailableCategories isInstanceFlagEnabled isAvailable =>
    isInstanceFlagEnabled = true → isAvailable.all Option.isSome = true →
      ∀ (i : Nat) (p : ManagedProvider), isAvailable[i]? = some (some true) →
        s.providers[i]? = some p → p.skipped = false
  | _ => True

end DefaultAIContextManager

/-! ## One provider -/

namespace ManagedProvider

/-- It is known of each item how many clears there had been, and an item is older than the last
clear exactly when a clear has left some. -/
structure Sound (clears : Nat) (p : ManagedProvider) : Prop where
  parallel : p.selectedAt.length = p.provider.selectedContextItems.length
  le : ∀ n ∈ p.selectedAt, n ≤ clears
  skipped : p.skipped = true ↔ ∃ n ∈ p.selectedAt, n ≠ clears

variable {clears : Nat} {p q : ManagedProvider}

theorem sound_new (type : AIContextProviderType) (canItemBeAdded : Bool) :
    (new type canItemBeAdded).Sound clears where
  parallel := rfl
  le := nofun
  skipped := by
    constructor
    · exact nofun
    · rintro ⟨n, hn, -⟩
      cases hn

theorem Sound.current (h : p.Sound clears) (hskipped : p.skipped = false) :
    ∀ n ∈ p.selectedAt, n = clears := by
  intro n hn
  by_contra hne
  rw [h.skipped.mpr ⟨n, hn, hne⟩] at hskipped
  cases hskipped

/-- What is selected by a step is as new as the last clear. -/
theorem Sound.select (h : p.Sound clears) {selected : List SelectedItem}
    (hskipped : q.skipped = p.skipped)
    (hitems : q.provider.selectedContextItems = p.provider.selectedContextItems ++ selected)
    (hselectedAt : q.selectedAt = p.selectedAt ++ selected.map fun _ => clears) :
    q.Sound clears := by
  have hnew : ∀ n ∈ selected.map (fun _ => clears), n = clears := by
    intro n hn
    obtain ⟨item, -, rfl⟩ := List.mem_map.mp hn
    rfl
  refine ⟨?_, ?_, ?_⟩
  · rw [hselectedAt, hitems, List.length_append, List.length_append, List.length_map, h.parallel]
  · intro n hn
    rw [hselectedAt, List.mem_append] at hn
    rcases hn with hn | hn
    · exact h.le n hn
    · exact Nat.le_of_eq (hnew n hn)
  · rw [hskipped, h.skipped, hselectedAt]
    constructor
    · rintro ⟨n, hn, hne⟩
      exact ⟨n, List.mem_append_left _ hn, hne⟩
    · rintro ⟨n, hn, hne⟩
      exact ⟨n, (List.mem_append.mp hn).resolve_right fun hn => hne (hnew n hn), hne⟩

/-- What is left of items that are all as new as the last clear. -/
theorem Sound.of_sublist (h : p.Sound clears) (hp : p.skipped = false)
    (hskipped : q.skipped = p.skipped) (hselectedAt : q.selectedAt.Sublist p.selectedAt)
    (hparallel : q.selectedAt.length = q.provider.selectedContextItems.length) :
    q.Sound clears where
  parallel := hparallel
  le := fun n hn => h.le n (hselectedAt.subset hn)
  skipped := by
    rw [hskipped, hp]
    constructor
    · exact nofun
    · rintro ⟨n, hn, hne⟩
      exact absurd (h.current hp n (hselectedAt.subset hn)) hne

/-- An action of the manager on one provider: items are removed only from one that is available. -/
def Allowed (p : ManagedProvider) : Action → Prop
  | .removeSelectedContextItem _ => p.skipped = false
  | .clearSelectedContextItems => False
  | _ => True

theorem Sound.step {a : Action} (h : p.Sound clears) (ha : p.Allowed a)
    (hstep : p.step clears a = some q) : q.Sound clears ∧ q.skipped = p.skipped := by
  obtain ⟨provider, hprovider, rfl⟩ := Option.map_eq_some_iff.mp hstep
  refine ⟨?_, rfl⟩
  cases a with
  | addSelectedContextItem contextItem =>
    cases hprovider
    exact h.select rfl (List.append_nil _).symm rfl
  | policyAnswers call answer =>
    exact h.select rfl (AIContextProvider.selectedContextItems_policyAnswers hprovider) rfl
  | policyRejects call =>
    obtain ⟨-, hrejected⟩ := Option.ite_none_right_eq_some.mp hprovider
    cases hrejected
    exact h.select rfl (List.append_nil _).symm rfl
  | removeSelectedContextItem id =>
    have hparallel := h.parallel
    rcases AIContextProvider.selectedContextItems_remove hprovider with
      ⟨index, hindex, hitems⟩ | ⟨error, hindex, hitems⟩
    · have hselectedAt : p.selectedAtAfter clears (.removeSelectedContextItem id) =
          p.selectedAt.eraseIdx index := by
        rw [selectedAtAfter]
        simp only [hindex]
      refine h.of_sublist ha ?_ ?_ ?_
      · rfl
      · rw [hselectedAt]
        exact List.eraseIdx_sublist _ _
      · rw [hselectedAt, hitems, List.length_eraseIdx, List.length_eraseIdx, hparallel]
    · have hselectedAt : p.selectedAtAfter clears (.removeSelectedContextItem id) =
          p.selectedAt := by
        rw [selectedAtAfter]
        simp only [hindex]
      refine h.of_sublist ha ?_ ?_ ?_
      · rfl
      · rw [hselectedAt]
      · rw [hselectedAt, hitems, hparallel]
  | clearSelectedContextItems => exact ha.elim

theorem sound_clear (hskipped : p.skipped = false) : p.clear.Sound clears where
  parallel := by
    show 0 = p.provider.clearSelectedContextItems.selectedContextItems.length
    rw [AIContextProvider.selectedContextItems_clear]
    rfl
  le := nofun
  skipped := by
    show p.skipped = true ↔ _
    rw [hskipped]
    constructor
    · exact nofun
    · rintro ⟨n, hn, -⟩
      cases hn

/-- All that the provider holds is older than the clear. -/
theorem Sound.skip (h : p.Sound clears) : p.skip.Sound (clears + 1) where
  parallel := h.parallel
  le := fun n hn => Nat.le_succ_of_le (h.le n hn)
  skipped := by
    have hempty : p.provider.selectedContextItems.isEmpty = p.selectedAt.isEmpty := by
      rw [Bool.eq_iff_iff, List.isEmpty_iff_length_eq_zero, List.isEmpty_iff_length_eq_zero,
        h.parallel]
    show (p.skipped || !p.provider.selectedContextItems.isEmpty) = true ↔
      ∃ n ∈ p.selectedAt, n ≠ clears + 1
    rw [hempty, Bool.or_eq_true, h.skipped]
    constructor
    · rintro (⟨n, hn, -⟩ | hnonempty)
      · exact ⟨n, hn, Nat.ne_of_lt (Nat.lt_succ_of_le (h.le n hn))⟩
      · cases hselectedAt : p.selectedAt with
        | nil =>
          rw [hselectedAt] at hnonempty
          cases hnonempty
        | cons n rest =>
          have hn : n ∈ p.selectedAt := by
            rw [hselectedAt]
            exact List.mem_cons_self
          exact ⟨n, List.mem_cons_self, Nat.ne_of_lt (Nat.lt_succ_of_le (h.le n hn))⟩
    · rintro ⟨n, hn, -⟩
      right
      rw [List.isEmpty_eq_false_iff_exists_mem.mpr ⟨n, hn⟩]
      rfl

theorem Sound.map_fst_returned (h : p.Sound clears) :
    p.returned.map Prod.fst = p.provider.getSelectedContextItems := by
  apply List.map_fst_zip
  rw [AIContextProvider.getSelectedContextItems, List.length_map]
  exact Nat.le_of_eq h.parallel.symm

theorem Sound.map_snd_returned (h : p.Sound clears) :
    p.returned.map Prod.snd = p.selectedAt := by
  apply List.map_snd_zip
  rw [AIContextProvider.getSelectedContextItems, List.length_map]
  exact Nat.le_of_eq h.parallel

theorem Sound.returned_iff (h : p.Sound clears) :
    (∀ item ∈ p.returned, item.2 = clears) ↔ p.skipped = false := by
  rw [Bool.eq_false_iff, ne_eq, h.skipped, ← h.map_snd_returned]
  push Not
  rw [List.forall_mem_map]

end ManagedProvider

/-! ## All providers -/

namespace DefaultAIContextManager

variable {s t : DefaultAIContextManager}

def Sound (s : DefaultAIContextManager) : Prop := ∀ p ∈ s.providers, p.Sound s.clears

def NoneSkipped (s : DefaultAIContextManager) : Prop := ∀ p ∈ s.available, p.skipped = false

theorem mem_available {p : ManagedProvider} :
    p ∈ s.available ↔ ∃ i ∈ s.availableProviders, s.providers[i]? = some p :=
  List.mem_filterMap

theorem Sound.of_available (h : s.Sound) {p : ManagedProvider} (hp : p ∈ s.available) :
    p.Sound s.clears := by
  obtain ⟨i, -, hi⟩ := mem_available.mp hp
  exact h p (List.mem_of_getElem? hi)

/-- Every category is that of a provider. -/
theorem length_availableCategories : s.availableCategories.length = s.available.length := by
  rw [availableCategories, List.length_filterMap_eq_countP, List.countP_eq_length]
  intro p _
  cases p.provider.type <;> rfl

theorem Sound.map_fst_returned (h : s.Sound) :
    s.returned.map Prod.fst = s.getSelectedContextItems := by
  rw [returned, getSelectedContextItems, List.map_flatMap]
  apply List.flatMap_congr
  intro p hp
  exact (h.of_available hp).map_fst_returned

theorem Sound.forgets_iff (h : s.Sound) : s.Forgets ↔ s.NoneSkipped := by
  constructor
  · intro hforgets p hp
    rw [← (h.of_available hp).returned_iff]
    intro item hitem
    exact hforgets.returned item (List.mem_flatMap.mpr ⟨p, hp, hitem⟩)
  · intro hskipped
    refine ⟨?_, h.map_fst_returned.symm, ?_⟩
    · intro item hitem
      obtain ⟨p, hp, hitem⟩ := List.mem_flatMap.mp hitem
      exact (h.of_available hp).returned_iff.mpr (hskipped p hp) item hitem
    · intro featureType getItemWithContent transformItemContent items hitems
      rw [retrieveContextItemsWithContent] at hitems
      split at hitems
      · cases hitems
      · cases hitems
        have hselected : (s.available.flatMap fun p =>
            p.provider.retrieveSelectedContextItemsWithContent getItemWithContent) =
            s.getSelectedContextItems.map getItemWithContent := by
          rw [getSelectedContextItems, List.map_flatMap]
          rfl
        rw [hselected, ← h.map_fst_returned, List.map_map, List.map_map]
        rfl

/-! ### Steps -/

/-- An action of one provider, which may remove items only if that is available. -/
theorem Sound.stepProvider {i : Nat} {a : Action} (h : s.Sound)
    (ha : ∀ p, s.providers[i]? = some p → p.Allowed a) (hstep : s.stepProvider i a = some t) :
    t.Sound ∧ (s.NoneSkipped → t.NoneSkipped) := by
  obtain ⟨p, hi, hp⟩ := Option.bind_eq_some_iff.mp hstep
  obtain ⟨q, hq, rfl⟩ := Option.map_eq_some_iff.mp hp
  obtain ⟨hsound, hskipped⟩ := (h p (List.mem_of_getElem? hi)).step (ha p hi) hq
  constructor
  · intro r hr
    rcases List.mem_or_eq_of_mem_set hr with hr | rfl
    · exact h r hr
    · exact hsound
  · intro hnone r hr
    obtain ⟨j, hj, hr⟩ := mem_available.mp hr
    by_cases hij : i = j
    · subst hij
      have hr : (s.providers.set i q)[i]? = some r := hr
      obtain ⟨hlt, -⟩ := List.getElem?_eq_some_iff.mp hi
      rw [List.getElem?_set_self hlt, Option.some.injEq] at hr
      rw [← hr, hskipped]
      exact hnone p (mem_available.mpr ⟨i, hj, hi⟩)
    · have hr : (s.providers.set i q)[j]? = some r := hr
      rw [List.getElem?_set_ne hij] at hr
      exact hnone r (mem_available.mpr ⟨j, hj, hr⟩)

theorem Sound.clearSelectedContextItems (h : s.Sound) (hnone : s.NoneSkipped) :
    s.clearSelectedContextItems.Sound ∧ s.clearSelectedContextItems.NoneSkipped := by
  have hget : ∀ {i : Nat} {p : ManagedProvider},
      s.clearSelectedContextItems.providers[i]? = some p →
      ∃ q, s.providers[i]? = some q ∧
        (if i ∈ s.availableProviders then q.clear else q.skip) = p := by
    intro i p hp
    have hp : (s.providers.mapIdx _)[i]? = some p := hp
    rw [List.getElem?_mapIdx, Option.map_eq_some_iff] at hp
    exact hp
  constructor
  · intro p hp
    obtain ⟨i, hi⟩ := List.mem_iff_getElem?.mp hp
    obtain ⟨q, hq, rfl⟩ := hget hi
    split
    · next havailable =>
      exact ManagedProvider.sound_clear (hnone q (mem_available.mpr ⟨i, havailable, hq⟩))
    · exact (h q (List.mem_of_getElem? hq)).skip
  · intro p hp
    obtain ⟨i, havailable, hi⟩ := mem_available.mp hp
    obtain ⟨q, hq, rfl⟩ := hget hi
    have havailable : i ∈ s.availableProviders := havailable
    rw [if_pos havailable]
    exact hnone q (mem_available.mpr ⟨i, havailable, hq⟩)

/-- An item is removed only from a provider that is available. -/
theorem allowed_of_getProvider {subType : AIContextProviderType} {i : Nat} (hnone : s.NoneSkipped)
    (hi : s.getProvider subType = some i) {p : ManagedProvider} (hp : s.providers[i]? = some p)
    (id : String) : p.Allowed (.removeSelectedContextItem id) :=
  hnone p (mem_available.mpr ⟨i, List.mem_of_find?_eq_some hi, hp⟩)

theorem Sound.getAvailableCategories {isInstanceFlagEnabled : Bool}
    {isAvailable : List (Option Bool)} (h : s.Sound) (hnone : s.NoneSkipped)
    (hstep : s.step (.getAvailableCategories isInstanceFlagEnabled isAvailable) = some t) :
    t.Sound ∧ (t.NoneSkipped ↔
      s.RestoresNone (.getAvailableCategories isInstanceFlagEnabled isAvailable)) := by
  obtain ⟨hlength, hanswered⟩ := Option.ite_none_left_eq_some.mp hstep
  rw [not_not] at hlength
  split at hanswered
  · next hall =>
    cases hanswered
    rw [Bool.and_eq_true] at hall
    refine ⟨h, ?_⟩
    rw [RestoresNone, imp_iff_right hall.1, imp_iff_right hall.2]
    constructor
    · intro hnone i p hi hp
      apply hnone p
      apply mem_available.mpr
      refine ⟨i, ?_, hp⟩
      obtain ⟨hlt, -⟩ := List.getElem?_eq_some_iff.mp hp
      simp [hi, hlt]
    · intro hrestores p hp
      obtain ⟨i, hi, hp⟩ := mem_available.mp hp
      obtain ⟨-, hi⟩ := List.mem_filter.mp hi
      exact hrestores i p (by simpa using hi) hp
  · next hall =>
    cases hanswered
    refine ⟨h, iff_of_true hnone ?_⟩
    intro hflag hanswers
    rw [hflag, hanswers] at hall
    exact absurd rfl hall

theorem step_spec {a : ManagerAction} (h : s.Sound) (hnone : s.NoneSkipped)
    (hstep : s.step a = some t) : t.Sound ∧ (t.NoneSkipped ↔ s.RestoresNone a) := by
  cases a with
  | addSelectedContextItem contextItem =>
    rw [step] at hstep
    split at hstep
    · obtain ⟨hsound, hskipped⟩ :=
        h.stepProvider (a := .addSelectedContextItem contextItem) (fun _ _ => trivial) hstep
      exact ⟨hsound, iff_of_true (hskipped hnone) trivial⟩
    · cases hstep
      exact ⟨h, iff_of_true hnone trivial⟩
  | policyAnswers i call answer =>
    obtain ⟨hsound, hskipped⟩ :=
      h.stepProvider (a := .policyAnswers call answer) (fun _ _ => trivial) hstep
    exact ⟨hsound, iff_of_true (hskipped hnone) trivial⟩
  | policyRejects i call =>
    obtain ⟨hsound, hskipped⟩ :=
      h.stepProvider (a := .policyRejects call) (fun _ _ => trivial) hstep
    exact ⟨hsound, iff_of_true (hskipped hnone) trivial⟩
  | removeSelectedContextItem contextItem =>
    rw [step] at hstep
    split at hstep
    · next i hi =>
      obtain ⟨hsound, hskipped⟩ := h.stepProvider
        (fun p hp => allowed_of_getProvider hnone hi hp contextItem.id) hstep
      exact ⟨hsound, iff_of_true (hskipped hnone) trivial⟩
    · cases hstep
      exact ⟨h, iff_of_true hnone trivial⟩
  | getAvailableCategories isInstanceFlagEnabled isAvailable =>
    exact h.getAvailableCategories hnone hstep
  | clearSelectedContextItems =>
    cases hstep
    obtain ⟨hsound, hskipped⟩ := h.clearSelectedContextItems hnone
    exact ⟨hsound, iff_of_true hskipped trivial⟩

/-! ### Whole runs -/

theorem new_sound (providers : List (AIContextProviderType × Bool)) : (new providers).Sound := by
  intro p hp
  obtain ⟨provider, -, rfl⟩ := List.mem_map.mp hp
  exact ManagedProvider.sound_new _ _

/-- **A clear is for good** exactly as long as no provider becomes available that held items when
it was not available for a clear. -/
theorem manager_forgets_iff {providers : List (AIContextProviderType × Bool)}
    {as : List ManagerAction} (h : run step (new providers) as = some s) :
    Always step Forgets (new providers) as ↔ Guarded step RestoresNone (new providers) as := by
  have hnew := new_sound providers
  apply always_iff_guarded (I := Sound) _ _ hnew _ h
  · intro s a t hs hp _ hstep
    exact (step_spec hs (hs.forgets_iff.mp hp) hstep).1
  · intro s a t hs hp hstep
    obtain ⟨ht, hiff⟩ := step_spec hs (hs.forgets_iff.mp hp) hstep
    rw [ht.forgets_iff, hiff]
  · apply hnew.forgets_iff.mpr
    intro p hp
    obtain ⟨i, hi, -⟩ := mem_available.mp hp
    cases hi

/-- An open tab is selected, and the items are cleared. -/
theorem manager_forgets_iff_of_cleared : ∃ s,
    run step (new [(.openTab, true), (.issue, false)])
      [.getAvailableCategories true [some true, some true],
        .addSelectedContextItem (AIContextProvider.openTabItem "a"),
        .policyAnswers 0 0 AIContextProvider.allows, .clearSelectedContextItems] = some s ∧
    (Always step Forgets (new [(.openTab, true), (.issue, false)])
        [.getAvailableCategories true [some true, some true],
          .addSelectedContextItem (AIContextProvider.openTabItem "a"),
          .policyAnswers 0 0 AIContextProvider.allows, .clearSelectedContextItems] ↔
      Guarded step RestoresNone (new [(.openTab, true), (.issue, false)])
        [.getAvailableCategories true [some true, some true],
          .addSelectedContextItem (AIContextProvider.openTabItem "a"),
          .policyAnswers 0 0 AIContextProvider.allows, .clearSelectedContextItems]) := by
  obtain ⟨s, hs⟩ : ∃ s, run step (new [(.openTab, true), (.issue, false)])
      [.getAvailableCategories true [some true, some true],
        .addSelectedContextItem (AIContextProvider.openTabItem "a"),
        .policyAnswers 0 0 AIContextProvider.allows, .clearSelectedContextItems] = some s :=
    ⟨_, rfl⟩
  exact ⟨s, hs, manager_forgets_iff hs⟩

/-- Open tabs are not available when the items are cleared, and are again afterwards. -/
theorem not_manager_forgets : ∃ s,
    run step (new [(.openTab, true)])
      [.getAvailableCategories true [some true],
        .addSelectedContextItem (AIContextProvider.openTabItem "a"),
        .policyAnswers 0 0 AIContextProvider.allows, .getAvailableCategories true [some false],
        .clearSelectedContextItems, .getAvailableCategories true [some true]] = some s ∧
    s.getSelectedContextItems = [AIContextProvider.openTabItem "a"] ∧
    s.returned = [(AIContextProvider.openTabItem "a", 0)] ∧ s.clears = 1 ∧ ¬ s.Forgets := by
  refine ⟨_, rfl, rfl, rfl, rfl, ?_⟩
  intro h
  exact absurd (h.returned _ List.mem_cons_self) nofun

end DefaultAIContextManager
end KhulnasoftLsp.AiContext
