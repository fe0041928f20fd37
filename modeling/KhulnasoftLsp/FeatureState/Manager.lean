import KhulnasoftLsp.Transition
import Mathlib.Data.List.Sublists
import Mathlib.Logic.Function.Basic

/-!
# The notifications about feature states

`DefaultFeatureStateManager` is told by the change events of its checks which of them are engaged,
and keeps the ids of those in a set of its own. On each event it notifies the client of the checks
of every feature. The checks go on by themselves: what they answer to `id` and `engaged` may change
without an event, and the check of the language answers with two ids.
-/

namespace KhulnasoftLsp.StateChecks

open Transition

inductive Feature where
  | AUTHENTICATION
  | CODE_SUGGESTIONS
  | CHAT
  deriving DecidableEq, Repr

inductive StateCheckId where
  | AUTHENTICATION_REQUIRED
  | SUGGESTIONS_AUTHENTICATION_REQUIRED
  | CHAT_AUTHENTICATION_REQUIRED
  | INVALID_TOKEN
  | SUGGESTIONS_NO_LICENSE
  | CHAT_NO_LICENSE
  | DUO_DISABLED_FOR_PROJECT
  | UNSUPPORTED_KHULNASOFT_VERSION
  | UNSUPPORTED_LANGUAGE
  | SUGGESTIONS_API_ERROR
  | DISABLED_LANGUAGE
  | CHAT_DISABLED_BY_USER
  | SUGGESTIONS_DISABLED_BY_USER
  deriving DecidableEq, Repr

def AUTHENTICATION_CHECK_PRIORITY_ORDERED : List StateCheckId := [.AUTHENTICATION_REQUIRED]

def CODE_SUGGESTIONS_CHECKS_PRIORITY_ORDERED : List StateCheckId :=
  AUTHENTICATION_CHECK_PRIORITY_ORDERED ++ [
    .SUGGESTIONS_DISABLED_BY_USER,
    .SUGGESTIONS_API_ERROR,
    .UNSUPPORTED_KHULNASOFT_VERSION,
    .SUGGESTIONS_NO_LICENSE,
    .DUO_DISABLED_FOR_PROJECT,
    .UNSUPPORTED_LANGUAGE,
    .DISABLED_LANGUAGE]

def CHAT_CHECKS_PRIORITY_ORDERED : List StateCheckId :=
  AUTHENTICATION_CHECK_PRIORITY_ORDERED ++ [
    .CHAT_DISABLED_BY_USER,
    .CHAT_NO_LICENSE,
    .DUO_DISABLED_FOR_PROJECT]

def CHECKS_PER_FEATURE : Feature → List StateCheckId
  | .AUTHENTICATION => AUTHENTICATION_CHECK_PRIORITY_ORDERED
  | .CODE_SUGGESTIONS => CODE_SUGGESTIONS_CHECKS_PRIORITY_ORDERED
  | .CHAT => CHAT_CHECKS_PRIORITY_ORDERED

/-- The keys of `CHECKS_PER_FEATURE` -/
def features : List Feature := [.AUTHENTICATION, .CODE_SUGGESTIONS, .CHAT]

/-! ## The checks -/

/-- The check objects, in the order of `#checks`. -/
inductive CheckName where
  | authenticationRequiredCheck
  | codeSuggestionsInstanceVersionCheck
  | codeSuggestionsDuoLicenseCheck
  | projectDuoAccessCheck
  | supportedLanguagePolicy
  | chatEnabledCheck
  | codeSuggestionsEnabledCheck
  | duoChatLicenseCheck
  | suggestionApiErrorCheck
  deriving DecidableEq, Repr

def checkNames : List CheckName :=
  [.authenticationRequiredCheck, .codeSuggestionsInstanceVersionCheck,
    .codeSuggestionsDuoLicenseCheck, .projectDuoAccessCheck, .supportedLanguagePolicy,
    .chatEnabledCheck, .codeSuggestionsEnabledCheck, .duoChatLicenseCheck, .suggestionApiErrorCheck]

/-- The ids with which a check may answer. -/
def CheckName.ids : CheckName → List StateCheckId
  | .authenticationRequiredCheck => [.AUTHENTICATION_REQUIRED]
  | .codeSuggestionsInstanceVersionCheck => [.UNSUPPORTED_KHULNASOFT_VERSION]
  | .codeSuggestionsDuoLicenseCheck => [.SUGGESTIONS_NO_LICENSE]
  | .projectDuoAccessCheck => [.DUO_DISABLED_FOR_PROJECT]
  | .supportedLanguagePolicy => [.UNSUPPORTED_LANGUAGE, .DISABLED_LANGUAGE]
  | .chatEnabledCheck => [.CHAT_DISABLED_BY_USER]
  | .codeSuggestionsEnabledCheck => [.SUGGESTIONS_DISABLED_BY_USER]
  | .duoChatLicenseCheck => [.CHAT_NO_LICENSE]
  | .suggestionApiErrorCheck => [.SUGGESTIONS_API_ERROR]

structure UnsupportedVersionCheckContext where
  version : String
  baseUrl : String
  deriving DecidableEq, Repr

/-- What a check answers. -/
structure StateCheck (name : CheckName) where
  id : StateCheckId
  id_mem : id ∈ name.ids
  engaged : Bool
  details : Option String
  context : Option UnsupportedVersionCheckContext

/-- `DefaultAuthenticationRequiredCheck` -/
def authenticationRequired (isApiInValidState : Bool) :
    StateCheck .authenticationRequiredCheck where
  id := .AUTHENTICATION_REQUIRED
  id_mem := by decide
  engaged := !isApiInValidState
  details := some "Authentication required."
  context := none

/-- `DefaultCodeSuggestionsSupportedLanguageCheck` -/
def supportedLanguage (isLanguageEnabled isLanguageSupported : Bool) :
    StateCheck .supportedLanguagePolicy where
  id := if isLanguageSupported && !isLanguageEnabled then .DISABLED_LANGUAGE
    else .UNSUPPORTED_LANGUAGE
  id_mem := by split <;> decide
  engaged := !isLanguageEnabled
  details := some "Code suggestions are not supported for this language"
  context := none

abbrev Checks := (name : CheckName) → StateCheck name

/-- A `FeatureStateCheck` of the client -/
structure FeatureStateCheck where
  checkId : StateCheckId
  details : Option String
  context : Option UnsupportedVersionCheckContext
  engaged : Bool
  deriving DecidableEq, Repr

structure FeatureState where
  featureId : Feature
  engagedChecks : List FeatureStateCheck
  allChecks : List FeatureStateCheck
  deriving DecidableEq, Repr

/-- A notification, and what the checks answered when it was sent. -/
structure Notification where
  state : List FeatureState
  checks : Checks

/-! ## The manager -/

def sortChecksInPriority (orderedChecks : List StateCheckId) (unorderedChecks : List CheckName)
    (checks : Checks) : List CheckName :=
  orderedChecks.filterMap fun checkId =>
    unorderedChecks.find? fun name => (checks name).id = checkId

structure FeatureStateManager where
  checks : Checks
  precomputedSortedChecks : Feature → List CheckName
  /-- `init` has subscribed to the checks. -/
  subscribed : Bool
  engagedChecksSet : List StateCheckId
  /-- The change events that were heard: the id of the check, and whether it was engaged. -/
  heard : List (StateCheckId × Bool)
  notifications : List Notification

inductive CheckEvent where
  | init
  | dispose
  /-- A check answers differently from now on. -/
  | becomes (name : CheckName) (state : StateCheck name)
  /-- A check emits its change event. -/
  | changed (name : CheckName)

namespace FeatureStateManager

def new (checks : Checks) : FeatureStateManager where
  checks
  precomputedSortedChecks := fun featureId =>
    sortChecksInPriority (CHECKS_PER_FEATURE featureId) checkNames checks
  subscribed := false
  engagedChecksSet := []
  heard := []
  notifications := []

/-- A check as it is reported to the client. -/
def report (s : FeatureStateManager) (name : CheckName) (engaged : Bool) : FeatureStateCheck where
  checkId := (s.checks name).id
  details := (s.checks name).details
  context := (s.checks name).context
  engaged

def state (s : FeatureStateManager) : List FeatureState :=
  features.map fun featureId =>
    let sortedChecks := s.precomputedSortedChecks featureId
    { featureId
      engagedChecks := (sortedChecks.filter fun name =>
        s.engagedChecksSet.contains (s.checks name).id).map fun name => s.report name true
      allChecks := sortedChecks.map fun name =>
        s.report name (s.engagedChecksSet.contains (s.checks name).id) }

/-- The id is added to the set or deleted from it. -/
def hear (name : CheckName) (s : FeatureStateManager) : FeatureStateManager :=
  let check := s.checks name
  { s with
    engagedChecksSet :=
      if check.engaged then s.engagedChecksSet.insert check.id
      else s.engagedChecksSet.filter fun id => id != check.id
    heard := s.heard ++ [(check.id, check.engaged)] }

def notifyClient (s : FeatureStateManager) : FeatureStateManager :=
  { s with notifications := s.notifications ++ [⟨s.state, s.checks⟩] }

def step (s : FeatureStateManager) : CheckEvent → Option FeatureStateManager
  | .init => if s.subscribed then none else some { s with subscribed := true }
  | .dispose => some { s with subscribed := false }
  | .becomes name state => some { s with checks := Function.update s.checks name state }
  | .changed name => some (if s.subscribed then (s.hear name).notifyClient else s)

/-- `DefaultAuthenticationRequiredCheck` hears that the API is reconfigured. -/
def apiReconfigured (isInValidState : Bool) : List CheckEvent :=
  [.becomes .authenticationRequiredCheck (authenticationRequired isInValidState),
    .changed .authenticationRequiredCheck]

/-- `#update` of `DefaultCodeSuggestionsSupportedLanguageCheck` -/
def languageUpdate (isLanguageEnabled isLanguageSupported : Bool) : List CheckEvent :=
  [.becomes .supportedLanguagePolicy (supportedLanguage isLanguageEnabled isLanguageSupported),
    .changed .supportedLanguagePolicy]

end FeatureStateManager

/-! ## What a notification is for -/

/-- The list holds exactly the checks of the feature that are engaged, each once, in the order of
`CHECKS_PER_FEATURE`. -/
structure ListsEngaged (checks : Checks) (featureId : Feature) (list : List FeatureStateCheck) :
    Prop where
  mem_iff : ∀ x, x ∈ list ↔ ∃ name, (checks name).id ∈ CHECKS_PER_FEATURE featureId ∧
    (checks name).engaged = true ∧
    x = ⟨(checks name).id, (checks name).details, (checks name).context, true⟩
  ordered : (list.map FeatureStateCheck.checkId).Sublist (CHECKS_PER_FEATURE featureId)

/-- The notification has every feature, with the engaged checks of it. -/
structure Notification.Right (n : Notification) : Prop where
  features : n.state.map FeatureState.featureId = features
  engaged : ∀ x ∈ n.state, ListsEngaged n.checks x.featureId x.engagedChecks

namespace FeatureStateManager

def AllRight (s : FeatureStateManager) : Prop := ∀ n ∈ s.notifications, n.Right

/-- Whether the last change event that was heard under an id found its check engaged. -/
def lastHeard (s : FeatureStateManager) (id : StateCheckId) : Bool :=
  (s.heard.reverse.lookup id).getD false

/-- At a change event every other check is engaged just if it was at the last change event that it
emitted under the id it has. -/
def UpToDate (s : FeatureStateManager) : CheckEvent → Prop
  | .changed name => s.subscribed = true → ∀ other, other ≠ name →
    (s.checks other).engaged = s.lastHeard (s.checks other).id
  | _ => True

end FeatureStateManager

/-! ## Which check answers with which id -/

def nameOf : StateCheckId → Option CheckName
  | .AUTHENTICATION_REQUIRED => some .authenticationRequiredCheck
  | .UNSUPPORTED_KHULNASOFT_VERSION => some .codeSuggestionsInstanceVersionCheck
  | .SUGGESTIONS_NO_LICENSE => some .codeSuggestionsDuoLicenseCheck
  | .DUO_DISABLED_FOR_PROJECT => some .projectDuoAccessCheck
  | .UNSUPPORTED_LANGUAGE => some .supportedLanguagePolicy
  | .DISABLED_LANGUAGE => some .supportedLanguagePolicy
  | .CHAT_DISABLED_BY_USER => some .chatEnabledCheck
  | .SUGGESTIONS_DISABLED_BY_USER => some .codeSuggestionsEnabledCheck
  | .CHAT_NO_LICENSE => some .duoChatLicenseCheck
  | .SUGGESTIONS_API_ERROR => some .suggestionApiErrorCheck
  | _ => none

theorem nameOf_of_mem {name : CheckName} {id : StateCheckId} (h : id ∈ name.ids) :
    nameOf id = some name := by
  have hall : ∀ id ∈ name.ids, nameOf id = some name := by cases name <;> decide
  exact hall id h

/-- No two checks answer with the same id. -/
theorem eq_of_id_eq {checks checks' : Checks} {name name' : CheckName}
    (h : (checks name).id = (checks' name').id) : name = name' := by
  have hname := nameOf_of_mem (checks name).id_mem
  rw [h, nameOf_of_mem (checks' name').id_mem] at hname
  exact (Option.some.inj hname).symm

/-- The checks of a feature in the order of their ids. -/
def namesOf : Feature → List CheckName
  | .AUTHENTICATION => [.authenticationRequiredCheck]
  | .CODE_SUGGESTIONS =>
    [.authenticationRequiredCheck, .codeSuggestionsEnabledCheck, .suggestionApiErrorCheck,
      .codeSuggestionsInstanceVersionCheck, .codeSuggestionsDuoLicenseCheck, .projectDuoAccessCheck,
      .supportedLanguagePolicy]
  | .CHAT =>
    [.authenticationRequiredCheck, .chatEnabledCheck, .duoChatLicenseCheck, .projectDuoAccessCheck]

theorem id_mem_checks_iff (checks : Checks) (featureId : Feature) (name : CheckName) :
    (checks name).id ∈ CHECKS_PER_FEATURE featureId ↔ name ∈ namesOf featureId := by
  have hall : ∀ id ∈ name.ids, id ∈ CHECKS_PER_FEATURE featureId ↔ name ∈ namesOf featureId := by
    cases featureId <;> cases name <;> decide
  exact hall _ (checks name).id_mem

theorem language_id_cases (checks : Checks) :
    (checks .supportedLanguagePolicy).id = .UNSUPPORTED_LANGUAGE ∨
      (checks .supportedLanguagePolicy).id = .DISABLED_LANGUAGE := by
  simpa [CheckName.ids] using (checks .supportedLanguagePolicy).id_mem

/-- The ids that are always the same. -/
theorem constant_ids (checks : Checks) :
    (checks .authenticationRequiredCheck).id = .AUTHENTICATION_REQUIRED ∧
    (checks .codeSuggestionsInstanceVersionCheck).id = .UNSUPPORTED_KHULNASOFT_VERSION ∧
    (checks .codeSuggestionsDuoLicenseCheck).id = .SUGGESTIONS_NO_LICENSE ∧
    (checks .projectDuoAccessCheck).id = .DUO_DISABLED_FOR_PROJECT ∧
    (checks .chatEnabledCheck).id = .CHAT_DISABLED_BY_USER ∧
    (checks .codeSuggestionsEnabledCheck).id = .SUGGESTIONS_DISABLED_BY_USER ∧
    (checks .duoChatLicenseCheck).id = .CHAT_NO_LICENSE ∧
    (checks .suggestionApiErrorCheck).id = .SUGGESTIONS_API_ERROR := by
  refine ⟨?_, ?_, ?_, ?_, ?_, ?_, ?_, ?_⟩ <;> exact List.mem_singleton.mp (checks _).id_mem

/-- Whatever the ids are when the manager is made, the order of the checks is the same. -/
theorem sortChecksInPriority_eq (checks : Checks) (featureId : Feature) :
    sortChecksInPriority (CHECKS_PER_FEATURE featureId) checkNames checks = namesOf featureId := by
  obtain ⟨h1, h2, h3, h4, h5, h6, h7, h8⟩ := constant_ids checks
  rcases language_id_cases checks with h | h <;> cases featureId <;>
    simp [sortChecksInPriority, CHECKS_PER_FEATURE, AUTHENTICATION_CHECK_PRIORITY_ORDERED,
      CODE_SUGGESTIONS_CHECKS_PRIORITY_ORDERED, CHAT_CHECKS_PRIORITY_ORDERED, checkNames, namesOf,
      h1, h2, h3, h4, h5, h6, h7, h8, h]

theorem ids_namesOf_sublist (checks : Checks) (featureId : Feature) :
    ((namesOf featureId).map fun name => (checks name).id).Sublist
      (CHECKS_PER_FEATURE featureId) := by
  obtain ⟨h1, h2, h3, h4, h5, h6, h7, h8⟩ := constant_ids checks
  rcases language_id_cases checks with h | h <;> cases featureId <;>
    simp only [namesOf, List.map_cons, List.map_nil, h1, h2, h3, h4, h5, h6, h7, h8, h] <;> decide

/-! ## What a notification says -/

namespace FeatureStateManager

/-- The manager's copy of what a check answers. -/
def Agrees (s : FeatureStateManager) (name : CheckName) : Prop :=
  s.engagedChecksSet.contains (s.checks name).id = (s.checks name).engaged

theorem listsEngaged_iff {s : FeatureStateManager} {featureId : Feature} :
    ListsEngaged s.checks featureId (((namesOf featureId).filter fun name =>
        s.engagedChecksSet.contains (s.checks name).id).map fun name => s.report name true) ↔
      ∀ name ∈ namesOf featureId, s.Agrees name := by
  constructor
  · intro hlists name hname
    have hid := (id_mem_checks_iff s.checks featureId name).mpr hname
    unfold Agrees
    rw [Bool.eq_iff_iff]
    constructor
    · intro hhas
      have hfilter : name ∈ (namesOf featureId).filter fun name =>
          s.engagedChecksSet.contains (s.checks name).id := List.mem_filter.mpr ⟨hname, hhas⟩
      have hmem := List.mem_map_of_mem (f := fun name => s.report name true) hfilter
      obtain ⟨name', -, hengaged, heq⟩ := (hlists.mem_iff _).mp hmem
      obtain rfl : name = name' := eq_of_id_eq (congrArg FeatureStateCheck.checkId heq)
      exact hengaged
    · intro hengaged
      obtain ⟨name', hname', heq⟩ := List.mem_map.mp
        ((hlists.mem_iff (s.report name true)).mpr ⟨name, hid, hengaged, rfl⟩)
      obtain rfl : name' = name := eq_of_id_eq (congrArg FeatureStateCheck.checkId heq)
      exact (List.mem_filter.mp hname').2
  · intro hagrees
    constructor
    · intro x
      rw [List.mem_map]
      constructor
      · rintro ⟨name, hname, rfl⟩
        obtain ⟨hmem, hhas⟩ := List.mem_filter.mp hname
        exact ⟨name, (id_mem_checks_iff s.checks featureId name).mpr hmem,
          (hagrees name hmem).symm.trans hhas, rfl⟩
      · rintro ⟨name, hid, hengaged, rfl⟩
        have hmem := (id_mem_checks_iff s.checks featureId name).mp hid
        exact ⟨name, List.mem_filter.mpr ⟨hmem, (hagrees name hmem).trans hengaged⟩, rfl⟩
    · rw [List.map_map]
      exact ((List.filter_sublist).map _).trans (ids_namesOf_sublist s.checks featureId)

/-- What holds after every run. -/
structure Valid (s : FeatureStateManager) : Prop where
  sorted : s.precomputedSortedChecks = namesOf
  heard : ∀ id, s.engagedChecksSet.contains id = s.lastHeard id

theorem valid_new (checks : Checks) : (new checks).Valid where
  sorted := funext fun featureId => sortChecksInPriority_eq checks featureId
  heard := fun _ => rfl

theorem right_iff {s : FeatureStateManager} (h : s.Valid) :
    (⟨s.state, s.checks⟩ : Notification).Right ↔ ∀ name, s.Agrees name := by
  have hfeatures : s.state.map FeatureState.featureId = features := by
    unfold state
    rw [List.map_map]
    exact List.map_id features
  constructor
  · intro hright name
    obtain ⟨featureId, hmem, hname⟩ : ∃ featureId ∈ features, name ∈ namesOf featureId := by
      cases name <;> decide
    have hlists := hright.engaged _ (List.mem_map_of_mem hmem)
    rw [h.sorted] at hlists
    exact listsEngaged_iff.mp hlists name hname
  · intro hagrees
    refine ⟨hfeatures, ?_⟩
    intro x hx
    obtain ⟨featureId, -, rfl⟩ := List.mem_map.mp hx
    rw [h.sorted]
    exact listsEngaged_iff.mpr fun name _ => hagrees name

/-! ## What the steps change -/

theorem lastHeard_hear (s : FeatureStateManager) (name : CheckName) (id : StateCheckId) :
    (s.hear name).lastHeard id =
      if id = (s.checks name).id then (s.checks name).engaged else s.lastHeard id := by
  unfold lastHeard hear
  rw [List.reverse_append, List.reverse_singleton, List.singleton_append, List.lookup_cons]
  by_cases h : id = (s.checks name).id
  · simp [h]
  · have hne : (id == (s.checks name).id) = false := by simpa using h
    rw [hne, if_neg h]

theorem contains_hear (s : FeatureStateManager) (name : CheckName) (id : StateCheckId) :
    (s.hear name).engagedChecksSet.contains id =
      if id = (s.checks name).id then (s.checks name).engaged
      else s.engagedChecksSet.contains id := by
  unfold hear
  rw [Bool.eq_iff_iff]
  cases h : (s.checks name).engaged with
  | true => by_cases hid : id = (s.checks name).id <;> simp [hid, h]
  | false => by_cases hid : id = (s.checks name).id <;> simp [hid, h]

theorem Valid.hear {s : FeatureStateManager} (h : s.Valid) (name : CheckName) :
    (s.hear name).Valid where
  sorted := h.sorted
  heard := by
    intro id
    rw [contains_hear, lastHeard_hear, h.heard]

theorem valid_step {s t : FeatureStateManager} {e : CheckEvent} (h : s.Valid)
    (hstep : s.step e = some t) : t.Valid := by
  cases e with
  | init =>
    obtain ⟨-, rfl⟩ := by simpa [step] using hstep
    exact ⟨h.sorted, h.heard⟩
  | dispose =>
    cases hstep
    exact ⟨h.sorted, h.heard⟩
  | becomes name state =>
    cases hstep
    exact ⟨h.sorted, h.heard⟩
  | changed name =>
    cases hstep
    split
    · have hheard := h.hear name
      exact ⟨hheard.sorted, hheard.heard⟩
    · exact h

/-- The check that emits the event is right, the others are as they were. -/
theorem agrees_hear_iff {s : FeatureStateManager} (h : s.Valid) (name : CheckName) :
    (∀ other, (s.hear name).Agrees other) ↔
      ∀ other, other ≠ name → (s.checks other).engaged = s.lastHeard (s.checks other).id := by
  have hchecks : (s.hear name).checks = s.checks := rfl
  constructor
  · intro hall other hne
    have hagrees := hall other
    unfold Agrees at hagrees
    rw [contains_hear, hchecks, if_neg fun hid => hne (eq_of_id_eq hid), h.heard] at hagrees
    exact hagrees.symm
  · intro hothers other
    unfold Agrees
    rw [contains_hear, hchecks]
    by_cases hne : other = name
    · rw [hne, if_pos rfl]
    · rw [if_neg fun hid => hne (eq_of_id_eq hid), h.heard]
      exact (hothers other hne).symm

theorem allRight_step_iff {s t : FeatureStateManager} {e : CheckEvent} (h : s.Valid)
    (hright : s.AllRight) (hstep : s.step e = some t) : t.AllRight ↔ s.UpToDate e := by
  cases e with
  | init =>
    obtain ⟨-, rfl⟩ := by simpa [step] using hstep
    exact iff_of_true hright trivial
  | dispose =>
    cases hstep
    exact iff_of_true hright trivial
  | becomes name state =>
    cases hstep
    exact iff_of_true hright trivial
  | changed name =>
    cases hstep
    by_cases hsubscribed : s.subscribed = true
    · rw [if_pos hsubscribed]
      have hsent : (s.hear name).notifyClient.AllRight ↔
          s.AllRight ∧ (⟨(s.hear name).state, (s.hear name).checks⟩ : Notification).Right := by
        show (∀ n ∈ s.notifications ++ [_], n.Right) ↔ _
        rw [List.forall_mem_append, List.forall_mem_singleton]
        rfl
      rw [hsent, right_iff (h.hear name), agrees_hear_iff h]
      simp [hright, UpToDate, hsubscribed]
    · rw [if_neg hsubscribed]
      exact iff_of_true hright fun hs => absurd hs hsubscribed

/-- **When the notifications are right.** The set of the manager follows the events. So it is right
exactly as long as nothing else changes whether a check is engaged, or the id under which it is. -/
theorem allRight_iff_upToDate {checks : Checks} {es : List CheckEvent} {t : FeatureStateManager}
    (hrun : run step (new checks) es = some t) :
    Always step AllRight (new checks) es ↔ Guarded step UpToDate (new checks) es := by
  apply always_iff_guarded _ _ (valid_new checks) _ hrun
  · intro s e t h _ _ hstep
    exact valid_step h hstep
  · intro s e t h hright hstep
    exact allRight_step_iff h hright hstep
  · intro n hn
    nomatch hn

/-- Nothing is wrong, except that there is no valid token if `isInValidState` is false. -/
def sampleChecks (isInValidState : Bool) : Checks
  | .authenticationRequiredCheck => authenticationRequired isInValidState
  | .codeSuggestionsInstanceVersionCheck =>
    ⟨.UNSUPPORTED_KHULNASOFT_VERSION, by decide, false, none, none⟩
  | .codeSuggestionsDuoLicenseCheck => ⟨.SUGGESTIONS_NO_LICENSE, by decide, false, none, none⟩
  | .projectDuoAccessCheck => ⟨.DUO_DISABLED_FOR_PROJECT, by decide, false, none, none⟩
  | .supportedLanguagePolicy => supportedLanguage false false
  | .chatEnabledCheck => ⟨.CHAT_DISABLED_BY_USER, by decide, false, none, none⟩
  | .codeSuggestionsEnabledCheck => ⟨.SUGGESTIONS_DISABLED_BY_USER, by decide, false, none, none⟩
  | .duoChatLicenseCheck => ⟨.CHAT_NO_LICENSE, by decide, false, none, none⟩
  | .suggestionApiErrorCheck => ⟨.SUGGESTIONS_API_ERROR, by decide, false, none, none⟩

theorem allRight_iff_upToDate_of_reconfiguration :
    Always step AllRight (new (sampleChecks false)) (.init :: apiReconfigured true) ↔
      Guarded step UpToDate (new (sampleChecks false)) (.init :: apiReconfigured true) := by
  obtain ⟨t, ht⟩ : ∃ t, run step (new (sampleChecks false)) (.init :: apiReconfigured true) =
      some t := ⟨_, rfl⟩
  exact allRight_iff_upToDate ht

/-- Authentication is required from the start. The first event is that of another check, and the
notification does not have the one that is engaged. -/
theorem not_allRight_of_engaged_from_start :
    ∃ t, run step (new (sampleChecks false)) (.init :: languageUpdate true true) = some t ∧
      (t.checks .authenticationRequiredCheck).engaged = true ∧
      t.notifications.map (fun n => n.state.map FeatureState.engagedChecks) = [[[], [], []]] ∧
      ¬ t.AllRight := by
  obtain ⟨t, ht⟩ : ∃ t, run step (new (sampleChecks false)) (.init :: languageUpdate true true) =
      some t := ⟨_, rfl⟩
  cases ht
  refine ⟨_, rfl, rfl, by decide +kernel, ?_⟩
  intro hright
  have hlists := (hright _ List.mem_cons_self).engaged ⟨.AUTHENTICATION, [], _⟩ List.mem_cons_self
  have hmem := (hlists.mem_iff _).mpr
    ⟨.authenticationRequiredCheck, by decide +kernel, rfl, rfl⟩
  nomatch hmem

end FeatureStateManager
end KhulnasoftLsp.StateChecks
