import KhulnasoftLsp.EventEmitter
import KhulnasoftLsp.JsSet
import KhulnasoftLsp.JsString
import KhulnasoftLsp.Transition

/-!
# The languages with code suggestions

`DefaultSupportedLanguagesService` keeps the set of enabled languages: the supported ones and those
that the configuration adds, less those that it disables. A change of the set is told to the
listeners of `onLanguageChange`.

The disposable of a subscription removes its listener from the event `'configChange'`, for which
the service's emitter has no listeners, and not from `'languageChange'`. So no listener is ever
removed, and `notifiesSubscribed_iff` says in which runs nobody sees that.
-/

namespace KhulnasoftLsp.Suggestion

open Transition

/-- The languages of `code_suggestions_config.json`. -/
def baseSupportedCodeSuggestionsLanguages : List JsString :=
  ["c", "cpp", "csharp", "go", "haml", "handlebars", "java", "javascript", "javascriptreact",
    "kotlin", "python", "php", "ruby", "rust", "scala", "shellscript", "sql", "swift",
    "typescript", "typescriptreact", "svelte", "terraform", "terragrunt", "vue"].map
    JsString.ofString

/-- The part of the client's configuration that the service reads. -/
structure CodeCompletionConfig where
  additionalLanguages : Option (List JsString)
  disabledSupportedLanguages : Option (List JsString)
  deriving DecidableEq, Repr

structure SupportedLanguagesUpdateParam where
  allow : Option (List JsString)
  deny : Option (List JsString)
  deriving DecidableEq, Repr

/-- The events that the service's emitter is used with. -/
inductive LanguageEvent where
  | languageChange
  | configChange
  deriving DecidableEq, Repr

inductive LanguageLog where
  | info (message : JsString)
  | warn (message : JsString)
  deriving DecidableEq, Repr

/-- The fields of the service, and what it has logged. Listeners are of any type `ℓ`. -/
structure DefaultSupportedLanguagesService (ℓ : Type*) where
  enabledLanguages : JsSet JsString
  supportedLanguages : JsSet JsString
  eventEmitter : EventEmitter LanguageEvent ℓ
  logger : List LanguageLog

/-- What `onLanguageChange` returns: its `dispose` is about the listener. -/
structure LanguageDisposable (ℓ : Type*) where
  listener : ℓ
  deriving DecidableEq, Repr

section Model

variable {ℓ : Type*} (toLowerCase : JsString → JsString)

/-- `Array.from(languages).join(',')` -/
def enabledLanguagesString (languages : JsSet JsString) : JsString :=
  List.intercalate (JsString.ofString ",") languages.items

def initializedMessage (languages : JsSet JsString) : JsString :=
  JsString.ofString "Initialized. Enabling the default Code Suggestions languages: " ++
    enabledLanguagesString languages

def allDisabledMessage : JsString :=
  JsString.ofString "All languages have been disabled for Code Suggestions."

def changedMessage (languages : JsSet JsString) : JsString :=
  JsString.ofString
    ("Code Suggestions enabled languages have changed. " ++
      "The currently enabled languages are: ") ++ enabledLanguagesString languages

/-- `language.trim().toLowerCase().replace(/^\./, '')` -/
def normalizeLanguageIdentifier (language : JsString) : JsString :=
  match toLowerCase language.trim with
  | 0x002e :: rest => rest
  | normalized => normalized

/-- `#getConfiguredLanguages`: what is disabled is taken as it is written. -/
def getConfiguredLanguages (config : CodeCompletionConfig) : SupportedLanguagesUpdateParam where
  allow := config.additionalLanguages.map (·.map (normalizeLanguageIdentifier toLowerCase))
  deny := config.disabledSupportedLanguages

/-- The set `newSet` that `#update` builds. -/
def configuredSet (config : CodeCompletionConfig) : JsSet JsString :=
  let languages := getConfiguredLanguages toLowerCase config
  let allow := languages.allow.getD []
  let deny := languages.deny.getD []
  let newSet := JsSet.ofList baseSupportedCodeSuggestionsLanguages
  let newSet := (allow.map JsString.trim).foldl JsSet.add newSet
  deny.foldl JsSet.delete newSet

namespace DefaultSupportedLanguagesService

/-- The constructor. -/
def new : DefaultSupportedLanguagesService ℓ :=
  let languages := JsSet.ofList baseSupportedCodeSuggestionsLanguages
  { enabledLanguages := languages
    supportedLanguages := languages
    eventEmitter := EventEmitter.new
    logger := [.info (initializedMessage languages)] }

def isLanguageSupported (languageId : JsString) (s : DefaultSupportedLanguagesService ℓ) : Bool :=
  s.supportedLanguages.has languageId

def isLanguageEnabled (languageId : JsString) (s : DefaultSupportedLanguagesService ℓ) : Bool :=
  s.enabledLanguages.has languageId

/-- `#update`, at a change of the configuration: the service after it, and the listeners that it
called, in order. -/
def update (config : CodeCompletionConfig) (s : DefaultSupportedLanguagesService ℓ) :
    DefaultSupportedLanguagesService ℓ × List ℓ :=
  let newSet := configuredSet toLowerCase config
  let logger := if newSet.size = 0 then s.logger ++ [.warn allDisabledMessage] else s.logger
  if s.enabledLanguages.isEqual newSet then
    ({ s with enabledLanguages := newSet, logger := logger }, [])
  else
    ({ s with
        enabledLanguages := newSet
        logger := logger ++ [.info (changedMessage newSet)] },
      s.eventEmitter.listeners .languageChange)

def onLanguageChange (listener : ℓ) (s : DefaultSupportedLanguagesService ℓ) :
    DefaultSupportedLanguagesService ℓ × LanguageDisposable ℓ :=
  ({ s with eventEmitter := s.eventEmitter.on .languageChange listener }, ⟨listener⟩)

/-- The `dispose` of a subscription. -/
def dispose [DecidableEq ℓ] (disposable : LanguageDisposable ℓ)
    (s : DefaultSupportedLanguagesService ℓ) : DefaultSupportedLanguagesService ℓ :=
  -- the listener was registered for `languageChange`
  { s with eventEmitter := s.eventEmitter.removeListener .configChange disposable.listener }

end DefaultSupportedLanguagesService

/-! ## Subscribers -/

/-- A subscription, and whether its disposable has been disposed of. -/
structure LanguageSubscription (ℓ : Type*) where
  disposable : LanguageDisposable ℓ
  disposed : Bool
  deriving DecidableEq, Repr

/-- The service and all subscriptions that were ever made, the oldest first. -/
structure LanguageSystem (ℓ : Type*) where
  service : DefaultSupportedLanguagesService ℓ
  subscriptions : List (LanguageSubscription ℓ)

inductive LanguageAction (ℓ : Type*) where
  | onLanguageChange (listener : ℓ)
  /-- The disposable of the `i`-th subscription is disposed of, maybe not for the first time. -/
  | dispose (i : Nat)
  | configChange (config : CodeCompletionConfig)
  deriving DecidableEq, Repr

namespace LanguageSystem

def new : LanguageSystem ℓ := ⟨DefaultSupportedLanguagesService.new, []⟩

def step [DecidableEq ℓ] (s : LanguageSystem ℓ) : LanguageAction ℓ → Option (LanguageSystem ℓ)
  | .onLanguageChange listener =>
    let (service, disposable) := s.service.onLanguageChange listener
    some ⟨service, s.subscriptions ++ [⟨disposable, false⟩]⟩
  | .dispose i => s.subscriptions[i]?.map fun subscription =>
    ⟨s.service.dispose subscription.disposable,
      s.subscriptions.set i ⟨subscription.disposable, true⟩⟩
  | .configChange config => some { s with service := (s.service.update toLowerCase config).1 }

/-- A subscription of the listener has not been disposed of. -/
def Subscribed (s : LanguageSystem ℓ) (listener : ℓ) : Prop :=
  ⟨⟨listener⟩, false⟩ ∈ s.subscriptions

/-- The change of the configuration makes a difference to the set of the enabled languages. -/
def Changes (s : LanguageSystem ℓ) (config : CodeCompletionConfig) : Prop :=
  ∃ language, ¬ (s.service.isLanguageEnabled language = true ↔
    (s.service.update toLowerCase config).1.isLanguageEnabled language = true)

/-- At every change of the configuration in the run, a listener is called exactly if it is still
subscribed and the set of the enabled languages changes. -/
def NotifiesSubscribed [DecidableEq ℓ] (s : LanguageSystem ℓ) (as : List (LanguageAction ℓ)) :
    Prop :=
  ∀ before config after t, as = before ++ .configChange config :: after →
    run (step toLowerCase) s before = some t →
      ∀ listener, listener ∈ (t.service.update toLowerCase config).2 ↔
        t.Subscribed listener ∧ t.Changes toLowerCase config

/-- If the set of the enabled languages is to change, then every listener that has ever subscribed
has a subscription that has not been disposed of. -/
def AllStillSubscribed (s : LanguageSystem ℓ) (a : LanguageAction ℓ) : Prop :=
  ∀ config, a = .configChange config →
    (∃ language, ¬ (s.service.isLanguageEnabled language = true ↔
      (configuredSet toLowerCase config).has language = true)) →
    ∀ subscription ∈ s.subscriptions, s.Subscribed subscription.disposable.listener

end LanguageSystem
end Model

namespace DefaultSupportedLanguagesService

variable {ℓ : Type*} {toLowerCase : JsString → JsString}

@[simp] theorem enabledLanguages_update (config : CodeCompletionConfig)
    (s : DefaultSupportedLanguagesService ℓ) :
    (s.update toLowerCase config).1.enabledLanguages = configuredSet toLowerCase config := by
  unfold update
  dsimp only
  split <;> rfl

@[simp] theorem eventEmitter_update (config : CodeCompletionConfig)
    (s : DefaultSupportedLanguagesService ℓ) :
    (s.update toLowerCase config).1.eventEmitter = s.eventEmitter := by
  unfold update
  dsimp only
  split <;> rfl

/-- An update enables the supported languages and the additional ones, less the disabled ones. -/
theorem isLanguageEnabled_update {config : CodeCompletionConfig}
    {s : DefaultSupportedLanguagesService ℓ} {language : JsString} :
    (s.update toLowerCase config).1.isLanguageEnabled language = true ↔
      (language ∈ baseSupportedCodeSuggestionsLanguages ∨
        ∃ additional ∈ config.additionalLanguages.getD [],
          (normalizeLanguageIdentifier toLowerCase additional).trim = language) ∧
      language ∉ config.disabledSupportedLanguages.getD [] := by
  rw [isLanguageEnabled, enabledLanguages_update, configuredSet, JsSet.has_foldl_delete,
    JsSet.has_foldl_add, JsSet.has_ofList]
  cases hadd : config.additionalLanguages <;> simp [getConfiguredLanguages, hadd]

/-- The set of the enabled languages differs from the one that is to come. -/
theorem isEqual_configuredSet_iff {config : CodeCompletionConfig}
    {s : DefaultSupportedLanguagesService ℓ} :
    s.enabledLanguages.isEqual (configuredSet toLowerCase config) = false ↔
      ∃ language, ¬ (s.isLanguageEnabled language = true ↔
        (configuredSet toLowerCase config).has language = true) := by
  rw [← Bool.not_eq_true, JsSet.isEqual_iff]
  exact not_forall

/-- The listeners that an update calls. -/
theorem mem_update {config : CodeCompletionConfig} {s : DefaultSupportedLanguagesService ℓ}
    {listener : ℓ} :
    listener ∈ (s.update toLowerCase config).2 ↔
      s.enabledLanguages.isEqual (configuredSet toLowerCase config) = false ∧
        listener ∈ s.eventEmitter.listeners .languageChange := by
  unfold update
  by_cases h : s.enabledLanguages.isEqual (configuredSet toLowerCase config) = true
  · simp [h]
  · simp [h]

end DefaultSupportedLanguagesService

namespace LanguageSystem

variable {ℓ : Type*} {toLowerCase : JsString → JsString}

/-- `dispose` has nothing to remove: the emitter is used with `languageChange` only, for every
listener that ever subscribed. -/
def Registered (s : LanguageSystem ℓ) : Prop :=
  s.service.eventEmitter.listeners .configChange = [] ∧
    s.service.eventEmitter.listeners .languageChange =
      s.subscriptions.map fun subscription => subscription.disposable.listener

theorem registered_new : Registered (new : LanguageSystem ℓ) := ⟨rfl, rfl⟩

theorem Registered.step [DecidableEq ℓ] {s t : LanguageSystem ℓ} {a : LanguageAction ℓ}
    (h : Registered s) (ht : step toLowerCase s a = some t) : Registered t := by
  obtain ⟨hconfig, hlanguage⟩ := h
  cases a with
  | onLanguageChange listener =>
      cases ht
      constructor
      · show (s.service.eventEmitter.on .languageChange listener).listeners .configChange = []
        rw [EventEmitter.listeners_on_other (fun heq => by cases heq), hconfig]
      · show (s.service.eventEmitter.on .languageChange listener).listeners .languageChange = _
        simp [hlanguage]
  | dispose i =>
      obtain ⟨subscription, hi, rfl⟩ := Option.map_eq_some_iff.mp ht
      have hkept : s.service.dispose subscription.disposable = s.service := by
        unfold DefaultSupportedLanguagesService.dispose
        rw [EventEmitter.removeListener_eq_self]
        rw [hconfig]
        exact List.not_mem_nil
      have hsame : (s.subscriptions.set i ⟨subscription.disposable, true⟩).map
          (fun subscription => subscription.disposable.listener) =
            s.subscriptions.map fun subscription => subscription.disposable.listener := by
        apply List.ext_getElem?
        intro j
        grind
      unfold Registered
      rw [hkept, hsame]
      exact ⟨hconfig, hlanguage⟩
  | configChange config =>
      cases ht
      constructor
      · show (s.service.update toLowerCase config).1.eventEmitter.listeners .configChange = []
        rw [DefaultSupportedLanguagesService.eventEmitter_update, hconfig]
      · show (s.service.update toLowerCase config).1.eventEmitter.listeners .languageChange = _
        rw [DefaultSupportedLanguagesService.eventEmitter_update, hlanguage]

theorem changes_iff {s : LanguageSystem ℓ} {config : CodeCompletionConfig} :
    s.Changes toLowerCase config ↔
      s.service.enabledLanguages.isEqual (configuredSet toLowerCase config) = false := by
  rw [DefaultSupportedLanguagesService.isEqual_configuredSet_iff]
  unfold Changes DefaultSupportedLanguagesService.isLanguageEnabled
  rw [DefaultSupportedLanguagesService.enabledLanguages_update]

/-- What one change of the configuration does, in a state that a run reaches. -/
theorem Registered.update_iff {s : LanguageSystem ℓ} {config : CodeCompletionConfig}
    (h : Registered s) :
    (∀ listener, listener ∈ (s.service.update toLowerCase config).2 ↔
      s.Subscribed listener ∧ s.Changes toLowerCase config) ↔
    s.AllStillSubscribed toLowerCase (.configChange config) := by
  have hcalled : ∀ listener, listener ∈ (s.service.update toLowerCase config).2 ↔
      s.Changes toLowerCase config ∧
        ∃ subscription ∈ s.subscriptions, subscription.disposable.listener = listener := by
    intro listener
    rw [DefaultSupportedLanguagesService.mem_update, changes_iff, h.2, List.mem_map]
  constructor
  · intro hall config' hconfig hchanges subscription hmem
    cases hconfig
    rw [← DefaultSupportedLanguagesService.isEqual_configuredSet_iff, ← changes_iff] at hchanges
    exact ((hall _).mp ((hcalled _).mpr ⟨hchanges, subscription, hmem, rfl⟩)).1
  · intro hall listener
    rw [hcalled, and_comm]
    apply and_congr_left
    intro hchanges
    rw [changes_iff, DefaultSupportedLanguagesService.isEqual_configuredSet_iff] at hchanges
    constructor
    · rintro ⟨subscription, hmem, rfl⟩
      exact hall config rfl hchanges subscription hmem
    · intro hsub
      exact ⟨_, hsub, rfl⟩

/-- **Who is notified.** The updates of a run call exactly the listeners that are still subscribed,
and only when the set of the enabled languages changes, if and only if at each such change every
listener that has ever subscribed is still subscribed. -/
theorem notifiesSubscribed_iff [DecidableEq ℓ] (toLowerCase : JsString → JsString)
    (as : List (LanguageAction ℓ)) :
    NotifiesSubscribed toLowerCase (new : LanguageSystem ℓ) as ↔
      Guarded (step toLowerCase) (AllStillSubscribed toLowerCase) new as := by
  have hreg : ∀ {before : List (LanguageAction ℓ)} {t}, run (step toLowerCase) new before = some t →
      Registered t := fun hrun =>
    run_invariant (fun _ _ _ hs ht => hs.step ht) registered_new hrun
  rw [guarded_iff_forall]
  constructor
  · intro hall before a after t has hrun config hconfig
    subst hconfig
    exact (hreg hrun).update_iff.mp (hall before config after t has hrun) config rfl
  · intro hall before config after t has hrun
    exact (hreg hrun).update_iff.mpr (hall before _ after t has hrun)

/-- A listener that has been disposed of is called all the same. -/
theorem not_notifiesSubscribed_of_disposed :
    ¬ NotifiesSubscribed (ℓ := Nat) id new
      [.onLanguageChange 0, .dispose 0,
        .configChange ⟨some [JsString.ofString "clojure"], none⟩] := by
  intro h
  obtain ⟨t, ht⟩ : ∃ t, run (step id) (new : LanguageSystem Nat)
      [.onLanguageChange 0, .dispose 0] = some t := ⟨_, rfl⟩
  have hcalled := h [.onLanguageChange 0, .dispose 0] _ [] t rfl ht 0
  have hsub : ¬ t.Subscribed 0 := by
    cases ht
    unfold Subscribed
    decide +kernel
  have hmem : 0 ∈ (t.service.update id ⟨some [JsString.ofString "clojure"], none⟩).2 := by
    cases ht
    decide +kernel
  exact hsub (hcalled.mp hmem).1

end LanguageSystem
end KhulnasoftLsp.Suggestion
