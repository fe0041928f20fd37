import KhulnasoftLsp.DuoChat.Controller

/-!
# The requests of Duo Chat

A prompt is sent with one of three mutations, and messages are fetched with one of two queries. The
rule that selects one looks at the version of the instance and at the context categories. The choice
is made at the first call and kept from then on, also when it was made without knowing the version.

`allRight_iff` says which runs get by with that. The settings under which a choice was made last are
kept in the state beside it.
-/

namespace KhulnasoftLsp.DuoChat

open Transition

/-- What the package semver answers. A version that is parsed is written as a text again. -/
structure Semver where
  valid : String → Bool
  coerce : String → Option String
  gte : String → String → Bool

/-- `ifVersionGte` -/
def ifVersionGte {T : Type} (semver : Semver) (current minimumRequiredVersion : String)
    (thenValue otherwise : T) : Except String T :=
  if !semver.valid minimumRequiredVersion then
    .error s!"minimumRequiredVersion argument {minimumRequiredVersion} isn't valid"
  else
    match semver.coerce current with
    | none => .ok thenValue
    | some parsedCurrent =>
      if semver.gte parsedCurrent minimumRequiredVersion then .ok thenValue else .ok otherwise

/-! ## Templates -/

def platformOrigin : String := "vs_code_extension"

/-- `CHAT_INPUT_TEMPLATE_17_2_AND_EARLIER` and the two later ones -/
inductive ChatInputTemplate where
  | v17_2AndEarlier
  | v17_3AndLater
  | v17_5AndLater
  deriving DecidableEq, Repr

namespace ChatInputTemplate

/-- The variables that the mutation declares. -/
def declaredVariables : ChatInputTemplate → List String
  | v17_2AndEarlier => ["question", "resourceId", "currentFileContext", "clientSubscriptionId"]
  | v17_3AndLater =>
    ["question", "resourceId", "currentFileContext", "clientSubscriptionId", "platformOrigin"]
  | v17_5AndLater =>
    ["question", "resourceId", "currentFileContext", "clientSubscriptionId", "platformOrigin",
      "additionalContext"]

/-- `defaultVariables.platformOrigin` -/
def defaultPlatformOrigin : ChatInputTemplate → Option String
  | v17_2AndEarlier => none
  | v17_3AndLater => some platformOrigin
  | v17_5AndLater => some platformOrigin

/-- A template sets the platform when its mutation declares it. -/
theorem defaultPlatformOrigin_isSome (t : ChatInputTemplate) :
    t.defaultPlatformOrigin.isSome ↔ "platformOrigin" ∈ t.declaredVariables := by
  cases t <;> decide

end ChatInputTemplate

/-- `AI_MESSAGES_QUERY` and `AI_MESSAGES_QUERY_17_5_AND_LATER` -/
inductive MessagesQuery where
  | aiMessagesQuery
  | v17_5AndLater
  deriving DecidableEq, Repr

/-- What the choice of a template depends on: the version of the instance, and what
`getAvailableCategories` gives, `none` where it throws. -/
structure ChatSettings where
  version : Option String
  categories : Option (List String)
  deriving DecidableEq, Repr

section Selection

variable (semver : Semver)

def minimumPlatformOriginFieldVersion : String := "17.3.0"
def minimumAdditionalContextFieldVersion : String := "17.5.0-pre"

namespace ChatSettings

/-- `#isAdditionalContextEnabled` -/
def isAdditionalContextEnabled (settings : ChatSettings) : Bool :=
  match settings.categories with
  | some categories => !categories.isEmpty
  | none => false

/-- `#gitLabVersion`, unless it is missing or empty -/
def knownVersion (settings : ChatSettings) : Option String := settings.version.filter (!·.isEmpty)

/-- The rule of `#actionMutation` -/
def actionMutation (settings : ChatSettings) : ChatInputTemplate :=
  match settings.knownVersion with
  | none => .v17_3AndLater
  | some version =>
    let later : ChatInputTemplate :=
      if settings.isAdditionalContextEnabled then .v17_5AndLater else .v17_3AndLater
    match ifVersionGte semver version minimumPlatformOriginFieldVersion later .v17_2AndEarlier with
    | .ok template => template
    | .error _ => .v17_3AndLater

/-- The rule of `#messagesQuery` -/
def messagesQuery (settings : ChatSettings) : MessagesQuery :=
  match settings.knownVersion with
  | none => .aiMessagesQuery
  | some version =>
    match ifVersionGte semver version minimumAdditionalContextFieldVersion .v17_5AndLater
      MessagesQuery.aiMessagesQuery with
    | .ok query => query
    | .error _ => .aiMessagesQuery

end ChatSettings

end Selection

/-! ## Requests -/

structure ActiveFileContext where
  fileName : String
  selectedText : String
  contentAboveCursor : Option String
  contentBelowCursor : Option String
  deriving DecidableEq, Repr

structure AiContextItemRequest where
  id : String
  category : String
  content : String
  deriving DecidableEq, Repr

structure AiActionVariables where
  question : String
  currentFileContext : Option ActiveFileContext
  additionalContext : Option (List AiContextItemRequest)
  clientSubscriptionId : Option String
  deriving DecidableEq, Repr

inductive ChatCall where
  | sendAiAction (args : AiActionVariables)
  | getAiMessage (requestId role : String)
  deriving DecidableEq, Repr

def processNewUserPrompt (question : String) (subscriptionId : Option String)
    (currentFileContext : Option ActiveFileContext) (aiContextItems : Option (List AIContextItem)) :
    ChatCall :=
  .sendAiAction
    { question, currentFileContext
      additionalContext := aiContextItems.map fun items => items.map fun item =>
        { id := item.id, category := item.category.toUpper, content := item.content.getD "" }
      clientSubscriptionId := subscriptionId }

def clearChat : ChatCall := .sendAiAction ⟨"/clear", none, none, none⟩

def resetChat : ChatCall := .sendAiAction ⟨"/reset", none, none, none⟩

inductive ChatRequest where
  | aiAction (template : ChatInputTemplate) (args : AiActionVariables)
      (platformOrigin : Option String) (resourceId : Option String)
  | aiMessages (query : MessagesQuery) (requestIds roles : List String)
  deriving DecidableEq, Repr

/-- A request with the settings of the moment in which it was sent. -/
structure SentRequest where
  settings : ChatSettings
  request : ChatRequest
  deriving DecidableEq, Repr

/-- A choice that is kept, and the settings that it was made under. -/
structure CachedChoice (τ : Type) where
  value : Option τ
  madeFor : Option ChatSettings
  deriving DecidableEq, Repr

structure KhulnaSoftChatApi where
  settings : ChatSettings
  cachedActionMutation : CachedChoice ChatInputTemplate
  cachedMessagesQuery : CachedChoice MessagesQuery
  nextCall : Nat
  /-- The calls that wait for the available categories. -/
  waiting : List (Nat × ChatCall)
  sent : List SentRequest
  deriving DecidableEq, Repr

inductive ChatAction where
  | instanceVersion (version : Option String)
  | availableCategories (categories : Option (List String))
  | call (call : ChatCall)
  /-- `getAvailableCategories` has answered a call. -/
  | categoriesAnswered (call : Nat)
  deriving DecidableEq, Repr

namespace KhulnaSoftChatApi

variable (semver : Semver)

def new (settings : ChatSettings) : KhulnaSoftChatApi where
  settings
  cachedActionMutation := ⟨none, none⟩
  cachedMessagesQuery := ⟨none, none⟩
  nextCall := 0
  waiting := []
  sent := []

def send (request : ChatRequest) (s : KhulnaSoftChatApi) : KhulnaSoftChatApi :=
  { s with sent := s.sent ++ [⟨s.settings, request⟩] }

/-- `#sendAiAction` with the mutation it has been given. -/
def sendAiAction (template : ChatInputTemplate) (args : AiActionVariables)
    (s : KhulnaSoftChatApi) : KhulnaSoftChatApi :=
  s.send (.aiAction template args template.defaultPlatformOrigin none)

/-- `#getAiMessage` with the query it has been given. -/
def getAiMessage (query : MessagesQuery) (requestId role : String) (s : KhulnaSoftChatApi) :
    KhulnaSoftChatApi :=
  s.send (.aiMessages query [requestId] [role.toUpper])

def wait (call : ChatCall) (s : KhulnaSoftChatApi) : KhulnaSoftChatApi :=
  { s with nextCall := s.nextCall + 1, waiting := s.waiting ++ [(s.nextCall, call)] }

/-- A call, up to its request or to the question for the categories. -/
def call (call : ChatCall) (s : KhulnaSoftChatApi) : KhulnaSoftChatApi :=
  match call with
  | .sendAiAction args =>
    match s.cachedActionMutation.value with
    | some template => s.sendAiAction template args
    | none => s.wait call
  | .getAiMessage requestId role =>
    match s.cachedMessagesQuery.value with
    | some query => s.getAiMessage query requestId role
    | none => s.wait call

/-- A call that has waited makes the choice, keeps it, and sends its request. -/
def choose (call : ChatCall) (s : KhulnaSoftChatApi) : KhulnaSoftChatApi :=
  match call with
  | .sendAiAction args =>
    let template := s.settings.actionMutation semver
    { s with cachedActionMutation := ⟨some template, some s.settings⟩ }.sendAiAction template
      args
  | .getAiMessage requestId role =>
    let query := s.settings.messagesQuery semver
    { s with cachedMessagesQuery := ⟨some query, some s.settings⟩ }.getAiMessage query requestId
      role

def step (s : KhulnaSoftChatApi) : ChatAction → Option KhulnaSoftChatApi
  | .instanceVersion version => some { s with settings := { s.settings with version } }
  | .availableCategories categories => some { s with settings := { s.settings with categories } }
  | .call c => some (s.call c)
  | .categoriesAnswered id =>
    (s.waiting.find? (·.1 == id)).map fun entry =>
      { s with waiting := s.waiting.filter (·.1 != id) }.choose semver entry.2

end KhulnaSoftChatApi

/-! ## Requests that follow the rule -/

section Right

variable (semver : Semver)

/-- The request has the template that the rule gives for the settings of its moment. -/
def SentRequest.Right (r : SentRequest) : Prop :=
  match r.request with
  | .aiAction template _ _ _ => template = r.settings.actionMutation semver
  | .aiMessages query _ _ => query = r.settings.messagesQuery semver

/-- A choice was made by the rule `select`. -/
def CachedChoice.MadeBy {τ : Type} (select : ChatSettings → τ) (c : CachedChoice τ) : Prop :=
  c.value = c.madeFor.map select

namespace KhulnaSoftChatApi

def AllRight (s : KhulnaSoftChatApi) : Prop := ∀ r ∈ s.sent, r.Right semver

/-- If a choice has been made, then the rule gives the same for the settings of now. -/
def ChoiceHolds (s : KhulnaSoftChatApi) : ChatAction → Prop
  | .call (.sendAiAction _) => ∀ settings ∈ s.cachedActionMutation.madeFor,
      settings.actionMutation semver = s.settings.actionMutation semver
  | .call (.getAiMessage _ _) => ∀ settings ∈ s.cachedMessagesQuery.madeFor,
      settings.messagesQuery semver = s.settings.messagesQuery semver
  | _ => True

structure MadeByRule (s : KhulnaSoftChatApi) : Prop where
  actionMutation : s.cachedActionMutation.MadeBy (·.actionMutation semver)
  messagesQuery : s.cachedMessagesQuery.MadeBy (·.messagesQuery semver)

variable {semver} {s t : KhulnaSoftChatApi}

theorem allRight_send {request : ChatRequest} :
    (s.send request).AllRight semver ↔
      s.AllRight semver ∧ SentRequest.Right semver ⟨s.settings, request⟩ := by
  simp [AllRight, send, or_imp, forall_and]

theorem call_madeByRule (c : ChatCall) (hs : s.MadeByRule semver) :
    (s.call c).MadeByRule semver := by
  cases c with
  | sendAiAction args =>
      unfold call
      cases s.cachedActionMutation.value <;> exact ⟨hs.actionMutation, hs.messagesQuery⟩
  | getAiMessage requestId role =>
      unfold call
      cases s.cachedMessagesQuery.value <;> exact ⟨hs.actionMutation, hs.messagesQuery⟩

theorem choose_madeByRule (c : ChatCall) (hs : s.MadeByRule semver) :
    (s.choose semver c).MadeByRule semver := by
  cases c with
  | sendAiAction args => exact ⟨rfl, hs.messagesQuery⟩
  | getAiMessage requestId role => exact ⟨hs.actionMutation, rfl⟩

theorem madeByRule_step {a : ChatAction} (hs : s.MadeByRule semver)
    (h : step semver s a = some t) : t.MadeByRule semver := by
  cases a with
  | instanceVersion version =>
      cases h
      exact ⟨hs.actionMutation, hs.messagesQuery⟩
  | availableCategories categories =>
      cases h
      exact ⟨hs.actionMutation, hs.messagesQuery⟩
  | call c =>
      cases h
      exact call_madeByRule c hs
  | categoriesAnswered id =>
      obtain ⟨entry, -, rfl⟩ := Option.map_eq_some_iff.mp h
      exact choose_madeByRule entry.2 ⟨hs.actionMutation, hs.messagesQuery⟩

/-- A call keeps to the rule when the choice it finds holds. -/
theorem allRight_call (c : ChatCall) (hs : s.MadeByRule semver) (hright : s.AllRight semver) :
    (s.call c).AllRight semver ↔ s.ChoiceHolds semver (.call c) := by
  cases c with
  | sendAiAction args =>
      have hmade := hs.actionMutation
      rw [CachedChoice.MadeBy] at hmade
      simp only [call, ChoiceHolds, hmade]
      cases s.cachedActionMutation.madeFor with
      | none => exact iff_of_true hright (by simp)
      | some settings =>
          simp only [Option.map_some, sendAiAction, allRight_send, SentRequest.Right]
          simp [hright]
  | getAiMessage requestId role =>
      have hmade := hs.messagesQuery
      rw [CachedChoice.MadeBy] at hmade
      simp only [call, ChoiceHolds, hmade]
      cases s.cachedMessagesQuery.madeFor with
      | none => exact iff_of_true hright (by simp)
      | some settings =>
          simp only [Option.map_some, getAiMessage, allRight_send, SentRequest.Right]
          simp [hright]

/-- A choice that is made now is right now. -/
theorem allRight_choose (c : ChatCall) (hright : s.AllRight semver) :
    (s.choose semver c).AllRight semver := by
  cases c with
  | sendAiAction args =>
      unfold choose sendAiAction
      exact allRight_send.mpr ⟨hright, rfl⟩
  | getAiMessage requestId role =>
      unfold choose getAiMessage
      exact allRight_send.mpr ⟨hright, rfl⟩

theorem allRight_step {a : ChatAction} (hs : s.MadeByRule semver) (hright : s.AllRight semver)
    (h : step semver s a = some t) : t.AllRight semver ↔ s.ChoiceHolds semver a := by
  cases a with
  | instanceVersion version =>
      cases h
      exact iff_of_true hright trivial
  | availableCategories categories =>
      cases h
      exact iff_of_true hright trivial
  | call c =>
      cases h
      exact allRight_call c hs hright
  | categoriesAnswered id =>
      obtain ⟨entry, -, rfl⟩ := Option.map_eq_some_iff.mp h
      exact iff_of_true (allRight_choose entry.2 hright) trivial

/-- What is sent is never taken back. -/
theorem sent_subset_step {a : ChatAction} (h : step semver s a = some t) : s.sent ⊆ t.sent := by
  cases a with
  | instanceVersion version =>
      cases h
      exact List.Subset.refl _
  | availableCategories categories =>
      cases h
      exact List.Subset.refl _
  | call c =>
      cases h
      unfold call
      split
      all_goals
        split
        · exact List.subset_append_left _ _
        · exact List.Subset.refl _
  | categoriesAnswered id =>
      obtain ⟨entry, -, rfl⟩ := Option.map_eq_some_iff.mp h
      unfold choose
      split <;> exact List.subset_append_left _ _

/-- **Which runs keep to the rule.** Every request of a run has the template that the rule gives for
the version and the categories of its moment if and only if every call that finds a choice finds one
that the rule would make now. -/
theorem allRight_iff {settings : ChatSettings} {actions : List ChatAction}
    (h : run (step semver) (new settings) actions = some t) :
    t.AllRight semver ↔ Guarded (step semver) (ChoiceHolds semver) (new settings) actions :=
  guarded_iff (I := MadeByRule semver) (fun _ _ _ hs _ _ hstep => madeByRule_step hs hstep)
    (fun _ _ _ hs hright hstep => allRight_step hs hright hstep)
    (fun _ _ _ hstep hright r hr => hright r (sent_subset_step hstep hr))
    ⟨rfl, rfl⟩ (by simp [AllRight, new]) h

/-! ### A choice made without the version -/

/-- The versions of the sample, of which only `17.6.0` is new enough for the later templates. -/
def sampleSemver : Semver where
  valid _ := true
  coerce version := some version
  gte current _ := current == "17.6.0"

def samplePrompt : ChatAction := .call (processNewUserPrompt "Hello" none none none)

/-- A prompt before the version is known, and one to an instance that is too old. -/
def sampleActions : List ChatAction :=
  [samplePrompt, .categoriesAnswered 0, .instanceVersion (some "16.11.0"), samplePrompt]

def sampleEnd : KhulnaSoftChatApi :=
  (run (step sampleSemver) (new ⟨none, some []⟩) sampleActions).getD (new ⟨none, some []⟩)

theorem sample_run : run (step sampleSemver) (new ⟨none, some []⟩) sampleActions = some sampleEnd :=
  rfl

theorem allRight_iff_sample :
    run (step sampleSemver) (new ⟨none, some []⟩) sampleActions = some sampleEnd ∧
      (sampleEnd.AllRight sampleSemver ↔
        Guarded (step sampleSemver) (ChoiceHolds sampleSemver) (new ⟨none, some []⟩)
          sampleActions) :=
  ⟨sample_run, allRight_iff sample_run⟩

/-- The second prompt goes out with a variable that the instance does not know. -/
theorem fallback_kept_for_old_instance :
    run (step sampleSemver) (new ⟨none, some []⟩) sampleActions = some sampleEnd ∧
      sampleEnd.settings.actionMutation sampleSemver = .v17_2AndEarlier ∧
      ¬ sampleEnd.AllRight sampleSemver := by
  refine ⟨sample_run, by decide +kernel, ?_⟩
  intro h
  have hlast : (⟨⟨some "16.11.0", some []⟩, .aiAction .v17_3AndLater ⟨"Hello", none, none, none⟩
      (some platformOrigin) none⟩ : SentRequest) ∈ sampleEnd.sent := by decide +kernel
  have hright : ChatInputTemplate.v17_3AndLater =
      ChatSettings.actionMutation sampleSemver ⟨some "16.11.0", some []⟩ := h _ hlast
  exact absurd hright (by decide +kernel)

end KhulnaSoftChatApi

end Right

end KhulnasoftLsp.DuoChat
