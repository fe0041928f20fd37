import KhulnasoftLsp.Transition
import Mathlib.Logic.Function.Basic

/-!
# The answers of Duo Chat

The chat controller subscribes to the answers of a prompt before it sends the prompt. The answers
come over a websocket: chunks, and then one message with the whole content. Each updates the record
with its request id in the history. That id is known from the response to the prompt, which comes
over HTTP, and the records of the prompt are added to the history only after that.
-/

namespace KhulnasoftLsp.DuoChat

open Transition

/-! ## Records -/

inductive ChatRecordRole where
  | user
  | assistant
  | system
  deriving DecidableEq, Repr

inductive ChatRecordState where
  | pending
  | ready
  deriving DecidableEq, Repr

inductive ChatRecordType where
  | general
  | explainCode
  | generateTests
  | refactorCode
  | newConversation
  | fixCode
  deriving DecidableEq, Repr

structure AIContextItem where
  id : String
  category : String
  content : Option String
  deriving DecidableEq, Repr

structure ChatRecordExtras where
  sources : List String
  contextItems : Option (List AIContextItem)
  deriving DecidableEq, Repr

structure KhulnaSoftChatRecord where
  chunkId : Option Nat
  role : ChatRecordRole
  content : Option String
  requestId : Option String
  state : ChatRecordState
  type : ChatRecordType
  errors : List String
  extras : Option ChatRecordExtras
  deriving DecidableEq, Repr

/-- `SPECIAL_MESSAGES.RESET` -/
def RESET : String := "/reset"

def detectType (content : Option String) : ChatRecordType :=
  if content = some RESET then .newConversation else .general

/-- The record in which the answer is awaited. -/
def responseRecord (requestId : Option String) : KhulnaSoftChatRecord where
  chunkId := none
  role := .assistant
  content := none
  requestId
  state := .pending
  type := detectType none
  errors := []
  extras := none

/-- A message of the websocket. Its role is compared without regard to case. -/
structure AiCompletionResponseMessageType where
  requestId : String
  role : ChatRecordRole
  content : String
  errors : List String
  extras : Option ChatRecordExtras
  chunkId : Option Nat
  deriving DecidableEq, Repr

namespace KhulnaSoftChatRecord

/-- The update of a record by the response to its prompt. -/
def updateAction (requestId : String) (errors : List String) (record : KhulnaSoftChatRecord) :
    KhulnaSoftChatRecord :=
  { record with requestId := some requestId, errors }

def updateErrors (errors : List String) (record : KhulnaSoftChatRecord) : KhulnaSoftChatRecord :=
  { record with errors }

/-- The update of a record by a message. -/
def updateWith (data : AiCompletionResponseMessageType)
    (record : KhulnaSoftChatRecord) : KhulnaSoftChatRecord :=
  { record with
    chunkId := data.chunkId
    content := some data.content
    extras := some {
      sources := (data.extras.map ChatRecordExtras.sources).getD []
      contextItems := data.extras.bind fun extras => extras.contextItems.map fun contextItems =>
        contextItems.map fun context => { context with category := context.category.toLower } }
    errors := data.errors
    state := .ready }

end KhulnaSoftChatRecord

/-! ## The channel -/

inductive ChannelEvent where
  | systemMessage
  | newChunk
  | fullMessage
  deriving DecidableEq, Repr

/-- `receive` of `AiCompletionResponseChannel`: the event that is emitted. -/
def receive (data : AiCompletionResponseMessageType) : ChannelEvent :=
  if data.role = .system then .systemMessage
  else match data.chunkId with
    | some (_ + 1) => .newChunk
    | _ => .fullMessage

/-! ## The controller -/

/-- How far `processNewUserRecord` has come. -/
inductive Phase where
  /-- It is subscribed, and awaits the response to the prompt. -/
  | aiAction
  /-- It has added the record of the user. -/
  | userRecordAdded
  | processed
  /-- The prompt could not be sent. -/
  | failed
  deriving DecidableEq, Repr

structure Prompt where
  record : KhulnaSoftChatRecord
  phase : Phase
  connected : Bool
  fullMessageReceived : Bool
  /-- The content of the full message, once it has been delivered. -/
  delivered : Option String
  deriving DecidableEq, Repr

inductive WebviewNotification where
  | newRecord (record : KhulnaSoftChatRecord)
  | updateRecord (record : KhulnaSoftChatRecord)
  deriving DecidableEq, Repr

structure KhulnaSoftChatController where
  chatHistory : List KhulnaSoftChatRecord
  canceledPromptRequestIds : List String
  /-- The prompts, under the request ids that the server has given to them. -/
  prompts : String → Option Prompt
  webview : List WebviewNotification

/-- What happens to the prompt that the server knows under a request id. -/
inductive ChatEvent where
  /-- A prompt is made, and the subscription to its answers is established. -/
  | subscribed (requestId : String) (record : KhulnaSoftChatRecord)
  | actionResponse (requestId : String) (errors : List String)
  | actionError (requestId : String) (message : String)
  /-- `processNewUserRecord` goes on after it has added the record of the user. -/
  | userRecordAdded (requestId : String)
  | message (data : AiCompletionResponseMessageType)
  | cancelPrompt (requestId : String)
  deriving DecidableEq, Repr

/-- `find` of an array, followed by an update of what was found. -/
def updateFirst {α : Type*} (p : α → Bool) (f : α → α) : List α → List α
  | [] => []
  | a :: as => if p a then f a :: as else a :: updateFirst p f as

namespace KhulnaSoftChatController

def new : KhulnaSoftChatController where
  chatHistory := []
  canceledPromptRequestIds := []
  prompts := fun _ => none
  webview := []

def setPrompt (requestId : String) (prompt : Prompt) (s : KhulnaSoftChatController) :
    KhulnaSoftChatController :=
  { s with prompts := Function.update s.prompts requestId (some prompt) }

def addToChat (record : KhulnaSoftChatRecord) (s : KhulnaSoftChatController) :
    KhulnaSoftChatController :=
  { s with
    chatHistory := s.chatHistory ++ [record]
    webview := s.webview ++ [.newRecord record] }

/-- Whether a record is the one that `#findRecord` looks for. -/
def isRecordOf (requestId : String) (role : ChatRecordRole) (record : KhulnaSoftChatRecord) :
    Bool :=
  record.requestId == some requestId && record.role == role

def subscriptionUpdateHandler (data : AiCompletionResponseMessageType)
    (s : KhulnaSoftChatController) :
    KhulnaSoftChatController :=
  match s.chatHistory.find? (isRecordOf data.requestId data.role) with
  | none => s
  | some record =>
    { s with
      chatHistory := updateFirst (isRecordOf data.requestId data.role)
        (KhulnaSoftChatRecord.updateWith data) s.chatHistory
      webview := s.webview ++ [.updateRecord (record.updateWith data)] }

/-- The listener of `newChunk` -/
def onNewChunk (prompt : Prompt) (data : AiCompletionResponseMessageType)
    (s : KhulnaSoftChatController) :
    KhulnaSoftChatController :=
  if prompt.fullMessageReceived then s
  else if data.requestId ∈ s.canceledPromptRequestIds then s
  else s.subscriptionUpdateHandler data

/-- The listener of `fullMessage` -/
def onFullMessage (prompt : Prompt) (data : AiCompletionResponseMessageType)
    (s : KhulnaSoftChatController) : KhulnaSoftChatController :=
  let s := s.setPrompt data.requestId { prompt with
    fullMessageReceived := true
    delivered := some data.content
    connected := false }
  if data.requestId ∈ s.canceledPromptRequestIds then s
  else s.subscriptionUpdateHandler data

def step (s : KhulnaSoftChatController) : ChatEvent → Option KhulnaSoftChatController
  | .subscribed requestId record =>
    -- the server gives every prompt an id of its own
    if s.prompts requestId = none ∧ record.role = .user ∧ record.requestId = none then
      if record.content = none ∨ record.content = some "" then some s
      else some (s.setPrompt requestId ⟨record, .aiAction, true, false, none⟩)
    else none
  | .actionResponse requestId errors => do
    let prompt ← s.prompts requestId
    if prompt.phase = .aiAction then
      let record := prompt.record.updateAction requestId errors
      some ((s.setPrompt requestId { prompt with record, phase := .userRecordAdded }).addToChat
        record)
    else none
  | .actionError requestId message => do
    let prompt ← s.prompts requestId
    if prompt.phase = .aiAction then
      let record := prompt.record.updateErrors
        ["Failed to send the chat message to the API: " ++ message]
      some (s.setPrompt requestId { prompt with record, phase := .failed, connected := false })
    else none
  | .userRecordAdded requestId => do
    let prompt ← s.prompts requestId
    if prompt.phase = .userRecordAdded then
      let s := s.setPrompt requestId { prompt with phase := .processed }
      if prompt.record.type = .newConversation then some s
      else some (s.addToChat (responseRecord prompt.record.requestId))
    else none
  | .message data => do
    let prompt ← s.prompts data.requestId
    -- the server sends no messages of the user
    if data.role = .user then none
    else match receive data with
      | .systemMessage => some s
      | .newChunk => some (s.onNewChunk prompt data)
      | .fullMessage =>
        if prompt.delivered = none then some (s.onFullMessage prompt data) else none
  | .cancelPrompt requestId =>
    some { s with canceledPromptRequestIds := s.canceledPromptRequestIds ++ [requestId] }

/-! ## What it is for -/

/-- The records of the answers to a prompt. -/
def answersTo (s : KhulnaSoftChatController) (requestId : String) : List KhulnaSoftChatRecord :=
  s.chatHistory.filter (isRecordOf requestId .assistant)

/-- Once the response to a prompt is processed and its full message is delivered, there is one
record for the answer, with the content of the full message, unless the prompt is cancelled. -/
def AnsweredTo (s : KhulnaSoftChatController) (requestId : String) : Prop :=
  ∀ prompt ∈ s.prompts requestId, ∀ content ∈ prompt.delivered, prompt.phase = .processed →
    requestId ∉ s.canceledPromptRequestIds →
    ∃ record, s.answersTo requestId = [record] ∧ record.content = some content ∧
      record.state = .ready

def Answered (s : KhulnaSoftChatController) : Prop := ∀ requestId, s.AnsweredTo requestId

/-- The full message is delivered after the record for the answer is added, and there is one. -/
def InOrder (s : KhulnaSoftChatController) : ChatEvent → Prop
  | .userRecordAdded requestId => requestId ∉ s.canceledPromptRequestIds →
    ∀ prompt ∈ s.prompts requestId, prompt.delivered = none
  | .message data => receive data = .fullMessage → data.requestId ∉ s.canceledPromptRequestIds →
    ∀ prompt ∈ s.prompts data.requestId, prompt.phase = .processed →
      prompt.record.type ≠ .newConversation
  | _ => True

end KhulnaSoftChatController

/-! ## Updates of the first that is found -/

section UpdateFirst

variable {α : Type*} {p q : α → Bool} {f : α → α}

theorem updateFirst_of_find?_eq_none {l : List α} (h : l.find? p = none) :
    updateFirst p f l = l := by
  induction l with
  | nil => rfl
  | cons a as ih =>
    rw [List.find?_cons] at h
    split at h
    · nomatch h
    · next hp => simp [updateFirst, hp, ih h]

theorem filter_updateFirst (hf : ∀ a, p (f a) = p a) (l : List α) :
    (updateFirst p f l).filter p = (l.filter p).modifyHead f := by
  induction l with
  | nil => rfl
  | cons a as ih =>
    unfold updateFirst
    by_cases hp : p a = true
    · rw [if_pos hp, List.filter_cons_of_pos (by rw [hf, hp]), List.filter_cons_of_pos hp]
      rfl
    · rw [if_neg hp, List.filter_cons_of_neg hp, List.filter_cons_of_neg hp, ih]

theorem filter_updateFirst_of_disjoint (hf : ∀ a, q (f a) = q a) (h : ∀ a, p a = true → q a = false)
    (l : List α) : (updateFirst p f l).filter q = l.filter q := by
  induction l with
  | nil => rfl
  | cons a as ih =>
    unfold updateFirst
    by_cases hp : p a = true
    · have hq : ¬ q a = true := by simp [h a hp]
      have hqf : ¬ q (f a) = true := by simp [hf, h a hp]
      rw [if_pos hp, List.filter_cons_of_neg hq, List.filter_cons_of_neg hqf]
    · rw [if_neg hp, List.filter_cons, List.filter_cons, ih]

end UpdateFirst

namespace KhulnaSoftChatController

theorem isRecordOf_updateWith (data : AiCompletionResponseMessageType) (requestId : String)
    (role : ChatRecordRole) (record : KhulnaSoftChatRecord) :
    isRecordOf requestId role (record.updateWith data) = isRecordOf requestId role record := rfl

/-! ## What the steps do to the answers -/

theorem prompts_setPrompt (s : KhulnaSoftChatController) (requestId : String) (prompt : Prompt) :
    (s.setPrompt requestId prompt).prompts requestId = some prompt := Function.update_self _ _ _

theorem answersTo_addToChat (s : KhulnaSoftChatController) (record : KhulnaSoftChatRecord)
    (requestId : String) :
    (s.addToChat record).answersTo requestId =
      s.answersTo requestId ++ [record].filter (isRecordOf requestId .assistant) :=
  List.filter_append _ _

theorem answersTo_addToChat_of_user (s : KhulnaSoftChatController) {record : KhulnaSoftChatRecord}
    (h : record.role = .user) (requestId : String) :
    (s.addToChat record).answersTo requestId = s.answersTo requestId := by
  rw [answersTo_addToChat]
  simp [isRecordOf, h]

theorem chatHistory_subscriptionUpdateHandler (s : KhulnaSoftChatController)
    (data : AiCompletionResponseMessageType) :
    (s.subscriptionUpdateHandler data).chatHistory =
      updateFirst (isRecordOf data.requestId data.role) (KhulnaSoftChatRecord.updateWith data)
        s.chatHistory := by
  unfold subscriptionUpdateHandler
  split
  · next h => exact (updateFirst_of_find?_eq_none h).symm
  · rfl

@[simp] theorem prompts_subscriptionUpdateHandler (s : KhulnaSoftChatController)
    (data : AiCompletionResponseMessageType) :
    (s.subscriptionUpdateHandler data).prompts = s.prompts := by
  unfold subscriptionUpdateHandler
  split <;> rfl

@[simp] theorem canceled_subscriptionUpdateHandler (s : KhulnaSoftChatController)
    (data : AiCompletionResponseMessageType) :
    (s.subscriptionUpdateHandler data).canceledPromptRequestIds = s.canceledPromptRequestIds := by
  unfold subscriptionUpdateHandler
  split <;> rfl

theorem answersTo_subscriptionUpdateHandler (s : KhulnaSoftChatController)
    {data : AiCompletionResponseMessageType} (h : data.role = .assistant) :
    (s.subscriptionUpdateHandler data).answersTo data.requestId =
      (s.answersTo data.requestId).modifyHead (KhulnaSoftChatRecord.updateWith data) := by
  unfold answersTo
  rw [chatHistory_subscriptionUpdateHandler, h]
  exact filter_updateFirst (isRecordOf_updateWith data _ _) _

theorem answersTo_subscriptionUpdateHandler_of_ne (s : KhulnaSoftChatController)
    {data : AiCompletionResponseMessageType} {requestId : String} (h : requestId ≠ data.requestId) :
    (s.subscriptionUpdateHandler data).answersTo requestId = s.answersTo requestId := by
  unfold answersTo
  rw [chatHistory_subscriptionUpdateHandler]
  apply filter_updateFirst_of_disjoint (isRecordOf_updateWith data _ _)
  intro record hrecord
  simp only [isRecordOf, Bool.and_eq_true, beq_iff_eq] at hrecord
  simp [isRecordOf, hrecord.1, h.symm]

end KhulnaSoftChatController

def ChatEvent.requestId : ChatEvent → String
  | .subscribed requestId _ => requestId
  | .actionResponse requestId _ => requestId
  | .actionError requestId _ => requestId
  | .userRecordAdded requestId => requestId
  | .message data => data.requestId
  | .cancelPrompt requestId => requestId

namespace KhulnaSoftChatController

/-- What one prompt has to do with: its state, the records of its answer, and whether it is
cancelled. -/
structure Same (s t : KhulnaSoftChatController) (requestId : String) : Prop where
  prompts : t.prompts requestId = s.prompts requestId
  answersTo : t.answersTo requestId = s.answersTo requestId
  canceled : requestId ∈ t.canceledPromptRequestIds ↔ requestId ∈ s.canceledPromptRequestIds

theorem Same.refl (s : KhulnaSoftChatController) (requestId : String) : Same s s requestId :=
  ⟨rfl, rfl, Iff.rfl⟩

theorem Same.trans {s t u : KhulnaSoftChatController} {requestId : String} (h : Same s t requestId)
    (h' : Same t u requestId) : Same s u requestId :=
  ⟨h'.prompts.trans h.prompts, h'.answersTo.trans h.answersTo, h'.canceled.trans h.canceled⟩

theorem same_setPrompt (s : KhulnaSoftChatController) (prompt : Prompt)
    {requestId requestId' : String}
    (h : requestId' ≠ requestId) : Same s (s.setPrompt requestId prompt) requestId' :=
  ⟨Function.update_of_ne h _ _, rfl, Iff.rfl⟩

theorem same_addToChat (s : KhulnaSoftChatController) {record : KhulnaSoftChatRecord}
    {requestId : String}
    (h : isRecordOf requestId .assistant record = false) :
    Same s (s.addToChat record) requestId := by
  refine ⟨rfl, ?_, Iff.rfl⟩
  rw [answersTo_addToChat]
  simp [h]

theorem same_subscriptionUpdateHandler (s : KhulnaSoftChatController)
    (data : AiCompletionResponseMessageType) {requestId : String} (h : requestId ≠ data.requestId) :
    Same s (s.subscriptionUpdateHandler data) requestId :=
  ⟨by simp, answersTo_subscriptionUpdateHandler_of_ne s h, by simp⟩

theorem isRecordOf_of_ne {record : KhulnaSoftChatRecord} {requestId requestId' : String}
    (h : record.requestId = some requestId') (hne : requestId ≠ requestId')
    (role : ChatRecordRole) : isRecordOf requestId role record = false := by
  have hid : (record.requestId == some requestId) = false := by simpa [h] using hne.symm
  rw [isRecordOf, hid, Bool.false_and]

/-- A message is ignored, or it updates the record. -/
theorem onNewChunk_cases (s : KhulnaSoftChatController) (prompt : Prompt)
    (data : AiCompletionResponseMessageType) :
    s.onNewChunk prompt data = s ∨
      (prompt.fullMessageReceived = false ∧
        s.onNewChunk prompt data = s.subscriptionUpdateHandler data) := by
  unfold onNewChunk
  cases prompt.fullMessageReceived with
  | true => exact Or.inl (if_pos rfl)
  | false =>
    rw [if_neg Bool.false_ne_true]
    split
    · exact Or.inl rfl
    · exact Or.inr ⟨rfl, rfl⟩

/-- The prompts are independent of each other. -/
theorem step_same {s t : KhulnaSoftChatController} {e : ChatEvent} (h : s.step e = some t)
    (hrequestId : ∀ prompt ∈ s.prompts e.requestId, prompt.phase = .userRecordAdded →
      prompt.record.requestId = some e.requestId)
    {requestId : String} (hne : requestId ≠ e.requestId) : Same s t requestId := by
  cases e with
  | subscribed requestId' record =>
    obtain ⟨-, hstep⟩ := Option.ite_none_right_eq_some.mp h
    split at hstep
    · cases hstep
      exact Same.refl s requestId
    · cases hstep
      exact same_setPrompt s _ hne
  | actionResponse requestId' errors =>
    obtain ⟨prompt, -, hstep⟩ := Option.bind_eq_some_iff.mp h
    obtain ⟨-, hstep⟩ := Option.ite_none_right_eq_some.mp hstep
    cases hstep
    apply (same_setPrompt s _ hne).trans
    exact same_addToChat _ (isRecordOf_of_ne rfl hne _)
  | actionError requestId' message =>
    obtain ⟨prompt, -, hstep⟩ := Option.bind_eq_some_iff.mp h
    obtain ⟨-, hstep⟩ := Option.ite_none_right_eq_some.mp hstep
    cases hstep
    exact same_setPrompt s _ hne
  | userRecordAdded requestId' =>
    obtain ⟨prompt, hprompt, hstep⟩ := Option.bind_eq_some_iff.mp h
    obtain ⟨hphase, hstep⟩ := Option.ite_none_right_eq_some.mp hstep
    simp only at hstep
    split at hstep
    · cases hstep
      exact same_setPrompt s _ hne
    · cases hstep
      apply (same_setPrompt s _ hne).trans
      have hid : (responseRecord prompt.record.requestId).requestId = some requestId' :=
        hrequestId prompt hprompt hphase
      exact same_addToChat _ (isRecordOf_of_ne hid hne _)
  | message data =>
    obtain ⟨prompt, hprompt, hstep⟩ := Option.bind_eq_some_iff.mp h
    obtain ⟨-, hstep⟩ := Option.ite_none_left_eq_some.mp hstep
    split at hstep
    · cases hstep
      exact Same.refl s requestId
    · cases hstep
      rcases onNewChunk_cases s prompt data with heq | ⟨-, heq⟩
      · rw [heq]
        exact Same.refl s requestId
      · rw [heq]
        exact same_subscriptionUpdateHandler s data hne
    · obtain ⟨-, hstep⟩ := Option.ite_none_right_eq_some.mp hstep
      cases hstep
      have hset := same_setPrompt s { prompt with
        fullMessageReceived := true
        delivered := some data.content
        connected := false } hne
      unfold onFullMessage
      dsimp only
      split
      · exact hset
      · exact hset.trans (same_subscriptionUpdateHandler _ data hne)
  | cancelPrompt requestId' =>
    cases h
    refine ⟨rfl, rfl, ?_⟩
    rw [List.mem_append, List.mem_singleton]
    exact or_iff_left hne

/-! ## What holds after every run -/

/-- The prompt has a record for its answer. -/
def HasAnswer (s : KhulnaSoftChatController) (requestId : String) : Prop :=
  ∃ prompt ∈ s.prompts requestId, prompt.phase = .processed ∧
    prompt.record.type ≠ .newConversation

structure ValidFor (s : KhulnaSoftChatController) (requestId : String) : Prop where
  role : ∀ prompt ∈ s.prompts requestId, prompt.record.role = .user
  recordId : ∀ prompt ∈ s.prompts requestId, prompt.phase = .userRecordAdded →
    prompt.record.requestId = some requestId
  received : ∀ prompt ∈ s.prompts requestId,
    prompt.fullMessageReceived = prompt.delivered.isSome
  none : ¬ s.HasAnswer requestId → s.answersTo requestId = []
  one : s.HasAnswer requestId → ∃ record, s.answersTo requestId = [record]

def Valid (s : KhulnaSoftChatController) : Prop := ∀ requestId, s.ValidFor requestId

theorem ValidFor.of_same {s t : KhulnaSoftChatController} {requestId : String}
    (h : s.ValidFor requestId)
    (hsame : Same s t requestId) : t.ValidFor requestId := by
  have hanswer : t.HasAnswer requestId ↔ s.HasAnswer requestId := by
    unfold HasAnswer
    rw [hsame.prompts]
  constructor
  · rw [hsame.prompts]
    exact h.role
  · rw [hsame.prompts]
    exact h.recordId
  · rw [hsame.prompts]
    exact h.received
  · rw [hsame.answersTo, hanswer]
    exact h.none
  · rw [hsame.answersTo, hanswer]
    exact h.one

theorem answeredTo_iff_of_same {s t : KhulnaSoftChatController} {requestId : String}
    (hsame : Same s t requestId) : t.AnsweredTo requestId ↔ s.AnsweredTo requestId := by
  unfold AnsweredTo
  rw [hsame.prompts, hsame.answersTo, hsame.canceled]

theorem validFor_of_prompt {s : KhulnaSoftChatController} {requestId : String} {prompt : Prompt}
    (h : s.prompts requestId = some prompt) (hrole : prompt.record.role = .user)
    (hid : prompt.phase = .userRecordAdded → prompt.record.requestId = some requestId)
    (hreceived : prompt.fullMessageReceived = prompt.delivered.isSome)
    (hnone : (prompt.phase = .processed → prompt.record.type = .newConversation) →
      s.answersTo requestId = [])
    (hone : prompt.phase = .processed → prompt.record.type ≠ .newConversation →
      ∃ record, s.answersTo requestId = [record]) : s.ValidFor requestId := by
  constructor
  · intro prompt' hprompt'
    obtain rfl : prompt = prompt' := Option.some.inj (h.symm.trans hprompt')
    exact hrole
  · intro prompt' hprompt'
    obtain rfl : prompt = prompt' := Option.some.inj (h.symm.trans hprompt')
    exact hid
  · intro prompt' hprompt'
    obtain rfl : prompt = prompt' := Option.some.inj (h.symm.trans hprompt')
    exact hreceived
  · intro hanswer
    apply hnone
    intro hphase
    by_contra htype
    exact hanswer ⟨prompt, h, hphase, htype⟩
  · rintro ⟨prompt', hprompt', hphase, htype⟩
    obtain rfl : prompt = prompt' := Option.some.inj (h.symm.trans hprompt')
    exact hone hphase htype

theorem answeredTo_iff_of_prompt {s : KhulnaSoftChatController} {requestId : String}
    {prompt : Prompt}
    (h : s.prompts requestId = some prompt) :
    s.AnsweredTo requestId ↔ ∀ content ∈ prompt.delivered, prompt.phase = .processed →
      requestId ∉ s.canceledPromptRequestIds →
      ∃ record, s.answersTo requestId = [record] ∧ record.content = some content ∧
        record.state = .ready := by
  unfold AnsweredTo
  rw [h]
  constructor
  · intro hall
    exact hall prompt rfl
  · intro hall prompt' hprompt'
    obtain rfl := Option.some.inj hprompt'
    exact hall

theorem answersTo_eq_nil_of_phase {s : KhulnaSoftChatController} {requestId : String}
    {prompt : Prompt}
    (hvalid : s.ValidFor requestId) (h : s.prompts requestId = some prompt)
    (hphase : prompt.phase ≠ .processed) : s.answersTo requestId = [] := by
  apply hvalid.none
  rintro ⟨prompt', hprompt', hphase', -⟩
  obtain rfl : prompt = prompt' := Option.some.inj (h.symm.trans hprompt')
  exact hphase hphase'

/-! ## The steps of one prompt -/

theorem subscribed_step {s t : KhulnaSoftChatController} {requestId : String}
    {record : KhulnaSoftChatRecord} (hvalid : s.ValidFor requestId) (ha : s.AnsweredTo requestId)
    (h : s.step (.subscribed requestId record) = some t) :
    t.ValidFor requestId ∧ t.AnsweredTo requestId := by
  obtain ⟨⟨hnone, hrole, hid⟩, hstep⟩ := Option.ite_none_right_eq_some.mp h
  split at hstep
  · cases hstep
    exact ⟨hvalid, ha⟩
  · obtain rfl := Option.some.inj hstep
    have hprompt := prompts_setPrompt s requestId ⟨record, .aiAction, true, false, none⟩
    have hempty : s.answersTo requestId = [] := by
      apply hvalid.none
      rintro ⟨prompt, hmem, -⟩
      rw [hnone] at hmem
      nomatch hmem
    constructor
    · apply validFor_of_prompt hprompt hrole _ rfl
      · intro _
        exact hempty
      · intro hphase
        nomatch hphase
      · intro hphase
        nomatch hphase
    · rw [answeredTo_iff_of_prompt hprompt]
      intro content hcontent
      nomatch hcontent

theorem actionResponse_step {s t : KhulnaSoftChatController} {requestId : String}
    {errors : List String}
    (hvalid : s.ValidFor requestId) (h : s.step (.actionResponse requestId errors) = some t) :
    t.ValidFor requestId ∧ t.AnsweredTo requestId := by
  obtain ⟨prompt, hprompt, hstep⟩ := Option.bind_eq_some_iff.mp h
  obtain ⟨hphase, hstep⟩ := Option.ite_none_right_eq_some.mp hstep
  have hrole := hvalid.role prompt hprompt
  have ht := Option.some.inj hstep
  have hprompt' : t.prompts requestId = some { prompt with
      record := prompt.record.updateAction requestId errors
      phase := .userRecordAdded } := by
    rw [← ht]
    exact prompts_setPrompt s requestId _
  have hempty : t.answersTo requestId = [] := by
    have huser : (prompt.record.updateAction requestId errors).role = .user := hrole
    rw [← ht, answersTo_addToChat_of_user _ huser]
    show s.answersTo requestId = []
    exact answersTo_eq_nil_of_phase hvalid hprompt (by simp [hphase])
  constructor
  · apply validFor_of_prompt hprompt' hrole _ (hvalid.received prompt hprompt)
    · intro _
      exact hempty
    · intro hphase'
      nomatch hphase'
    · intro _
      rfl
  · rw [answeredTo_iff_of_prompt hprompt']
    intro content _ hphase'
    nomatch hphase'

theorem actionError_step {s t : KhulnaSoftChatController} {requestId message : String}
    (hvalid : s.ValidFor requestId) (h : s.step (.actionError requestId message) = some t) :
    t.ValidFor requestId ∧ t.AnsweredTo requestId := by
  obtain ⟨prompt, hprompt, hstep⟩ := Option.bind_eq_some_iff.mp h
  obtain ⟨hphase, hstep⟩ := Option.ite_none_right_eq_some.mp hstep
  have ht := Option.some.inj hstep
  have hprompt' : t.prompts requestId = some { prompt with
      record := prompt.record.updateErrors
        ["Failed to send the chat message to the API: " ++ message]
      phase := .failed
      connected := false } := by
    rw [← ht]
    exact prompts_setPrompt s requestId _
  have hempty : t.answersTo requestId = [] := by
    rw [← ht]
    show s.answersTo requestId = []
    exact answersTo_eq_nil_of_phase hvalid hprompt (by simp [hphase])
  constructor
  · apply validFor_of_prompt hprompt' (hvalid.role prompt hprompt) _
      (hvalid.received prompt hprompt)
    · intro _
      exact hempty
    · intro hphase'
      nomatch hphase'
    · intro hphase'
      nomatch hphase'
  · rw [answeredTo_iff_of_prompt hprompt']
    intro content _ hphase'
    nomatch hphase'

theorem userRecordAdded_step {s t : KhulnaSoftChatController} {requestId : String}
    (hvalid : s.ValidFor requestId) (h : s.step (.userRecordAdded requestId) = some t) :
    t.ValidFor requestId ∧ (t.AnsweredTo requestId ↔ s.InOrder (.userRecordAdded requestId)) := by
  obtain ⟨prompt, hprompt, hstep⟩ := Option.bind_eq_some_iff.mp h
  obtain ⟨hphase, hstep⟩ := Option.ite_none_right_eq_some.mp hstep
  have hempty := answersTo_eq_nil_of_phase hvalid hprompt (by simp [hphase])
  have hid := hvalid.recordId prompt hprompt hphase
  simp only at hstep
  have hprompt' : t.prompts requestId = some { prompt with phase := .processed } := by
    split at hstep <;> rw [← Option.some.inj hstep]
    · exact prompts_setPrompt s requestId _
    · exact prompts_setPrompt s requestId _
  have hcanceled : t.canceledPromptRequestIds = s.canceledPromptRequestIds := by
    split at hstep <;> rw [← Option.some.inj hstep] <;> rfl
  have hanswers : t.answersTo requestId =
      if prompt.record.type = .newConversation then []
      else [responseRecord (some requestId)] := by
    split at hstep
    · rw [← Option.some.inj hstep, if_pos ‹_›]
      exact hempty
    · have hown : isRecordOf requestId .assistant (responseRecord (some requestId)) = true := by
        simp [isRecordOf, responseRecord]
      rw [← Option.some.inj hstep, if_neg ‹_›, answersTo_addToChat, hid,
        List.filter_cons_of_pos hown]
      show s.answersTo requestId ++ _ = _
      rw [hempty]
      rfl
  constructor
  · apply validFor_of_prompt hprompt' (hvalid.role prompt hprompt) _
      (hvalid.received prompt hprompt)
    · intro htype
      rw [hanswers, if_pos (htype rfl)]
    · intro _ htype
      exact ⟨_, by rw [hanswers, if_neg htype]⟩
    · intro hphase'
      nomatch hphase'
  · rw [answeredTo_iff_of_prompt hprompt', hcanceled]
    unfold InOrder
    constructor
    · intro hall hcancel prompt'' hprompt''
      obtain rfl : prompt = prompt'' := Option.some.inj (hprompt.symm.trans hprompt'')
      by_contra hdelivered
      obtain ⟨content, hcontent⟩ := Option.ne_none_iff_exists'.mp hdelivered
      obtain ⟨record, hrecord, hsame, -⟩ := hall content hcontent rfl hcancel
      rw [hanswers] at hrecord
      split at hrecord
      · nomatch hrecord
      · cases hrecord
        nomatch hsame
    · intro hnone content hcontent _ hcancel
      have hdelivered := hnone hcancel prompt hprompt
      rw [hdelivered] at hcontent
      nomatch hcontent

theorem ValidFor.subscriptionUpdateHandler {s : KhulnaSoftChatController}
    {data : AiCompletionResponseMessageType} (h : s.ValidFor data.requestId)
    (hrole : data.role ≠ .user) : (s.subscriptionUpdateHandler data).ValidFor data.requestId := by
  have hanswers : (s.subscriptionUpdateHandler data).answersTo data.requestId =
        s.answersTo data.requestId ∨
      (s.subscriptionUpdateHandler data).answersTo data.requestId =
        (s.answersTo data.requestId).modifyHead (KhulnaSoftChatRecord.updateWith data) := by
    cases hassistant : data.role with
    | user => exact absurd hassistant hrole
    | assistant => exact Or.inr (answersTo_subscriptionUpdateHandler s hassistant)
    | system =>
      left
      unfold answersTo
      rw [chatHistory_subscriptionUpdateHandler, hassistant]
      apply filter_updateFirst_of_disjoint (isRecordOf_updateWith data _ _)
      intro record hrecord
      simp only [isRecordOf, Bool.and_eq_true, beq_iff_eq] at hrecord
      simp [isRecordOf, hrecord.2]
  have hanswer : (s.subscriptionUpdateHandler data).HasAnswer data.requestId ↔
      s.HasAnswer data.requestId := by
    simp [HasAnswer]
  constructor
  · simpa using h.role
  · simpa using h.recordId
  · simpa using h.received
  · intro hnot
    have hnil := h.none fun hhas => hnot (hanswer.mpr hhas)
    rcases hanswers with heq | heq <;> simp [heq, hnil]
  · intro hhas
    obtain ⟨record, hrecord⟩ := h.one (hanswer.mp hhas)
    rcases hanswers with heq | heq <;> simp [heq, hrecord]

theorem newChunk_step {s : KhulnaSoftChatController} {data : AiCompletionResponseMessageType}
    {prompt : Prompt} (hvalid : s.ValidFor data.requestId) (ha : s.AnsweredTo data.requestId)
    (hprompt : s.prompts data.requestId = some prompt) (hrole : data.role ≠ .user) :
    (s.onNewChunk prompt data).ValidFor data.requestId ∧
      (s.onNewChunk prompt data).AnsweredTo data.requestId := by
  rcases onNewChunk_cases s prompt data with heq | ⟨hreceived, heq⟩
  · rw [heq]
    exact ⟨hvalid, ha⟩
  · rw [heq]
    refine ⟨hvalid.subscriptionUpdateHandler hrole, ?_⟩
    have hprompt' : (s.subscriptionUpdateHandler data).prompts data.requestId = some prompt := by
      rw [prompts_subscriptionUpdateHandler, hprompt]
    rw [answeredTo_iff_of_prompt hprompt']
    -- the full message has not been delivered
    intro content hcontent
    have hsome := hvalid.received prompt hprompt
    rw [hreceived, hcontent] at hsome
    nomatch hsome

theorem validFor_setPrompt_delivered {s : KhulnaSoftChatController} {requestId : String}
    {prompt : Prompt} (hvalid : s.ValidFor requestId)
    (hprompt : s.prompts requestId = some prompt) (content : String) :
    (s.setPrompt requestId { prompt with
      fullMessageReceived := true
      delivered := some content
      connected := false }).ValidFor requestId := by
  have hprompt' := prompts_setPrompt s requestId { prompt with
    fullMessageReceived := true
    delivered := some content
    connected := false }
  apply validFor_of_prompt hprompt' (hvalid.role prompt hprompt) (hvalid.recordId prompt hprompt)
    rfl
  · intro htype
    apply hvalid.none
    rintro ⟨prompt', hprompt', hphase, htype'⟩
    obtain rfl : prompt = prompt' := Option.some.inj (hprompt.symm.trans hprompt')
    exact htype' (htype hphase)
  · intro hphase htype
    exact hvalid.one ⟨prompt, hprompt, hphase, htype⟩

theorem fullMessage_step {s : KhulnaSoftChatController} {data : AiCompletionResponseMessageType}
    {prompt : Prompt} (hvalid : s.ValidFor data.requestId)
    (hprompt : s.prompts data.requestId = some prompt) (hrole : data.role = .assistant)
    (hfull : receive data = .fullMessage) :
    (s.onFullMessage prompt data).ValidFor data.requestId ∧
      ((s.onFullMessage prompt data).AnsweredTo data.requestId ↔ s.InOrder (.message data)) := by
  have hvalid' := validFor_setPrompt_delivered hvalid hprompt data.content
  have hprompt' := prompts_setPrompt s data.requestId { prompt with
    fullMessageReceived := true
    delivered := some data.content
    connected := false }
  unfold onFullMessage
  dsimp only
  split
  · next hcancel =>
    refine ⟨hvalid', iff_of_true ?_ ?_⟩
    · rw [answeredTo_iff_of_prompt hprompt']
      intro _ _ _ hnot
      exact absurd hcancel hnot
    · intro _ hnot
      exact absurd hcancel hnot
  · next hcancel =>
    refine ⟨hvalid'.subscriptionUpdateHandler (by simp [hrole]), ?_⟩
    rw [answeredTo_iff_of_prompt ((congrFun (prompts_subscriptionUpdateHandler _ data) _).trans
      hprompt'), answersTo_subscriptionUpdateHandler _ hrole, canceled_subscriptionUpdateHandler]
    constructor
    · intro hall _ _ prompt' hprompt'' hphase htype
      obtain rfl : prompt = prompt' := Option.some.inj (hprompt.symm.trans hprompt'')
      obtain ⟨record, hrecord, -⟩ := hall data.content rfl hphase hcancel
      have hnil : s.answersTo data.requestId = [] := by
        apply hvalid.none
        rintro ⟨prompt', hprompt'', -, htype'⟩
        obtain rfl : prompt = prompt' := Option.some.inj (hprompt.symm.trans hprompt'')
        exact htype' htype
      change (s.answersTo data.requestId).modifyHead _ = [record] at hrecord
      rw [hnil] at hrecord
      nomatch hrecord
    · intro horder content hcontent hphase _
      obtain rfl := Option.some.inj hcontent
      have htype := horder hfull hcancel prompt hprompt hphase
      obtain ⟨record, hrecord⟩ := hvalid.one ⟨prompt, hprompt, hphase, htype⟩
      refine ⟨record.updateWith data, ?_, rfl, rfl⟩
      show (s.answersTo data.requestId).modifyHead _ = _
      rw [hrecord]
      rfl

theorem cancelPrompt_step {s t : KhulnaSoftChatController} {requestId : String}
    (hvalid : s.ValidFor requestId) (ha : s.AnsweredTo requestId)
    (h : s.step (.cancelPrompt requestId) = some t) :
    t.ValidFor requestId ∧ t.AnsweredTo requestId := by
  cases h
  refine ⟨⟨hvalid.role, hvalid.recordId, hvalid.received, hvalid.none, hvalid.one⟩, ?_⟩
  intro prompt hprompt content hcontent hphase hcancel
  exact ha prompt hprompt content hcontent hphase fun hmem => hcancel (List.mem_append_left _ hmem)

theorem message_step {s t : KhulnaSoftChatController} {data : AiCompletionResponseMessageType}
    (hvalid : s.ValidFor data.requestId) (ha : s.AnsweredTo data.requestId)
    (h : s.step (.message data) = some t) :
    t.ValidFor data.requestId ∧ (t.AnsweredTo data.requestId ↔ s.InOrder (.message data)) := by
  obtain ⟨prompt, hprompt, hstep⟩ := Option.bind_eq_some_iff.mp h
  obtain ⟨hrole, hstep⟩ := Option.ite_none_left_eq_some.mp hstep
  split at hstep
  · next hreceive =>
    obtain rfl := Option.some.inj hstep
    refine ⟨hvalid, iff_of_true ha ?_⟩
    intro hfull
    rw [hreceive] at hfull
    nomatch hfull
  · next hreceive =>
    obtain rfl := Option.some.inj hstep
    obtain ⟨hvalid', ha'⟩ := newChunk_step hvalid ha hprompt hrole
    refine ⟨hvalid', iff_of_true ha' ?_⟩
    intro hfull
    rw [hreceive] at hfull
    nomatch hfull
  · next hreceive =>
    obtain ⟨-, hstep⟩ := Option.ite_none_right_eq_some.mp hstep
    obtain rfl := Option.some.inj hstep
    have hassistant : data.role = .assistant := by
      cases hdata : data.role with
      | user => exact absurd hdata hrole
      | assistant => rfl
      | system => simp [receive, hdata] at hreceive
    exact fullMessage_step hvalid hprompt hassistant hreceive

theorem own_step {s t : KhulnaSoftChatController} {e : ChatEvent} (hvalid : s.ValidFor e.requestId)
    (ha : s.AnsweredTo e.requestId) (h : s.step e = some t) :
    t.ValidFor e.requestId ∧ (t.AnsweredTo e.requestId ↔ s.InOrder e) := by
  cases e with
  | subscribed requestId record =>
    obtain ⟨hvalid', ha'⟩ := subscribed_step hvalid ha h
    exact ⟨hvalid', iff_of_true ha' trivial⟩
  | actionResponse requestId errors =>
    obtain ⟨hvalid', ha'⟩ := actionResponse_step hvalid h
    exact ⟨hvalid', iff_of_true ha' trivial⟩
  | actionError requestId message =>
    obtain ⟨hvalid', ha'⟩ := actionError_step hvalid h
    exact ⟨hvalid', iff_of_true ha' trivial⟩
  | userRecordAdded requestId => exact userRecordAdded_step hvalid h
  | message data => exact message_step hvalid ha h
  | cancelPrompt requestId =>
    obtain ⟨hvalid', ha'⟩ := cancelPrompt_step hvalid ha h
    exact ⟨hvalid', iff_of_true ha' trivial⟩

/-! ## Runs -/

theorem valid_new : new.Valid := by
  intro requestId
  have hanswer : ¬ new.HasAnswer requestId := by
    rintro ⟨prompt, hprompt, -⟩
    nomatch hprompt
  constructor
  · intro prompt hprompt
    nomatch hprompt
  · intro prompt hprompt
    nomatch hprompt
  · intro prompt hprompt
    nomatch hprompt
  · intro _
    rfl
  · intro hhas
    exact absurd hhas hanswer

theorem valid_step {s t : KhulnaSoftChatController} {e : ChatEvent} (hvalid : s.Valid)
    (ha : s.Answered)
    (h : s.step e = some t) : t.Valid := by
  intro requestId
  by_cases hne : requestId = e.requestId
  · rw [hne]
    exact (own_step (hvalid _) (ha _) h).1
  · exact (hvalid requestId).of_same (step_same h (hvalid _).recordId hne)

theorem answered_step_iff {s t : KhulnaSoftChatController} {e : ChatEvent} (hvalid : s.Valid)
    (ha : s.Answered) (h : s.step e = some t) : t.Answered ↔ s.InOrder e := by
  obtain ⟨-, hown⟩ := own_step (hvalid _) (ha _) h
  rw [← hown]
  constructor
  · intro hall
    exact hall e.requestId
  · intro hanswered requestId
    by_cases hne : requestId = e.requestId
    · rw [hne]
      exact hanswered
    · exact (answeredTo_iff_of_same (step_same h (hvalid _).recordId hne)).mpr (ha requestId)

/-- **When the answers arrive.** Messages that come before the record of the answer are dropped. So
the full message is kept exactly if it is delivered after that record is added. -/
theorem answered_iff_inOrder {es : List ChatEvent} {t : KhulnaSoftChatController}
    (hrun : run step new es = some t) :
    Always step Answered new es ↔ Guarded step InOrder new es := by
  apply always_iff_guarded _ _ valid_new _ hrun
  · intro s e t hvalid ha _ hstep
    exact valid_step hvalid ha hstep
  · intro s e t hvalid ha hstep
    exact answered_step_iff hvalid ha hstep
  · intro requestId prompt hprompt
    nomatch hprompt

def sampleRecord : KhulnaSoftChatRecord where
  chunkId := none
  role := .user
  content := some "Why is the sky blue?"
  requestId := none
  state := .ready
  type := .general
  errors := []
  extras := none

def sampleMessage (content : String) (chunkId : Option Nat) : AiCompletionResponseMessageType where
  requestId := "42"
  role := .assistant
  content
  errors := []
  extras := none
  chunkId

/-- The chunks begin before the response has come, and one comes late. -/
def sampleAnswer : List ChatEvent :=
  [.subscribed "42" sampleRecord, .message (sampleMessage "Because" (some 1)),
    .actionResponse "42" [], .userRecordAdded "42",
    .message (sampleMessage "Because of Rayleigh scattering." none),
    .message (sampleMessage " of" (some 2))]

theorem answered_iff_inOrder_of_chunks :
    Always step Answered new sampleAnswer ↔ Guarded step InOrder new sampleAnswer := by
  obtain ⟨t, ht⟩ : ∃ t, run step new sampleAnswer = some t :=
    Option.isSome_iff_exists.mp (by decide +kernel)
  exact answered_iff_inOrder ht

/-- The response comes last. -/
def sampleEarlyAnswer : List ChatEvent :=
  [.subscribed "42" sampleRecord,
    .message (sampleMessage "Because of Rayleigh scattering." none),
    .actionResponse "42" [], .userRecordAdded "42"]

/-- The answer stays pending. -/
theorem not_answered_of_early_message :
    ∃ t, run step new sampleEarlyAnswer = some t ∧
      t.answersTo "42" = [responseRecord (some "42")] ∧
      (t.prompts "42").map Prompt.connected = some false ∧ ¬ t.Answered := by
  obtain ⟨t, ht⟩ : ∃ t, run step new sampleEarlyAnswer = some t :=
    Option.isSome_iff_exists.mp (by decide +kernel)
  have hfacts : ∀ t ∈ run step new sampleEarlyAnswer,
      t.answersTo "42" = [responseRecord (some "42")] ∧
      (t.prompts "42").map Prompt.connected = some false ∧ t.canceledPromptRequestIds = [] ∧
      (t.prompts "42").map (fun prompt => (prompt.phase, prompt.delivered)) =
        some (.processed, some "Because of Rayleigh scattering.") := by
    decide +kernel
  obtain ⟨hanswers, hconnected, hcanceled, hprompt⟩ := hfacts t ht
  refine ⟨t, ht, hanswers, hconnected, ?_⟩
  intro hanswered
  obtain ⟨prompt, hmem, heq⟩ := Option.map_eq_some_iff.mp hprompt
  obtain ⟨hphase, hdelivered⟩ := Prod.mk.inj heq
  obtain ⟨record, hrecord, hcontent, -⟩ :=
    hanswered "42" prompt hmem _ hdelivered hphase (by simp [hcanceled])
  rw [hanswers] at hrecord
  cases hrecord
  nomatch hcontent

end KhulnaSoftChatController
end KhulnasoftLsp.DuoChat
