import KhulnasoftLsp.Transition
import KhulnasoftLsp.SerialQueue
import KhulnasoftLsp.DocContext
import KhulnasoftLsp.CircuitBreaker.FixedTime
import KhulnasoftLsp.Tracking.SuggestionState
import KhulnasoftLsp.Streaming.SseEvent

/-!
# The streaming handler

`DefaultStreamingHandler.startStream`, run for one stream. JavaScript interleaves asynchronous
functions only where they await something, so a run of `startStream` is a sequence of steps, each
the code between two such points:

* the `for await` loop over the API's items, with one call of `#handleStreamNotification` after
  the other for legacy chunks;
* the event parser, which handles all events of an item without a break, and puts one
  notification task for each valid event into a queue;
* the queue, which runs its tasks one after the other;
* the `finally` block, which waits for the queue and ends the stream;
* the cancel notification, and whatever the rest of the server does to the shared breaker.

`Action` lists these steps, `step` says what each does, and `Step` is `step` with its cases
written out, for the proofs.
-/

namespace KhulnasoftLsp.Streaming

open CircuitBreaker Tracking

/-! ## Requests, messages and telemetry contexts -/

inductive GenerationType where
  | comment
  | smallFile
  | emptyFunction
  deriving DecidableEq, Repr

inductive AdditionalContextType where
  | file
  | snippet
  deriving DecidableEq, Repr

inductive ResolutionStrategy where
  | openTabs
  | imports
  deriving DecidableEq, Repr

structure AdditionalContext where
  type : AdditionalContextType
  name : String
  content : JsString
  resolutionStrategy : ResolutionStrategy
  deriving DecidableEq, Repr

structure StartStreamParams where
  streamId : String
  uniqueTrackingId : String
  documentContext : IDocContext
  userInstruction : Option JsString := none
  generationType : Option GenerationType := none
  additionalContexts : Option (List AdditionalContext) := none
  contextProjectPath : Option String := none
  deriving DecidableEq, Repr

/-- Parameters of a stream in an empty document. -/
def sampleParams : StartStreamParams where
  streamId := "code-suggestion-stream-1"
  uniqueTrackingId := "1"
  documentContext :=
    { fileRelativePath := "index.ts"
      prefixText := []
      suffix := []
      uri := "file:///index.ts"
      languageId := "typescript"
      position := { line := 0, character := 0 }
      workspaceFolder := none }

/-- `CodeSuggestionRequest`, as far as a stream sets it. -/
structure CodeSuggestionRequest where
  promptVersion : Nat
  projectPath : String
  projectId : Int
  contentAboveCursor : JsString
  contentBelowCursor : JsString
  fileName : String
  intent : String
  stream : Bool
  context : Option (List AdditionalContext)
  userInstruction : Option JsString
  generationType : Option GenerationType
  deriving DecidableEq, Repr

/-- The request that `startStream` sends. Empty contexts and instructions are left out. -/
def StartStreamParams.request (p : StartStreamParams) : CodeSuggestionRequest where
  promptVersion := 1
  projectPath := p.contextProjectPath.getD ""
  projectId := -1
  contentAboveCursor := p.documentContext.prefixText
  contentBelowCursor := p.documentContext.suffix
  fileName := p.documentContext.fileRelativePath
  intent := "generation"
  stream := true
  context := p.additionalContexts.filter (· ≠ [])
  userInstruction := p.userInstruction.filter (· ≠ [])
  generationType := p.generationType

structure StreamingCompletionResponse where
  id : String
  completion : Option JsString
  done : Bool
  deriving DecidableEq, Repr

inductive SuggestionSource where
  | cache
  | network
  deriving DecidableEq, Repr

/-- The part of a telemetry context that one call of `setTrackingContext` sets. -/
structure ICodeSuggestionContextUpdate where
  documentContext : Option IDocContext := none
  additionalContexts : Option (List AdditionalContext) := none
  source : Option SuggestionSource := none
  isStreaming : Option Bool := none
  status : Option Nat := none
  model : Option ICodeSuggestionModel := none
  deriving DecidableEq, Repr

/-- What a stream fails with. Only a fetch error has a status. -/
inductive StreamError where
  | fetchError (status : Nat)
  | other
  deriving DecidableEq, Repr

/-! ## The state of a stream -/

/-- How far a call of `#handleStreamNotification` is. -/
inductive Notification where
  /-- Its task waits in the queue. -/
  | queued
  /-- It awaits the post-processors, which work on `buffer`. -/
  | postProcessing (buffer : JsString)
  /-- It awaits `#sendStreamingResponse`. -/
  | sending
  /-- It has returned, or thrown `err`, and its caller does not know yet. -/
  | settled (err : Option StreamError)
  deriving DecidableEq, Repr

/-- Where the function `startStream` itself is. -/
inductive Control where
  /-- It awaits the next item of the API's stream. -/
  | iterating
  /-- It is inside `sseParser.feed`, with these events still to be handled. -/
  | feeding (events : List EventSourceMessage)
  /-- It awaits the notification of a legacy chunk. -/
  | notifying (n : Notification)
  /-- The loop was left with an error, and the iterator is being closed. -/
  | closingIterator (err : StreamError)
  /-- It awaits `queue.onIdle()` in the `finally` block. -/
  | idling
  /-- It awaits `endStream()`. -/
  | ending
  /-- Its promise has fulfilled (`true`) or rejected. -/
  | settled (fulfilled : Bool)

/-- The local variables of `startStream` and of its event parser, and what it has sent so far. -/
structure Stream where
  params : StartStreamParams
  control : Control
  /-- The cancellation listener of the stream is in `#streamCancellations`. -/
  isRegistered : Bool
  isCancellationRequested : Bool
  streamShown : Bool
  suggestionProvided : Bool
  streamCancelledOrErrored : Bool
  /-- The function `trackStreamStarted` runs its body once. (So does `trackStreamShown`, which
  sets `streamShown` when it does.) -/
  streamStarted : Bool
  /-- The copy of `streamCancelledOrErrored` that was passed to `#createSSEParser`. -/
  parserCancelledOrErrored : Bool
  legacyStreamBuffer : JsString
  sseBuffer : JsString
  queue : SerialQueue Notification
  /-- How many `catch` blocks of the parser await `endStream()`. -/
  parserEndings : Nat
  /-- The request with which the API was called. -/
  request : Option CodeSuggestionRequest
  /-- The messages sent to the client. -/
  messages : List StreamingCompletionResponse
  /-- The events passed to `trackEvent`. -/
  tracked : List TrackingEvent
  /-- The contexts passed to `setTrackingContext`. -/
  trackingContexts : List ICodeSuggestionContextUpdate

namespace Stream

def setTrackingContext (u : ICodeSuggestionContextUpdate) (s : Stream) : Stream :=
  { s with trackingContexts := s.trackingContexts ++ [u] }

def trackEvent (e : TrackingEvent) (s : Stream) : Stream :=
  { s with tracked := s.tracked ++ [e] }

def sendStreamingResponse (m : StreamingCompletionResponse) (s : Stream) : Stream :=
  { s with messages := s.messages ++ [m] }

def trackStreamStarted (s : Stream) : Stream :=
  if s.streamStarted then s else { s.trackEvent .streamStarted with streamStarted := true }

def trackStreamShown (s : Stream) : Stream :=
  if s.streamShown then s else { s.trackEvent .shown with streamShown := true }

def updateSuggestionProvided (provided : Bool) (s : Stream) : Stream :=
  { s with suggestionProvided := provided }

/-- The listener that `startStream` registers for the cancel notification. -/
def cancellationListener (s : Stream) : Stream :=
  -- it stays registered until `startStream` returns, so a second notification runs it again
  { s with streamCancelledOrErrored := true, isCancellationRequested := true }
    |>.trackEvent (if s.streamShown then .rejected else .cancelled)

/-- `notificationHandler`: without a registered listener the notification does nothing. -/
def notificationHandler (s : Stream) : Stream :=
  if s.isRegistered then s.cancellationListener else s

/-- The message that ends a stream. -/
def doneMessage (s : Stream) : StreamingCompletionResponse :=
  { id := s.params.streamId, completion := none, done := true }

/-- `endStream`, up to its `await`. -/
def endStream (s : Stream) : Stream := s.sendStreamingResponse s.doneMessage

/-- `endStream`, from its `await` on. -/
def endStreamSent (s : Stream) : Stream :=
  if s.streamCancelledOrErrored then s
  else
    let s := s.trackEvent .streamCompleted
    if s.suggestionProvided then s else s.trackEvent .notProvided

/-- `#handleStreamNotification`, up to its first `await`. -/
def handleStreamNotification (breakerIsOpen : Bool) (buffer : JsString) (s : Stream) :
    Stream × Notification :=
  -- the only place that asks for a cancellation: it is not asked for again before the sending
  if s.isCancellationRequested then (s, .settled none)
  else if breakerIsOpen then (s, .settled none)
  else (s.trackStreamStarted, .postProcessing buffer)

/-- The post-processors of a notification settled: the processed completion is sent. (Every
post-processor keeps the `id` and the `done` of what it is given.) -/
def notificationProcessed (result : Except StreamError JsString) (s : Stream) :
    Stream × Notification :=
  match result with
  | .ok completion =>
    (s.sendStreamingResponse
      { id := s.params.streamId, completion := some completion, done := false }, .sending)
  | .error err => (s, .settled (some err))

/-- A notification that was sending is done. -/
def notificationSent (result : Except StreamError Unit) : Notification :=
  match result with
  | .ok () => .settled none
  | .error err => .settled (some err)

/-- The loop's body for a legacy chunk, from its `await` on. -/
def legacyNotified (s : Stream) : Stream :=
  if s.legacyStreamBuffer.hasContent && !s.streamCancelledOrErrored then
    s.trackStreamShown.updateSuggestionProvided true
  else s

/-- `onEvent` for an event that passes the schema, up to `queue.add`. -/
def onParsedEvent (e : SSEEvent) (s : Stream) : Stream :=
  match e.event with
  | .streamStart => s.setTrackingContext { model := e.data.bind (·.model) }
  | .contentChunk =>
    match e.data.bind (·.choices) with
    | none => s
    | some choices =>
      let s := { s with
        sseBuffer := choices.foldl (fun buffer choice => buffer ++ choice.content) s.sseBuffer }
      -- the parser's own copy of the flag, not the variable of `startStream`
      if s.sseBuffer.hasContent && !s.parserCancelledOrErrored then
        s.trackStreamShown.updateSuggestionProvided true
      else s
  -- whatever the text is, and even if there was none
  | .streamEnd => s.updateSuggestionProvided true

/-- `disposeStopStreaming.dispose()` -/
def disposeStopStreaming (s : Stream) : Stream := { s with isRegistered := false }

end Stream

/-! ## Actions -/

/-- An item of the API's stream: a legacy chunk, or the events that the parser finds in it. -/
inductive StreamItem where
  | legacy (chunk : JsString)
  | sse (events : List EventSourceMessage)

/-- Who awaits a notification: the loop, for a legacy chunk, or the queue. -/
inductive Caller where
  | legacy
  | queue
  deriving DecidableEq, Repr

/-- The steps of a run: what is awaited settles, or the outside world does something. -/
inductive Action where
  /-- The API's stream yields an item. -/
  | item (i : StreamItem)
  /-- The API's stream is over. -/
  | iteratorDone
  /-- The API's stream fails. -/
  | iteratorFails (err : StreamError)
  /-- The iterator of a loop that was left with an error is closed. -/
  | iteratorClosed
  /-- The parser hands over the next event of the item. -/
  | onEvent
  /-- The post-processors of a notification settle. -/
  | postProcessed (c : Caller) (result : Except StreamError JsString)
  /-- The `#sendStreamingResponse` of a notification settles. -/
  | sent (c : Caller) (result : Except StreamError Unit)
  /-- The caller of a notification goes on. -/
  | notified (c : Caller)
  /-- `queue.onIdle()` fulfils. -/
  | onIdle
  /-- The `#sendStreamingResponse` of the final `endStream` settles. -/
  | endSent (fulfilled : Bool)
  /-- The `#sendStreamingResponse` of one of the parser's `endStream` settles. -/
  | parserEndSent (fulfilled : Bool)
  /-- A cancel notification for the stream's id arrives. -/
  | cancel
  /-- The rest of the server leaves the shared breaker in the state `c`. -/
  | environment (c : DefaultSuggestionApiErrorCheck)

/-- The handler, as far as one stream is concerned: the breaker it shares with all other
requests, and the stream. -/
structure Handler where
  circuitBreaker : DefaultSuggestionApiErrorCheck
  stream : Stream

namespace Handler

def mapStream (f : Stream → Stream) (h : Handler) : Handler := { h with stream := f h.stream }

def setControl (c : Control) (h : Handler) : Handler :=
  h.mapStream fun s => { s with control := c }

/-- The local function `handleError`. -/
def handleError (err : StreamError) (h : Handler) : Handler :=
  { circuitBreaker := h.circuitBreaker.error
    stream :=
      let s := match err with
        | .fetchError status => h.stream.setTrackingContext { status := some status }
        | .other => h.stream
      { s.trackEvent .errored with streamCancelledOrErrored := true } }

/-- `startStream`, up to its first `await`. The API returns a stream of items, or `undefined`
(`apiReturnsStream = false`). -/
def startStream (params : StartStreamParams) (apiReturnsStream : Bool)
    (circuitBreaker : DefaultSuggestionApiErrorCheck) : Handler :=
  let s : Stream :=
    { params := params
      control := .iterating
      isRegistered := true
      isCancellationRequested := false
      streamShown := false
      suggestionProvided := false
      streamCancelledOrErrored := false
      streamStarted := false
      parserCancelledOrErrored := false
      legacyStreamBuffer := []
      sseBuffer := []
      queue := SerialQueue.new
      parserEndings := 0
      request := some params.request
      messages := []
      tracked := []
      trackingContexts :=
        [{ documentContext := some params.documentContext
           additionalContexts := params.additionalContexts
           source := some .network
           isStreaming := some true }] }
  -- a success is reported before the API has been asked for anything
  { circuitBreaker := circuitBreaker.success
    stream := if apiReturnsStream then s else { s.endStream with control := .ending } }

/-! ### The queue of notifications -/

/-- The synchronous part of a task that the queue has just started: it reads the buffer now. -/
def runTask (h : Handler) : Handler :=
  -- tasks share the buffer: a task sends all the text that came in while it was waiting
  let (s, n) := h.stream.handleStreamNotification h.circuitBreaker.isOpen h.stream.sseBuffer
  { h with stream := { s with queue := s.queue.update n } }

/-- The queue has changed, and has started a task or not. -/
def queueChanged (q : SerialQueue Notification × Option Notification) (h : Handler) : Handler :=
  let h := h.mapStream fun s => { s with queue := q.1 }
  if q.2.isSome then h.runTask else h

/-- `queue.add(...)` -/
def addTask (h : Handler) : Handler := h.queueChanged (h.stream.queue.add .queued)

/-- The promise of the running task has settled. -/
def taskSettled (h : Handler) : Handler := h.queueChanged h.stream.queue.settle

/-- The parser's `onEvent`, up to its first `await` if it has one. -/
def onEvent (e : EventSourceMessage) (h : Handler) : Handler :=
  match e.data with
  | none =>
    -- `JSON.parse` throws: the error is handled, and the parser ends the stream
    (h.handleError .other).mapStream fun s =>
      { s.endStream with parserEndings := s.parserEndings + 1 }
  | some json =>
    match safeParse e.event json with
    | none => h
    | some event => (h.mapStream (·.onParsedEvent event)).addTask

/-! ### Steps -/

/-- What the loop does once the parser has handled all events of an item but these. -/
def afterEvents : List EventSourceMessage → Control
  | [] => .iterating
  | e :: es => .feeding (e :: es)

def item (i : StreamItem) (h : Handler) : Handler :=
  match i with
  | .legacy chunk =>
    let s := { h.stream with legacyStreamBuffer := h.stream.legacyStreamBuffer ++ chunk }
    let (s, n) := s.handleStreamNotification h.circuitBreaker.isOpen s.legacyStreamBuffer
    { h with stream := { s with control := .notifying n } }
  | .sse events => h.setControl (afterEvents events)

/-- The notification that `c` awaits. -/
def notification (c : Caller) (h : Handler) : Option Notification :=
  match c with
  | .legacy =>
    match h.stream.control with
    | .notifying n => some n
    | _ => none
  | .queue => h.stream.queue.running

def setNotification (c : Caller) (n : Notification) (h : Handler) : Handler :=
  match c with
  | .legacy => h.setControl (.notifying n)
  | .queue => h.mapStream fun s => { s with queue := s.queue.update n }

/-- The caller of a notification goes on. A task that rejects is done like one that fulfils; an
error in the loop leaves the loop. -/
def notified (c : Caller) (err : Option StreamError) (h : Handler) : Handler :=
  match c, err with
  | .legacy, none => (h.mapStream (·.legacyNotified)).setControl .iterating
  | .legacy, some e => h.setControl (.closingIterator e)
  | .queue, _ => h.taskSettled

/-- The parser is handling the events of an item, so that nothing else can happen. -/
def isFeeding (h : Handler) : Bool :=
  match h.stream.control with
  | .feeding _ => true
  | _ => false

def step (h : Handler) : Action → Option Handler
  | .onEvent =>
    match h.stream.control with
    -- the parser does not wait for `onEvent`, so the next event follows even after an error
    | .feeding (e :: es) => some ((h.onEvent e).setControl (afterEvents es))
    | _ => none
  | .item i =>
    match h.stream.control with
    | .iterating => some (h.item i)
    | _ => none
  | .iteratorDone =>
    match h.stream.control with
    | .iterating => some (h.setControl .idling)
    | _ => none
  | .iteratorFails err =>
    match h.stream.control with
    -- an iterator that has failed is not closed, unlike one whose loop was left
    | .iterating => some ((h.handleError err).setControl .idling)
    | _ => none
  | .iteratorClosed =>
    match h.stream.control with
    | .closingIterator err => some ((h.handleError err).setControl .idling)
    | _ => none
  | .postProcessed c result =>
    match h.isFeeding, h.notification c with
    | false, some (.postProcessing _) =>
      let (s, n) := h.stream.notificationProcessed result
      some ({ h with stream := s }.setNotification c n)
    | _, _ => none
  | .sent c result =>
    match h.isFeeding, h.notification c with
    | false, some .sending => some (h.setNotification c (Stream.notificationSent result))
    | _, _ => none
  | .notified c =>
    match h.isFeeding, h.notification c with
    | false, some (.settled err) => some (h.notified c err)
    | _, _ => none
  | .onIdle =>
    match h.stream.control, h.stream.queue.isIdle with
    | .idling, true => some ((h.mapStream (·.endStream)).setControl .ending)
    | _, _ => none
  | .endSent fulfilled =>
    match h.stream.control, fulfilled with
    | .ending, true =>
      some ((h.mapStream fun s => s.endStreamSent.disposeStopStreaming).setControl (.settled true))
    | .ending, false => some (h.setControl (.settled false))
    | _, _ => none
  | .parserEndSent fulfilled =>
    if !h.isFeeding && h.stream.parserEndings != 0 then
      some (h.mapStream fun s =>
        let s := { s with parserEndings := s.parserEndings - 1 }
        if fulfilled then s.endStreamSent else s)
    else none
  | .cancel => if h.isFeeding then none else some (h.mapStream (·.notificationHandler))
  | .environment c => if h.isFeeding then none else some { h with circuitBreaker := c }

/-- The cases of `step`, each with the condition under which it is taken. -/
inductive Step (h : Handler) : Action → Handler → Prop where
  | onEvent {e es} : h.stream.control = .feeding (e :: es) →
      Step h .onEvent ((h.onEvent e).setControl (afterEvents es))
  | item {i} : h.stream.control = .iterating → Step h (.item i) (h.item i)
  | iteratorDone : h.stream.control = .iterating → Step h .iteratorDone (h.setControl .idling)
  | iteratorFails {err} : h.stream.control = .iterating →
      Step h (.iteratorFails err) ((h.handleError err).setControl .idling)
  | iteratorClosed {err} : h.stream.control = .closingIterator err →
      Step h .iteratorClosed ((h.handleError err).setControl .idling)
  | postProcessed {c buffer result} : h.isFeeding = false →
      h.notification c = some (.postProcessing buffer) →
      Step h (.postProcessed c result)
        ({ h with stream := (h.stream.notificationProcessed result).1 }.setNotification c
          (h.stream.notificationProcessed result).2)
  | sent {c result} : h.isFeeding = false → h.notification c = some .sending →
      Step h (.sent c result) (h.setNotification c (Stream.notificationSent result))
  | notified {c err} : h.isFeeding = false → h.notification c = some (.settled err) →
      Step h (.notified c) (h.notified c err)
  | onIdle : h.stream.control = .idling → h.stream.queue.isIdle = true →
      Step h .onIdle ((h.mapStream (·.endStream)).setControl .ending)
  | endSent : h.stream.control = .ending →
      Step h (.endSent true)
        ((h.mapStream fun s => s.endStreamSent.disposeStopStreaming).setControl (.settled true))
  | endRejected : h.stream.control = .ending →
      Step h (.endSent false) (h.setControl (.settled false))
  | parserEndSent : h.isFeeding = false → h.stream.parserEndings ≠ 0 →
      Step h (.parserEndSent true) (h.mapStream fun s =>
        { s with parserEndings := s.parserEndings - 1 }.endStreamSent)
  | parserEndRejected : h.isFeeding = false → h.stream.parserEndings ≠ 0 →
      Step h (.parserEndSent false) (h.mapStream fun s =>
        { s with parserEndings := s.parserEndings - 1 })
  | cancel : h.isFeeding = false → Step h .cancel (h.mapStream (·.notificationHandler))
  | environment {c} : h.isFeeding = false →
      Step h (.environment c) { h with circuitBreaker := c }

theorem step_cases {h h' : Handler} {a : Action} (hs : h.step a = some h') : Step h a h' := by
  cases a with
  | onEvent =>
      simp only [step] at hs
      split at hs
      · rename_i e es hc
        cases hs
        exact .onEvent hc
      · cases hs
  | item i =>
      simp only [step] at hs
      split at hs
      · rename_i hc
        cases hs
        exact .item hc
      · cases hs
  | iteratorDone =>
      simp only [step] at hs
      split at hs
      · rename_i hc
        cases hs
        exact .iteratorDone hc
      · cases hs
  | iteratorFails err =>
      simp only [step] at hs
      split at hs
      · rename_i hc
        cases hs
        exact .iteratorFails hc
      · cases hs
  | iteratorClosed =>
      simp only [step] at hs
      split at hs
      · rename_i err hc
        cases hs
        exact .iteratorClosed hc
      · cases hs
  | postProcessed c result =>
      simp only [step] at hs
      split at hs
      · rename_i buffer hf hn
        cases hs
        exact .postProcessed hf hn
      · cases hs
  | sent c result =>
      simp only [step] at hs
      split at hs
      · rename_i hf hn
        cases hs
        exact .sent hf hn
      · cases hs
  | notified c =>
      simp only [step] at hs
      split at hs
      · rename_i err hf hn
        cases hs
        exact .notified hf hn
      · cases hs
  | onIdle =>
      simp only [step] at hs
      split at hs
      · rename_i hc hq
        cases hs
        exact .onIdle hc hq
      · cases hs
  | endSent fulfilled =>
      simp only [step] at hs
      split at hs
      · rename_i hc
        cases hs
        exact .endSent hc
      · rename_i hc
        cases hs
        exact .endRejected hc
      · cases hs
  | parserEndSent fulfilled =>
      simp only [step] at hs
      split at hs
      · rename_i hcond
        cases hs
        simp only [Bool.and_eq_true, Bool.not_eq_true', bne_iff_ne, ne_eq] at hcond
        cases fulfilled with
        | true => exact .parserEndSent hcond.1 hcond.2
        | false => exact .parserEndRejected hcond.1 hcond.2
      · cases hs
  | cancel =>
      simp only [step] at hs
      split at hs
      · cases hs
      · rename_i hf
        cases hs
        exact .cancel (by simpa using hf)
  | environment c =>
      simp only [step] at hs
      split at hs
      · cases hs
      · rename_i hf
        cases hs
        exact .environment (by simpa using hf)

end Handler

/-! ## The effect of each function, field by field

Each function is shown equal to one update of the state it starts from. -/

namespace Stream

/-- A notification reaches the post-processors: neither was the stream cancelled nor is the
breaker open. -/
def notifies (breakerIsOpen : Bool) (s : Stream) : Bool :=
  !s.isCancellationRequested && !breakerIsOpen

/-- The loop shows the legacy text it has. -/
def legacyShows (s : Stream) : Bool :=
  s.legacyStreamBuffer.hasContent && !s.streamCancelledOrErrored

/-- The text of the parser after an event. -/
def parsedBuffer (e : SSEEvent) (s : Stream) : JsString :=
  match e.event, e.data.bind (·.choices) with
  | .contentChunk, some choices =>
    choices.foldl (fun buffer choice => buffer ++ choice.content) s.sseBuffer
  | _, _ => s.sseBuffer

/-- The parser shows the text it has after an event. -/
def parsedShows (e : SSEEvent) (s : Stream) : Bool :=
  match e.event, e.data.bind (·.choices) with
  | .contentChunk, some _ => (s.parsedBuffer e).hasContent && !s.parserCancelledOrErrored
  | _, _ => false

/-- `SHOWN`, if `shows` and it was not tracked yet. -/
def shownEvents (shows : Bool) (s : Stream) : List TrackingEvent :=
  if shows && !s.streamShown then [.shown] else []

/-- `STREAM_STARTED`, if a notification goes through and it was not tracked yet. -/
def startedEvents (notifies : Bool) (s : Stream) : List TrackingEvent :=
  if notifies && !s.streamStarted then [.streamStarted] else []

/-- What the end of a stream tracks. -/
def endEvents (s : Stream) : List TrackingEvent :=
  if s.streamCancelledOrErrored then []
  else .streamCompleted :: if s.suggestionProvided then [] else [.notProvided]

theorem handleStreamNotification_eq (breakerIsOpen : Bool) (buffer : JsString) (s : Stream) :
    s.handleStreamNotification breakerIsOpen buffer =
      ({ s with
          streamStarted := s.streamStarted || s.notifies breakerIsOpen
          tracked := s.tracked ++ s.startedEvents (s.notifies breakerIsOpen) },
        if s.notifies breakerIsOpen then .postProcessing buffer else .settled none) := by
  -- the two flags that decide; the other fields stay what they are
  obtain ⟨_, _, _, cancelled, _, _, _, started⟩ := s
  cases cancelled with
  | true => simp [handleStreamNotification, notifies, startedEvents]
  | false =>
      cases breakerIsOpen with
      | true => simp [handleStreamNotification, notifies, startedEvents]
      | false =>
          cases started <;>
            simp [handleStreamNotification, notifies, startedEvents, trackStreamStarted,
              trackEvent]

/-- The one place of a stream that shows text: `trackStreamShown` and then
`updateSuggestionProvided(true)`, if `shows`. -/
theorem trackStreamShown_eq (shows : Bool) (s : Stream) :
    (if shows then s.trackStreamShown.updateSuggestionProvided true else s) = { s with
      streamShown := s.streamShown || shows
      suggestionProvided := s.suggestionProvided || shows
      tracked := s.tracked ++ s.shownEvents shows } := by
  obtain ⟨_, _, _, _, shown⟩ := s
  cases shows with
  | false => simp [shownEvents]
  | true =>
      cases shown <;>
        simp [shownEvents, trackStreamShown, trackEvent, updateSuggestionProvided]

theorem legacyNotified_eq (s : Stream) :
    s.legacyNotified = { s with
      streamShown := s.streamShown || s.legacyShows
      suggestionProvided := s.suggestionProvided || s.legacyShows
      tracked := s.tracked ++ s.shownEvents s.legacyShows } :=
  s.trackStreamShown_eq s.legacyShows

theorem onParsedEvent_eq (e : SSEEvent) (s : Stream) :
    s.onParsedEvent e = { s with
      sseBuffer := s.parsedBuffer e
      streamShown := s.streamShown || s.parsedShows e
      suggestionProvided := s.suggestionProvided || s.parsedShows e || e.event == .streamEnd
      tracked := s.tracked ++ s.shownEvents (s.parsedShows e)
      trackingContexts := s.trackingContexts ++
        if e.event = .streamStart then [{ model := e.data.bind (·.model) }] else [] } := by
  obtain ⟨event, data⟩ := e
  cases event with
  | streamStart => simp [onParsedEvent, setTrackingContext, parsedBuffer, parsedShows, shownEvents]
  | streamEnd =>
      simp [onParsedEvent, updateSuggestionProvided, parsedBuffer, parsedShows, shownEvents]
  | contentChunk =>
      have hne : (SSEEventName.contentChunk == .streamEnd) = false := rfl
      cases hd : data.bind (·.choices) with
      | none => simp [onParsedEvent, parsedBuffer, parsedShows, shownEvents, hd, hne]
      | some choices =>
          simp only [onParsedEvent, parsedBuffer, parsedShows, hd, trackStreamShown_eq, hne]
          simp [shownEvents]

/-- The message with a processed completion. -/
def contentMessage (completion : JsString) (s : Stream) : StreamingCompletionResponse :=
  { id := s.params.streamId, completion := some completion, done := false }

/-- What a notification sends once its post-processors have settled. -/
def processedMessages (result : Except StreamError JsString) (s : Stream) :
    List StreamingCompletionResponse :=
  match result with
  | .ok completion => [s.contentMessage completion]
  | .error _ => []

theorem notificationProcessed_eq (result : Except StreamError JsString) (s : Stream) :
    (s.notificationProcessed result).1 =
      { s with messages := s.messages ++ s.processedMessages result } := by
  cases result <;> simp [notificationProcessed, processedMessages, sendStreamingResponse,
    contentMessage]

theorem endStreamSent_eq (s : Stream) :
    s.endStreamSent = { s with tracked := s.tracked ++ s.endEvents } := by
  obtain ⟨_, _, _, _, _, provided, flag⟩ := s
  cases flag with
  | true => simp [endStreamSent, endEvents]
  | false => cases provided <;> simp [endStreamSent, endEvents, trackEvent]

theorem notificationHandler_eq (s : Stream) :
    s.notificationHandler = { s with
      streamCancelledOrErrored := s.streamCancelledOrErrored || s.isRegistered
      isCancellationRequested := s.isCancellationRequested || s.isRegistered
      tracked := s.tracked ++ if s.isRegistered then
        [if s.streamShown then .rejected else .cancelled] else [] } := by
  obtain ⟨_, _, registered⟩ := s
  cases registered <;> simp [notificationHandler, cancellationListener, trackEvent]

end Stream

namespace Handler

/-- What `handleError` records of an error. -/
def errorContexts : StreamError → List ICodeSuggestionContextUpdate
  | .fetchError status => [{ status := some status }]
  | .other => []

theorem handleError_eq (err : StreamError) (h : Handler) :
    h.handleError err =
      { circuitBreaker := h.circuitBreaker.error
        stream := { h.stream with
          streamCancelledOrErrored := true
          tracked := h.stream.tracked ++ [.errored]
          trackingContexts := h.stream.trackingContexts ++ errorContexts err } } := by
  cases err <;> simp [handleError, Stream.setTrackingContext, Stream.trackEvent, errorContexts]

/-- The breaker lets a notification through that begins now. -/
def notifies (h : Handler) : Bool := h.stream.notifies h.circuitBreaker.isOpen

/-- The state of the queue's running task, once its synchronous part has run. -/
def begun (h : Handler) : Notification :=
  if h.notifies then .postProcessing h.stream.sseBuffer else .settled none

theorem runTask_eq (h : Handler) :
    h.runTask = { h with stream := { h.stream with
      queue := h.stream.queue.update h.begun
      streamStarted := h.stream.streamStarted || h.notifies
      tracked := h.stream.tracked ++ h.stream.startedEvents h.notifies } } := by
  simp only [runTask, Stream.handleStreamNotification_eq]
  rfl

/-- A change of the queue either starts no task, or runs the synchronous part of one. -/
theorem queueChanged_eq (q : SerialQueue Notification × Option Notification) (h : Handler) :
    h.queueChanged q = { h with stream := { h.stream with
      queue := if q.2.isSome then q.1.update h.begun else q.1
      streamStarted := h.stream.streamStarted || (q.2.isSome && h.notifies)
      tracked := h.stream.tracked ++ h.stream.startedEvents (q.2.isSome && h.notifies) } } := by
  unfold queueChanged
  cases hq : q.2 with
  | none => simp [mapStream, Stream.startedEvents]
  | some n => simp [mapStream, runTask_eq, notifies, begun, Stream.notifies, Stream.startedEvents]

theorem item_legacy_eq (chunk : JsString) (h : Handler) :
    h.item (.legacy chunk) = { h with stream := { h.stream with
      control := .notifying (if h.notifies then
        .postProcessing (h.stream.legacyStreamBuffer ++ chunk) else .settled none)
      legacyStreamBuffer := h.stream.legacyStreamBuffer ++ chunk
      streamStarted := h.stream.streamStarted || h.notifies
      tracked := h.stream.tracked ++ h.stream.startedEvents h.notifies } } := by
  simp [item, Stream.handleStreamNotification_eq, notifies, Stream.notifies, Stream.startedEvents]

end Handler
end KhulnasoftLsp.Streaming
