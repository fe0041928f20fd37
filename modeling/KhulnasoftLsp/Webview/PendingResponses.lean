import KhulnasoftLsp.HandlerRegistry
import KhulnasoftLsp.Timers
import KhulnasoftLsp.Webview.Messages

/-!
# Requests that wait for a response

`WebviewInstanceMessageBus.sendRequest` registers a handler under the id of its request, publishes
the request, and arms a timer. A response may come while the request is still being published, when
the timer is not there yet. `dispose` forgets the handlers and the subscriptions, but not the
timers: what was pending then is settled by its time-out, and so is every later request.
-/

namespace KhulnasoftLsp.Webview

open Rpc Transition

variable {α : Type}

/-- What happens to the bus. -/
inductive BusEvent (α : Type) where
  /-- `sendRequest`, up to the call of `publish`. -/
  | sendRequest (requestId type : String) (payload : Option α)
  /-- The innermost `publish` returns, and `sendRequest` goes on. -/
  | published
  /-- A `webview:response` is published on the runtime bus. -/
  | response (message : RuntimeResponse (Option α))
  | wait (t : Nat)
  /-- The timer of a request fires. -/
  | timeout (requestId : String)
  | dispose

/-- The part of the bus that `sendRequest` uses. -/
structure WebviewInstanceMessageBus (α : Type) where
  address : WebviewAddress
  /-- `#eventSubscriptions` is not disposed of. -/
  isSubscribed : Bool
  /-- A handler is known by the request that it belongs to. -/
  pendingResponseEvents : SimpleRegistry String
  timers : Timers
  /-- The variable `timeout` of each request that has set it. -/
  timeouts : OrderedMap String Nat
  /-- The requests that are being published, the innermost first. -/
  publishing : List String
  /-- The messages that were published. -/
  messages : List (RuntimeRequest (Payload α))
  /-- How the promises have settled. -/
  promises : OrderedMap String (Outcome (Option α) Thrown)

namespace WebviewInstanceMessageBus

def new (address : WebviewAddress) : WebviewInstanceMessageBus α where
  address := address
  isSubscribed := true
  pendingResponseEvents := .new
  timers := .new 0
  timeouts := .empty
  publishing := []
  messages := []
  promises := .empty

/-- `resolve` or `reject`: a promise settles once. -/
def settlePromise (requestId : String) (outcome : Outcome (Option α) Thrown)
    (s : WebviewInstanceMessageBus α) : WebviewInstanceMessageBus α :=
  match s.promises.get requestId with
  | none => { s with promises := s.promises.set requestId outcome }
  | some _ => s

/-- `pendingRequestHandle.dispose()` -/
def disposePending (requestId : String) (s : WebviewInstanceMessageBus α) :
    WebviewInstanceMessageBus α :=
  { s with pendingResponseEvents := s.pendingResponseEvents.disposeKey requestId }

/-- `clearTimeout(timeout)`, which does nothing while the variable is not set. -/
def clearTimeoutOf (requestId : String) (s : WebviewInstanceMessageBus α) :
    WebviewInstanceMessageBus α :=
  match s.timeouts.get requestId with
  | none => s
  | some timeout => { s with timers := s.timers.clearTimeout timeout }

/-- The handler of a pending response. -/
def onPendingResponse (requestId : String) (message : RuntimeResponse (Option α))
    (s : WebviewInstanceMessageBus α) : WebviewInstanceMessageBus α :=
  ((s.settlePromise requestId (settle message)).clearTimeoutOf requestId).disposePending requestId

/-- The listener to `webview:response`. Without a handler an error is logged. -/
def onResponse (message : RuntimeResponse (Option α)) (s : WebviewInstanceMessageBus α) :
    WebviewInstanceMessageBus α :=
  if s.isSubscribed && eventFilter s.address message.toWebviewAddress then
    match s.pendingResponseEvents.handlers.get message.requestId with
    | none => s
    | some requestId => s.onPendingResponse requestId message
  else s

/-- `sendRequest`, up to the call of `publish`. -/
def sendRequest (requestId type : String) (payload : Option α) (s : WebviewInstanceMessageBus α) :
    WebviewInstanceMessageBus α :=
  { s with
    pendingResponseEvents := s.pendingResponseEvents.register requestId requestId
    messages := s.messages ++ [request s.address requestId type payload]
    publishing := requestId :: s.publishing }

/-- What `sendRequest` does once `publish` has returned. -/
def armTimeout (requestId : String) (s : WebviewInstanceMessageBus α) :
    WebviewInstanceMessageBus α :=
  { s with
    timers := (s.timers.setTimeout 10000).2
    timeouts := s.timeouts.set requestId (s.timers.setTimeout 10000).1 }

def timedOut : Outcome (Option α) Thrown := .rejected (.error "Request timed out")

def step (s : WebviewInstanceMessageBus α) : BusEvent α → Option (WebviewInstanceMessageBus α)
  | .sendRequest requestId type payload => some (s.sendRequest requestId type payload)
  | .published =>
    match s.publishing with
    | [] => none
    | requestId :: publishing => some ({ s with publishing }.armTimeout requestId)
  | .response message => some (s.onResponse message)
  | .wait t => (s.timers.wait t).map fun timers => { s with timers }
  | .timeout requestId =>
    match s.publishing, s.timeouts.get requestId with
    | [], some timeout => (s.timers.fire timeout).map fun timers =>
      ({ s with timers }.disposePending requestId).settlePromise requestId timedOut
    | _, _ => none
  | .dispose => some { s with
      isSubscribed := false
      pendingResponseEvents := s.pendingResponseEvents.dispose }

end WebviewInstanceMessageBus

/-! ## What a run says about its requests -/

namespace BusEvent

/-- The id under which the event sends a request. -/
def sentId : BusEvent α → Option String
  | .sendRequest requestId _ _ => some requestId
  | _ => none

def isResponse : BusEvent α → Bool
  | .response _ => true
  | _ => false

def isDispose : BusEvent α → Bool
  | .dispose => true
  | _ => false

/-- How the event settles a request of the instance, if nothing has settled it before. -/
def settles (address : WebviewAddress) (requestId : String) :
    BusEvent α → Option (Outcome (Option α) Thrown)
  | .response message =>
    if message.toWebviewAddress = address ∧ message.requestId = requestId then
      some (WebviewInstanceMessageBus.settle message)
    else none
  | .timeout timedOutId =>
    if timedOutId = requestId then some WebviewInstanceMessageBus.timedOut else none
  | _ => none

end BusEvent

/-- The ids of the requests that were sent. -/
def sentIds (es : List (BusEvent α)) : List String := es.filterMap BusEvent.sentId

/-- The bus was disposed of. -/
def wasDisposed (es : List (BusEvent α)) : Bool := es.any BusEvent.isDispose

/-- The run without the responses that come once the bus is disposed of. -/
def heard : List (BusEvent α) → List (BusEvent α)
  | [] => []
  | e :: es => if e.isDispose then e :: es.filter (!·.isResponse) else e :: heard es

/-- The first event from the sending of the request on that settles it. -/
def firstSettlement (address : WebviewAddress) (requestId : String) (es : List (BusEvent α)) :
    Option (Outcome (Option α) Thrown) :=
  ((heard es).dropWhile fun e => e.sentId != some requestId).findSome?
    (BusEvent.settles address requestId)

/-- The ids of the requests that were sent since the bus was last disposed of. -/
def sentSinceDispose (es : List (BusEvent α)) : List String :=
  es.foldl (fun ids e => if e.isDispose then [] else ids ++ e.sentId.toList) []

theorem heard_concat (es : List (BusEvent α)) (e : BusEvent α) :
    heard (es ++ [e]) = heard es ++ if wasDisposed es && e.isResponse then [] else [e] := by
  induction es with
  | nil => cases e <;> rfl
  | cons e' es ih =>
      rw [List.cons_append, heard, heard, ih]
      cases hd : e'.isDispose with
      | true =>
          have hany : wasDisposed (e' :: es) = true := by simp [wasDisposed, hd]
          rw [hany, if_pos rfl, if_pos rfl, List.filter_append]
          cases hresponse : e.isResponse <;> simp [hresponse]
      | false =>
          have hany : wasDisposed (e' :: es) = wasDisposed es := by simp [wasDisposed, hd]
          rw [hany]
          rfl

theorem sentIds_heard (es : List (BusEvent α)) : sentIds (heard es) = sentIds es := by
  have hfilter : ∀ es : List (BusEvent α), sentIds (es.filter (!·.isResponse)) = sentIds es := by
    intro es
    rw [sentIds, List.filterMap_filter]
    apply List.filterMap_congr
    intro e _
    cases e <;> rfl
  induction es with
  | nil => rfl
  | cons e es ih =>
      rw [heard]
      split
      · rw [sentIds, List.filterMap_cons, ← sentIds, hfilter, sentIds, sentIds, List.filterMap_cons]
      · rw [sentIds, List.filterMap_cons, ← sentIds, ih, sentIds, sentIds, List.filterMap_cons]

/-- What is found from an entry on, in a list with one more entry. -/
theorem findSome?_dropWhile_concat {β γ : Type} {p : β → Bool} {f : β → Option γ}
    (hf : ∀ b, p b = false → f b = none) (bs : List β) (b : β) :
    ((bs ++ [b]).dropWhile p).findSome? f =
      ((bs.dropWhile p).findSome? f).or (if ∃ b ∈ bs, p b = false then f b else none) := by
  induction bs with
  | nil =>
      cases hp : p b with
      | true => simp [hp]
      | false => simp [hp, hf b hp]
  | cons b' bs ih =>
      cases hp : p b' with
      | true => simpa [hp] using ih
      | false =>
          have hneg : ¬ p b' = true := by simp [hp]
          rw [List.cons_append, List.dropWhile_cons_of_neg hneg, List.dropWhile_cons_of_neg hneg,
            if_pos ⟨b', List.mem_cons_self, hp⟩, ← List.cons_append, List.findSome?_append,
            List.findSome?_singleton]

/-- What one more event settles: a request that was sent and is not settled yet, if the event is
heard. -/
theorem firstSettlement_concat (address : WebviewAddress) (requestId : String)
    (es : List (BusEvent α)) (e : BusEvent α) :
    firstSettlement address requestId (es ++ [e]) =
      (firstSettlement address requestId es).or
        (if requestId ∈ sentIds es ∧ (wasDisposed es && e.isResponse) = false then
          e.settles address requestId
        else none) := by
  have hsends : ∀ e : BusEvent α, (e.sentId != some requestId) = false →
      e.settles address requestId = none := by
    intro e he
    cases e with
    | sendRequest => rfl
    | _ => simp [BusEvent.sentId] at he
  have hsent : (∃ e ∈ heard es, (e.sentId != some requestId) = false) ↔ requestId ∈ sentIds es := by
    rw [← sentIds_heard es, sentIds, List.mem_filterMap]
    simp
  rw [firstSettlement, heard_concat]
  cases hheard : wasDisposed es && e.isResponse with
  | true => simp [firstSettlement]
  | false =>
      rw [if_neg Bool.false_ne_true, findSome?_dropWhile_concat hsends]
      simp only [hsent, and_true]
      rfl

/-- What has settled a request first stays what has. -/
theorem firstSettlement_append {address : WebviewAddress} {requestId : String}
    {es : List (BusEvent α)} {x : Outcome (Option α) Thrown}
    (h : firstSettlement address requestId es = some x) (fs : List (BusEvent α)) :
    firstSettlement address requestId (es ++ fs) = some x := by
  induction fs using List.reverseRecOn with
  | nil => simpa using h
  | append_singleton fs f ih =>
      rw [← List.append_assoc, firstSettlement_concat, ih]
      rfl

theorem mem_sentIds_of_firstSettlement {address : WebviewAddress} {requestId : String}
    {es : List (BusEvent α)} {x : Outcome (Option α) Thrown}
    (h : firstSettlement address requestId es = some x) : requestId ∈ sentIds es := by
  induction es using List.reverseRecOn with
  | nil => cases h
  | append_singleton es e ih =>
      rw [firstSettlement_concat, Option.or_eq_some_iff] at h
      rw [sentIds, List.filterMap_append]
      apply List.mem_append_left
      rcases h with h | ⟨-, h⟩
      · exact ih h
      · exact (Option.ite_none_right_eq_some.mp h).1.1

theorem sentSinceDispose_concat (es : List (BusEvent α)) (e : BusEvent α) :
    sentSinceDispose (es ++ [e]) =
      if e.isDispose then [] else sentSinceDispose es ++ e.sentId.toList := by
  rw [sentSinceDispose, List.foldl_append]
  rfl

theorem sentSinceDispose_eq {es : List (BusEvent α)} (h : wasDisposed es = false) :
    sentSinceDispose es = sentIds es := by
  induction es using List.reverseRecOn with
  | nil => rfl
  | append_singleton es e ih =>
      rw [wasDisposed, List.any_append, Bool.or_eq_false_iff] at h
      have he : e.isDispose = false := by simpa using h.2
      rw [sentSinceDispose_concat, he, if_neg Bool.false_ne_true, ih h.1, sentIds, sentIds,
        List.filterMap_append]
      cases e <;> rfl

/-! ## The promises and the registry -/

namespace WebviewInstanceMessageBus

/-- The state that the run `es` leaves. -/
structure Follows (address : WebviewAddress) (es : List (BusEvent α))
    (s : WebviewInstanceMessageBus α) : Prop where
  address_eq : s.address = address
  isSubscribed_eq : s.isSubscribed = !wasDisposed es
  promise : ∀ requestId, s.promises.get requestId = firstSettlement address requestId es
  handler : ∀ requestId, s.pendingResponseEvents.handlers.get requestId =
    if requestId ∈ sentSinceDispose es ∧ firstSettlement address requestId es = none then
      some requestId
    else none
  published : ∀ requestId ∈ s.publishing, requestId ∈ sentIds es
  timeout : ∀ requestId, (s.timeouts.get requestId).isSome → requestId ∈ sentIds es

theorem follows_new (address : WebviewAddress) :
    Follows address [] (new address : WebviewInstanceMessageBus α) where
  address_eq := rfl
  isSubscribed_eq := rfl
  promise _ := rfl
  handler _ := rfl
  published _ h := absurd h List.not_mem_nil
  timeout _ h := by cases h

theorem eventFilter_iff {address event : WebviewAddress} :
    eventFilter address event = true ↔ event = address := by
  cases address
  cases event
  simp [eventFilter]

section Effects

variable (s : WebviewInstanceMessageBus α) (requestId : String)
  (outcome : Outcome (Option α) Thrown)

theorem get_settlePromise (id : String) :
    (s.settlePromise requestId outcome).promises.get id =
      (s.promises.get id).or (if id = requestId then some outcome else none) := by
  unfold settlePromise
  cases h : s.promises.get requestId with
  | none =>
      rw [OrderedMap.get_set]
      split
      · rename_i hid
        rw [hid, h]
        rfl
      · simp
  | some x =>
      dsimp only
      split
      · rename_i hid
        rw [hid, h]
        rfl
      · simp

/-- Only the promises change. -/
theorem settlePromise_eq : ∃ promises,
    s.settlePromise requestId outcome = { s with promises } := by
  unfold settlePromise
  split
  · exact ⟨_, rfl⟩
  · exact ⟨_, rfl⟩

/-- Only the timers change. -/
theorem clearTimeoutOf_eq : ∃ timers, s.clearTimeoutOf requestId = { s with timers } := by
  unfold clearTimeoutOf
  split
  · exact ⟨_, rfl⟩
  · exact ⟨_, rfl⟩

end Effects

variable {address : WebviewAddress} {es : List (BusEvent α)} {s t : WebviewInstanceMessageBus α}

/-- A request that was sent settles: its promise does if it has not yet, and its handler is
disposed of. -/
theorem Follows.settled (h : Follows address es s) (requestId : String)
    (outcome : Outcome (Option α) Thrown) {e : BusEvent α} (hsent : requestId ∈ sentIds es)
    (hid : e.sentId = none) (hdispose : e.isDispose = false)
    (hheard : (wasDisposed es && e.isResponse) = false)
    (hsettles : ∀ id, e.settles address id = if id = requestId then some outcome else none)
    (ht : t.address = s.address ∧ t.isSubscribed = s.isSubscribed ∧
      t.publishing = s.publishing ∧ t.timeouts = s.timeouts)
    (hpromises : t.promises = (s.settlePromise requestId outcome).promises)
    (hhandlers : t.pendingResponseEvents = s.pendingResponseEvents.disposeKey requestId) :
    Follows address (es ++ [e]) t := by
  have hfirst : ∀ id, firstSettlement address id (es ++ [e]) =
      (firstSettlement address id es).or (if id = requestId then some outcome else none) := by
    intro id
    rw [firstSettlement_concat, hheard, hsettles]
    by_cases heq : id = requestId
    · simp [heq, hsent]
    · simp [heq]
  have hids : sentIds (es ++ [e]) = sentIds es := by
    rw [sentIds, List.filterMap_append]
    simp [hid, sentIds]
  obtain ⟨haddress, hsubscribed, hpublishing, htimeouts⟩ := ht
  constructor
  · rw [haddress, h.address_eq]
  · rw [hsubscribed, h.isSubscribed_eq]
    simp [wasDisposed, hdispose]
  · intro id
    rw [hpromises, get_settlePromise, h.promise, hfirst]
  · intro id
    rw [hhandlers]
    show (s.pendingResponseEvents.handlers.delete requestId).get id = _
    rw [OrderedMap.get_delete, h.handler, hfirst, sentSinceDispose_concat, hdispose, hid]
    by_cases heq : id = requestId
    · simp [heq]
    · simp [heq]
  · rw [hpublishing, hids]
    exact h.published
  · rw [htimeouts, hids]
    exact h.timeout

/-- A step that settles nothing and leaves the handlers alone. -/
theorem Follows.unsettled (h : Follows address es s) {e : BusEvent α} (hid : e.sentId = none)
    (hdispose : e.isDispose = false)
    (hsettles : ∀ requestId ∈ sentIds es, (wasDisposed es && e.isResponse) = false →
      firstSettlement address requestId es = none → e.settles address requestId = none)
    (ht : t.address = s.address ∧ t.isSubscribed = s.isSubscribed ∧ t.promises = s.promises ∧
      t.pendingResponseEvents = s.pendingResponseEvents)
    (hpublishing : ∀ requestId ∈ t.publishing, requestId ∈ sentIds es)
    (htimeouts : ∀ requestId, (t.timeouts.get requestId).isSome → requestId ∈ sentIds es) :
    Follows address (es ++ [e]) t := by
  have hfirst : ∀ id, firstSettlement address id (es ++ [e]) = firstSettlement address id es := by
    intro id
    rw [firstSettlement_concat]
    cases hsettled : firstSettlement address id es with
    | some x => rfl
    | none =>
        rw [Option.none_or, ite_eq_right_iff]
        rintro ⟨hsent, hheard⟩
        exact hsettles id hsent hheard hsettled
  have hids : sentIds (es ++ [e]) = sentIds es := by
    rw [sentIds, List.filterMap_append]
    simp [hid, sentIds]
  obtain ⟨haddress, hsubscribed, hpromises, hhandlers⟩ := ht
  constructor
  · rw [haddress, h.address_eq]
  · rw [hsubscribed, h.isSubscribed_eq]
    simp [wasDisposed, hdispose]
  · intro id
    rw [hpromises, h.promise, hfirst]
  · intro id
    rw [hhandlers, h.handler, hfirst, sentSinceDispose_concat, hdispose, hid]
    simp
  · rw [hids]
    exact hpublishing
  · rw [hids]
    exact htimeouts

/-- A response that is heard settles the request that it names, if this one is pending. -/
theorem Follows.onResponse (h : Follows address es s) (message : RuntimeResponse (Option α)) :
    Follows address (es ++ [.response message]) (s.onResponse message) := by
  have hsame : (wasDisposed es && (BusEvent.response message).isResponse) = wasDisposed es := by
    simp [BusEvent.isResponse]
  have hnothing (hsettles : wasDisposed es = false → message.toWebviewAddress = address →
      message.requestId ∈ sentIds es → firstSettlement address message.requestId es ≠ none) :
      Follows address (es ++ [.response message]) s := by
    refine h.unsettled rfl rfl ?_ ⟨rfl, rfl, rfl, rfl⟩ h.published h.timeout
    intro requestId hsent hheard hnone
    rw [hsame] at hheard
    simp only [BusEvent.settles, ite_eq_right_iff, reduceCtorEq, imp_false]
    rintro ⟨haddress, rfl⟩
    exact hsettles hheard haddress hsent hnone
  unfold WebviewInstanceMessageBus.onResponse
  split
  · rename_i hfilter
    rw [Bool.and_eq_true, h.isSubscribed_eq, Bool.not_eq_true', h.address_eq,
      eventFilter_iff] at hfilter
    obtain ⟨hopen, haddress⟩ := hfilter
    have hhandler := h.handler message.requestId
    rw [sentSinceDispose_eq hopen] at hhandler
    split
    · rename_i hnone
      apply hnothing
      intro _ _ hsent hunsettled
      rw [hnone, if_pos ⟨hsent, hunsettled⟩] at hhandler
      cases hhandler
    · rename_i requestId hsome
      rw [hsome, eq_comm] at hhandler
      obtain ⟨⟨hsent, -⟩, hid⟩ := Option.ite_none_right_eq_some.mp hhandler
      obtain rfl : message.requestId = requestId := Option.some.inj hid
      obtain ⟨promises, hpromises⟩ := s.settlePromise_eq message.requestId (settle message)
      obtain ⟨timers, htimers⟩ :=
        (s.settlePromise message.requestId (settle message)).clearTimeoutOf_eq message.requestId
      refine h.settled message.requestId (settle message) hsent rfl rfl ?_ ?_ ?_ ?_ ?_
      · rw [hsame, hopen]
      · intro id
        simp only [BusEvent.settles, haddress, true_and, eq_comm]
      · rw [onPendingResponse, htimers, hpromises]
        exact ⟨rfl, rfl, rfl, rfl⟩
      · rw [onPendingResponse, htimers]
        rfl
      · rw [onPendingResponse, htimers, hpromises]
        rfl
  · rename_i hfilter
    apply hnothing
    intro hopen haddress
    rw [Bool.and_eq_true, h.isSubscribed_eq, Bool.not_eq_true', h.address_eq,
      eventFilter_iff] at hfilter
    exact absurd ⟨hopen, haddress⟩ hfilter

theorem Follows.sendRequest (h : Follows address es s) {requestId : String}
    (hfresh : requestId ∉ sentIds es) (type : String) (payload : Option α) :
    Follows address (es ++ [.sendRequest requestId type payload])
      (s.sendRequest requestId type payload) := by
  have hids : sentIds (es ++ [.sendRequest requestId type payload]) =
      sentIds es ++ [requestId] := by
    rw [sentIds, List.filterMap_append]
    rfl
  have hfirst : ∀ id, firstSettlement address id (es ++ [.sendRequest requestId type payload]) =
      firstSettlement address id es := by
    intro id
    rw [firstSettlement_concat]
    simp [BusEvent.settles]
  have hunsettled : firstSettlement address requestId es = none := by
    rw [Option.eq_none_iff_forall_ne_some]
    exact fun x hx => hfresh (mem_sentIds_of_firstSettlement hx)
  constructor
  · exact h.address_eq
  · show s.isSubscribed = _
    rw [h.isSubscribed_eq]
    simp [wasDisposed, BusEvent.isDispose]
  · intro id
    rw [hfirst]
    exact h.promise id
  · intro id
    show (s.pendingResponseEvents.handlers.set requestId requestId).get id = _
    rw [OrderedMap.get_set, h.handler, hfirst, sentSinceDispose_concat]
    by_cases hid : id = requestId
    · simp [hid, hunsettled, BusEvent.isDispose, BusEvent.sentId]
    · simp [hid, BusEvent.isDispose, BusEvent.sentId]
  · rw [hids]
    intro id hid
    rcases List.mem_cons.mp hid with rfl | hid
    · simp
    · exact List.mem_append_left _ (h.published id hid)
  · rw [hids]
    exact fun id hid => List.mem_append_left _ (h.timeout id hid)

theorem Follows.dispose (h : Follows address es s) :
    Follows address (es ++ [.dispose]) { s with
      isSubscribed := false
      pendingResponseEvents := s.pendingResponseEvents.dispose } := by
  have hids : sentIds (es ++ [.dispose]) = sentIds es := by
    rw [sentIds, List.filterMap_append]
    exact List.append_nil _
  constructor
  · exact h.address_eq
  · simp [wasDisposed, BusEvent.isDispose]
  · intro id
    rw [firstSettlement_concat]
    simpa [BusEvent.settles] using h.promise id
  · intro id
    rw [sentSinceDispose_concat]
    simp [BusEvent.isDispose, SimpleRegistry.dispose]
  · rw [hids]
    exact h.published
  · rw [hids]
    exact h.timeout

theorem Follows.published_armTimeout (h : Follows address es s) {requestId : String}
    {publishing : List String} (hpublishing : s.publishing = requestId :: publishing) :
    Follows address (es ++ [.published]) ({ s with publishing }.armTimeout requestId) := by
  have hsent : ∀ id ∈ requestId :: publishing, id ∈ sentIds es := by
    rw [← hpublishing]
    exact h.published
  refine h.unsettled rfl rfl (fun _ _ _ _ => rfl) ⟨rfl, rfl, rfl, rfl⟩ ?_ ?_
  · exact fun id hid => hsent id (List.mem_cons_of_mem _ hid)
  · intro id hid
    simp only [armTimeout, OrderedMap.get_set] at hid
    split at hid
    · rename_i heq
      rw [heq]
      exact hsent requestId List.mem_cons_self
    · exact h.timeout id hid

theorem Follows.timedOut (h : Follows address es s) {requestId : String} {timeout : Nat}
    (htimeout : s.timeouts.get requestId = some timeout) (timers : Timers) :
    Follows address (es ++ [.timeout requestId])
      (({ s with timers }.disposePending requestId).settlePromise requestId timedOut) := by
  have hsent := h.timeout requestId (by rw [htimeout]; rfl)
  obtain ⟨promises, hpromises⟩ :=
    ({ s with timers }.disposePending requestId).settlePromise_eq requestId
      WebviewInstanceMessageBus.timedOut
  refine h.settled requestId WebviewInstanceMessageBus.timedOut hsent rfl rfl ?_ ?_ ?_ ?_ ?_
  · simp [BusEvent.isResponse]
  · intro id
    simp only [BusEvent.settles, eq_comm]
  · rw [hpromises]
    exact ⟨rfl, rfl, rfl, rfl⟩
  · unfold settlePromise
    simp only [disposePending]
    split <;> rfl
  · rw [hpromises]
    rfl

/-- What every step keeps, if ids are unique. -/
theorem Follows.step {e : BusEvent α} (h : Follows address es s)
    (hfresh : ∀ requestId, e.sentId = some requestId → requestId ∉ sentIds es)
    (hs : s.step e = some t) : Follows address (es ++ [e]) t := by
  cases e with
  | sendRequest requestId type payload =>
      cases hs
      exact h.sendRequest (hfresh requestId rfl) type payload
  | published =>
      simp only [WebviewInstanceMessageBus.step] at hs
      split at hs
      · cases hs
      · rename_i requestId publishing hpublishing
        cases hs
        exact h.published_armTimeout hpublishing
  | response message =>
      cases hs
      exact h.onResponse message
  | wait time =>
      obtain ⟨timers, -, rfl⟩ := Option.map_eq_some_iff.mp hs
      exact h.unsettled rfl rfl (fun _ _ _ _ => rfl) ⟨rfl, rfl, rfl, rfl⟩ h.published h.timeout
  | timeout requestId =>
      simp only [WebviewInstanceMessageBus.step] at hs
      split at hs
      · rename_i timeout hpublishing htimeout
        obtain ⟨timers, -, rfl⟩ := Option.map_eq_some_iff.mp hs
        exact h.timedOut htimeout timers
      · cases hs
  | dispose =>
      cases hs
      exact h.dispose

theorem follows_of_run {address : WebviewAddress} {es : List (BusEvent α)}
    {s : WebviewInstanceMessageBus α} (hrun : run step (new address) es = some s)
    (hunique : (sentIds es).Nodup) : Follows address es s := by
  have htrace : (sentIds es).Nodup → Follows address es s := by
    apply run_trace (I := fun es s => (sentIds es).Nodup → Follows address es s) _ _ hrun
    · exact fun _ => follows_new address
    · intro as s a t hs hstep hunique
      rw [sentIds, List.filterMap_append, List.nodup_append] at hunique
      refine (hs hunique.1).step ?_ hstep
      intro requestId hid hmem
      exact hunique.2.2 requestId hmem requestId (by simp [hid]) rfl
  exact htrace hunique

/-- **What becomes of requests.** If ids are unique, every promise settles at most once, as the
first of these events says: a response with its id and the address of the instance, as long as the
bus is not disposed of, and its time-out. The registry holds exactly the ids of the unsettled
requests that were sent since the bus was last disposed of. -/
theorem promises_settle (address : WebviewAddress) (es : List (BusEvent α))
    (s : WebviewInstanceMessageBus α) (hrun : run step (new address) es = some s)
    (hunique : (sentIds es).Nodup) :
    (∀ requestId, s.promises.get requestId = firstSettlement address requestId es) ∧
      (∀ before after t, es = before ++ after → run step (new address) before = some t →
        ∀ requestId outcome, t.promises.get requestId = some outcome →
          s.promises.get requestId = some outcome) ∧
      ∀ requestId, s.pendingResponseEvents.has requestId = true ↔
        requestId ∈ sentSinceDispose es ∧ s.promises.get requestId = none := by
  have hfollows := follows_of_run hrun hunique
  refine ⟨hfollows.promise, ?_, ?_⟩
  · rintro before after t rfl hbefore requestId outcome ht
    have hunique' : (sentIds before).Nodup := by
      rw [sentIds, List.filterMap_append, List.nodup_append] at hunique
      exact hunique.1
    rw [(follows_of_run hbefore hunique').promise] at ht
    rw [hfollows.promise]
    exact firstSettlement_append ht after
  · intro requestId
    rw [SimpleRegistry.has, hfollows.handler, hfollows.promise]
    split
    · rename_i h
      simp [h]
    · rename_i h
      simp [h]

def sampleAddress : WebviewAddress := ⟨"duo-chat", "1"⟩

def sampleResponse (requestId : String) : RuntimeResponse (Option Nat) :=
  { sampleAddress with
    requestId, type := none, success := some true, payload := some 7, reason := none }

/-- The response to the first request comes while it is published, and the second one times out. -/
def sampleRequests : List (BusEvent Nat) :=
  [.sendRequest "a" "get" none, .response (sampleResponse "a"), .published,
    .sendRequest "b" "get" none, .published, .response (sampleResponse "a"), .wait 10000,
    .timeout "b", .response (sampleResponse "b")]

theorem promises_settle_of_sampleRequests : ∃ s,
    run step (new sampleAddress) sampleRequests = some s ∧
      ∀ requestId, s.pendingResponseEvents.has requestId = true ↔
        requestId ∈ sentSinceDispose sampleRequests ∧ s.promises.get requestId = none := by
  refine ⟨?s, ?run, (promises_settle sampleAddress sampleRequests ?s ?run ?_).2.2⟩
  case run => rfl
  decide

/-- Once the bus is disposed of, a request that was sent is neither settled by its response nor
registered. -/
theorem not_registered_of_dispose : ∃ s,
    run step (new sampleAddress) [.sendRequest "a" "get" none, .published, .dispose,
      .response (sampleResponse "a")] = some s ∧
    s.promises.get "a" = none ∧ s.pendingResponseEvents.has "a" = false :=
  ⟨_, rfl, by decide, by decide⟩

end WebviewInstanceMessageBus
end KhulnasoftLsp.Webview
