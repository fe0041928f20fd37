import KhulnasoftLsp.OrderedMap
import KhulnasoftLsp.Transition
import Mathlib.Data.List.Perm.Basic

/-!
# Requests and responses over a channel

A caller sends requests and keeps an entry for each that is pending, until a response or the timer
of the request settles it. A receiver calls the handler that is registered under the key of a
request, and responds when the handler has returned or when the promise that it returned has
settled. Every message is delivered once, in any order.

What the two ends write into the messages and read out of them is a `Protocol`. `Correlated` says
what calls are for, and `answered_step_iff` which step decides it: the delivery of a response.
-/

namespace Rpc

/-- How a promise settles. -/
inductive Outcome (V E : Type) where
  | resolved (value : V)
  | rejected (error : E)
  deriving DecidableEq, Repr

/-- What a handler does when it is called. -/
inductive Returned (V E : Type) where
  | value (value : V)
  | threw (error : E)
  | promise
  deriving DecidableEq, Repr

structure Request (I K V : Type) where
  id : I
  key : K
  value : V
  deriving DecidableEq, Repr

/-- What the ends of the channel make of requests and responses. A response carries the id of its
request. -/
structure Protocol (I K V E M : Type) where
  /-- The key under which the receiver looks for a handler, and what it gives to it. -/
  route : Request I K V → Option (K × V)
  /-- The response when the handler returns. -/
  returned : Request I K V → Returned V E → Option M
  /-- The response when the promise of the handler settles. -/
  settled : Request I K V → Outcome V E → Option M
  /-- The call that a response is for, and how it settles it. -/
  accept : M → Option (I × Outcome V E)
  accept_returned : ∀ r x m id o,
    returned r x = some m → accept m = some (id, o) → id = r.id
  accept_settled : ∀ r x m id o,
    settled r x = some m → accept m = some (id, o) → id = r.id

/-- A handler that has been called. -/
structure HandlerCall (V E H : Type) where
  handler : H
  value : V
  returned : Returned V E
  /-- How the promise has settled that the handler returned. -/
  settled : Option (Outcome V E)
  deriving DecidableEq, Repr

/-- A request that has been delivered: the handler that was registered under its key, and the one
that was called. -/
structure Delivery (I K V E H : Type) where
  request : Request I K V
  registered : Option H
  called : Option (HandlerCall V E H)
  deriving DecidableEq, Repr

inductive Settlement (V E : Type) where
  | response (outcome : Outcome V E)
  | timedOut
  deriving DecidableEq, Repr

structure Call (I K V E : Type) where
  request : Request I K V
  settlement : Option (Settlement V E)
  deriving DecidableEq, Repr

structure System (I K V E M H : Type) where
  handlers : OrderedMap K H
  pending : List I
  calls : OrderedMap I (Call I K V E)
  requests : List (Request I K V)
  deliveries : OrderedMap I (Delivery I K V E H)
  responses : List M

inductive Event (I K V E H : Type) where
  | register (key : K) (handler : H)
  | unregister (key : K)
  /-- A request with an id that has not been used. -/
  | send (request : Request I K V)
  /-- A request arrives. `returned` is what the handler does, if one is called. -/
  | deliverRequest (index : Nat) (returned : Returned V E)
  | settle (id : I) (outcome : Outcome V E)
  | deliverResponse (index : Nat)
  | timeOut (id : I)
  deriving DecidableEq, Repr

variable {I K V E M H : Type}

/-! ## The steps -/

namespace System

def new : System I K V E M H where
  handlers := .empty
  pending := []
  calls := .empty
  requests := []
  deliveries := .empty
  responses := []

variable [DecidableEq I]

/-- How the call with this id has been settled. -/
def settlement (s : System I K V E M H) (id : I) : Option (Settlement V E) :=
  (s.calls.get id).bind Call.settlement

def settleCall (id : I) (x : Settlement V E) (s : System I K V E M H) : System I K V E M H :=
  { s with
    pending := s.pending.filter (· ≠ id)
    calls := match s.calls.get id with
      | some c => s.calls.set id { c with settlement := some x }
      | none => s.calls }

def receiveResponse (P : Protocol I K V E M) (m : M) (s : System I K V E M H) :
    System I K V E M H :=
  match P.accept m with
  | some (id, o) => if id ∈ s.pending then s.settleCall id (.response o) else s
  | none => s

variable [DecidableEq K]

/-- The handler that is called for a request, if it returns this. -/
def callHandler (P : Protocol I K V E M) (r : Request I K V) (returned : Returned V E)
    (s : System I K V E M H) : Option (HandlerCall V E H) := do
  let (key, value) ← P.route r
  let handler ← s.handlers.get key
  return { handler, value, returned, settled := none }

def receiveRequest (P : Protocol I K V E M) (r : Request I K V) (returned : Returned V E)
    (s : System I K V E M H) : System I K V E M H :=
  let called := s.callHandler P r returned
  { s with
    deliveries := s.deliveries.set r.id
      { request := r, registered := s.handlers.get r.key, called }
    responses := s.responses ++ (called.bind fun _ => P.returned r returned).toList }

def step (P : Protocol I K V E M) (s : System I K V E M H) :
    Event I K V E H → Option (System I K V E M H)
  | .register key handler => some { s with handlers := s.handlers.set key handler }
  | .unregister key => some { s with handlers := s.handlers.delete key }
  | .send r =>
    match s.calls.get r.id with
    | some _ => none
    | none => some { s with
        pending := s.pending ++ [r.id]
        calls := s.calls.set r.id { request := r, settlement := none }
        requests := s.requests ++ [r] }
  | .deliverRequest i returned =>
    (s.requests[i]?).map fun r =>
      { s with requests := s.requests.eraseIdx i }.receiveRequest P r returned
  | .settle id o =>
    match s.deliveries.get id with
    | some { request, registered, called := some ⟨handler, value, .promise, none⟩ } =>
      some { s with
        deliveries := s.deliveries.set id
          { request, registered, called := some ⟨handler, value, .promise, some o⟩ }
        responses := s.responses ++ (P.settled request o).toList }
    | _ => none
  | .deliverResponse i =>
    (s.responses[i]?).map fun m =>
      { s with responses := s.responses.eraseIdx i }.receiveResponse P m
  | .timeOut id => if id ∈ s.pending then some (s.settleCall id .timedOut) else none

end System

/-! ## What calls are for -/

/-- The handler, or the promise that it returned, comes out like this. -/
def HandlerCall.Yields (h : HandlerCall V E H) : Outcome V E → Prop
  | .resolved v =>
    h.returned = .value v ∨ h.returned = .promise ∧ h.settled = some (.resolved v)
  | .rejected _ => (∃ e, h.returned = .threw e) ∨
    h.returned = .promise ∧ ∃ e, h.settled = some (.rejected e)

namespace System

variable [DecidableEq I]

/-- For the request of this id, the handler that is registered under its key has been called, and
has come out like this. -/
def HandlerYields (s : System I K V E M H) (id : I) (o : Outcome V E) : Prop :=
  ∃ d h, s.deliveries.get id = some d ∧ d.called = some h ∧ d.registered = some h.handler ∧
    h.Yields o

/-- A call that a response has settled has come out like its handler. -/
def Answered (s : System I K V E M H) : Prop :=
  ∀ id o, s.settlement id = some (.response o) → s.HandlerYields id o

/-- What calls are for. -/
structure Correlated (P : Protocol I K V E M) (s : System I K V E M H) : Prop where
  /-- A request reaches the handler that is registered under its key, with its value. -/
  reached : ∀ id d, s.deliveries.get id = some d →
    (d.called.map fun h => (h.handler, h.value)) = d.registered.map fun h => (h, d.request.value)
  /-- It reaches it once. -/
  once : ∀ r ∈ s.requests, s.deliveries.get r.id = none
  answered : s.Answered
  /-- The value of the handler is under way to a call that is pending. -/
  underWay : ∀ id d h v, s.deliveries.get id = some d → d.called = some h →
    h.Yields (.resolved v) → id ∈ s.pending → ∃ m ∈ s.responses, P.accept m = some (id, .resolved v)
  /-- A call that has not been settled is pending, so that it is rejected in the end. -/
  waiting : ∀ id c, s.calls.get id = some c → c.settlement = none → id ∈ s.pending

end System

/-! ## The invariant -/

/-- The response that a handler that has been called has sent. -/
def Protocol.Sends (P : Protocol I K V E M) (r : Request I K V) (h : HandlerCall V E H)
    (m : M) : Prop :=
  P.returned r h.returned = some m ∨ ∃ o, h.settled = some o ∧ P.settled r o = some m

/-- The handler that has been called is the one under the key where the receiver looks. -/
def Protocol.Routes (P : Protocol I K V E M) (d : Delivery I K V E H) : Prop :=
  ∀ h, d.called = some h → ∃ key, P.route d.request = some (key, h.value) ∧
    (key = d.request.key → d.registered = some h.handler)

theorem Protocol.Sends.id_eq {P : Protocol I K V E M} {r : Request I K V} {h : HandlerCall V E H}
    {m : M} (hsends : P.Sends r h m) {id : I} {o : Outcome V E} (hm : P.accept m = some (id, o)) :
    id = r.id := by
  rcases hsends with hreturned | ⟨x, -, hsettled⟩
  · exact P.accept_returned _ _ _ _ _ hreturned hm
  · exact P.accept_settled _ _ _ _ _ hsettled hm

namespace System

variable [DecidableEq I]

structure Valid (P : Protocol I K V E M) (s : System I K V E M H) : Prop where
  pending_iff : ∀ id, id ∈ s.pending ↔ ∃ c, s.calls.get id = some c ∧ c.settlement = none
  sent : ∀ r ∈ s.requests, (s.calls.get r.id).isSome
  nodup : (s.requests.map Request.id).Nodup
  fresh : ∀ r ∈ s.requests, s.deliveries.get r.id = none
  delivered : ∀ id d, s.deliveries.get id = some d → (s.calls.get id).isSome ∧ d.request.id = id
  responded : ∀ m ∈ s.responses, ∀ id o, P.accept m = some (id, o) →
    ∃ d h, s.deliveries.get id = some d ∧ d.called = some h ∧ P.Sends d.request h m
  routed : ∀ id d, s.deliveries.get id = some d → P.Routes d

theorem valid_new (P : Protocol I K V E M) : Valid P (new : System I K V E M H) := by
  constructor <;> simp [new]

theorem get_settleCall (s : System I K V E M H) (id k : I) (x : Settlement V E) :
    (s.settleCall id x).calls.get k =
      (s.calls.get k).map fun c => if k = id then { c with settlement := some x } else c := by
  unfold settleCall
  by_cases hk : k = id
  · subst hk
    cases hcall : s.calls.get k <;> simp [hcall]
  · simp only [if_neg hk, Option.map_id']
    cases s.calls.get id with
    | none => rfl
    | some c => exact OrderedMap.get_set_other _ _ hk

theorem mem_pending_settleCall {s : System I K V E M H} {id k : I} {x : Settlement V E} :
    k ∈ (s.settleCall id x).pending ↔ k ∈ s.pending ∧ k ≠ id := by
  simp [settleCall]

variable {P : Protocol I K V E M} {s t : System I K V E M H}

theorem deliveries_receiveResponse (s : System I K V E M H) (m : M) :
    (s.receiveResponse P m).deliveries = s.deliveries := by
  unfold System.receiveResponse
  split
  · split <;> rfl
  · rfl

theorem Valid.settleCall (h : Valid P s) (id : I) (x : Settlement V E) :
    Valid P (s.settleCall id x) where
  pending_iff := by
    intro k
    rw [mem_pending_settleCall, h.pending_iff, get_settleCall]
    by_cases hk : k = id <;> simp [hk]
  sent := by
    intro r hr
    rw [get_settleCall, Option.isSome_map]
    exact h.sent r hr
  nodup := h.nodup
  fresh := h.fresh
  delivered := by
    intro k d hd
    rw [get_settleCall, Option.isSome_map]
    exact h.delivered k d hd
  responded := h.responded
  routed := h.routed

theorem Valid.setHandlers (h : Valid P s) (handlers : OrderedMap K H) :
    Valid P { s with handlers } where
  pending_iff := h.pending_iff
  sent := h.sent
  nodup := h.nodup
  fresh := h.fresh
  delivered := h.delivered
  responded := h.responded
  routed := h.routed

theorem Valid.takeResponse (h : Valid P s) (i : Nat) :
    Valid P { s with responses := s.responses.eraseIdx i } :=
  { h with responded := fun m hm => h.responded m (List.mem_of_mem_eraseIdx hm) }

theorem Valid.receiveResponse (h : Valid P s) (m : M) : Valid P (s.receiveResponse P m) := by
  unfold System.receiveResponse
  split
  · split
    · exact h.settleCall _ _
    · exact h
  · exact h

theorem Valid.send {r : Request I K V} (h : Valid P s) (hr : s.calls.get r.id = none) :
    Valid P { s with
      pending := s.pending ++ [r.id]
      calls := s.calls.set r.id { request := r, settlement := none }
      requests := s.requests ++ [r] } where
  pending_iff := by
    intro id
    have hid := h.pending_iff id
    by_cases hk : id = r.id <;> simp [OrderedMap.get_set, hk, hid]
  sent := by
    intro q hq
    rw [OrderedMap.get_set]
    split
    · rfl
    · rename_i hne
      rcases List.mem_append.mp hq with hq | hq
      · exact h.sent q hq
      · exact absurd (by rw [List.mem_singleton.mp hq]) hne
  nodup := by
    rw [List.map_append, List.nodup_append]
    refine ⟨h.nodup, List.nodup_singleton _, ?_⟩
    rintro a ha b hb rfl
    obtain ⟨q, hq, hqa⟩ := List.mem_map.mp ha
    obtain rfl : a = r.id := List.mem_singleton.mp hb
    have hsent := h.sent q hq
    rw [hqa, hr] at hsent
    cases hsent
  fresh := by
    intro q hq
    rcases List.mem_append.mp hq with hq | hq
    · exact h.fresh q hq
    · rw [List.mem_singleton.mp hq]
      cases hd : s.deliveries.get r.id with
      | none => rfl
      | some d =>
          have hcall := (h.delivered r.id d hd).1
          rw [hr] at hcall
          cases hcall
  delivered := by
    intro id d hd
    obtain ⟨hcall, hid⟩ := h.delivered id d hd
    refine ⟨?_, hid⟩
    rw [OrderedMap.get_set]
    split
    · rfl
    · exact hcall
  responded := h.responded
  routed := h.routed

/-- What a step keeps of the invariant that changes a delivery and sends what its handler has to
say. -/
theorem Valid.respond {d : Delivery I K V E H} {ms : List M} {rs : List (Request I K V)}
    (h : Valid P s) (hd : (s.calls.get d.request.id).isSome)
    (hsub : rs.Sublist s.requests) (hrs : ∀ q ∈ rs, q.id ≠ d.request.id)
    (hms : ∀ m ∈ ms, ∃ c, d.called = some c ∧ P.Sends d.request c m)
    (hold : ∀ d' c m, s.deliveries.get d.request.id = some d' → d'.called = some c →
      P.Sends d'.request c m → ∃ c, d.called = some c ∧ P.Sends d.request c m)
    (hroutes : P.Routes d) :
    Valid P { s with
      requests := rs
      deliveries := s.deliveries.set d.request.id d
      responses := s.responses ++ ms } where
  pending_iff := h.pending_iff
  sent := fun q hq => h.sent q (hsub.subset hq)
  nodup := h.nodup.sublist (hsub.map _)
  fresh := by
    intro q hq
    rw [OrderedMap.get_set_other _ _ (hrs q hq)]
    exact h.fresh q (hsub.subset hq)
  delivered := by
    intro id d' hd'
    rw [OrderedMap.get_set] at hd'
    split at hd'
    · rename_i hid
      cases hd'
      exact ⟨hid ▸ hd, hid.symm⟩
    · exact h.delivered id d' hd'
  responded := by
    intro m hm id o haccept
    rw [OrderedMap.get_set]
    rcases List.mem_append.mp hm with hm | hm
    · obtain ⟨d', c, hd', hc, hsends⟩ := h.responded m hm id o haccept
      split
      · rename_i hid
        obtain ⟨c', hc', hsends'⟩ := hold d' c m (hid ▸ hd') hc hsends
        exact ⟨d, c', rfl, hc', hsends'⟩
      · exact ⟨d', c, hd', hc, hsends⟩
    · obtain ⟨c, hc, hsends⟩ := hms m hm
      rw [if_pos (hsends.id_eq haccept)]
      exact ⟨d, c, rfl, hc, hsends⟩
  routed := by
    intro id d' hd'
    rw [OrderedMap.get_set] at hd'
    split at hd'
    · cases hd'
      exact hroutes
    · exact h.routed id d' hd'

/-- A promise that has settled. -/
theorem Valid.settle {id : I} {r : Request I K V} {registered : Option H} {handler : H}
    {value : V} (h : Valid P s)
    (hd : s.deliveries.get id = some ⟨r, registered, some ⟨handler, value, .promise, none⟩⟩)
    (o : Outcome V E) :
    Valid P { s with
      deliveries := s.deliveries.set id
        ⟨r, registered, some ⟨handler, value, .promise, some o⟩⟩
      responses := s.responses ++ (P.settled r o).toList } := by
  obtain ⟨hcall, hid⟩ := h.delivered id _ hd
  obtain rfl : r.id = id := hid
  apply h.respond (d := ⟨r, registered, some ⟨handler, value, .promise, some o⟩⟩) hcall
    (List.Sublist.refl _)
  · intro q hq hid
    have hfresh := h.fresh q hq
    rw [hid, hd] at hfresh
    cases hfresh
  · intro m hm
    exact ⟨_, rfl, .inr ⟨o, rfl, Option.mem_toList.mp hm⟩⟩
  · intro d' c m hd' hc hsends
    cases hd.symm.trans hd'
    cases hc
    rcases hsends with hreturned | ⟨_, ⟨⟩, _⟩
    exact ⟨_, rfl, .inl hreturned⟩
  · rintro c ⟨⟩
    exact h.routed r.id _ hd ⟨handler, value, .promise, none⟩ rfl

/-! ## Settlements -/

theorem settlement_settleCall (s : System I K V E M H) (id k : I) (x : Settlement V E)
    (hid : (s.calls.get id).isSome) :
    (s.settleCall id x).settlement k = if k = id then some x else s.settlement k := by
  unfold settlement
  rw [get_settleCall]
  by_cases hk : k = id
  · obtain ⟨c, hc⟩ := Option.isSome_iff_exists.mp hid
    simp [hk, hc]
  · simp [hk]

theorem Valid.settlement_of_pending (h : Valid P s) {id : I} (hid : id ∈ s.pending) :
    (s.calls.get id).isSome ∧ s.settlement id = none := by
  obtain ⟨c, hc, hnone⟩ := (h.pending_iff id).mp hid
  simp [settlement, hc, hnone]

/-- A step that settles no call by a response, and takes back nothing that a handler has done. -/
theorem Answered.of_frame (h : s.Answered)
    (hsettlement : ∀ id o, t.settlement id = some (.response o) →
      s.settlement id = some (.response o))
    (hyields : ∀ id o, s.HandlerYields id o → t.HandlerYields id o) : t.Answered :=
  fun id o ho => hyields id o (h id o (hsettlement id o ho))

/-- A response that arrives for a pending call has the outcome of the handler. -/
def AnswersRight (P : Protocol I K V E M) (s : System I K V E M H) : Event I K V E H → Prop
  | .deliverResponse i => ∀ m id o, s.responses[i]? = some m → P.accept m = some (id, o) →
    id ∈ s.pending → s.HandlerYields id o
  | _ => True

theorem answered_receiveResponse_iff (h : Valid P s) (ha : s.Answered) (m : M) :
    (s.receiveResponse P m).Answered ↔
      ∀ id o, P.accept m = some (id, o) → id ∈ s.pending → s.HandlerYields id o := by
  unfold System.receiveResponse
  match hm : P.accept m with
  | none => simpa using ha
  | some (id, o) =>
      by_cases hid : id ∈ s.pending
      · obtain ⟨hcall, -⟩ := h.settlement_of_pending hid
        simp only [if_pos hid]
        constructor
        · rintro ht id' o' heq -
          cases heq
          apply ht id o
          rw [settlement_settleCall s id id _ hcall, if_pos rfl]
        · intro hyields id' o' ho'
          rw [settlement_settleCall s id id' _ hcall] at ho'
          split at ho'
          · rename_i hk
            cases ho'
            rw [hk]
            exact hyields id o rfl hid
          · exact ha id' o' ho'
      · simp only [if_neg hid]
        constructor
        · rintro - id' o' heq hid'
          cases heq
          exact absurd hid' hid
        · exact fun _ => ha

/-! ## One step -/

variable [DecidableEq K]

omit [DecidableEq I] in
theorem callHandler_eq_some_iff {r : Request I K V} {returned : Returned V E}
    {c : HandlerCall V E H} :
    s.callHandler P r returned = some c ↔ ∃ key, P.route r = some (key, c.value) ∧
      s.handlers.get key = some c.handler ∧ c.returned = returned ∧ c.settled = none := by
  obtain ⟨handler, value, returned', settled⟩ := c
  simp only [callHandler]
  constructor
  · intro h
    obtain ⟨⟨key, value'⟩, hroute, h⟩ := Option.bind_eq_some_iff.mp h
    obtain ⟨handler', hget, h⟩ := Option.bind_eq_some_iff.mp h
    cases h
    exact ⟨key, hroute, hget, rfl, rfl⟩
  · rintro ⟨key, hroute, hget, rfl, rfl⟩
    simp [hroute, hget]

/-- The cases of `step`, each with the condition under which it is taken. -/
inductive Step (P : Protocol I K V E M) (s : System I K V E M H) :
    Event I K V E H → System I K V E M H → Prop where
  | register {key handler} :
      Step P s (.register key handler) { s with handlers := s.handlers.set key handler }
  | unregister {key} : Step P s (.unregister key) { s with handlers := s.handlers.delete key }
  | send {r} : s.calls.get r.id = none →
      Step P s (.send r) { s with
        pending := s.pending ++ [r.id]
        calls := s.calls.set r.id { request := r, settlement := none }
        requests := s.requests ++ [r] }
  | deliverRequest {i r returned} : s.requests[i]? = some r →
      Step P s (.deliverRequest i returned)
        ({ s with requests := s.requests.eraseIdx i }.receiveRequest P r returned)
  | settle {id o r registered handler value} :
      s.deliveries.get id = some ⟨r, registered, some ⟨handler, value, .promise, none⟩⟩ →
      Step P s (.settle id o) { s with
        deliveries := s.deliveries.set id
          ⟨r, registered, some ⟨handler, value, .promise, some o⟩⟩
        responses := s.responses ++ (P.settled r o).toList }
  | deliverResponse {i m} : s.responses[i]? = some m →
      Step P s (.deliverResponse i)
        ({ s with responses := s.responses.eraseIdx i }.receiveResponse P m)
  | timeOut {id} : id ∈ s.pending → Step P s (.timeOut id) (s.settleCall id .timedOut)

theorem step_cases {e : Event I K V E H} (h : step P s e = some t) : Step P s e t := by
  cases e with
  | register key handler =>
      cases h
      exact .register
  | unregister key =>
      cases h
      exact .unregister
  | send r =>
      rw [step] at h
      split at h
      · cases h
      · rename_i hr
        cases h
        exact .send hr
  | deliverRequest i returned =>
      obtain ⟨r, hr, rfl⟩ := Option.map_eq_some_iff.mp h
      exact .deliverRequest hr
  | settle id o =>
      rw [step] at h
      split at h
      · rename_i hd
        cases h
        exact .settle hd
      · cases h
  | deliverResponse i =>
      obtain ⟨m, hm, rfl⟩ := Option.map_eq_some_iff.mp h
      exact .deliverResponse hm
  | timeOut id =>
      rw [step] at h
      split at h
      · rename_i hid
        cases h
        exact .timeOut hid
      · cases h

/-- A request that has been taken from the channel. -/
theorem Valid.receiveRequest {i : Nat} {r : Request I K V} (h : Valid P s)
    (hr : s.requests[i]? = some r) (returned : Returned V E) :
    Valid P ({ s with requests := s.requests.eraseIdx i }.receiveRequest P r returned) := by
  obtain ⟨hi, hri⟩ := List.getElem?_eq_some_iff.mp hr
  have hmem : r ∈ s.requests := List.mem_of_getElem? hr
  have hperm := (List.getElem_cons_eraseIdx_perm hi).map Request.id
  rw [hri] at hperm
  have hnodup := hperm.nodup_iff.mpr h.nodup
  rw [List.map_cons, List.nodup_cons] at hnodup
  apply h.respond (d := ⟨r, s.handlers.get r.key, _⟩) (h.sent r hmem) (List.eraseIdx_sublist _ i)
  · intro q hq hid
    apply hnodup.1
    exact hid ▸ List.mem_map_of_mem hq
  · intro m hm
    rw [Option.mem_toList, Option.bind_eq_some_iff] at hm
    obtain ⟨c, hc, hm⟩ := hm
    refine ⟨c, hc, .inl ?_⟩
    obtain ⟨-, -, -, hreturned, -⟩ := callHandler_eq_some_iff.mp hc
    rw [hreturned]
    exact hm
  · intro d' c m hd'
    rw [h.fresh r hmem] at hd'
    cases hd'
  · intro c hc
    obtain ⟨key, hroute, hget, -, -⟩ := callHandler_eq_some_iff.mp hc
    refine ⟨key, hroute, ?_⟩
    rintro rfl
    exact hget

theorem Valid.step {e : Event I K V E H} (h : Valid P s) (hstep : step P s e = some t) :
    Valid P t := by
  cases step_cases hstep with
  | register => exact h.setHandlers _
  | unregister => exact h.setHandlers _
  | send hr => exact h.send hr
  | deliverRequest hr => exact h.receiveRequest hr _
  | settle hd => exact h.settle hd _
  | deliverResponse => exact (h.takeResponse _).receiveResponse _
  | timeOut => exact h.settleCall _ .timedOut

/-- **The step that decides.** The calls that a response has settled keep being right exactly if
each response that arrives is. -/
theorem answered_step_iff {e : Event I K V E H} (h : Valid P s) (ha : s.Answered)
    (hstep : step P s e = some t) : t.Answered ↔ AnswersRight P s e := by
  cases step_cases hstep with
  | register => exact iff_of_true ha trivial
  | unregister => exact iff_of_true ha trivial
  | send =>
      refine iff_of_true (ha.of_frame ?_ fun _ _ hy => hy) trivial
      intro id o ho
      simp only [settlement, OrderedMap.get_set] at ho
      split at ho
      · cases ho
      · exact ho
  | @deliverRequest i r returned hr =>
      refine iff_of_true (ha.of_frame (fun _ _ ho => ho) ?_) trivial
      rintro id o ⟨d, c, hd, hrest⟩
      have hne : id ≠ r.id := by
        rintro rfl
        rw [h.fresh r (List.mem_of_getElem? hr)] at hd
        cases hd
      exact ⟨d, c, by rwa [receiveRequest, OrderedMap.get_set_other _ _ hne], hrest⟩
  | @settle id _ _ _ _ _ hd =>
      refine iff_of_true (ha.of_frame (fun _ _ ho => ho) ?_) trivial
      rintro id' o' ⟨d, c, hd', hc, hrest⟩
      have hne : id' ≠ id := by
        rintro rfl
        cases hd.symm.trans hd'
        cases hc
        -- the promise had not settled before
        cases o' <;> simp [HandlerCall.Yields] at hrest
      exact ⟨d, c, by rwa [OrderedMap.get_set_other _ _ hne], hc, hrest⟩
  | @deliverResponse i m hm =>
      have htaken : Valid P { s with responses := s.responses.eraseIdx i } :=
        h.takeResponse i
      rw [answered_receiveResponse_iff htaken ha]
      constructor
      · intro hall m' id o hm' haccept hid
        cases hm.symm.trans hm'
        exact hall id o haccept hid
      · exact fun hright id o => hright m id o hm
  | @timeOut id hid =>
      refine iff_of_true (ha.of_frame ?_ fun _ _ hy => hy) trivial
      intro id' o ho
      rw [settlement_settleCall s id id' _ (h.settlement_of_pending hid).1] at ho
      split at ho
      · cases ho
      · exact ho

end System

end Rpc
