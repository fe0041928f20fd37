import KhulnasoftLsp.OrderedMap
import KhulnasoftLsp.Transition

/-!
# The message bus of the webviews

`MessageBus` keeps a `Set` of subscriptions for each type of message, and has none for a type
without subscriptions. `publish` goes through the set with `forEach`, and a listener may subscribe,
dispose of subscriptions, clear the bus or publish while it does.

`forEach` calls what is in the set when its turn comes, in the order in which it was added. A
subscription is put into one set, once, so that the sets are not kept apart from the subscriptions:
each of these has the number of its set, and says whether it is still in it. `delivers_of_run`
compares all of it with the plain list of the subscriptions that are live.
-/

namespace KhulnasoftLsp.Webview

open Transition

structure Subscription (κ δ ℓ : Type) where
  messageType : κ
  listener : ℓ
  filter : Option (δ → Bool)
  /-- The number of the `Set` that it was added to. -/
  set : Nat
  /-- It has not been deleted from the set. -/
  present : Bool

/-- `!filter || filter(data)` -/
def Subscription.passes {κ δ ℓ : Type} (data : δ) (subscription : Subscription κ δ ℓ) : Bool :=
  subscription.filter.all fun filter => filter data

/-- A subscription is known by its position in `created`. -/
structure MessageBus (κ δ ℓ : Type) where
  created : List (Subscription κ δ ℓ)
  /-- How many sets there have been. -/
  sets : Nat
  subscriptions : OrderedMap κ Nat

/-- A call of a listener. -/
structure ListenerCall where
  subscription : Nat
  /-- The subscription was live. -/
  live : Bool
  /-- The bus had been cleared since the publishing began. -/
  cleared : Bool
  deriving DecidableEq, Repr

/-- A call of `publish`. -/
structure Publishing (κ δ : Type) where
  messageType : κ
  data : δ
  /-- `targetSubscriptions` -/
  target : Option Nat
  /-- The subscriptions before this one have had their turn. -/
  next : Nat
  ended : Bool
  called : List ListenerCall
  /-- The subscriptions that were live when it began. -/
  startedWith : List Nat
  cleared : Bool

/-- The bus, the calls of `publish`, and the subscriptions that were neither disposed of nor
cleared. -/
structure BusSystem (κ δ ℓ : Type) where
  bus : MessageBus κ δ ℓ
  publishes : List (Publishing κ δ)
  live : List Nat

inductive BusAction (κ δ ℓ : Type) where
  | subscribe (messageType : κ) (listener : ℓ) (filter : Option (δ → Bool))
  /-- The disposable of a subscription is disposed of, maybe not for the first time. -/
  | dispose (id : Nat)
  | clear
  | publish (messageType : κ) (data : δ)
  /-- The `forEach` of a call of `publish` goes on to the next subscription, or ends. Only the
  innermost call does in a run of the program. -/
  | goOn (publish : Nat)

variable {κ δ ℓ : Type} [DecidableEq κ]

namespace MessageBus

def new : MessageBus κ δ ℓ := ⟨[], 0, .empty⟩

def inSet (i : Nat) (subscription : Subscription κ δ ℓ) : Bool :=
  subscription.set == i && subscription.present

/-- `size` of a set. -/
def size (i : Nat) (b : MessageBus κ δ ℓ) : Nat := b.created.countP (inSet i)

def subscribe (messageType : κ) (listener : ℓ) (filter : Option (δ → Bool))
    (b : MessageBus κ δ ℓ) : MessageBus κ δ ℓ :=
  match b.subscriptions.get messageType with
  | some i =>
    { b with created := b.created ++ [⟨messageType, listener, filter, i, true⟩] }
  | none =>
    { created := b.created ++ [⟨messageType, listener, filter, b.sets, true⟩]
      sets := b.sets + 1
      subscriptions := b.subscriptions.set messageType b.sets }

/-- `targetSubscriptions.delete(subscription)` -/
def deleteFrom (i id : Nat) (b : MessageBus κ δ ℓ) : MessageBus κ δ ℓ :=
  { b with created := b.created.modify id fun subscription =>
      if subscription.set = i then { subscription with present := false } else subscription }

/-- The `dispose` that `subscribe` returns. -/
def disposeSubscription (id : Nat) (subscription : Subscription κ δ ℓ) (b : MessageBus κ δ ℓ) :
    MessageBus κ δ ℓ :=
  match b.subscriptions.get subscription.messageType with
  | none => b
  | some i =>
    let b := b.deleteFrom i id
    if b.size i = 0 then
      { b with subscriptions := b.subscriptions.delete subscription.messageType }
    else b

def hasListeners (messageType : κ) (b : MessageBus κ δ ℓ) : Bool :=
  (b.subscriptions.get messageType).isSome

def listenerCount (messageType : κ) (b : MessageBus κ δ ℓ) : Nat :=
  match b.subscriptions.get messageType with
  | some i => b.size i
  | none => 0

def clear (b : MessageBus κ δ ℓ) : MessageBus κ δ ℓ := { b with subscriptions := .empty }

/-- The subscription of the set whose turn is next. -/
def nextIn (i next : Nat) (b : MessageBus κ δ ℓ) : Option Nat :=
  (List.range b.created.length).find? fun id =>
    decide (next ≤ id) && (b.created[id]?).any (inSet i)

end MessageBus

namespace BusSystem

def new : BusSystem κ δ ℓ := ⟨.new, [], []⟩

/-- The `forEach` of the call goes on. -/
def goOn (s : BusSystem κ δ ℓ) (p : Publishing κ δ) : Publishing κ δ :=
  match p.target.bind fun i => s.bus.nextIn i p.next with
  | none => { p with ended := true }
  | some id =>
    { p with
      next := id + 1
      called :=
        if (s.bus.created[id]?).any fun subscription => subscription.passes p.data then
          p.called ++ [⟨id, id ∈ s.live, p.cleared⟩]
        else p.called }

def step (s : BusSystem κ δ ℓ) : BusAction κ δ ℓ → Option (BusSystem κ δ ℓ)
  | .subscribe messageType listener filter =>
    some { s with
      bus := s.bus.subscribe messageType listener filter
      live := s.live ++ [s.bus.created.length] }
  | .dispose id => s.bus.created[id]?.map fun subscription =>
    { s with
      bus := s.bus.disposeSubscription id subscription
      live := s.live.filter (· ≠ id) }
  | .clear =>
    some
      { bus := s.bus.clear
        publishes := s.publishes.map fun p => { p with cleared := true }
        live := [] }
  | .publish messageType data =>
    some { s with
      publishes := s.publishes ++ [
        { messageType, data
          target := s.bus.subscriptions.get messageType
          next := 0
          ended := false
          called := []
          startedWith := s.live
          cleared := false }] }
  | .goOn publish => s.publishes[publish]?.bind fun p =>
    if p.ended then none
    else some { s with publishes := s.publishes.set publish (s.goOn p) }

end BusSystem

/-! ## What the operations do -/

namespace MessageBus

variable {b : MessageBus κ δ ℓ}

/-- A subscription goes into the set of its type, or into a new one. -/
theorem subscribe_cases (messageType : κ) (listener : ℓ) (filter : Option (δ → Bool))
    (b : MessageBus κ δ ℓ) :
    ∃ i, (b.subscribe messageType listener filter).created =
        b.created ++ [⟨messageType, listener, filter, i, true⟩] ∧
      b.sets ≤ (b.subscribe messageType listener filter).sets ∧
      (∀ k, (b.subscribe messageType listener filter).subscriptions.get k =
        if k = messageType then some i else b.subscriptions.get k) ∧
      (b.subscriptions.get messageType = some i ∨
        b.subscriptions.get messageType = none ∧ i = b.sets ∧
          i < (b.subscribe messageType listener filter).sets) := by
  unfold subscribe
  split
  · next i hi =>
    refine ⟨i, rfl, Nat.le_refl _, ?_, .inl hi⟩
    intro k
    by_cases hk : k = messageType
    · rw [if_pos hk, hk, hi]
    · rw [if_neg hk]
  · next hnone =>
    exact ⟨b.sets, rfl, Nat.le_succ _, fun k => OrderedMap.get_set _ _ _ _,
      .inr ⟨hnone, rfl, Nat.lt_succ_self _⟩⟩

omit [DecidableEq κ] in
theorem size_eq_zero_iff {i : Nat} :
    b.size i = 0 ↔ ∀ subscription ∈ b.created, subscription.set = i →
      subscription.present = false := by
  rw [size, List.countP_eq_zero]
  simp [inSet]

omit [DecidableEq κ] in
theorem created_deleteFrom (i id : Nat) (b : MessageBus κ δ ℓ) (id' : Nat) :
    (b.deleteFrom i id).created[id']? = (b.created[id']?).map fun subscription =>
      if id' = id ∧ subscription.set = i then { subscription with present := false }
      else subscription := by
  show (b.created.modify id _)[id']? = _
  rw [List.getElem?_modify]
  by_cases h : id = id'
  · subst h
    simp
  · simp [h, Ne.symm h]

omit [DecidableEq κ] in
theorem nextIn_eq_some {i next id : Nat} (h : b.nextIn i next = some id) :
    next ≤ id ∧ (∃ subscription, b.created[id]? = some subscription ∧ subscription.set = i ∧
        subscription.present = true) ∧
      ∀ id' subscription, next ≤ id' → id' < id → b.created[id']? = some subscription →
        subscription.set = i → subscription.present = false := by
  rw [nextIn, List.find?_range_eq_some] at h
  obtain ⟨hid, -, hbefore⟩ := h
  simp only [Bool.and_eq_true, decide_eq_true_eq, Option.any_eq_true, inSet, beq_iff_eq] at hid
  refine ⟨hid.1, hid.2, ?_⟩
  intro id' subscription hnext hlt hget hset
  have hnot := hbefore id' hlt
  simpa [hnext, hget, inSet, hset] using hnot

omit [DecidableEq κ] in
theorem nextIn_eq_none {i next : Nat} (h : b.nextIn i next = none) {id : Nat}
    {subscription : Subscription κ δ ℓ} (hnext : next ≤ id)
    (hget : b.created[id]? = some subscription) (hset : subscription.set = i) :
    subscription.present = false := by
  rw [nextIn, List.find?_range_eq_none] at h
  obtain ⟨hlt, -⟩ := List.getElem?_eq_some_iff.mp hget
  have hnot := h id hlt
  simpa [hnext, hget, inSet, hset] using hnot

end MessageBus

namespace BusSystem

variable {s t : BusSystem κ δ ℓ} {p : Publishing κ δ}

/-- A call of `publish` as it should be. -/
structure Delivers (s : BusSystem κ δ ℓ) (p : Publishing κ δ) : Prop where
  target_lt : ∀ i, p.target = some i → i < s.bus.sets
  typed : ∀ i, p.target = some i → ∀ subscription ∈ s.bus.created, subscription.set = i →
    subscription.messageType = p.messageType
  next_le : p.next ≤ s.bus.created.length
  started_lt : ∀ id ∈ p.startedWith, id < s.bus.created.length
  called_lt : ∀ c ∈ p.called, c.subscription < p.next
  called_sorted : (p.called.map (·.subscription)).Pairwise (· < ·)
  called_passes : ∀ c ∈ p.called, ∃ subscription, s.bus.created[c.subscription]? =
    some subscription ∧ subscription.messageType = p.messageType ∧
      subscription.passes p.data = true ∧ (c.live = true ∨ c.cleared = true)
  visited : ∀ i, p.target = some i → ∀ id subscription, s.bus.created[id]? = some subscription →
    subscription.set = i → subscription.present = true → subscription.passes p.data = true →
    id < p.next → id ∈ p.called.map (·.subscription)
  waiting : p.ended = false → ∀ id ∈ p.startedWith, id ∈ s.live → ∀ subscription,
    s.bus.created[id]? = some subscription → subscription.messageType = p.messageType →
    p.target = some subscription.set
  complete : p.ended = true → ∀ id ∈ p.startedWith, id ∈ s.live → ∀ subscription,
    s.bus.created[id]? = some subscription → subscription.messageType = p.messageType →
    subscription.passes p.data = true → id ∈ p.called.map (·.subscription)
  live_of_present : p.cleared = false → ∀ i, p.target = some i → ∀ id subscription,
    s.bus.created[id]? = some subscription → subscription.set = i → subscription.present = true →
    id ∈ s.live

structure Consistent (s : BusSystem κ δ ℓ) : Prop where
  typed : ∀ a ∈ s.bus.created, ∀ b ∈ s.bus.created, a.set = b.set → a.messageType = b.messageType
  set_lt : ∀ subscription ∈ s.bus.created, subscription.set < s.bus.sets
  /-- No set is kept that is empty. -/
  nonempty : ∀ k i, s.bus.subscriptions.get k = some i → ∃ subscription ∈ s.bus.created,
    subscription.set = i ∧ subscription.messageType = k ∧ subscription.present = true
  live_iff : ∀ id, id ∈ s.live ↔ ∃ subscription, s.bus.created[id]? = some subscription ∧
    subscription.present = true ∧
      s.bus.subscriptions.get subscription.messageType = some subscription.set
  live_sorted : s.live.Pairwise (· < ·)
  delivers : ∀ p ∈ s.publishes, Delivers s p

theorem consistent_new : Consistent (new : BusSystem κ δ ℓ) where
  typed := fun _ h => absurd h List.not_mem_nil
  set_lt := fun _ h => absurd h List.not_mem_nil
  nonempty := fun _ _ h => by cases h
  live_iff := fun id => iff_of_false List.not_mem_nil fun ⟨_, h, _⟩ => by cases h
  live_sorted := .nil
  delivers := fun _ h => absurd h List.not_mem_nil

/-- The subscriptions in the set of a type have this type. -/
theorem Consistent.typed_of_get (h : Consistent s) {k : κ} {i : Nat}
    (hget : s.bus.subscriptions.get k = some i) {subscription : Subscription κ δ ℓ}
    (hmem : subscription ∈ s.bus.created) (hset : subscription.set = i) :
    subscription.messageType = k := by
  obtain ⟨other, hother, hotherset, rfl, -⟩ := h.nonempty k i hget
  exact h.typed _ hmem _ hother (hset.trans hotherset.symm)

theorem Consistent.lt_length (h : Consistent s) {id : Nat} (hlive : id ∈ s.live) :
    id < s.bus.created.length := by
  obtain ⟨subscription, hget, -⟩ := (h.live_iff id).mp hlive
  exact (List.getElem?_eq_some_iff.mp hget).1

/-! ## Publishing -/

theorem Delivers.goOn (hs : Consistent s) (h : Delivers s p) (hended : p.ended = false) :
    Delivers s (s.goOn p) := by
  unfold BusSystem.goOn
  split
  · next hnone =>
    refine { h with waiting := fun h => (by cases h), complete := ?_ }
    rintro - id hstarted hlive subscription hget htype hpasses
    have htarget := h.waiting hended id hstarted hlive subscription hget htype
    obtain ⟨subscription', hget', hpresent, -⟩ := (hs.live_iff id).mp hlive
    obtain rfl : subscription = subscription' := by
      rw [hget] at hget'
      exact Option.some.inj hget'
    by_cases hnext : id < p.next
    · exact h.visited _ htarget id subscription hget rfl hpresent hpasses hnext
    · rw [htarget] at hnone
      have habsent := MessageBus.nextIn_eq_none hnone (Nat.le_of_not_lt hnext) hget rfl
      rw [hpresent] at habsent
      cases habsent
  · next id hid =>
    obtain ⟨i, htarget, hnext⟩ := Option.bind_eq_some_iff.mp hid
    obtain ⟨hle, ⟨subscription, hget, hset, hpresent⟩, hbefore⟩ :=
      MessageBus.nextIn_eq_some hnext
    have hany : (s.bus.created[id]?).any (fun subscription => subscription.passes p.data) =
        subscription.passes p.data := by rw [hget]; rfl
    rw [hany]
    -- what was visited before, and what was passed over because it is gone
    have hvisited : ∀ i', p.target = some i' → ∀ id' subscription',
        s.bus.created[id']? = some subscription' → subscription'.set = i' →
        subscription'.present = true → subscription'.passes p.data = true → id' < id →
        id' ∈ p.called.map (·.subscription) := by
      intro i' htarget' id' subscription' hget' hset' hpresent' hpasses' hlt
      rw [htarget] at htarget'
      cases htarget'
      by_cases hnext' : id' < p.next
      · exact h.visited i htarget id' subscription' hget' hset' hpresent' hpasses' hnext'
      · have habsent := hbefore id' subscription' (Nat.le_of_not_lt hnext') hlt hget' hset'
        rw [hpresent'] at habsent
        cases habsent
    cases hpasses : subscription.passes p.data with
    | true =>
        rw [if_pos rfl]
        have hmem : subscription ∈ s.bus.created := List.mem_of_getElem? hget
        refine { h with
          next_le := (List.getElem?_eq_some_iff.mp hget).1
          called_lt := ?_
          called_sorted := ?_
          called_passes := ?_
          visited := ?_
          complete := fun hended' => by rw [hended] at hended'; cases hended' }
        · intro c hc
          rcases List.mem_append.mp hc with hc | hc
          · exact Nat.lt_succ_of_lt (Nat.lt_of_lt_of_le (h.called_lt c hc) hle)
          · obtain rfl := List.mem_singleton.mp hc
            exact Nat.lt_succ_self id
        · rw [List.map_append, List.pairwise_append]
          refine ⟨h.called_sorted, List.pairwise_singleton _ _, ?_⟩
          intro a ha b hb
          obtain ⟨c, hc, rfl⟩ := List.mem_map.mp ha
          obtain rfl := List.mem_singleton.mp hb
          exact Nat.lt_of_lt_of_le (h.called_lt c hc) hle
        · intro c hc
          rcases List.mem_append.mp hc with hc | hc
          · exact h.called_passes c hc
          · obtain rfl := List.mem_singleton.mp hc
            refine ⟨subscription, hget, h.typed i htarget subscription hmem hset, hpasses, ?_⟩
            cases hcleared : p.cleared with
            | true => exact .inr rfl
            | false =>
                left
                exact decide_eq_true
                  (h.live_of_present hcleared i htarget id subscription hget hset hpresent)
        · intro i' htarget' id' subscription' hget' hset' hpresent' hpasses' hlt
          rw [List.map_append, List.mem_append]
          rcases Nat.lt_succ_iff_lt_or_eq.mp hlt with hlt | rfl
          · exact .inl (hvisited i' htarget' id' subscription' hget' hset' hpresent' hpasses' hlt)
          · exact .inr List.mem_cons_self
    | false =>
        rw [if_neg Bool.false_ne_true]
        refine { h with
          next_le := (List.getElem?_eq_some_iff.mp hget).1
          called_lt := fun c hc =>
            Nat.lt_succ_of_lt (Nat.lt_of_lt_of_le (h.called_lt c hc) hle)
          visited := ?_
          complete := fun hended' => by rw [hended] at hended'; cases hended' }
        intro i' htarget' id' subscription' hget' hset' hpresent' hpasses' hlt
        rcases Nat.lt_succ_iff_lt_or_eq.mp hlt with hlt | rfl
        · exact hvisited i' htarget' id' subscription' hget' hset' hpresent' hpasses' hlt
        · rw [hget] at hget'
          cases hget'
          rw [hpasses] at hpasses'
          cases hpasses'

theorem Consistent.goOn (h : Consistent s) {publish : Nat}
    (hp : s.publishes[publish]? = some p) (hended : p.ended = false) :
    Consistent { s with publishes := s.publishes.set publish (s.goOn p) } := by
  have hdelivers : ∀ {p}, Delivers s p →
      Delivers { s with publishes := s.publishes.set publish (s.goOn p) } p := fun hp => { hp with }
  refine { h with delivers := ?_ }
  intro q hq
  rcases List.mem_or_eq_of_mem_set hq with hq | rfl
  · exact { h.delivers q hq with }
  · exact { (h.delivers p (List.mem_of_getElem? hp)).goOn h hended with }

theorem Consistent.publish (h : Consistent s) (messageType : κ) (data : δ)
    (hstep : step s (.publish messageType data) = some t) : Consistent t := by
  cases hstep
  refine { h with delivers := ?_ }
  intro q hq
  rcases List.mem_append.mp hq with hq | hq
  · exact { h.delivers q hq with }
  · obtain rfl := List.mem_singleton.mp hq
    exact {
      target_lt := by
        intro i hi
        obtain ⟨subscription, hmem, rfl, -⟩ := h.nonempty _ _ hi
        exact h.set_lt _ hmem
      typed := fun i hi subscription hmem hset => h.typed_of_get hi hmem hset
      next_le := Nat.zero_le _
      started_lt := fun id hid => h.lt_length hid
      called_lt := fun _ hc => absurd hc List.not_mem_nil
      called_sorted := .nil
      called_passes := fun _ hc => absurd hc List.not_mem_nil
      visited := fun _ _ _ _ _ _ _ _ hlt => absurd hlt (Nat.not_lt_zero _)
      waiting := by
        rintro - id - hlive subscription hget rfl
        obtain ⟨subscription', hget', -, hset⟩ := (h.live_iff id).mp hlive
        obtain rfl : subscription = subscription' := by
          have hboth := hget.symm.trans hget'
          exact Option.some.inj hboth
        exact hset
      complete := fun hended => by cases hended
      live_of_present := by
        rintro - i hi id subscription hget rfl hpresent
        have htype := h.typed_of_get hi (List.mem_of_getElem? hget) rfl
        exact (h.live_iff id).mpr ⟨subscription, hget, hpresent, htype ▸ hi⟩ }

theorem Consistent.clear (h : Consistent s) (hstep : step s .clear = some t) : Consistent t := by
  cases hstep
  refine { h with
    nonempty := fun _ _ hget => by cases hget
    live_iff := fun id => iff_of_false List.not_mem_nil fun ⟨_, _, _, hget⟩ => by cases hget
    live_sorted := .nil
    delivers := ?_ }
  intro q hq
  obtain ⟨p, hp, rfl⟩ := List.mem_map.mp hq
  exact { h.delivers p hp with
    waiting := fun _ _ _ hlive => absurd hlive List.not_mem_nil
    complete := fun _ _ _ hlive => absurd hlive List.not_mem_nil
    live_of_present := fun hcleared => by cases hcleared }

/-! ## Subscribing -/

section Subscribe

variable {messageType : κ} {listener : ℓ} {filter : Option (δ → Bool)} {i : Nat}
  {b : MessageBus κ δ ℓ}

/-- A bus with one more subscription. -/
structure Adds (s : BusSystem κ δ ℓ) (b : MessageBus κ δ ℓ) (added : Subscription κ δ ℓ) :
    Prop where
  created_eq : b.created = s.bus.created ++ [added]
  sets_le : s.bus.sets ≤ b.sets
  set_lt : added.set < b.sets
  get_eq : ∀ k, b.subscriptions.get k =
    if k = added.messageType then some added.set else s.bus.subscriptions.get k
  /-- Its set is that of its type, or it is new. -/
  set_eq : ∀ i, s.bus.subscriptions.get added.messageType = some i → i = added.set
  fresh : s.bus.subscriptions.get added.messageType = none → s.bus.sets ≤ added.set
  present : added.present = true

theorem Consistent.adds (h : Consistent s) (messageType : κ) (listener : ℓ)
    (filter : Option (δ → Bool)) :
    ∃ added, Adds s (s.bus.subscribe messageType listener filter) added := by
  obtain ⟨i, hcreated, hsets, hget, hi⟩ :=
    MessageBus.subscribe_cases messageType listener filter s.bus
  refine ⟨_, hcreated, hsets, ?_, hget, ?_, ?_, rfl⟩
  · rcases hi with hi | ⟨-, -, hlt⟩
    · obtain ⟨other, hmem, hother, -⟩ := h.nonempty _ _ hi
      have hlt := h.set_lt other hmem
      rw [hother] at hlt
      exact Nat.lt_of_lt_of_le hlt hsets
    · exact hlt
  · rintro j hj
    rcases hi with hi | ⟨hnone, -⟩
    · rw [hi] at hj
      exact (Option.some.inj hj).symm
    · rw [hnone] at hj
      cases hj
  · intro hnone
    rcases hi with hi | ⟨-, hi, -⟩
    · rw [hi] at hnone
      cases hnone
    · exact Nat.le_of_eq hi.symm

variable {added : Subscription κ δ ℓ}

theorem Adds.mem_iff (hadds : Adds s b added) {subscription : Subscription κ δ ℓ} :
    subscription ∈ b.created ↔ subscription ∈ s.bus.created ∨ subscription = added := by
  rw [hadds.created_eq, List.mem_append, List.mem_singleton]

theorem Adds.get_created (hadds : Adds s b added) {id : Nat} {subscription : Subscription κ δ ℓ} :
    b.created[id]? = some subscription ↔ s.bus.created[id]? = some subscription ∨
      id = s.bus.created.length ∧ subscription = added := by
  rw [hadds.created_eq, List.getElem?_append]
  split
  · next hlt => simp [Nat.ne_of_lt hlt]
  · next hle =>
    have hnone : s.bus.created[id]? = none := List.getElem?_eq_none (Nat.le_of_not_lt hle)
    rw [hnone]
    by_cases hid : id = s.bus.created.length
    · simp [hid, eq_comm]
    · have hne : id - s.bus.created.length ≠ 0 := by omega
      simp [hid, hne]

/-- What was in its set before has its type. -/
theorem Adds.typed (hadds : Adds s b added) (h : Consistent s) {subscription : Subscription κ δ ℓ}
    (hmem : subscription ∈ s.bus.created) (hset : subscription.set = added.set) :
    subscription.messageType = added.messageType := by
  cases hget : s.bus.subscriptions.get added.messageType with
  | none =>
      have hlt := h.set_lt _ hmem
      have hfresh := hadds.fresh hget
      omega
  | some j => exact h.typed_of_get hget hmem (hset.trans (hadds.set_eq j hget).symm)

theorem Delivers.adds (hadds : Adds s b added) (hs : Consistent s) (h : Delivers s p) :
    Delivers { s with bus := b, live := s.live ++ [s.bus.created.length] } p where
  target_lt := fun i hi => Nat.lt_of_lt_of_le (h.target_lt i hi) hadds.sets_le
  typed := by
    intro i hi subscription hmem hset
    rcases hadds.mem_iff.mp hmem with hmem | rfl
    · exact h.typed i hi subscription hmem hset
    · cases hget : s.bus.subscriptions.get subscription.messageType with
      | none =>
          have hlt := h.target_lt i hi
          have hfresh := hadds.fresh hget
          omega
      | some j =>
          obtain ⟨other, hother, hotherset, hothertype, -⟩ := hs.nonempty _ _ hget
          rw [← hothertype]
          apply h.typed i hi other hother
          rw [hotherset, hadds.set_eq j hget, hset]
  next_le := by
    show p.next ≤ b.created.length
    rw [hadds.created_eq, List.length_append]
    exact Nat.le_add_right_of_le h.next_le
  started_lt := by
    intro id hid
    show id < b.created.length
    rw [hadds.created_eq, List.length_append]
    exact Nat.lt_add_right _ (h.started_lt id hid)
  called_lt := h.called_lt
  called_sorted := h.called_sorted
  called_passes := by
    intro c hc
    obtain ⟨subscription, hget, hrest⟩ := h.called_passes c hc
    exact ⟨subscription, hadds.get_created.mpr (.inl hget), hrest⟩
  visited := by
    intro i hi id subscription hget hset hpresent hpasses hlt
    rcases hadds.get_created.mp hget with hget | ⟨rfl, -⟩
    · exact h.visited i hi id subscription hget hset hpresent hpasses hlt
    · exact absurd hlt (Nat.not_lt.mpr h.next_le)
  waiting := by
    intro hended id hstarted hlive subscription hget htype
    have hlt := h.started_lt id hstarted
    rcases hadds.get_created.mp hget with hget | ⟨rfl, -⟩
    · rcases List.mem_append.mp hlive with hlive | hlive
      · exact h.waiting hended id hstarted hlive subscription hget htype
      · exact absurd (List.mem_singleton.mp hlive) (Nat.ne_of_lt hlt)
    · exact absurd hlt (Nat.lt_irrefl _)
  complete := by
    intro hended id hstarted hlive subscription hget htype hpasses
    have hlt := h.started_lt id hstarted
    rcases hadds.get_created.mp hget with hget | ⟨rfl, -⟩
    · rcases List.mem_append.mp hlive with hlive | hlive
      · exact h.complete hended id hstarted hlive subscription hget htype hpasses
      · exact absurd (List.mem_singleton.mp hlive) (Nat.ne_of_lt hlt)
    · exact absurd hlt (Nat.lt_irrefl _)
  live_of_present := by
    intro hcleared i hi id subscription hget hset hpresent
    rcases hadds.get_created.mp hget with hget | ⟨rfl, -⟩
    · exact List.mem_append_left _ (h.live_of_present hcleared i hi id subscription hget hset
        hpresent)
    · exact List.mem_append_right _ List.mem_cons_self

theorem Consistent.subscribe (h : Consistent s) (messageType : κ) (listener : ℓ)
    (filter : Option (δ → Bool))
    (hstep : step s (.subscribe messageType listener filter) = some t) : Consistent t := by
  cases hstep
  obtain ⟨added, hadds⟩ := h.adds messageType listener filter
  constructor
  · intro x hx y hy hset
    rcases hadds.mem_iff.mp hx with hx | rfl <;> rcases hadds.mem_iff.mp hy with hy | rfl
    · exact h.typed x hx y hy hset
    · exact hadds.typed h hx hset
    · exact (hadds.typed h hy hset.symm).symm
    · rfl
  · intro x hx
    rcases hadds.mem_iff.mp hx with hx | rfl
    · exact Nat.lt_of_lt_of_le (h.set_lt x hx) hadds.sets_le
    · exact hadds.set_lt
  · intro k j hget
    replace hget := (hadds.get_eq k).symm.trans hget
    by_cases hk : k = added.messageType
    · rw [if_pos hk] at hget
      exact ⟨added, hadds.mem_iff.mpr (.inr rfl), Option.some.inj hget, hk.symm, hadds.present⟩
    · rw [if_neg hk] at hget
      obtain ⟨subscription, hmem, hrest⟩ := h.nonempty k j hget
      exact ⟨subscription, hadds.mem_iff.mpr (.inl hmem), hrest⟩
  · intro id
    show id ∈ s.live ++ [s.bus.created.length] ↔ ∃ subscription,
      (s.bus.subscribe messageType listener filter).created[id]? = some subscription ∧ _ ∧
        (s.bus.subscribe messageType listener filter).subscriptions.get _ = _
    rw [List.mem_append, List.mem_singleton, h.live_iff]
    constructor
    · rintro (⟨subscription, hget, hpresent, hset⟩ | rfl)
      · refine ⟨subscription, hadds.get_created.mpr (.inl hget), hpresent, ?_⟩
        rw [hadds.get_eq]
        split
        · next htype =>
          rw [htype] at hset
          rw [hadds.set_eq _ hset]
        · exact hset
      · refine ⟨added, hadds.get_created.mpr (.inr ⟨rfl, rfl⟩), hadds.present, ?_⟩
        rw [hadds.get_eq, if_pos rfl]
    · rintro ⟨subscription, hget, hpresent, hset⟩
      rcases hadds.get_created.mp hget with hget | ⟨rfl, -⟩
      · refine .inl ⟨subscription, hget, hpresent, ?_⟩
        rw [hadds.get_eq] at hset
        split at hset
        · next htype =>
          cases hold : s.bus.subscriptions.get subscription.messageType with
          | none =>
              have hlt := h.set_lt _ (List.mem_of_getElem? hget)
              have hfresh := hadds.fresh (htype ▸ hold)
              have heq := Option.some.inj hset
              omega
          | some j => rw [hadds.set_eq j (htype ▸ hold), hset]
        · exact hset
      · exact .inr rfl
  · show (s.live ++ [s.bus.created.length]).Pairwise (· < ·)
    rw [List.pairwise_append]
    refine ⟨h.live_sorted, List.pairwise_singleton _ _, ?_⟩
    intro a ha b hb
    obtain rfl := List.mem_singleton.mp hb
    exact h.lt_length ha
  · exact fun p hp => (h.delivers p hp).adds hadds h

end Subscribe

/-! ## Disposing -/

section Dispose

/-- A bus of which a subscription was disposed: it is deleted from the set that its type has at
present, if it is in it. -/
structure Removes (s : BusSystem κ δ ℓ) (b : MessageBus κ δ ℓ) (id : Nat)
    (subscription : Subscription κ δ ℓ) : Prop where
  get_id : s.bus.created[id]? = some subscription
  sets_eq : b.sets = s.bus.sets
  get_created : ∀ id', b.created[id']? = (s.bus.created[id']?).map fun x =>
    if id' = id ∧ s.bus.subscriptions.get subscription.messageType = some x.set then
      { x with present := false }
    else x
  /-- A set that is kept is not empty, and one that is not is. -/
  keeps : ∀ k i, b.subscriptions.get k = some i → s.bus.subscriptions.get k = some i ∧
    (k = subscription.messageType → ∃ x ∈ b.created, x.set = i ∧ x.present = true)
  drops : ∀ k i, s.bus.subscriptions.get k = some i → b.subscriptions.get k = some i ∨
    k = subscription.messageType ∧ ∀ x ∈ b.created, x.set = i → x.present = false

theorem removes_disposeSubscription {id : Nat} {subscription : Subscription κ δ ℓ}
    (hid : s.bus.created[id]? = some subscription) :
    Removes s (s.bus.disposeSubscription id subscription) id subscription := by
  cases hget : s.bus.subscriptions.get subscription.messageType with
  | none =>
      have hsame : s.bus.disposeSubscription id subscription = s.bus := by
        rw [MessageBus.disposeSubscription, hget]
      rw [hsame]
      exact {
        get_id := hid
        sets_eq := rfl
        get_created := fun id' => by simp [hget]
        keeps := fun k i hk => ⟨hk, fun heq => by
          rw [heq, hget] at hk
          cases hk⟩
        drops := fun _ _ hk => .inl hk }
  | some i =>
      have hcreated : ∀ id', (s.bus.deleteFrom i id).created[id']? =
          (s.bus.created[id']?).map fun x =>
            if id' = id ∧ s.bus.subscriptions.get subscription.messageType = some x.set then
              { x with present := false }
            else x := by
        intro id'
        rw [MessageBus.created_deleteFrom, hget]
        simp only [Option.some.injEq, eq_comm]
      by_cases hsize : (s.bus.deleteFrom i id).size i = 0
      · have hdispose : s.bus.disposeSubscription id subscription =
            { s.bus.deleteFrom i id with
              subscriptions := s.bus.subscriptions.delete subscription.messageType } := by
          rw [MessageBus.disposeSubscription, hget]
          dsimp only
          rw [if_pos hsize]
          rfl
        rw [hdispose]
        refine ⟨hid, rfl, hcreated, ?_, ?_⟩
        · intro k j hk
          replace hk := (OrderedMap.get_delete _ _ _).symm.trans hk
          split at hk
          · cases hk
          · next hne => exact ⟨hk, fun heq => absurd heq hne⟩
        · intro k j hk
          by_cases heq : k = subscription.messageType
          · rw [heq, hget] at hk
            cases hk
            exact .inr ⟨heq, MessageBus.size_eq_zero_iff.mp hsize⟩
          · left
            refine (OrderedMap.get_delete _ _ _).trans ?_
            rw [if_neg heq]
            exact hk
      · have hdispose : s.bus.disposeSubscription id subscription = s.bus.deleteFrom i id := by
          rw [MessageBus.disposeSubscription, hget]
          dsimp only
          rw [if_neg hsize]
        rw [hdispose]
        refine ⟨hid, rfl, hcreated, ?_, fun k j hk => .inl hk⟩
        intro k j hk
        refine ⟨hk, ?_⟩
        rintro rfl
        obtain rfl : i = j := by
          have hboth := hget.symm.trans hk
          exact Option.some.inj hboth
        rw [MessageBus.size_eq_zero_iff] at hsize
        push Not at hsize
        obtain ⟨x, hx, hset, hpresent⟩ := hsize
        exact ⟨x, hx, hset, by simpa using hpresent⟩

variable {b : MessageBus κ δ ℓ} {id : Nat} {subscription : Subscription κ δ ℓ}

/-- A subscription afterwards is one from before, maybe deleted. -/
theorem Removes.after (hr : Removes s b id subscription) {id' : Nat} {x' : Subscription κ δ ℓ}
    (hget : b.created[id']? = some x') :
    ∃ x, s.bus.created[id']? = some x ∧ x'.messageType = x.messageType ∧ x'.filter = x.filter ∧
      x'.set = x.set ∧ (x'.present = true → x' = x ∧
        ¬ (id' = id ∧ s.bus.subscriptions.get subscription.messageType = some x.set)) := by
  rw [hr.get_created, Option.map_eq_some_iff] at hget
  obtain ⟨x, hx, rfl⟩ := hget
  refine ⟨x, hx, ?_⟩
  split
  · exact ⟨rfl, rfl, rfl, fun h => by cases h⟩
  · next hnot => exact ⟨rfl, rfl, rfl, fun _ => ⟨rfl, hnot⟩⟩

theorem Removes.before (hr : Removes s b id subscription) {id' : Nat} {x : Subscription κ δ ℓ}
    (hget : s.bus.created[id']? = some x)
    (hnot : ¬ (id' = id ∧ s.bus.subscriptions.get subscription.messageType = some x.set)) :
    b.created[id']? = some x := by
  rw [hr.get_created, hget, Option.map_some, if_neg hnot]

theorem Removes.length_le (hr : Removes s b id subscription) :
    s.bus.created.length ≤ b.created.length := by
  apply Nat.le_of_not_lt
  intro hlt
  have hget := hr.get_created b.created.length
  rw [List.getElem?_eq_none (Nat.le_refl _), List.getElem?_eq_getElem hlt] at hget
  cases hget

theorem Removes.mem_after (hr : Removes s b id subscription) {x' : Subscription κ δ ℓ}
    (hmem : x' ∈ b.created) :
    ∃ x ∈ s.bus.created, x'.messageType = x.messageType ∧ x'.set = x.set := by
  obtain ⟨id', hget⟩ := List.mem_iff_getElem?.mp hmem
  obtain ⟨x, hx, htype, -, hset, -⟩ := hr.after hget
  exact ⟨x, List.mem_of_getElem? hx, htype, hset⟩

theorem Delivers.removes (hr : Removes s b id subscription) (hs : Consistent s)
    (h : Delivers s p) : Delivers { s with bus := b, live := s.live.filter (· ≠ id) } p where
  target_lt := fun i hi => Nat.lt_of_lt_of_eq (h.target_lt i hi) hr.sets_eq.symm
  typed := by
    intro i hi x' hmem hset
    obtain ⟨x, hx, htype, hset'⟩ := hr.mem_after hmem
    rw [htype]
    exact h.typed i hi x hx (hset'.symm.trans hset)
  next_le := Nat.le_trans h.next_le hr.length_le
  started_lt := fun id hid => Nat.lt_of_lt_of_le (h.started_lt id hid) hr.length_le
  called_lt := h.called_lt
  called_sorted := h.called_sorted
  called_passes := by
    intro c hc
    obtain ⟨x, hx, htype, hpasses, hlive⟩ := h.called_passes c hc
    have hget := hr.get_created c.subscription
    rw [hx, Option.map_some] at hget
    refine ⟨_, hget, ?_⟩
    split
    · exact ⟨htype, hpasses, hlive⟩
    · exact ⟨htype, hpasses, hlive⟩
  visited := by
    intro i hi id' x' hget hset hpresent hpasses hlt
    obtain ⟨x, hx, -, -, -, hsame⟩ := hr.after hget
    obtain ⟨rfl, -⟩ := hsame hpresent
    exact h.visited i hi id' x' hx hset hpresent hpasses hlt
  waiting := by
    intro hended id' hstarted hlive x' hget htype
    obtain ⟨x, hx, htype', -, hset, -⟩ := hr.after hget
    rw [hset]
    exact h.waiting hended id' hstarted (List.mem_of_mem_filter hlive) x hx
      (htype'.symm.trans htype)
  complete := by
    intro hended id' hstarted hlive x' hget htype hpasses
    obtain ⟨x, hx, htype', hfilter, -, -⟩ := hr.after hget
    apply h.complete hended id' hstarted (List.mem_of_mem_filter hlive) x hx
      (htype'.symm.trans htype)
    rwa [Subscription.passes, ← hfilter]
  live_of_present := by
    intro hcleared i hi id' x' hget hset hpresent
    obtain ⟨x, hx, -, -, -, hsame⟩ := hr.after hget
    obtain ⟨rfl, hnot⟩ := hsame hpresent
    have hlive := h.live_of_present hcleared i hi id' x' hx hset hpresent
    refine List.mem_filter.mpr ⟨hlive, decide_eq_true ?_⟩
    rintro rfl
    obtain ⟨y, hy, -, hlivey⟩ := (hs.live_iff id').mp hlive
    obtain rfl : x' = y := by
      rw [hx] at hy
      exact Option.some.inj hy
    apply hnot
    have hboth := hr.get_id.symm.trans hx
    rw [Option.some.inj hboth]
    exact ⟨rfl, hlivey⟩

theorem Consistent.dispose (h : Consistent s) (hstep : step s (.dispose id) = some t) :
    Consistent t := by
  rw [step, Option.map_eq_some_iff] at hstep
  obtain ⟨subscription, hid, rfl⟩ := hstep
  have hr := removes_disposeSubscription hid
  constructor
  · intro x' hx' y' hy' hset
    obtain ⟨x, hx, htypex, hsetx⟩ := hr.mem_after hx'
    obtain ⟨y, hy, htypey, hsety⟩ := hr.mem_after hy'
    rw [htypex, htypey]
    exact h.typed x hx y hy (by rw [← hsetx, ← hsety, hset])
  · intro x' hx'
    obtain ⟨x, hx, -, hset⟩ := hr.mem_after hx'
    rw [hset]
    exact Nat.lt_of_lt_of_eq (h.set_lt x hx) hr.sets_eq.symm
  · intro k i hk
    obtain ⟨hk', hkept⟩ := hr.keeps k i hk
    by_cases htype : k = subscription.messageType
    · obtain ⟨x', hx', hset, hpresent⟩ := hkept htype
      obtain ⟨x, hx, htypex, hsetx⟩ := hr.mem_after hx'
      exact ⟨x', hx', hset, htypex.trans (h.typed_of_get hk' hx (hsetx.symm.trans hset)), hpresent⟩
    · obtain ⟨x, hx, rfl, rfl, hpresent⟩ := h.nonempty k i hk'
      obtain ⟨id', hget⟩ := List.mem_iff_getElem?.mp hx
      refine ⟨x, List.mem_of_getElem? (hr.before hget ?_), rfl, rfl, hpresent⟩
      rintro ⟨rfl, -⟩
      apply htype
      rw [Option.some.inj (hid.symm.trans hget)]
  · intro id'
    show id' ∈ s.live.filter (· ≠ id) ↔ ∃ x',
      (s.bus.disposeSubscription id subscription).created[id']? = some x' ∧ _ ∧
        (s.bus.disposeSubscription id subscription).subscriptions.get _ = _
    rw [List.mem_filter, decide_eq_true_eq, h.live_iff]
    constructor
    · rintro ⟨⟨x, hx, hpresent, hset⟩, hne⟩
      have hget := hr.before hx fun hdeleted => hne hdeleted.1
      refine ⟨x, hget, hpresent, ?_⟩
      rcases hr.drops _ _ hset with hkept | ⟨-, hempty⟩
      · exact hkept
      · rw [hempty x (List.mem_of_getElem? hget) rfl] at hpresent
        cases hpresent
    · rintro ⟨x', hx', hpresent, hset⟩
      obtain ⟨x, hx, -, -, -, hsame⟩ := hr.after hx'
      obtain ⟨rfl, hnot⟩ := hsame hpresent
      have hset' := (hr.keeps _ _ hset).1
      refine ⟨⟨x', hx, hpresent, hset'⟩, ?_⟩
      rintro rfl
      apply hnot
      rw [Option.some.inj (hid.symm.trans hx)]
      exact ⟨rfl, hset'⟩
  · exact h.live_sorted.sublist List.filter_sublist
  · exact fun p hp => (h.delivers p hp).removes hr h

end Dispose

/-! ## Runs -/

theorem Consistent.step (h : Consistent s) {a : BusAction κ δ ℓ} (hstep : step s a = some t) :
    Consistent t := by
  cases a with
  | subscribe messageType listener filter => exact h.subscribe messageType listener filter hstep
  | dispose id => exact h.dispose hstep
  | clear => exact h.clear hstep
  | publish messageType data => exact h.publish messageType data hstep
  | goOn publish =>
      rw [BusSystem.step, Option.bind_eq_some_iff] at hstep
      obtain ⟨p, hp, hstep⟩ := hstep
      split at hstep
      · cases hstep
      · next hended =>
        cases hstep
        exact h.goOn hp (by simpa using hended)

/-- The subscriptions of a type that are live. -/
def liveOf (s : BusSystem κ δ ℓ) (messageType : κ) : List Nat :=
  s.live.filter fun id =>
    (s.bus.created[id]?).any fun subscription => subscription.messageType == messageType

theorem mem_liveOf {messageType : κ} {id : Nat} :
    id ∈ s.liveOf messageType ↔ id ∈ s.live ∧ ∃ subscription,
      s.bus.created[id]? = some subscription ∧ subscription.messageType = messageType := by
  rw [liveOf, List.mem_filter, Option.any_eq_true]
  simp only [beq_iff_eq]

omit [DecidableEq κ] in
/-- The size of a set as the number of positions. -/
theorem size_eq_length_positions (b : MessageBus κ δ ℓ) (i : Nat) :
    b.size i = ((List.range b.created.length).filter fun id =>
      (b.created[id]?).any (MessageBus.inSet i)).length := by
  have hpositions : (List.range b.created.length).map (fun id => b.created[id]?) =
      b.created.map some := by
    apply List.ext_getElem?
    intro id
    rw [List.getElem?_map, List.getElem?_map]
    by_cases hid : id < b.created.length
    · simp [hid]
    · rw [List.getElem?_eq_none (by simpa using hid), List.getElem?_eq_none (by simpa using hid)]
      rfl
  have hcount : b.size i = (b.created.map some).countP (Option.any (MessageBus.inSet i)) := by
    rw [List.countP_map]
    rfl
  rw [hcount, ← hpositions, List.countP_map, List.countP_eq_length_filter]
  rfl

/-- The set of a type has the subscriptions of this type that are live. -/
theorem Consistent.listenerCount_eq (h : Consistent s) (messageType : κ) :
    s.bus.listenerCount messageType = (s.liveOf messageType).length := by
  have hnodup : (s.liveOf messageType).Nodup :=
    (h.live_sorted.imp Nat.ne_of_lt).sublist List.filter_sublist
  rw [MessageBus.listenerCount]
  split
  · next i hi =>
    rw [size_eq_length_positions]
    apply List.Perm.length_eq
    rw [List.perm_ext_iff_of_nodup (List.nodup_range.sublist List.filter_sublist) hnodup]
    intro id
    rw [mem_liveOf, h.live_iff, List.mem_filter, List.mem_range, Option.any_eq_true]
    simp only [MessageBus.inSet, Bool.and_eq_true, beq_iff_eq]
    constructor
    · rintro ⟨-, x, hget, hset, hpresent⟩
      have htype := h.typed_of_get hi (List.mem_of_getElem? hget) hset
      exact ⟨⟨x, hget, hpresent, by rw [htype, hset, hi]⟩, x, hget, htype⟩
    · rintro ⟨⟨x, hget, hpresent, hset⟩, y, hget', htype⟩
      obtain rfl : x = y := by
        rw [hget] at hget'
        exact Option.some.inj hget'
      rw [htype, hi] at hset
      exact ⟨(List.getElem?_eq_some_iff.mp hget).1, x, hget, (Option.some.inj hset).symm, hpresent⟩
  · next hnone =>
    have hempty : s.liveOf messageType = [] := by
      rw [List.eq_nil_iff_forall_not_mem]
      intro id hid
      obtain ⟨hlive, x, hget, rfl⟩ := mem_liveOf.mp hid
      obtain ⟨y, hget', -, hset⟩ := (h.live_iff id).mp hlive
      obtain rfl : x = y := by
        rw [hget] at hget'
        exact Option.some.inj hget'
      rw [hnone] at hset
      cases hset
    rw [hempty]
    rfl

theorem Consistent.hasListeners_iff (h : Consistent s) (messageType : κ) :
    s.bus.hasListeners messageType = true ↔ s.liveOf messageType ≠ [] := by
  rw [← List.length_pos_iff, ← h.listenerCount_eq, MessageBus.hasListeners,
    MessageBus.listenerCount]
  cases hget : s.bus.subscriptions.get messageType with
  | none => simp
  | some i =>
      obtain ⟨x, hmem, hset, -, hpresent⟩ := h.nonempty _ _ hget
      refine iff_of_true rfl (Nat.pos_of_ne_zero fun hsize => ?_)
      rw [MessageBus.size_eq_zero_iff.mp hsize x hmem hset] at hpresent
      cases hpresent

/-- **The bus and the plain list.** However subscriptions, disposals, clears and calls of `publish`
interleave, also from within listeners: the bus counts the subscriptions that are live, and each
call of `publish` calls listeners of its type that let the data pass, in the order of their
subscriptions and none twice; all of those that are live from its beginning to its end, and none
that is not live unless the bus was cleared in between. -/
theorem delivers_of_run {as : List (BusAction κ δ ℓ)} (hrun : run step new as = some s) :
    (∀ messageType, s.bus.listenerCount messageType = (s.liveOf messageType).length ∧
      (s.bus.hasListeners messageType = true ↔ s.liveOf messageType ≠ [])) ∧
    ∀ p ∈ s.publishes,
      (p.called.map (·.subscription)).Pairwise (· < ·) ∧
      (∀ c ∈ p.called, ∃ subscription, s.bus.created[c.subscription]? = some subscription ∧
        subscription.messageType = p.messageType ∧ subscription.passes p.data = true ∧
          (c.live = true ∨ c.cleared = true)) ∧
      (p.ended = true → ∀ id ∈ p.startedWith, id ∈ s.liveOf p.messageType →
        ∀ subscription, s.bus.created[id]? = some subscription →
          subscription.passes p.data = true → id ∈ p.called.map (·.subscription)) := by
  have h := run_invariant (fun _ _ _ hs hstep => hs.step hstep) consistent_new hrun
  refine ⟨fun messageType => ⟨h.listenerCount_eq messageType, h.hasListeners_iff messageType⟩, ?_⟩
  intro p hp
  have hp := h.delivers p hp
  refine ⟨hp.called_sorted, hp.called_passes, ?_⟩
  intro hended id hstarted hlive subscription hget hpasses
  obtain ⟨hlive, x, hget', htype⟩ := mem_liveOf.mp hlive
  obtain rfl : subscription = x := by
    rw [hget] at hget'
    exact Option.some.inj hget'
  exact hp.complete hended id hstarted hlive subscription hget htype hpasses

/-- One listener, which clears the bus while it is called; another is called after it. -/
def clearsBus : List (BusAction Unit Unit Unit) :=
  [.subscribe () () none, .subscribe () () none, .publish () (), .goOn 0, .clear, .goOn 0]

/-- The listener that is called second is not live any more. -/
theorem delivers_of_clearsBus :
    ∃ s : BusSystem Unit Unit Unit, run step new clearsBus = some s ∧
      s.publishes.map (·.called) = [[⟨0, true, false⟩, ⟨1, false, true⟩]] ∧
      s.bus.listenerCount () = (s.liveOf ()).length := by
  obtain ⟨s, hrun⟩ : ∃ s, run step new clearsBus = some s := ⟨_, rfl⟩
  refine ⟨s, hrun, ?_, ((delivers_of_run hrun).1 ()).1⟩
  cases hrun
  rfl

end BusSystem

end KhulnasoftLsp.Webview
