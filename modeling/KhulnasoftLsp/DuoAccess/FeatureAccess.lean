import KhulnasoftLsp.Api.Configuration
import KhulnasoftLsp.EventEmitter

/-!
# The available Duo features

`isFeatureEnabled` awaits the features of the user, which are fetched once and kept as a promise
until the API is reconfigured. A fetch that begins before there is an instance waits for the next
reconfiguration and begins anew, through a listener of its own. The listener that drops the promise
was registered first, and no listener of the reconfiguration asks for a feature.

A promise that waits is resolved with the promise of another fetch; the two count as one here. The
promises and the requests carry the number of reconfigurations that there had been when they were
made, and `answers_fresh_and_shared` is about these numbers.
-/

namespace KhulnasoftLsp.DuoAccess

open Transition Api

inductive DuoFeature where
  | includeFileContext
  | includeSnippetContext
  | includeMergeRequestContext
  | includeIssueContext
  | includeDependencyContext
  | includeLocalGitContext
  deriving DecidableEq, Repr

def DuoFeature.text : DuoFeature → String
  | includeFileContext => "include_file_context"
  | includeSnippetContext => "include_snippet_context"
  | includeMergeRequestContext => "include_merge_request_context"
  | includeIssueContext => "include_issue_context"
  | includeDependencyContext => "include_dependency_context"
  | includeLocalGitContext => "include_local_git_context"

structure AIContextPolicyResponse where
  enabled : Bool
  disabledReasons : Option (List String)
  deriving DecidableEq, Repr

/-- What `isFeatureEnabled` makes of the features. -/
def featurePolicy (features : List DuoFeature) (requiredFeature : DuoFeature) :
    AIContextPolicyResponse :=
  if features.contains requiredFeature then
    ⟨true, none⟩
  else
    ⟨false, some [s!"Feature \"{requiredFeature.text}\" is not enabled"]⟩

/-- The promise of `#fetchFeatures`: how many reconfigurations there had been when it was made, and
whether there was an instance then. -/
structure FeaturesPromise where
  id : Nat
  reconfigurations : Nat
  instanceKnown : Bool
  deriving DecidableEq, Repr

/-- A request for the features, for one promise. -/
structure FeatureRequest where
  id : Nat
  promise : FeaturesPromise
  reconfigurations : Nat
  deriving DecidableEq, Repr

/-- A request with its response: the features, or `none` where something was thrown. -/
structure FeatureResponse where
  request : FeatureRequest
  features : Option (List DuoFeature)
  deriving DecidableEq, Repr

/-- The set that the promise is resolved with. -/
def FeatureResponse.resolved (r : FeatureResponse) : List DuoFeature := r.features.getD []

/-- The listeners that the service registers. -/
inductive FeatureListener where
  | dropPromise
  | fetchAgain (promise : FeaturesPromise)
  deriving DecidableEq, Repr

/-- A call of `isFeatureEnabled` that awaits a promise. -/
structure FeatureCall where
  requiredFeature : DuoFeature
  promise : FeaturesPromise
  reconfigurations : Nat
  deriving DecidableEq, Repr

structure FeatureAnswer where
  call : FeatureCall
  answer : AIContextPolicyResponse
  deriving DecidableEq, Repr

structure DuoFeatureAccessService where
  instanceInfo : Option InstanceInfo
  onApiReconfigured : EventEmitter Unit FeatureListener
  featuresPromise : Option FeaturesPromise
  reconfigurations : Nat
  nextPromise : Nat
  /-- All requests, and those that have no response yet. -/
  requests : List FeatureRequest
  fetching : List FeatureRequest
  responses : List FeatureResponse
  calls : List FeatureCall
  answers : List FeatureAnswer
  /-- The answers to calls that require no feature. -/
  unconditional : List AIContextPolicyResponse
  deriving DecidableEq, Repr

inductive FeatureAction where
  | isFeatureEnabled (requiredFeature : Option DuoFeature)
  | apiReconfigured (data : ApiReconfiguredData)
  | responded (request : Nat) (features : Option (List DuoFeature))
  /-- A call goes on with what its promise was resolved with. -/
  | resumed (call : FeatureCall)
  deriving DecidableEq, Repr

namespace DuoFeatureAccessService

def new (instanceInfo : Option InstanceInfo) : DuoFeatureAccessService where
  instanceInfo
  onApiReconfigured := EventEmitter.new.on () .dropPromise
  featuresPromise := none
  reconfigurations := 0
  nextPromise := 0
  requests := []
  fetching := []
  responses := []
  calls := []
  answers := []
  unconditional := []

/-- `#fetchFeatures`, for the promise that it returns. -/
def fetchFeatures (promise : FeaturesPromise) (s : DuoFeatureAccessService) :
    DuoFeatureAccessService :=
  match s.instanceInfo with
  | none => { s with onApiReconfigured := s.onApiReconfigured.on () (.fetchAgain promise) }
  | some _ =>
    let request : FeatureRequest := ⟨s.requests.length, promise, s.reconfigurations⟩
    { s with requests := s.requests ++ [request], fetching := s.fetching ++ [request] }

def newPromise (s : DuoFeatureAccessService) : FeaturesPromise where
  id := s.nextPromise
  reconfigurations := s.reconfigurations
  instanceKnown := s.instanceInfo.isSome

def awaitPromise (requiredFeature : DuoFeature) (promise : FeaturesPromise)
    (s : DuoFeatureAccessService) : DuoFeatureAccessService :=
  { s with calls := s.calls ++ [⟨requiredFeature, promise, s.reconfigurations⟩] }

/-- `isFeatureEnabled` up to its `await` -/
def isFeatureEnabled (requiredFeature : Option DuoFeature) (s : DuoFeatureAccessService) :
    DuoFeatureAccessService :=
  match requiredFeature with
  | none => { s with unconditional := s.unconditional ++ [⟨true, none⟩] }
  | some feature =>
    match s.featuresPromise with
    | some promise => s.awaitPromise feature promise
    | none =>
      let promise := s.newPromise
      { s.fetchFeatures promise with
        featuresPromise := some promise
        nextPromise := s.nextPromise + 1 }.awaitPromise feature promise

/-- What a listener does when the API is reconfigured. -/
def hear (s : DuoFeatureAccessService) : FeatureListener → DuoFeatureAccessService
  | .dropPromise => { s with featuresPromise := none }
  | .fetchAgain promise =>
    { s with onApiReconfigured :=
        s.onApiReconfigured.removeListener () (.fetchAgain promise) }.fetchFeatures promise

/-- The API stores the instance if the configuration is valid, and fires. -/
def apiReconfigured (data : ApiReconfiguredData) (s : DuoFeatureAccessService) :
    DuoFeatureAccessService :=
  let instanceInfo := match data with
    | .inValidState instanceInfo _ => some instanceInfo
    | .notInValidState _ => s.instanceInfo
  (s.onApiReconfigured.listeners ()).foldl hear
    { s with instanceInfo, reconfigurations := s.reconfigurations + 1 }

def responded (request : FeatureRequest) (features : Option (List DuoFeature))
    (s : DuoFeatureAccessService) : DuoFeatureAccessService :=
  { s with
    fetching := s.fetching.filter (·.id != request.id)
    responses := s.responses ++ [⟨request, features⟩] }

def resumed (call : FeatureCall) (response : FeatureResponse) (s : DuoFeatureAccessService) :
    DuoFeatureAccessService :=
  { s with
    calls := s.calls.erase call
    answers := s.answers ++ [⟨call, featurePolicy response.resolved call.requiredFeature⟩] }

def step (s : DuoFeatureAccessService) : FeatureAction → Option DuoFeatureAccessService
  | .isFeatureEnabled requiredFeature => some (s.isFeatureEnabled requiredFeature)
  | .apiReconfigured data => some (s.apiReconfigured data)
  | .responded id features =>
    (s.fetching.find? (·.id == id)).map fun request => s.responded request features
  | .resumed call =>
    if call ∈ s.calls then
      (s.responses.find? (·.request.promise == call.promise)).map fun response =>
        s.resumed call response
    else
      none

/-! ## What a run keeps -/

/-- The requests of calls that were made with an instance, after a number of reconfigurations. -/
def startedByCalls (n : Nat) (s : DuoFeatureAccessService) : List FeatureRequest :=
  s.requests.filter fun r => r.reconfigurations == n && r.promise.instanceKnown

/-- An answer comes from a response to a request that was sent no earlier than the last
reconfiguration before the call. -/
def Fresh (s : DuoFeatureAccessService) (a : FeatureAnswer) : Prop :=
  ∃ response ∈ s.responses, response.request ∈ s.requests ∧
    response.request.promise = a.call.promise ∧
    a.call.reconfigurations ≤ response.request.reconfigurations ∧
    a.answer = featurePolicy response.resolved a.call.requiredFeature

/-- The listeners are the one that drops the promise, and those of fetches that were begun without
an instance. -/
def ListenersInOrder (s : DuoFeatureAccessService) : Prop :=
  ∃ waiting : List FeaturesPromise,
    s.onApiReconfigured.listeners () = .dropPromise :: waiting.map .fetchAgain ∧
      ∀ p ∈ waiting, p.instanceKnown = false ∧ p.reconfigurations ≤ s.reconfigurations

structure Consistent (s : DuoFeatureAccessService) : Prop where
  listeners : s.ListenersInOrder
  promise : ∀ p ∈ s.featuresPromise, p.reconfigurations = s.reconfigurations
  requests : ∀ r ∈ s.requests, r.promise.reconfigurations ≤ r.reconfigurations ∧
    r.reconfigurations ≤ s.reconfigurations
  fetching : s.fetching ⊆ s.requests
  responses : ∀ r ∈ s.responses, r.request ∈ s.requests
  calls : ∀ c ∈ s.calls, c.reconfigurations = c.promise.reconfigurations
  answers : ∀ a ∈ s.answers, s.Fresh a
  shared : ∀ n, (s.startedByCalls n).length ≤ 1
  unshared : s.featuresPromise = none → s.startedByCalls s.reconfigurations = []

variable {s t : DuoFeatureAccessService}

theorem consistent_new (instanceInfo : Option InstanceInfo) : Consistent (new instanceInfo) where
  listeners := ⟨[], rfl, by simp⟩
  promise p hp := by cases hp
  requests r hr := by cases hr
  fetching := List.Subset.refl _
  responses r hr := by cases hr
  calls c hc := by cases hc
  answers a ha := by cases ha
  shared n := Nat.zero_le 1
  unshared _ := rfl

/-- Responses and requests stay, and so answers stay fresh. -/
theorem Fresh.mono {a : FeatureAnswer} (ha : s.Fresh a) (hresponses : s.responses ⊆ t.responses)
    (hrequests : s.requests ⊆ t.requests) : t.Fresh a := by
  obtain ⟨response, hmem, hrequest, hrest⟩ := ha
  exact ⟨response, hresponses hmem, hrequests hrequest, hrest⟩

/-- The requests of calls that a fetch adds: the one for a promise made with an instance. -/
theorem startedByCalls_fetchFeatures (p : FeaturesPromise) (n : Nat) :
    (s.fetchFeatures p).startedByCalls n = s.startedByCalls n ++
      if s.instanceInfo ≠ none ∧ s.reconfigurations = n ∧ p.instanceKnown = true then
        [⟨s.requests.length, p, s.reconfigurations⟩]
      else
        [] := by
  unfold fetchFeatures startedByCalls
  cases s.instanceInfo with
  | none => simp
  | some info =>
      by_cases hn : s.reconfigurations = n
      · cases hknown : p.instanceKnown <;> simp [hn, hknown]
      · simp [hn]

/-- A fetch keeps the state consistent. Where its promise was made with an instance, this is to be
the first request of a call since the last reconfiguration. -/
theorem consistent_fetchFeatures {p : FeaturesPromise} (hs : Consistent s)
    (hp : p.reconfigurations ≤ s.reconfigurations)
    (hknown : p.instanceKnown = true → s.instanceInfo ≠ none ∧ s.featuresPromise ≠ none ∧
      s.startedByCalls s.reconfigurations = []) : Consistent (s.fetchFeatures p) := by
  have hstarted := startedByCalls_fetchFeatures (s := s) p
  cases hinfo : s.instanceInfo with
  | none =>
      have hfetch : s.fetchFeatures p =
          { s with onApiReconfigured := s.onApiReconfigured.on () (.fetchAgain p) } := by
        simp [fetchFeatures, hinfo]
      have hunknown : p.instanceKnown = false := by
        cases hk : p.instanceKnown with
        | false => rfl
        | true => exact absurd hinfo (hknown hk).1
      obtain ⟨waiting, hlisteners, hwaiting⟩ := hs.listeners
      rw [hfetch]
      refine ⟨⟨waiting ++ [p], ?_, ?_⟩, hs.promise, hs.requests, hs.fetching, hs.responses,
        hs.calls, fun a ha => (hs.answers a ha).mono (List.Subset.refl _) (List.Subset.refl _),
        hs.shared, hs.unshared⟩
      · simp [hlisteners]
      · intro q hq
        rcases List.mem_append.mp hq with hold | hnew
        · exact hwaiting q hold
        · rw [List.mem_singleton.mp hnew]
          exact ⟨hunknown, hp⟩
  | some info =>
      have hfetch : s.fetchFeatures p =
          { s with
            requests := s.requests ++ [⟨s.requests.length, p, s.reconfigurations⟩]
            fetching := s.fetching ++ [⟨s.requests.length, p, s.reconfigurations⟩] } := by
        simp [fetchFeatures, hinfo]
      have hsub : s.requests ⊆ s.requests ++ [⟨s.requests.length, p, s.reconfigurations⟩] :=
        List.subset_append_left _ _
      rw [hfetch] at hstarted ⊢
      refine ⟨hs.listeners, hs.promise, ?_, ?_, fun r hr => hsub (hs.responses r hr), hs.calls,
        fun a ha => (hs.answers a ha).mono (List.Subset.refl _) hsub, ?_, ?_⟩
      · intro r hr
        rcases List.mem_append.mp hr with hold | hnew
        · exact hs.requests r hold
        · rw [List.mem_singleton.mp hnew]
          exact ⟨hp, le_rfl⟩
      · exact List.append_subset.mpr
          ⟨fun r hr => hsub (hs.fetching hr), List.subset_append_right _ _⟩
      · intro n
        rw [hstarted n]
        split
        · next h =>
            obtain ⟨-, hn, hk⟩ := h
            rw [← hn, (hknown hk).2.2]
            exact le_rfl
        · rw [List.append_nil]
          exact hs.shared n
      · intro hnone
        rw [hstarted, hs.unshared hnone, if_neg]
        · rfl
        · intro h
          exact (hknown h.2.2).2.1 hnone

/-! ### Calls -/

theorem consistent_awaitPromise {p : FeaturesPromise} (feature : DuoFeature) (hs : Consistent s)
    (hp : p.reconfigurations = s.reconfigurations) : Consistent (s.awaitPromise feature p) := by
  refine ⟨hs.listeners, hs.promise, hs.requests, hs.fetching, hs.responses, ?_, hs.answers,
    hs.shared, hs.unshared⟩
  intro c hc
  rcases List.mem_append.mp hc with hold | hnew
  · exact hs.calls c hold
  · rw [List.mem_singleton.mp hnew]
    exact hp.symm

theorem consistent_isFeatureEnabled (requiredFeature : Option DuoFeature) (hs : Consistent s) :
    Consistent (s.isFeatureEnabled requiredFeature) := by
  cases requiredFeature with
  | none =>
      exact ⟨hs.listeners, hs.promise, hs.requests, hs.fetching, hs.responses, hs.calls,
        hs.answers, hs.shared, hs.unshared⟩
  | some feature =>
      unfold isFeatureEnabled
      cases hpromise : s.featuresPromise with
      | some p =>
          exact consistent_awaitPromise feature hs (hs.promise p hpromise)
      | none =>
          -- The promise is kept first, and then its fetch begins.
          let kept : DuoFeatureAccessService :=
            { s with featuresPromise := some s.newPromise, nextPromise := s.nextPromise + 1 }
          have hkept : Consistent kept := by
            refine ⟨hs.listeners, ?_, hs.requests, hs.fetching, hs.responses, hs.calls,
              hs.answers, hs.shared, ?_⟩
            · intro q hq
              cases hq
              rfl
            · intro hnone
              cases hnone
          have hfetch : Consistent (kept.fetchFeatures s.newPromise) := by
            apply consistent_fetchFeatures hkept le_rfl
            intro hknown
            refine ⟨Option.isSome_iff_ne_none.mp hknown, by simp [kept], hs.unshared hpromise⟩
          have heq : { s.fetchFeatures s.newPromise with
              featuresPromise := some s.newPromise
              nextPromise := s.nextPromise + 1 } = kept.fetchFeatures s.newPromise := by
            unfold fetchFeatures
            cases s.instanceInfo <;> rfl
          have hreconfigurations : (kept.fetchFeatures s.newPromise).reconfigurations =
              s.reconfigurations := by
            unfold fetchFeatures
            cases kept.instanceInfo <;> rfl
          show Consistent (DuoFeatureAccessService.awaitPromise feature s.newPromise
            { s.fetchFeatures s.newPromise with
              featuresPromise := some s.newPromise
              nextPromise := s.nextPromise + 1 })
          rw [heq]
          exact consistent_awaitPromise feature hfetch hreconfigurations.symm

/-! ### Reconfigurations -/

theorem fetchAgain_injective : Function.Injective FeatureListener.fetchAgain := by
  intro p q h
  cases h
  rfl

/-- The listener that drops the promise is behind those that are removed. -/
theorem erase_fetchAgain (p : FeaturesPromise) (ps : List FeaturesPromise) :
    (ps.map FeatureListener.fetchAgain ++ [FeatureListener.dropPromise]).erase (.fetchAgain p) =
      (ps.erase p).map .fetchAgain ++ [.dropPromise] := by
  have hlast : [FeatureListener.dropPromise].erase (.fetchAgain p) = [.dropPromise] := rfl
  rw [List.erase_append, hlast, List.map_erase fetchAgain_injective]
  split_ifs with hmem
  · rfl
  · rw [List.erase_of_not_mem hmem]

/-- A listener that has been called is removed, and the others stay in order. -/
theorem listenersInOrder_removeListener (hs : s.ListenersInOrder) (p : FeaturesPromise) :
    ListenersInOrder { s with
      onApiReconfigured := s.onApiReconfigured.removeListener () (.fetchAgain p) } := by
  obtain ⟨waiting, hlisteners, hwaiting⟩ := hs
  refine ⟨(waiting.reverse.erase p).reverse, ?_, ?_⟩
  · show (s.onApiReconfigured.removeListener () (.fetchAgain p)).listeners () = _
    rw [EventEmitter.listeners_removeListener_self, hlisteners, List.reverse_cons,
      ← List.map_reverse, erase_fetchAgain]
    simp
  · intro q hq
    exact hwaiting q (List.mem_reverse.mp (List.mem_of_mem_erase (List.mem_reverse.mp hq)))

@[simp] theorem reconfigurations_fetchFeatures (p : FeaturesPromise) :
    (s.fetchFeatures p).reconfigurations = s.reconfigurations := by
  unfold fetchFeatures
  cases s.instanceInfo <;> rfl

/-- The fetches that have waited begin anew, one after the other. -/
theorem consistent_foldl_hear {waiting : List FeaturesPromise} (hs : Consistent s)
    (hwaiting : ∀ p ∈ waiting, p.instanceKnown = false ∧ p.reconfigurations ≤ s.reconfigurations) :
    Consistent ((waiting.map FeatureListener.fetchAgain).foldl hear s) := by
  induction waiting generalizing s with
  | nil => exact hs
  | cons p waiting ih =>
      obtain ⟨hp, hrest⟩ := List.forall_mem_cons.mp hwaiting
      have hremoved : Consistent { s with
          onApiReconfigured := s.onApiReconfigured.removeListener () (.fetchAgain p) } :=
        ⟨listenersInOrder_removeListener hs.listeners p, hs.promise, hs.requests, hs.fetching,
          hs.responses, hs.calls, hs.answers, hs.shared, hs.unshared⟩
      apply ih
      · apply consistent_fetchFeatures hremoved hp.2
        intro hknown
        rw [hp.1] at hknown
        cases hknown
      · intro q hq
        rw [hear, reconfigurations_fetchFeatures]
        exact hrest q hq

/-- Once the promise is dropped, no call has made a request since the reconfiguration. -/
theorem consistent_dropPromise (hs : Consistent s) (instanceInfo : Option InstanceInfo) :
    Consistent { s with
      instanceInfo
      reconfigurations := s.reconfigurations + 1
      featuresPromise := none } := by
  obtain ⟨waiting, hlisteners, hwaiting⟩ := hs.listeners
  refine ⟨⟨waiting, hlisteners, ?_⟩, ?_, ?_, hs.fetching, hs.responses, hs.calls, hs.answers,
    hs.shared, ?_⟩
  · intro p hp
    exact ⟨(hwaiting p hp).1, Nat.le_succ_of_le (hwaiting p hp).2⟩
  · intro p hp
    cases hp
  · intro r hr
    exact ⟨(hs.requests r hr).1, Nat.le_succ_of_le (hs.requests r hr).2⟩
  · intro _
    apply List.filter_eq_nil_iff.mpr
    intro r hr
    have hle := (hs.requests r hr).2
    have hne : r.reconfigurations ≠ s.reconfigurations + 1 := by omega
    simp [hne]

theorem consistent_apiReconfigured (data : ApiReconfiguredData) (hs : Consistent s) :
    Consistent (s.apiReconfigured data) := by
  obtain ⟨waiting, hlisteners, hwaiting⟩ := hs.listeners
  unfold apiReconfigured
  rw [hlisteners, List.foldl_cons]
  apply consistent_foldl_hear (consistent_dropPromise hs _)
  intro p hp
  exact ⟨(hwaiting p hp).1, Nat.le_succ_of_le (hwaiting p hp).2⟩

/-! ### Responses and answers -/

theorem consistent_responded {request : FeatureRequest} (features : Option (List DuoFeature))
    (hs : Consistent s) (hrequest : request ∈ s.fetching) :
    Consistent (s.responded request features) := by
  refine ⟨hs.listeners, hs.promise, hs.requests, ?_, ?_, hs.calls, ?_, hs.shared, hs.unshared⟩
  · intro r hr
    exact hs.fetching (List.mem_of_mem_filter hr)
  · intro r hr
    rcases List.mem_append.mp hr with hold | hnew
    · exact hs.responses r hold
    · rw [List.mem_singleton.mp hnew]
      exact hs.fetching hrequest
  · intro a ha
    exact (hs.answers a ha).mono (List.subset_append_left _ _) (List.Subset.refl _)

/-- What a call makes of the response to the request for its promise is fresh. -/
theorem consistent_resumed {call : FeatureCall} {response : FeatureResponse} (hs : Consistent s)
    (hcall : call ∈ s.calls) (hresponse : response ∈ s.responses)
    (hpromise : response.request.promise = call.promise) :
    Consistent (s.resumed call response) := by
  refine ⟨hs.listeners, hs.promise, hs.requests, hs.fetching, hs.responses, ?_, ?_, hs.shared,
    hs.unshared⟩
  · intro c hc
    exact hs.calls c (List.mem_of_mem_erase hc)
  · intro a ha
    rcases List.mem_append.mp ha with hold | hnew
    · exact (hs.answers a hold).mono (List.Subset.refl _) (List.Subset.refl _)
    · rw [List.mem_singleton.mp hnew]
      have hrequest := hs.responses response hresponse
      refine ⟨response, hresponse, hrequest, hpromise, ?_, rfl⟩
      calc call.reconfigurations = call.promise.reconfigurations := hs.calls call hcall
        _ = response.request.promise.reconfigurations := by rw [hpromise]
        _ ≤ response.request.reconfigurations := (hs.requests _ hrequest).1

theorem consistent_step {a : FeatureAction} (hs : Consistent s) (h : step s a = some t) :
    Consistent t := by
  cases a with
  | isFeatureEnabled requiredFeature =>
      cases h
      exact consistent_isFeatureEnabled requiredFeature hs
  | apiReconfigured data =>
      cases h
      exact consistent_apiReconfigured data hs
  | responded id features =>
      obtain ⟨request, hfind, rfl⟩ := Option.map_eq_some_iff.mp h
      exact consistent_responded features hs (List.mem_of_find?_eq_some hfind)
  | resumed call =>
      simp only [step] at h
      split at h
      · next hcall =>
          obtain ⟨response, hfind, rfl⟩ := Option.map_eq_some_iff.mp h
          exact consistent_resumed hs hcall (List.mem_of_find?_eq_some hfind)
            (by simpa using List.find?_some hfind)
      · cases h

/-- **Fresh answers from shared requests.** In every run a call that requires a feature answers from
a response to a request that was sent at or after the last reconfiguration before the call, and
between two reconfigurations the calls that are made with an instance start one request at most. -/
theorem answers_fresh_and_shared {instanceInfo : Option InstanceInfo} {actions : List FeatureAction}
    (h : run step (new instanceInfo) actions = some s) :
    (∀ a ∈ s.answers, s.Fresh a) ∧ ∀ n, (s.startedByCalls n).length ≤ 1 := by
  have hs : Consistent s :=
    run_invariant (fun _ _ _ hs hstep => consistent_step hs hstep) (consistent_new instanceInfo) h
  exact ⟨hs.answers, hs.shared⟩

/-! ### A call before the API is configured -/

def sampleInstance : InstanceInfo := ⟨some "17.6.0", "https://gitlab.com"⟩

/-- A call waits for the first instance; another call is made after it. -/
def sampleActions : List FeatureAction :=
  [.isFeatureEnabled (some .includeFileContext),
    .apiReconfigured (.inValidState sampleInstance ⟨["api"], .pat⟩),
    .isFeatureEnabled (some .includeIssueContext),
    .responded 0 (some [.includeFileContext]),
    .responded 1 (some [.includeFileContext]),
    .resumed ⟨.includeFileContext, ⟨0, 0, false⟩, 0⟩,
    .resumed ⟨.includeIssueContext, ⟨1, 1, true⟩, 1⟩]

def sampleEnd : DuoFeatureAccessService :=
  (run step (new none) sampleActions).getD (new none)

theorem sample_run : run step (new none) sampleActions = some sampleEnd := by decide +kernel

theorem answers_fresh_and_shared_sample :
    sampleEnd.answers.map (·.answer.enabled) = [true, false] ∧
      (∀ a ∈ sampleEnd.answers, sampleEnd.Fresh a) ∧
        ∀ n, (sampleEnd.startedByCalls n).length ≤ 1 :=
  ⟨by decide +kernel, answers_fresh_and_shared sample_run⟩

end DuoFeatureAccessService

end KhulnasoftLsp.DuoAccess
