import KhulnasoftLsp.Api.Configuration

/-!
# Requests that need a version of the instance

`fetchFromApi` sends a request with `supportedSinceInstanceVersion` only if the version of the
instance is high enough. It takes the version that `configureApi` has stored, unless there is none
or the request goes to another base URL than the configured one; then it asks the instance.

The versions that each instance has reported last are part of the state, next to the API client, so
that what lets a request through can be compared with them.
-/

namespace KhulnasoftLsp.Api

open Transition

structure SupportedSinceInstanceVersion where
  version : String
  resourceName : String
  deriving DecidableEq, Repr

/-- What `fetchFromApi` reads of a request before it hands it on. -/
structure ApiRequest where
  baseUrl : Option String := none
  token : Option String := none
  supportedSinceInstanceVersion : Option SupportedSinceInstanceVersion := none
  deriving DecidableEq, Repr

inductive FetchError where
  | missingToken
  | invalidInstanceVersion (message : String)
  /-- `semverCompare` or the request for the version has thrown. -/
  | threw
  deriving DecidableEq, Repr

def FetchError.message : FetchError → Option String
  | .missingToken => some "Token needs to be provided to authorise API request."
  | .invalidInstanceVersion message => some message
  | .threw => none

/-- How a call of `fetchFromApi` ends, as far as the sending of the request. -/
inductive FetchOutcome where
  /-- It is sent; `reported` is what the instance there has reported last. -/
  | sent (baseUrl : String) (since : Option SupportedSinceInstanceVersion)
      (reported : Option String)
  | rejected (error : FetchError)
  deriving DecidableEq, Repr

structure Fetches where
  api : KhulnaSoftAPI
  /-- The calls so far, and those that await the version of the instance they are for. -/
  calls : Nat
  awaiting : OrderedMap Nat (String × SupportedSinceInstanceVersion)
  outcomes : List (Nat × FetchOutcome)
  /-- The version that the instance at a base URL has reported last. -/
  reported : String → Option String

inductive FetchEvent where
  | api (event : ApiEvent)
  | fetchFromApi (request : ApiRequest)
  /-- The version that a call has asked for. -/
  | versionReceived (call : Nat) (response : VersionResponse)
  deriving DecidableEq, Repr

namespace Fetches

-- `compare` of the package semver; it is `none` where it throws.
variable (semverCompare : String → String → Option Ordering)

/-- The end of `#instanceVersionHigherOrEqualThen` -/
def instanceVersionHigherOrEqualThen (instanceVersion : Option String) (version : String) :
    Option Bool :=
  if isMissing instanceVersion then some false
  else (semverCompare (instanceVersion.getD "") version).map fun order => order != .lt

def new : Fetches where
  api := .new
  calls := 0
  awaiting := .empty
  outcomes := []
  reported := fun _ => none

def began (s : Fetches) : Fetches := { s with calls := s.calls + 1 }

def outcome (call : Nat) (o : FetchOutcome) (s : Fetches) : Fetches :=
  { s with outcomes := s.outcomes ++ [(call, o)] }

/-- `fetchFromApi` once the version of the instance is there. -/
def decideFetch (call : Nat) (baseUrl : String) (since : SupportedSinceInstanceVersion)
    (instanceVersion : Option String) (s : Fetches) : Fetches :=
  match instanceVersionHigherOrEqualThen semverCompare instanceVersion since.version with
  | some true => s.outcome call (.sent baseUrl (some since) (s.reported baseUrl))
  | some false => s.outcome call (.rejected (.invalidInstanceVersion
      ("Can't " ++ since.resourceName ++ " until your instance is upgraded to " ++ since.version ++
        " or higher.")))
  | none => s.outcome call (.rejected .threw)

/-- `this.#instanceInfo?.instanceVersion` -/
def storedVersion (s : Fetches) : Option String :=
  s.api.instanceInfo.bind fun info => info.value.instanceVersion

def requestURL (s : Fetches) (request : ApiRequest) : String :=
  request.baseUrl.getD s.api.baseURL

def requestToken (s : Fetches) (request : ApiRequest) : Option String :=
  request.token.or s.api.token

/-- The version is taken from what is stored. -/
def UsesStored (s : Fetches) (request : ApiRequest) : Prop :=
  isMissing s.storedVersion = false ∧ s.requestURL request = s.api.baseURL

instance (s : Fetches) (request : ApiRequest) : Decidable (s.UsesStored request) :=
  inferInstanceAs (Decidable (_ ∧ _))

/-- `fetchFromApi`, as far as the request for the version if there is one -/
def fetchFromApi (request : ApiRequest) (s : Fetches) : Fetches :=
  if isMissing (s.requestToken request) then s.began.outcome s.calls (.rejected .missingToken)
  else match request.supportedSinceInstanceVersion with
    | none => s.began.outcome s.calls
        (.sent (s.requestURL request) none (s.reported (s.requestURL request)))
    | some since =>
      if s.UsesStored request then
        s.began.decideFetch semverCompare s.calls (s.requestURL request) since s.storedVersion
      else { s.began with awaiting := s.awaiting.set s.calls (s.requestURL request, since) }

/-- An instance reports its version. -/
def report (baseUrl : String) (version : Option String) (s : Fetches) : Fetches :=
  { s with reported := fun url => if url = baseUrl then version else s.reported url }

/-- What a response to `configureApi` reports: a run without a token has not asked. -/
def reportOf (s : Fetches) : ApiEvent → Fetches
  | .versionReceived run (.version version) =>
    match s.api.runs.get run with
    | some (.gettingVersion askedURL askedToken _) =>
      if isMissing askedToken then s else s.report askedURL version
    | _ => s
  | _ => s

def step (s : Fetches) : FetchEvent → Option Fetches
  | .api event => (s.api.step event).map fun api => { s.reportOf event with api }
  | .fetchFromApi request => some (s.fetchFromApi semverCompare request)
  | .versionReceived call response =>
    match s.awaiting.get call, response with
    | some _, .threw =>
      some ({ s with awaiting := s.awaiting.delete call }.outcome call (.rejected .threw))
    | some (baseUrl, since), .version version =>
      some (({ s with awaiting := s.awaiting.delete call }.report baseUrl version).decideFetch
        semverCompare call baseUrl since version)
    | none, _ => none

/-! ## What the versions are for -/

/-- The version is known and high enough. -/
def Suffices (reported : Option String) (since : SupportedSinceInstanceVersion) : Prop :=
  instanceVersionHigherOrEqualThen semverCompare reported since.version = some true

/-- A request that needs a version has gone only to an instance that had reported one that
suffices, and a call ends once. -/
structure Sound (s : Fetches) : Prop where
  enough : ∀ call baseUrl since reported,
    (call, .sent baseUrl (some since) reported) ∈ s.outcomes →
      Suffices semverCompare reported since
  once : (s.outcomes.map Prod.fst).Nodup

/-- The stored version lets no request through for which the version does not suffice that the
configured instance has reported last. -/
def Trustworthy (s : Fetches) : FetchEvent → Prop
  | .fetchFromApi request => ∀ since ∈ request.supportedSinceInstanceVersion,
    isMissing (s.requestToken request) = false → s.UsesStored request →
      Suffices semverCompare s.storedVersion since →
        Suffices semverCompare (s.reported s.api.baseURL) since
  | _ => True

/-! ## What a step adds -/

variable {semverCompare}

/-- A call that has not ended ends with an outcome that is right. -/
theorem Sound.outcome {s : Fetches} (h : s.Sound semverCompare) {call : Nat} {o : FetchOutcome}
    (hfresh : call ∉ s.outcomes.map Prod.fst)
    (ho : ∀ baseUrl since reported, o = .sent baseUrl (some since) reported →
      Suffices semverCompare reported since) : (s.outcome call o).Sound semverCompare where
  enough := by
    intro call' baseUrl since reported hmem
    rcases List.mem_append.mp hmem with hold | hnew
    · exact h.enough call' baseUrl since reported hold
    · obtain ⟨-, hsent⟩ := Prod.mk.inj (List.mem_singleton.mp hnew)
      exact ho baseUrl since reported hsent.symm
  once := by
    show ((s.outcomes ++ [(call, o)]).map Prod.fst).Nodup
    rw [List.map_append, List.nodup_append]
    refine ⟨h.once, List.nodup_singleton call, ?_⟩
    rintro x hx y hy rfl
    obtain rfl : x = call := List.mem_singleton.mp hy
    exact hfresh hx

theorem Sound.rejected {s : Fetches} (h : s.Sound semverCompare) {call : Nat}
    (hfresh : call ∉ s.outcomes.map Prod.fst) (error : FetchError) :
    (s.outcome call (.rejected error)).Sound semverCompare :=
  h.outcome hfresh fun _ _ _ heq => nomatch heq

theorem Sound.congr {s t : Fetches} (h : s.Sound semverCompare)
    (houtcomes : t.outcomes = s.outcomes) : t.Sound semverCompare where
  enough := by
    rw [houtcomes]
    exact h.enough
  once := by
    rw [houtcomes]
    exact h.once

/-- The decision is right exactly if what lets the request through is not above what the instance
has reported. -/
theorem decideFetch_iff {s : Fetches} (h : s.Sound semverCompare) {call : Nat}
    (hfresh : call ∉ s.outcomes.map Prod.fst) (baseUrl : String)
    (since : SupportedSinceInstanceVersion) (instanceVersion : Option String) :
    (s.decideFetch semverCompare call baseUrl since instanceVersion).Sound semverCompare ↔
      (Suffices semverCompare instanceVersion since →
        Suffices semverCompare (s.reported baseUrl) since) := by
  unfold decideFetch
  split
  · rename_i hsuffices
    constructor
    · intro hsound _
      exact hsound.enough call baseUrl since _ (List.mem_append_right _ List.mem_cons_self)
    · intro himp
      apply h.outcome hfresh
      rintro _ _ _ ⟨⟩
      exact himp hsuffices
  · rename_i hfalse
    have hnot : ¬ Suffices semverCompare instanceVersion since := by
      unfold Suffices
      rw [hfalse]
      simp
    simp [hnot, h.rejected hfresh]
  · rename_i hnone
    have hnot : ¬ Suffices semverCompare instanceVersion since := by
      unfold Suffices
      rw [hnone]
      simp
    simp [hnot, h.rejected hfresh]

/-- The calls are numbered, and those that wait have not ended. -/
structure Numbered (s : Fetches) : Prop where
  ended_lt : ∀ call ∈ s.outcomes.map Prod.fst, call < s.calls
  awaiting : ∀ call x, s.awaiting.get call = some x →
    call < s.calls ∧ call ∉ s.outcomes.map Prod.fst

theorem numbered_new : Numbered new where
  ended_lt := fun _ h => nomatch h
  awaiting := fun _ _ h => nomatch h

theorem outcomes_decideFetch (semverCompare : String → String → Option Ordering) (s : Fetches)
    (call : Nat) (baseUrl : String) (since : SupportedSinceInstanceVersion)
    (instanceVersion : Option String) :
    ∃ o, s.decideFetch semverCompare call baseUrl since instanceVersion = s.outcome call o := by
  unfold decideFetch
  split <;> exact ⟨_, rfl⟩

/-- A call that does not wait ends. -/
theorem Numbered.outcome {s : Fetches} (h : s.Numbered) {call : Nat} (hlt : call < s.calls)
    (hnot : s.awaiting.get call = none) (o : FetchOutcome) : (s.outcome call o).Numbered where
  ended_lt := by
    intro call' hmem
    replace hmem : call' ∈ (s.outcomes ++ [(call, o)]).map Prod.fst := hmem
    rw [List.map_append, List.mem_append] at hmem
    rcases hmem with hold | hnew
    · exact h.ended_lt call' hold
    · rw [List.mem_singleton.mp hnew]
      exact hlt
  awaiting := by
    intro call' x hget
    obtain ⟨hlt', hold⟩ := h.awaiting call' x hget
    refine ⟨hlt', ?_⟩
    show call' ∉ (s.outcomes ++ [(call, o)]).map Prod.fst
    rw [List.map_append, List.mem_append]
    rintro (hmem | hmem)
    · exact hold hmem
    · obtain rfl : call' = call := List.mem_singleton.mp hmem
      replace hget : s.awaiting.get call' = some x := hget
      rw [hnot] at hget
      cases hget

theorem Numbered.began {s : Fetches} (h : s.Numbered) : s.began.Numbered where
  ended_lt := fun call hmem => Nat.lt_succ_of_lt (h.ended_lt call hmem)
  awaiting := fun call x hget =>
    ⟨Nat.lt_succ_of_lt (h.awaiting call x hget).1, (h.awaiting call x hget).2⟩

theorem Numbered.fresh {s : Fetches} (h : s.Numbered) : s.calls ∉ s.outcomes.map Prod.fst :=
  fun hmem => absurd (h.ended_lt _ hmem) (Nat.lt_irrefl _)

theorem Numbered.not_awaiting {s : Fetches} (h : s.Numbered) : s.awaiting.get s.calls = none := by
  cases hget : s.awaiting.get s.calls with
  | none => rfl
  | some x => exact absurd (h.awaiting _ x hget).1 (Nat.lt_irrefl _)

/-- A call waits. -/
theorem Numbered.wait {s : Fetches} (h : s.Numbered)
    (x : String × SupportedSinceInstanceVersion) :
    ({ s.began with awaiting := s.awaiting.set s.calls x } : Fetches).Numbered where
  ended_lt := h.began.ended_lt
  awaiting := by
    intro call y hget
    replace hget : (s.awaiting.set s.calls x).get call = some y := hget
    rw [OrderedMap.get_set] at hget
    split at hget
    · rename_i heq
      rw [heq]
      exact ⟨Nat.lt_succ_self _, h.fresh⟩
    · exact h.began.awaiting call y hget

/-- A call waits no more. -/
theorem Numbered.resume {s : Fetches} (h : s.Numbered) (call : Nat) :
    ({ s with awaiting := s.awaiting.delete call } : Fetches).Numbered where
  ended_lt := h.ended_lt
  awaiting := by
    intro call' x hget
    replace hget : (s.awaiting.delete call).get call' = some x := hget
    rw [OrderedMap.get_delete] at hget
    split at hget
    · cases hget
    · exact h.awaiting call' x hget

theorem Numbered.congr {s t : Fetches} (h : s.Numbered) (houtcomes : t.outcomes = s.outcomes)
    (hcalls : t.calls = s.calls) (hawaiting : t.awaiting = s.awaiting) : t.Numbered where
  ended_lt := by
    rw [houtcomes, hcalls]
    exact h.ended_lt
  awaiting := by
    rw [houtcomes, hcalls, hawaiting]
    exact h.awaiting

theorem reportOf_frame (s : Fetches) (event : ApiEvent) :
    (s.reportOf event).outcomes = s.outcomes ∧ (s.reportOf event).calls = s.calls ∧
      (s.reportOf event).awaiting = s.awaiting := by
  unfold reportOf
  split
  · split
    · split <;> exact ⟨rfl, rfl, rfl⟩
    · exact ⟨rfl, rfl, rfl⟩
  · exact ⟨rfl, rfl, rfl⟩

/-- The ways in which a step goes. -/
theorem step_cases {s t : Fetches} {e : FetchEvent} (hstep : s.step semverCompare e = some t) :
    (∃ event api, e = .api event ∧ t = { s.reportOf event with api }) ∨
    (∃ request, e = .fetchFromApi request ∧ t = s.fetchFromApi semverCompare request) ∨
    (∃ call x, e = .versionReceived call .threw ∧ s.awaiting.get call = some x ∧
      t = ({ s with awaiting := s.awaiting.delete call } : Fetches).outcome call
        (.rejected .threw)) ∨
    (∃ call baseUrl since version, e = .versionReceived call (.version version) ∧
      s.awaiting.get call = some (baseUrl, since) ∧
      t = (({ s with awaiting := s.awaiting.delete call } : Fetches).report baseUrl
        version).decideFetch semverCompare call baseUrl since version) := by
  cases e with
  | api event =>
      obtain ⟨api, -, rfl⟩ := Option.map_eq_some_iff.mp hstep
      exact .inl ⟨event, api, rfl, rfl⟩
  | fetchFromApi request =>
      cases hstep
      exact .inr (.inl ⟨request, rfl, rfl⟩)
  | versionReceived call response =>
      simp only [step] at hstep
      split at hstep
      · rename_i x hget
        cases hstep
        exact .inr (.inr (.inl ⟨call, x, rfl, hget, rfl⟩))
      · rename_i baseUrl since version hget
        cases hstep
        exact .inr (.inr (.inr ⟨call, baseUrl, since, version, rfl, hget, rfl⟩))
      · cases hstep

/-- The ways in which a call of `fetchFromApi` goes. -/
theorem fetchFromApi_cases (semverCompare : String → String → Option Ordering) (s : Fetches)
    (request : ApiRequest) :
    (isMissing (s.requestToken request) = true ∧ s.fetchFromApi semverCompare request =
      s.began.outcome s.calls (.rejected .missingToken)) ∨
    (request.supportedSinceInstanceVersion = none ∧ s.fetchFromApi semverCompare request =
      s.began.outcome s.calls
        (.sent (s.requestURL request) none (s.reported (s.requestURL request)))) ∨
    (∃ since, isMissing (s.requestToken request) = false ∧
      request.supportedSinceInstanceVersion = some since ∧ s.UsesStored request ∧
      s.fetchFromApi semverCompare request = s.began.decideFetch semverCompare s.calls
        (s.requestURL request) since s.storedVersion) ∨
    (∃ since, ¬ s.UsesStored request ∧ s.fetchFromApi semverCompare request =
      { s.began with awaiting := s.awaiting.set s.calls (s.requestURL request, since) }) := by
  unfold fetchFromApi
  split
  · rename_i hmissing
    exact .inl ⟨hmissing, rfl⟩
  · rename_i htoken
    split
    · rename_i hnone
      exact .inr (.inl ⟨hnone, rfl⟩)
    · rename_i since hsince
      split
      · rename_i hstored
        exact .inr (.inr (.inl ⟨since, Bool.eq_false_iff.mpr htoken, hsince, hstored, rfl⟩))
      · rename_i hstored
        exact .inr (.inr (.inr ⟨since, hstored, rfl⟩))

theorem numbered_step {s t : Fetches} (h : s.Numbered) {e : FetchEvent}
    (hstep : s.step semverCompare e = some t) : t.Numbered := by
  have hend : ∀ o, (s.began.outcome s.calls o).Numbered :=
    fun o => h.began.outcome (Nat.lt_succ_self _) h.not_awaiting o
  rcases step_cases hstep with ⟨event, api, -, rfl⟩ | ⟨request, -, rfl⟩ |
    ⟨call, x, -, hget, rfl⟩ | ⟨call, baseUrl, since, version, -, hget, rfl⟩
  · obtain ⟨houtcomes, hcalls, hawaiting⟩ := reportOf_frame s event
    exact h.congr houtcomes hcalls hawaiting
  · rcases fetchFromApi_cases semverCompare s request with ⟨-, heq⟩ | ⟨-, heq⟩ |
      ⟨since, -, -, -, heq⟩ | ⟨since, -, heq⟩
    · rw [heq]
      exact hend _
    · rw [heq]
      exact hend _
    · obtain ⟨o, ho⟩ := outcomes_decideFetch semverCompare s.began s.calls (s.requestURL request)
        since s.storedVersion
      rw [heq, ho]
      exact hend o
    · rw [heq]
      exact h.wait _
  · apply (h.resume call).outcome (h.awaiting call x hget).1
    exact (OrderedMap.get_delete s.awaiting call call).trans (if_pos rfl)
  · obtain ⟨o, ho⟩ := outcomes_decideFetch semverCompare
      (({ s with awaiting := s.awaiting.delete call } : Fetches).report baseUrl version) call
      baseUrl since version
    rw [ho]
    have hresumed := (h.resume call).congr
      (t := ({ s with awaiting := s.awaiting.delete call } : Fetches).report baseUrl version)
      rfl rfl rfl
    apply hresumed.outcome (h.awaiting call _ hget).1
    exact (OrderedMap.get_delete s.awaiting call call).trans (if_pos rfl)

theorem sound_step_iff {s t : Fetches} (hnumbered : s.Numbered) (h : s.Sound semverCompare)
    {e : FetchEvent} (hstep : s.step semverCompare e = some t) :
    t.Sound semverCompare ↔ s.Trustworthy semverCompare e := by
  have hbegan : s.began.Sound semverCompare := h.congr rfl
  rcases step_cases hstep with ⟨event, api, rfl, rfl⟩ | ⟨request, rfl, rfl⟩ |
    ⟨call, x, rfl, hget, rfl⟩ | ⟨call, baseUrl, since, version, rfl, hget, rfl⟩
  · have hsound : ({ s.reportOf event with api } : Fetches).Sound semverCompare :=
      h.congr (reportOf_frame s event).1
    simp [hsound, Trustworthy]
  · rcases fetchFromApi_cases semverCompare s request with ⟨hmissing, heq⟩ | ⟨hnone, heq⟩ |
      ⟨since, htoken, hsince, hstored, heq⟩ | ⟨since, hstored, heq⟩
    · rw [heq]
      simp [hbegan.rejected hnumbered.fresh, Trustworthy, hmissing]
    · have hsound : (s.began.outcome s.calls (.sent (s.requestURL request) none
          (s.reported (s.requestURL request)))).Sound semverCompare :=
        hbegan.outcome hnumbered.fresh fun _ _ _ hsent => nomatch hsent
      rw [heq]
      simp [hsound, Trustworthy, hnone]
    · rw [heq, decideFetch_iff hbegan hnumbered.fresh]
      show (_ → Suffices semverCompare (s.reported (s.requestURL request)) since) ↔ _
      simp [Trustworthy, hsince, htoken, hstored, hstored.2]
    · have hsound : ({ s.began with
          awaiting := s.awaiting.set s.calls (s.requestURL request, since) } : Fetches).Sound
          semverCompare := h.congr rfl
      rw [heq]
      simp [hsound, Trustworthy, hstored]
  · have hsound : ({ s with awaiting := s.awaiting.delete call } : Fetches).Sound semverCompare :=
      h.congr rfl
    simp [hsound.rejected (hnumbered.awaiting call x hget).2, Trustworthy]
  · -- What the instance has just reported is what decides.
    have hsound : (({ s with awaiting := s.awaiting.delete call } : Fetches).report baseUrl
        version).Sound semverCompare := h.congr rfl
    rw [decideFetch_iff hsound (hnumbered.awaiting call _ hget).2]
    have hreported : (({ s with awaiting := s.awaiting.delete call } : Fetches).report baseUrl
        version).reported baseUrl = version := if_pos rfl
    rw [hreported]
    simp [Trustworthy]

/-- **The gate.** In every run, the requests that need a version are sent only where the version
that was reported last suffices, if and only if the stored version never lets one through for which
it does not. -/
theorem sound_iff_trustworthy {es : List FetchEvent} {t : Fetches}
    (hrun : run (step semverCompare) new es = some t) :
    Always (step semverCompare) (Sound semverCompare) new es ↔
      Guarded (step semverCompare) (Trustworthy semverCompare) new es := by
  apply always_iff_guarded (fun s e t h _ _ hs => numbered_step h hs) _ numbered_new _ hrun
  · intro s e t h hsound hstep
    exact sound_step_iff h hsound hstep
  · exact ⟨fun _ _ _ _ hmem => (nomatch hmem), List.nodup_nil⟩

/-- A stored version that is the one which the configured instance has reported last can be
trusted. -/
theorem trustworthy_of_fresh {s : Fetches} (h : s.storedVersion = s.reported s.api.baseURL)
    (e : FetchEvent) : s.Trustworthy semverCompare e := by
  cases e with
  | fetchFromApi request =>
      intro since _ _ _ hsuffices
      rw [← h]
      exact hsuffices
  | api event => trivial
  | versionReceived call response => trivial

/-- The package semver on the versions of the samples. -/
def sampleCompare (a b : String) : Option Ordering :=
  if a = b then some .eq
  else if a = "17.0.0" ∧ b = "16.8.0" then some .gt
  else if a = "16.0.0" ∧ b = "16.8.0" then some .lt
  else none

def sampleSince : SupportedSinceInstanceVersion := ⟨"16.8.0", "get workflows"⟩

/-- A request to the configured instance, and one to another. -/
def sampleFetches : List FetchEvent :=
  [.api (.configChange (some "glpat-1") (some "https://a")),
    .api (.tokenChecked 1 (.token true ["api"])),
    .api (.versionReceived 1 (.version (some "17.0.0"))),
    .fetchFromApi { supportedSinceInstanceVersion := some sampleSince },
    .fetchFromApi
      { baseUrl := some "https://b", supportedSinceInstanceVersion := some sampleSince },
    .versionReceived 1 (.version (some "16.0.0"))]

theorem sound_iff_trustworthy_of_two_instances :
    Always (step sampleCompare) (Sound sampleCompare) new sampleFetches ↔
      Guarded (step sampleCompare) (Trustworthy sampleCompare) new sampleFetches := by
  obtain ⟨t, ht⟩ : ∃ t, run (step sampleCompare) new sampleFetches = some t :=
    Option.isSome_iff_exists.mp (by decide +kernel)
  exact sound_iff_trustworthy ht

/-- The base URL is changed; the new instance has not been asked for its version yet. -/
def sampleStaleVersion : List FetchEvent :=
  [.api (.configChange (some "glpat-1") (some "https://a")),
    .api (.tokenChecked 1 (.token true ["api"])),
    .api (.versionReceived 1 (.version (some "17.0.0"))),
    .api (.configChange (some "glpat-2") (some "https://b")),
    .fetchFromApi { supportedSinceInstanceVersion := some sampleSince }]

/-- The request goes to the new instance, let through by the version of the old one. -/
theorem not_sound_of_changed_baseUrl :
    ∃ t, run (step sampleCompare) new sampleStaleVersion = some t ∧
      t.outcomes = [(0, .sent "https://b" (some sampleSince) none)] ∧
      t.reported "https://b" = none ∧ ¬ t.Sound sampleCompare := by
  obtain ⟨t, ht⟩ : ∃ t, run (step sampleCompare) new sampleStaleVersion = some t :=
    Option.isSome_iff_exists.mp (by decide +kernel)
  have hfacts : ∀ t ∈ run (step sampleCompare) new sampleStaleVersion,
      t.outcomes = [(0, .sent "https://b" (some sampleSince) none)] ∧
      t.reported "https://b" = none := by decide +kernel
  obtain ⟨houtcomes, hreported⟩ := hfacts t ht
  refine ⟨t, ht, houtcomes, hreported, fun hsound => ?_⟩
  have henough := hsound.enough 0 "https://b" sampleSince none (by simp [houtcomes])
  cases henough

end Fetches
end KhulnasoftLsp.Api
