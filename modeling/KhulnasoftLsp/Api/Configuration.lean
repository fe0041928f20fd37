import KhulnasoftLsp.JsString
import KhulnasoftLsp.OrderedMap
import KhulnasoftLsp.Transition

/-!
# The configuration of the API client

`configureApi` of `KhulnaSoftAPI` runs whenever the configuration changes. It awaits the check of
the token and then the version of the instance, and it reads and writes the fields of the client
before, between and after. Runs overlap: each is suspended at one of its two awaits, and an event
is a change of the configuration or a response that resumes one run.

What a run stores or fires is stamped with its number, so that one can tell where it comes from.
-/

namespace KhulnasoftLsp.Api

open Transition

def KHULNASOFT_API_BASE_URL : String := "https://gitlab.com"

inductive TokenType where
  | pat
  | oauth
  deriving DecidableEq, Repr

structure TokenInfo where
  scopes : List String
  type : TokenType
  deriving DecidableEq, Repr

structure InstanceInfo where
  instanceVersion : Option String
  instanceUrl : String
  deriving DecidableEq, Repr

inductive ApiReconfiguredData where
  | inValidState (instanceInfo : InstanceInfo) (tokenInfo : TokenInfo)
  | notInValidState (validationMessage : String)
  deriving DecidableEq, Repr

/-! ## The check of the token -/

inductive TokenCheckReason where
  | unknown
  | not_active
  | invalid_scopes
  deriving DecidableEq, Repr

def TokenCheckReason.text : TokenCheckReason → String
  | .unknown => "unknown"
  | .not_active => "not_active"
  | .invalid_scopes => "invalid_scopes"

inductive TokenCheckResponse where
  | valid (tokenInfo : TokenInfo)
  | invalid (reason : TokenCheckReason) (message : String)
  deriving DecidableEq, Repr

/-- What comes of the request about a token: an error that is thrown on the way, or the response.
Only the one about a personal access token says whether it is active. -/
inductive TokenResponse where
  | threw (err : String)
  | token (active : Bool) (scopes : List String)
  deriving DecidableEq, Repr

def looksLikePatToken (token : String) : Bool := (JsString.ofString token).length < 42

def hasValidScopes (scopes : List String) : Bool := scopes.contains "api"

def invalidScopes (scopes : List String) : TokenCheckResponse :=
  .invalid .invalid_scopes ("Token has scope(s) " ++
    ", ".intercalate (scopes.map fun scope => "'" ++ scope ++ "'") ++ " (needs 'api').")

def checkPatToken (active : Bool) (scopes : List String) : TokenCheckResponse :=
  if active = false then .invalid .not_active "Token is not active."
  else if hasValidScopes scopes = false then invalidScopes scopes
  else .valid ⟨scopes, .pat⟩

def checkOAuthToken (scopes : List String) : TokenCheckResponse :=
  if hasValidScopes scopes = false then invalidScopes scopes
  else .valid ⟨scopes, .oauth⟩

def checkToken (token : Option String) : TokenResponse → TokenCheckResponse
  | .threw err => .invalid .unknown ("Failed to check token: " ++ err)
  | .token active scopes =>
    if looksLikePatToken (token.getD "") then checkPatToken active scopes
    else checkOAuthToken scopes

def TokenCheckResponse.isInvalid : TokenCheckResponse → Bool
  | .valid _ => false
  | .invalid _ _ => true

def validationMessage (reason : TokenCheckReason) (message : String) : String :=
  "Token is invalid. " ++ message ++ ". Reason: " ++ reason.text

/-! ## The version of the instance -/

/-- What comes of the request for the version. The field may be missing. -/
inductive VersionResponse where
  | threw
  | version (version : Option String)
  deriving DecidableEq, Repr

/-- `!token` -/
def isMissing (value : Option String) : Bool := value = none ∨ value = some ""

/-- `#getKhulnaSoftInstanceVersion`; it is `none` if it throws. Without a token nothing is asked. -/
def getKhulnaSoftInstanceVersion (token : Option String) :
    VersionResponse → Option (Option String)
  | .threw => if isMissing token then some (some "") else none
  | .version version => if isMissing token then some (some "") else some version

/-! ## The runs of `configureApi` -/

/-- What a run awaits, and for which instance and token it has asked. -/
inductive ConfigureRun where
  | checkingToken (baseURL : String) (token : Option String)
  | gettingVersion (baseURL : String) (token : Option String) (tokenInfo : TokenInfo)
  deriving DecidableEq, Repr

/-- How a run has ended. -/
inductive RunEnd where
  | invalidToken (validationMessage : String)
  | threw
  | configured (baseURL : String) (token : Option String) (version : Option String)
      (tokenInfo : TokenInfo)
  deriving DecidableEq, Repr

/-- A value, and the number of the run that it comes from. -/
structure Stamped (α : Type) where
  run : Nat
  value : α
  deriving DecidableEq, Repr

structure KhulnaSoftAPI where
  /-- `client.token` and `client.baseUrl` of the `ConfigService` -/
  clientToken : Option String
  clientBaseUrl : Option String
  token : Option String
  baseURL : String
  instanceInfo : Option (Stamped InstanceInfo)
  tokenInfo : Option (Stamped TokenInfo)
  /-- The last event that was fired. -/
  reconfigured : Option (Stamped ApiReconfiguredData)
  /-- The runs that are suspended. -/
  runs : OrderedMap Nat ConfigureRun
  /-- The number of the run for the most recent configuration, and how it has ended. -/
  latest : Nat
  ended : Option RunEnd
  /-- The runs that have unset a token, with the most recent one at that time. -/
  unset : List (Nat × Nat)

inductive ApiEvent where
  | configChange (token : Option String) (baseUrl : Option String)
  | tokenChecked (run : Nat) (response : TokenResponse)
  | versionReceived (run : Nat) (response : VersionResponse)
  deriving DecidableEq, Repr

namespace KhulnaSoftAPI

def new : KhulnaSoftAPI where
  clientToken := none
  clientBaseUrl := some KHULNASOFT_API_BASE_URL
  token := none
  baseURL := KHULNASOFT_API_BASE_URL
  instanceInfo := none
  tokenInfo := none
  reconfigured := none
  runs := .empty
  latest := 0
  ended := none
  unset := []

/-- `configureApi`, as far as the check of the token -/
def configureApi (token : Option String) (baseUrl : Option String) (s : KhulnaSoftAPI) :
    KhulnaSoftAPI :=
  let baseUrl := baseUrl.getD KHULNASOFT_API_BASE_URL
  if s.token = token ∧ s.baseURL = baseUrl then s
  else { s with
    token
    baseURL := baseUrl
    runs := s.runs.set (s.latest + 1) (.checkingToken baseUrl token)
    latest := s.latest + 1
    ended := none }

/-- The configuration is set, and the listener calls `configureApi`. -/
def configChange (token : Option String) (baseUrl : Option String) (s : KhulnaSoftAPI) :
    KhulnaSoftAPI :=
  configureApi token baseUrl { s with clientToken := token, clientBaseUrl := baseUrl }

/-- The run with this number is over. -/
def finish (run : Nat) (how : RunEnd) (s : KhulnaSoftAPI) : KhulnaSoftAPI :=
  { s with
    runs := s.runs.delete run
    ended := if run = s.latest then some how else s.ended }

/-- The check has failed: the token is unset, which is a change of the configuration, and then the
event is fired. -/
def tokenInvalid (run : Nat) (message : String) (s : KhulnaSoftAPI) : KhulnaSoftAPI :=
  let unset := if s.clientToken = none then s.unset else s.unset ++ [(run, s.latest)]
  finish run (.invalidToken message)
    { configChange none s.clientBaseUrl { s with unset } with
      reconfigured := some ⟨run, .notInValidState message⟩ }

/-- The check has succeeded: the version is asked of the instance that is configured by now. -/
def tokenValid (run : Nat) (tokenInfo : TokenInfo) (s : KhulnaSoftAPI) : KhulnaSoftAPI :=
  { s with runs := s.runs.set run (.gettingVersion s.baseURL s.token tokenInfo) }

/-- The version has come. -/
def versionReceived (run : Nat) (askedURL : String) (askedToken : Option String)
    (version : Option String) (tokenInfo : TokenInfo) (s : KhulnaSoftAPI) : KhulnaSoftAPI :=
  let instanceInfo := { instanceVersion := version, instanceUrl := s.baseURL }
  finish run (.configured askedURL askedToken version tokenInfo)
    { s with
      instanceInfo := some ⟨run, instanceInfo⟩
      tokenInfo := some ⟨run, tokenInfo⟩
      reconfigured := some ⟨run, .inValidState instanceInfo tokenInfo⟩ }

def step (s : KhulnaSoftAPI) : ApiEvent → Option KhulnaSoftAPI
  | .configChange token baseUrl => some (s.configChange token baseUrl)
  | .tokenChecked run response =>
    match s.runs.get run with
    | some (.checkingToken _ token) =>
      match checkToken token response with
      | .invalid reason message => some (s.tokenInvalid run (validationMessage reason message))
      | .valid tokenInfo => some (s.tokenValid run tokenInfo)
    | _ => none
  | .versionReceived run response =>
    match s.runs.get run with
    | some (.gettingVersion askedURL askedToken tokenInfo) =>
      match getKhulnaSoftInstanceVersion askedToken response with
      | some version => some (s.versionReceived run askedURL askedToken version tokenInfo)
      | none => some (s.finish run .threw)
    | _ => none

/-! ## What the runs are for -/

/-- What is stored and what was fired last is what the run of the most recent configuration has made
of it, once that run has ended. -/
def Current (s : KhulnaSoftAPI) : Prop :=
  match s.ended with
  | some (.configured askedURL askedToken version tokenInfo) =>
    askedURL = s.baseURL ∧ askedToken = s.token ∧
    s.instanceInfo = some ⟨s.latest, ⟨version, s.baseURL⟩⟩ ∧
    s.tokenInfo = some ⟨s.latest, tokenInfo⟩ ∧
    s.reconfigured = some ⟨s.latest, .inValidState ⟨version, s.baseURL⟩ tokenInfo⟩
  | some (.invalidToken message) => s.instanceInfo = none ∧ s.tokenInfo = none ∧
    s.reconfigured = some ⟨s.latest, .notInValidState message⟩
  | some .threw => s.instanceInfo = none ∧ s.tokenInfo = none ∧ s.reconfigured = none
  | none => True

/-- A token is unset by the run of its own configuration only. -/
def KeepsTokens (s : KhulnaSoftAPI) : Prop := ∀ x ∈ s.unset, x.1 = x.2

/-- No run comes too late, and none ends without a result that has to replace an older one. -/
def InTime (s : KhulnaSoftAPI) : ApiEvent → Prop
  | .configChange _ _ => True
  | .tokenChecked run response =>
    match s.runs.get run with
    | some (.checkingToken _ token) => (checkToken token response).isInvalid →
      if run = s.latest then s.clientToken = none → s.instanceInfo = none ∧ s.tokenInfo = none
      else s.clientToken = none ∧ s.ended = none
    | _ => True
  | .versionReceived run response =>
    match s.runs.get run with
    | some (.gettingVersion _ askedToken _) =>
      if run = s.latest then getKhulnaSoftInstanceVersion askedToken response = none →
        s.instanceInfo = none ∧ s.tokenInfo = none ∧ s.reconfigured = none
      else (getKhulnaSoftInstanceVersion askedToken response).isSome → s.ended = none
    | _ => True

/-! ## What holds after every run -/

structure Consistent (s : KhulnaSoftAPI) : Prop where
  token_eq : s.clientToken = s.token
  baseURL_eq : s.clientBaseUrl.getD KHULNASOFT_API_BASE_URL = s.baseURL
  run_le : ∀ run x, s.runs.get run = some x → run ≤ s.latest
  asked_eq : ∀ askedURL askedToken tokenInfo,
    s.runs.get s.latest = some (.gettingVersion askedURL askedToken tokenInfo) →
      askedURL = s.baseURL ∧ askedToken = s.token
  running : s.ended.isSome → s.runs.get s.latest = none

theorem consistent_new : Consistent new where
  token_eq := rfl
  baseURL_eq := rfl
  run_le := fun _ _ h => nomatch h
  asked_eq := fun _ _ _ h => nomatch h
  running := fun h => nomatch h

/-- A change that makes no difference starts no run; any other one starts the most recent run. -/
theorem configChange_cases (token baseUrl : Option String) (s : KhulnaSoftAPI) :
    (s.token = token ∧ s.baseURL = baseUrl.getD KHULNASOFT_API_BASE_URL ∧
      s.configChange token baseUrl = { s with clientToken := token, clientBaseUrl := baseUrl }) ∨
    (¬ (s.token = token ∧ s.baseURL = baseUrl.getD KHULNASOFT_API_BASE_URL) ∧
      s.configChange token baseUrl = { s with
        clientToken := token
        clientBaseUrl := baseUrl
        token
        baseURL := baseUrl.getD KHULNASOFT_API_BASE_URL
        runs := s.runs.set (s.latest + 1)
          (.checkingToken (baseUrl.getD KHULNASOFT_API_BASE_URL) token)
        latest := s.latest + 1
        ended := none }) := by
  by_cases h : s.token = token ∧ s.baseURL = baseUrl.getD KHULNASOFT_API_BASE_URL
  · left
    exact ⟨h.1, h.2, if_pos h⟩
  · right
    exact ⟨h, if_neg h⟩

theorem Consistent.configChange {s : KhulnaSoftAPI} (h : s.Consistent)
    (token baseUrl : Option String) : (s.configChange token baseUrl).Consistent := by
  rcases configChange_cases token baseUrl s with ⟨htoken, hbase, heq⟩ | ⟨-, heq⟩
  · rw [heq]
    exact { h with token_eq := htoken.symm, baseURL_eq := hbase.symm }
  · rw [heq]
    refine ⟨rfl, rfl, ?_, ?_, ?_⟩
    · intro run x hx
      rw [OrderedMap.get_set] at hx
      split at hx
      · rename_i hrun
        exact Nat.le_of_eq hrun
      · exact Nat.le_succ_of_le (h.run_le run x hx)
    · intro askedURL askedToken tokenInfo hget
      rw [OrderedMap.get_set_self] at hget
      cases hget
    · intro hended
      cases hended

theorem Consistent.finish {s : KhulnaSoftAPI} (h : s.Consistent) (run : Nat) (how : RunEnd) :
    (s.finish run how).Consistent where
  token_eq := h.token_eq
  baseURL_eq := h.baseURL_eq
  run_le := by
    intro run' x hx
    replace hx : (s.runs.delete run).get run' = some x := hx
    rw [OrderedMap.get_delete] at hx
    split at hx
    · cases hx
    · exact h.run_le run' x hx
  asked_eq := by
    intro askedURL askedToken tokenInfo hget
    replace hget : (s.runs.delete run).get s.latest = _ := hget
    rw [OrderedMap.get_delete] at hget
    split at hget
    · cases hget
    · exact h.asked_eq _ _ _ hget
  running := by
    intro hended
    show (s.runs.delete run).get s.latest = none
    replace hended : (if run = s.latest then some how else s.ended).isSome := hended
    rw [OrderedMap.get_delete]
    split
    · rfl
    · rename_i hne
      rw [if_neg (Ne.symm hne)] at hended
      exact h.running hended

/-- What is stored and fired is not what the runs go by. -/
theorem Consistent.congr {s t : KhulnaSoftAPI} (h : s.Consistent)
    (hclientToken : t.clientToken = s.clientToken)
    (hclientBaseUrl : t.clientBaseUrl = s.clientBaseUrl)
    (htoken : t.token = s.token) (hbaseURL : t.baseURL = s.baseURL) (hruns : t.runs = s.runs)
    (hlatest : t.latest = s.latest) (hended : t.ended = s.ended) : t.Consistent := by
  obtain ⟨htoken_eq, hbaseURL_eq, hrun_le, hasked_eq, hrunning⟩ := h
  constructor
  · rw [hclientToken, htoken, htoken_eq]
  · rw [hclientBaseUrl, hbaseURL, hbaseURL_eq]
  · rw [hruns, hlatest]
    exact hrun_le
  · rw [hruns, hlatest, hbaseURL, htoken]
    exact hasked_eq
  · rw [hruns, hlatest, hended]
    exact hrunning

theorem Consistent.tokenValid {s : KhulnaSoftAPI} (h : s.Consistent) {run : Nat} {x : ConfigureRun}
    (hrun : s.runs.get run = some x) (tokenInfo : TokenInfo) :
    (s.tokenValid run tokenInfo).Consistent where
  token_eq := h.token_eq
  baseURL_eq := h.baseURL_eq
  run_le := by
    intro run' y hy
    replace hy : (s.runs.set run _).get run' = some y := hy
    rw [OrderedMap.get_set] at hy
    split at hy
    · rename_i heq
      rw [heq]
      exact h.run_le run x hrun
    · exact h.run_le run' y hy
  asked_eq := by
    intro askedURL askedToken tokenInfo' hget
    replace hget : (s.runs.set run _).get s.latest = _ := hget
    rw [OrderedMap.get_set] at hget
    split at hget
    · cases hget
      exact ⟨rfl, rfl⟩
    · exact h.asked_eq _ _ _ hget
  running := by
    intro hended
    have hnone := h.running hended
    show (s.runs.set run _).get s.latest = none
    have hne : s.latest ≠ run := by
      rintro rfl
      rw [hrun] at hnone
      cases hnone
    rw [OrderedMap.get_set_other _ _ hne, hnone]

/-- The ways in which a step goes. -/
theorem step_cases {s t : KhulnaSoftAPI} {e : ApiEvent} (hstep : s.step e = some t) :
    (∃ token baseUrl, e = .configChange token baseUrl ∧ t = s.configChange token baseUrl) ∨
    (∃ run response askedURL token reason message, e = .tokenChecked run response ∧
      s.runs.get run = some (.checkingToken askedURL token) ∧
      checkToken token response = .invalid reason message ∧
      t = s.tokenInvalid run (validationMessage reason message)) ∨
    (∃ run response askedURL token tokenInfo, e = .tokenChecked run response ∧
      s.runs.get run = some (.checkingToken askedURL token) ∧
      checkToken token response = .valid tokenInfo ∧ t = s.tokenValid run tokenInfo) ∨
    (∃ run response askedURL askedToken tokenInfo version, e = .versionReceived run response ∧
      s.runs.get run = some (.gettingVersion askedURL askedToken tokenInfo) ∧
      getKhulnaSoftInstanceVersion askedToken response = some version ∧
      t = s.versionReceived run askedURL askedToken version tokenInfo) ∨
    (∃ run response askedURL askedToken tokenInfo, e = .versionReceived run response ∧
      s.runs.get run = some (.gettingVersion askedURL askedToken tokenInfo) ∧
      getKhulnaSoftInstanceVersion askedToken response = none ∧ t = s.finish run .threw) := by
  cases e with
  | configChange token baseUrl =>
      cases hstep
      exact .inl ⟨token, baseUrl, rfl, rfl⟩
  | tokenChecked run response =>
      simp only [step] at hstep
      split at hstep
      · rename_i askedURL token hrun
        split at hstep
        · rename_i reason message hcheck
          cases hstep
          exact .inr (.inl ⟨run, response, askedURL, token, reason, message, rfl, hrun, hcheck,
            rfl⟩)
        · rename_i tokenInfo hcheck
          cases hstep
          exact .inr (.inr (.inl ⟨run, response, askedURL, token, tokenInfo, rfl, hrun, hcheck,
            rfl⟩))
      · cases hstep
  | versionReceived run response =>
      simp only [step] at hstep
      split at hstep
      · rename_i askedURL askedToken tokenInfo hrun
        split at hstep
        · rename_i version hversion
          cases hstep
          exact .inr (.inr (.inr (.inl ⟨run, response, askedURL, askedToken, tokenInfo, version,
            rfl, hrun, hversion, rfl⟩)))
        · rename_i hversion
          cases hstep
          exact .inr (.inr (.inr (.inr ⟨run, response, askedURL, askedToken, tokenInfo, rfl, hrun,
            hversion, rfl⟩)))
      · cases hstep

theorem consistent_step {s t : KhulnaSoftAPI} (h : s.Consistent) {e : ApiEvent}
    (hstep : s.step e = some t) : t.Consistent := by
  rcases step_cases hstep with ⟨token, baseUrl, -, rfl⟩ |
    ⟨run, _, _, _, _, _, -, -, -, rfl⟩ | ⟨run, _, _, _, tokenInfo, -, hrun, -, rfl⟩ |
    ⟨run, _, _, _, _, _, -, -, -, rfl⟩ | ⟨run, _, _, _, _, -, -, -, rfl⟩
  · exact h.configChange token baseUrl
  · apply Consistent.finish
    have hchange : ∀ unset, (configChange none s.clientBaseUrl { s with unset }).Consistent := by
      intro unset
      apply Consistent.configChange
      exact h.congr rfl rfl rfl rfl rfl rfl rfl
    exact (hchange _).congr rfl rfl rfl rfl rfl rfl rfl
  · exact h.tokenValid hrun tokenInfo
  · apply Consistent.finish
    exact h.congr rfl rfl rfl rfl rfl rfl rfl
  · exact h.finish run .threw

/-! ## What each step does to the results -/

theorem current_configChange {s : KhulnaSoftAPI} (h : s.Current) (token baseUrl : Option String) :
    (s.configChange token baseUrl).Current := by
  rcases configChange_cases token baseUrl s with ⟨-, -, heq⟩ | ⟨-, heq⟩
  · rw [heq]
    exact h
  · rw [heq]
    trivial

/-- A late run leaves a stamp that is not the one of the most recent run. -/
theorem not_current_of_late {s : KhulnaSoftAPI} {run : Nat} {data : ApiReconfiguredData}
    (hended : s.ended.isSome) (hrun : run ≠ s.latest)
    (hfired : s.reconfigured = some ⟨run, data⟩) : ¬ s.Current := by
  have hne : ∀ data',
      some (⟨run, data⟩ : Stamped ApiReconfiguredData) ≠ some ⟨s.latest, data'⟩ := by
    rintro data' ⟨⟩
    exact hrun rfl
  unfold Current
  rw [hfired]
  split
  · rintro ⟨-, -, -, -, h⟩
    exact hne _ h
  · rintro ⟨-, -, h⟩
    exact hne _ h
  · rintro ⟨-, -, ⟨⟩⟩
  · rename_i hnone
    rw [hnone] at hended
    cases hended

theorem finish_invalidToken_iff {s : KhulnaSoftAPI} {run : Nat} {message : String}
    (hfired : s.reconfigured = some ⟨run, .notInValidState message⟩) :
    (s.finish run (.invalidToken message)).Current ↔
      if run = s.latest then s.instanceInfo = none ∧ s.tokenInfo = none else s.ended = none := by
  by_cases hlatest : run = s.latest
  · simp [finish, Current, hlatest, hfired]
  · have hended : (s.finish run (.invalidToken message)).ended = s.ended := if_neg hlatest
    rw [if_neg hlatest]
    constructor
    · intro hcurrent
      by_contra hne
      have hsome : (s.finish run (.invalidToken message)).ended.isSome := by
        rw [hended]
        exact Option.isSome_iff_ne_none.mpr hne
      exact not_current_of_late hsome hlatest hfired hcurrent
    · intro hnone
      unfold Current
      rw [hended, hnone]
      trivial

theorem tokenInvalid_iff {s : KhulnaSoftAPI} (h : s.Consistent) (hkeeps : s.KeepsTokens)
    {run : Nat} {x : ConfigureRun} (hrun : s.runs.get run = some x) (message : String) :
    (s.tokenInvalid run message).Current ∧ (s.tokenInvalid run message).KeepsTokens ↔
      if run = s.latest then s.clientToken = none → s.instanceInfo = none ∧ s.tokenInfo = none
      else s.clientToken = none ∧ s.ended = none := by
  by_cases hnone : s.clientToken = none
  · -- Nothing is unset, and no run is started.
    have hsame : (s.token = none ∧
        s.baseURL = s.clientBaseUrl.getD KHULNASOFT_API_BASE_URL) :=
      ⟨h.token_eq ▸ hnone, h.baseURL_eq.symm⟩
    have heq : s.tokenInvalid run message = finish run (.invalidToken message)
        { s with
          clientToken := none
          reconfigured := some ⟨run, .notInValidState message⟩ } := by
      unfold tokenInvalid
      rw [if_pos hnone]
      have hchange : configChange none s.clientBaseUrl s = { s with clientToken := none } :=
        if_pos hsame
      show finish run _ { configChange none s.clientBaseUrl s with reconfigured := _ } = _
      rw [hchange]
    have hkeeps' : (s.tokenInvalid run message).KeepsTokens := by
      rw [heq]
      exact hkeeps
    have hiff : (s.tokenInvalid run message).Current ↔
        if run = s.latest then s.instanceInfo = none ∧ s.tokenInfo = none else s.ended = none := by
      rw [heq]
      exact finish_invalidToken_iff rfl
    simp [hkeeps', hiff, hnone]
  · -- The token is unset, and a run is started for no token.
    have hstart : ¬ (s.token = none ∧
        s.baseURL = s.clientBaseUrl.getD KHULNASOFT_API_BASE_URL) := by
      rintro ⟨htoken, -⟩
      exact hnone (h.token_eq.trans htoken)
    have hle := h.run_le run x hrun
    have hcurrent' : (s.tokenInvalid run message).Current := by
      have hne : run ≠ s.latest + 1 := Nat.ne_of_lt (Nat.lt_succ_of_le hle)
      simp [tokenInvalid, configChange, configureApi, hstart, finish, Current, hne]
    have hunset : (s.tokenInvalid run message).unset = s.unset ++ [(run, s.latest)] := by
      simp [tokenInvalid, configChange, configureApi, hstart, finish, hnone]
    have hkeeps' : (s.tokenInvalid run message).KeepsTokens ↔ run = s.latest := by
      unfold KeepsTokens
      rw [hunset]
      constructor
      · intro hall
        exact hall (run, s.latest) (List.mem_append_right _ List.mem_cons_self)
      · intro heq y hy
        rcases List.mem_append.mp hy with hold | hnew
        · exact hkeeps y hold
        · rw [List.mem_singleton.mp hnew]
          exact heq
    simp [hcurrent', hkeeps', hnone]

theorem versionReceived_iff {s : KhulnaSoftAPI} (h : s.Consistent)
    {run : Nat} {askedURL : String} {askedToken : Option String} {tokenInfo : TokenInfo}
    (hrun : s.runs.get run = some (.gettingVersion askedURL askedToken tokenInfo))
    (version : Option String) :
    (s.versionReceived run askedURL askedToken version tokenInfo).Current ↔
      (run ≠ s.latest → s.ended = none) := by
  by_cases hlatest : run = s.latest
  · subst hlatest
    obtain ⟨rfl, rfl⟩ := h.asked_eq _ _ _ hrun
    simp [versionReceived, finish, Current]
  · have hended : (s.versionReceived run askedURL askedToken version tokenInfo).ended = s.ended :=
      if_neg hlatest
    constructor
    · intro hcurrent _
      by_contra hne
      have hsome : (s.versionReceived run askedURL askedToken version tokenInfo).ended.isSome := by
        rw [hended]
        exact Option.isSome_iff_ne_none.mpr hne
      exact not_current_of_late hsome hlatest rfl hcurrent
    · intro hnone
      unfold Current
      rw [hended, hnone hlatest]
      trivial

theorem threw_iff {s : KhulnaSoftAPI} (h : s.Current) (run : Nat) :
    (s.finish run .threw).Current ↔
      (run = s.latest → s.instanceInfo = none ∧ s.tokenInfo = none ∧ s.reconfigured = none) := by
  by_cases hlatest : run = s.latest
  · simp [finish, Current, hlatest]
  · have hsame : (s.finish run .threw).Current ↔ s.Current := by
      unfold Current
      rw [show (s.finish run .threw).ended = s.ended from if_neg hlatest]
      rfl
    simp [hsame, h, hlatest]

theorem current_step_iff {s t : KhulnaSoftAPI} (h : s.Consistent) (hcurrent : s.Current)
    (hkeeps : s.KeepsTokens) {e : ApiEvent} (hstep : s.step e = some t) :
    t.Current ∧ t.KeepsTokens ↔ s.InTime e := by
  rcases step_cases hstep with ⟨token, baseUrl, rfl, rfl⟩ |
    ⟨run, response, _, _, reason, message, rfl, hrun, hcheck, rfl⟩ |
    ⟨run, response, _, _, tokenInfo, rfl, hrun, hcheck, rfl⟩ |
    ⟨run, response, askedURL, askedToken, tokenInfo, version, rfl, hrun, hversion, rfl⟩ |
    ⟨run, response, _, _, _, rfl, hrun, hversion, rfl⟩
  · have hkeeps' : (s.configChange token baseUrl).KeepsTokens := by
      rcases configChange_cases token baseUrl s with ⟨-, -, heq⟩ | ⟨-, heq⟩ <;>
        · rw [heq]
          exact hkeeps
    simp [InTime, hkeeps', current_configChange hcurrent token baseUrl]
  · rw [tokenInvalid_iff h hkeeps hrun]
    simp [InTime, hrun, hcheck, TokenCheckResponse.isInvalid]
  · have hcurrent' : (s.tokenValid run tokenInfo).Current := hcurrent
    have hkeeps' : (s.tokenValid run tokenInfo).KeepsTokens := hkeeps
    simp [InTime, hrun, hcheck, TokenCheckResponse.isInvalid, hcurrent', hkeeps']
  · have hkeeps' :
        (s.versionReceived run askedURL askedToken version tokenInfo).KeepsTokens := hkeeps
    rw [versionReceived_iff h hrun]
    simp [InTime, hrun, hversion, hkeeps']
  · have hkeeps' : (s.finish run .threw).KeepsTokens := hkeeps
    rw [threw_iff hcurrent]
    simp [InTime, hrun, hversion, hkeeps']

/-- **Overlapping runs.** In every run of events, what is stored and fired is what the run of the
most recent configuration has made of it whenever that has ended, and no other run unsets a token,
if and only if every event is in time. -/
theorem current_iff_inTime {es : List ApiEvent} {t : KhulnaSoftAPI}
    (hrun : run step new es = some t) :
    Always step (fun s => s.Current ∧ s.KeepsTokens) new es ↔ Guarded step InTime new es := by
  apply always_iff_guarded (fun s e t h _ _ hs => consistent_step h hs) _ consistent_new _ hrun
  · intro s e t h hs hstep
    exact current_step_iff h hs.1 hs.2 hstep
  · exact ⟨trivial, fun _ h => nomatch h⟩

/-- One configuration after the other. -/
def sampleConfigurations : List ApiEvent :=
  [.configChange (some "glpat-1") none, .tokenChecked 1 (.token true ["api"]),
    .versionReceived 1 (.version (some "17.0.0")),
    .configChange (some "glpat-2") none, .tokenChecked 2 (.token true ["api"]),
    .versionReceived 2 (.version (some "17.0.0"))]

theorem current_iff_inTime_of_sequence :
    Always step (fun s => s.Current ∧ s.KeepsTokens) new sampleConfigurations ↔
      Guarded step InTime new sampleConfigurations := by
  obtain ⟨t, ht⟩ : ∃ t, run step new sampleConfigurations = some t :=
    Option.isSome_iff_exists.mp (by decide +kernel)
  exact current_iff_inTime ht

/-- The check of the first token fails after the second one is configured. -/
def sampleOverlap : List ApiEvent :=
  [.configChange (some "glpat-1") none, .configChange (some "glpat-2") none,
    .tokenChecked 2 (.token true ["api"]), .versionReceived 2 (.version (some "17.0.0")),
    .tokenChecked 1 (.token false ["api"]), .tokenChecked 3 (.threw "401 Unauthorized")]

/-- The second token is unset, and what was stored for it is not replaced. -/
theorem not_current_of_overlap :
    ∃ t, run step new sampleOverlap = some t ∧ t.runs.entries = [] ∧
      t.clientToken = none ∧ t.unset = [(1, 2)] ∧
      t.instanceInfo = some ⟨2, ⟨some "17.0.0", KHULNASOFT_API_BASE_URL⟩⟩ ∧
      t.reconfigured = some ⟨3, .notInValidState
        "Token is invalid. Failed to check token: 401 Unauthorized. Reason: unknown"⟩ ∧
      ¬ t.Current ∧ ¬ t.KeepsTokens := by
  obtain ⟨t, ht⟩ : ∃ t, run step new sampleOverlap = some t :=
    Option.isSome_iff_exists.mp (by decide +kernel)
  have hfacts : ∀ t ∈ run step new sampleOverlap, t.runs.entries = [] ∧
      t.clientToken = none ∧ t.unset = [(1, 2)] ∧
      t.instanceInfo = some ⟨2, ⟨some "17.0.0", KHULNASOFT_API_BASE_URL⟩⟩ ∧
      t.reconfigured = some ⟨3, .notInValidState
        "Token is invalid. Failed to check token: 401 Unauthorized. Reason: unknown"⟩ ∧
      t.ended = some (.invalidToken
        "Token is invalid. Failed to check token: 401 Unauthorized. Reason: unknown") := by
    decide +kernel
  obtain ⟨hruns, hclient, hunset, hinstance, hfired, hended⟩ := hfacts t ht
  refine ⟨t, ht, hruns, hclient, hunset, hinstance, hfired, ?_, ?_⟩
  · intro hcurrent
    unfold Current at hcurrent
    rw [hended] at hcurrent
    rw [hinstance] at hcurrent
    cases hcurrent.1
  · intro hkeeps
    have heq := hkeeps (1, 2) (by simp [hunset])
    cases heq

end KhulnaSoftAPI
end KhulnasoftLsp.Api
