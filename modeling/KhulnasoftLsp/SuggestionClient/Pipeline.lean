import KhulnasoftLsp.Async
import KhulnasoftLsp.SuggestionClient.DirectConnection

/-!
# The pipeline of a suggestion request

A request for suggestions goes through a pipeline of middlewares, the last added first. The service
has two: one determines with tree-sitter whether the user wants a completion or a generation, and
the other hands the request to a client that tries the direct connection, and asks the GitLab
instance if that returns nothing.

Requests overlap. While one waits, others are sent, the details of the direct connection arrive or
the API is configured anew. `orderly_of_run` says what each of them has asked for in any
interleaving, and what it has returned.
-/

namespace KhulnasoftLsp.SuggestionClient

open Async Async.Program

/-! ## What the clients work with -/

section

variable (T : Type)

/-- What is awaited. `T` is what the parser returns, a syntax tree with its language. -/
inductive Request where
  | parseFile (document : IDocContext)
  | getIntent (treeAndLanguage : T) (position : Position) (prefixText suffix : JsString)
  /-- The request of the direct connection with this number. -/
  | direct (id : Nat) (request : DirectRequest)
  | getCodeSuggestions (request : CodeSuggestionRequest)

/-- An `error` is a promise that rejects. -/
def Request.Answer : Request T → Type
  | parseFile _ => Except RequestError (Option T)
  | getIntent _ _ _ _ => Except RequestError (Option Intent)
  | direct _ _ => Except RequestError (Option SuggestionResponse)
  | getCodeSuggestions _ => Except RequestError (Option SuggestionResponse)

/-- What is done to the direct connection. -/
inductive ClientCall where
  | getSuggestions (context : SuggestionContext)
  | onSuggestions (id : Nat) (result : Except RequestError (Option SuggestionResponse))

/-- The requests of the service share the client of the direct connection. -/
def clientSignature : Signature where
  State := System
  Call := ClientCall
  effect
    | .getSuggestions context, s => s.getSuggestions context
    | .onSuggestions id result, s => s.onSuggestions id result
  Request := Request T
  Answer := Request.Answer T
  Error := RequestError

end

variable {T : Type}

/-- `SuggestionClientFn` -/
abbrev SuggestionClientFn (T : Type) :=
  SuggestionContext → Program (clientSignature T) (Option SuggestionResponse)

abbrev SuggestionClientMiddleware (T : Type) :=
  SuggestionContext → SuggestionClientFn T →
    Program (clientSignature T) (Option SuggestionResponse)

/-! ## The clients -/

/-- `getSuggestions` of a `DirectConnectionClient`. The request for connection details that it may
start is not awaited. -/
def DirectConnectionClient.suggestions : SuggestionClientFn T := fun context => do
  let s : System ← get (S := clientSignature T)
  perform (S := clientSignature T) (.getSuggestions context)
  match s.client.getSuggestions context with
  | .returnsUndefined | .fetchesDetails => return none
  | .sends request =>
    let result ← ask (S := clientSignature T) (.direct s.sent.length request)
    let s' : System ← get
    perform (S := clientSignature T) (.onSuggestions s.sent.length result)
    return (s'.client.onSuggestions result).2

def DefaultSuggestionClient.getSuggestions : SuggestionClientFn T := fun suggestionContext => do
  let request := createV2Request suggestionContext none
  match ← ask (S := clientSignature T) (.getCodeSuggestions request) with
  | .ok response => return response.map fun r => { r with isDirectConnection := some false }
  | .error e => throw e

/-- The first of the clients that returns something. -/
def FallbackClient.getSuggestions : List (SuggestionClientFn T) → SuggestionClientFn T
  | [], _ => pure none
  | client :: clients, context => do
    match ← client context with
    | some result => return some result
    | none => FallbackClient.getSuggestions clients context

/-! ## The pipeline -/

def clientToMiddleware (client : SuggestionClientFn T) : SuggestionClientMiddleware T :=
  fun context _ => client context

/-- `createTreeSitterMiddleware` -/
def treeSitterMiddleware : SuggestionClientMiddleware T := fun context next =>
  if context.intent.isSome then next context
  else do
    match ← ask (S := clientSignature T) (.parseFile context.document) with
    | .error _ | .ok none => next context
    | .ok (some treeAndLanguage) =>
      -- what this throws is not caught
      match ← ask (S := clientSignature T) (.getIntent treeAndLanguage context.document.position
        context.document.prefixText context.document.suffix) with
      | .error e => throw e
      | .ok intent => next { context with intent }

structure SuggestionClientPipeline (T : Type) where
  middlewares : List (SuggestionClientMiddleware T)

namespace SuggestionClientPipeline

def use (middleware : SuggestionClientMiddleware T) (p : SuggestionClientPipeline T) :
    SuggestionClientPipeline T :=
  ⟨p.middlewares ++ [middleware]⟩

/-- `#buildPipeline` -/
def buildPipeline (p : SuggestionClientPipeline T) : SuggestionClientFn T :=
  p.middlewares.foldl (fun acc middleware x => middleware x acc) fun _ => throw .other

def getSuggestions (p : SuggestionClientPipeline T) : SuggestionClientFn T := p.buildPipeline

end SuggestionClientPipeline

/-- The pipeline of `DefaultSuggestionService`. -/
def suggestionClientPipeline : SuggestionClientPipeline T where
  middlewares :=
    [clientToMiddleware (FallbackClient.getSuggestions
      [DirectConnectionClient.suggestions, DefaultSuggestionClient.getSuggestions]),
    treeSitterMiddleware]

/-- What else happens to the direct connection: its details arrive, the API is configured anew, and
time passes. -/
def clientEvent (event : Action) (s : System) : Option System :=
  match event with
  | .getSuggestions _ | .suggestions _ _ => none
  | event => s.step event

/-! ## The course of a request -/

/-- The log of a program of the pipeline. -/
abbrev Log (T : Type) := List (Entry (clientSignature T))

abbrev Result := Option (Except RequestError (Option SuggestionResponse))

def askedFor (s : System) (q : Request T) : Entry (clientSignature T) := .asked s q

def answeredWith (q : Request T) (o : q.Answer T) : Entry (clientSignature T) := .answered q o

def calls (s : System) (c : ClientCall) : Entry (clientSignature T) := .called s c

/-- The direct connection is tried: it still waits, or it has returned what is given last. -/
inductive Tries (context : SuggestionContext) :
    Log T → Option (Option SuggestionResponse) → Prop
  | refuses {s : System} (h : ∀ request, s.client.getSuggestions context ≠ .sends request) :
    Tries context [calls s (.getSuggestions context)] (some none)
  | waits {s : System} {request : DirectRequest}
    (h : s.client.getSuggestions context = .sends request) :
    Tries context
      [calls s (.getSuggestions context),
        askedFor (s.getSuggestions context) (.direct s.sent.length request)]
      none
  | returns {s t : System} {request : DirectRequest}
    (h : s.client.getSuggestions context = .sends request)
    (result : Except RequestError (Option SuggestionResponse)) :
    Tries context
      [calls s (.getSuggestions context),
        askedFor (s.getSuggestions context) (.direct s.sent.length request),
        answeredWith (.direct s.sent.length request) result,
        calls t (.onSuggestions s.sent.length result)]
      (some (t.client.onSuggestions result).2)

/-- What `DefaultSuggestionClient` makes of the answer of the GitLab instance. -/
def ofInstance (result : Except RequestError (Option SuggestionResponse)) :
    Except RequestError (Option SuggestionResponse) :=
  result.map fun response => response.map fun r => { r with isDirectConnection := some false }

/-- The suggestions are fetched. -/
inductive Fetches (context : SuggestionContext) : Log T → Result → Prop
  | tries {log : Log T} (h : Tries context log none) : Fetches context log none
  | direct {log : Log T} {response : SuggestionResponse}
    (h : Tries context log (some (some response))) :
    Fetches context log (some (.ok (some response)))
  | asks {log : Log T} (h : Tries context log (some none)) (s : System) :
    Fetches context (log ++ [askedFor s (.getCodeSuggestions (createV2Request context none))]) none
  | answered {log : Log T} (h : Tries context log (some none)) (s : System)
    (result : Except RequestError (Option SuggestionResponse)) :
    Fetches context
      (log ++ [askedFor s (.getCodeSuggestions (createV2Request context none)),
        answeredWith (.getCodeSuggestions (createV2Request context none)) result])
      (some (ofInstance result))

/-- The request for the intent in a document that was parsed. -/
def intentRequest (context : SuggestionContext) (treeAndLanguage : T) : Request T :=
  .getIntent treeAndLanguage context.document.position context.document.prefixText
    context.document.suffix

/-- A request of the service. -/
inductive Course (context : SuggestionContext) : Log T → Result → Prop
  | given {log : Log T} {result : Result} (h : context.intent.isSome = true)
    (hfetches : Fetches context log result) : Course context log result
  | parses (h : context.intent = none) (s : System) :
    Course context [askedFor s (.parseFile context.document)] none
  | unparsed {log : Log T} {result : Result} (h : context.intent = none) (s : System)
    {parsed : Except RequestError (Option T)} (hparsed : ∀ tree, parsed ≠ .ok (some tree))
    (hfetches : Fetches context log result) :
    Course context
      (askedFor s (.parseFile context.document) ::
        answeredWith (.parseFile context.document) parsed :: log)
      result
  | resolves (h : context.intent = none) (s t : System) (tree : T) :
    Course context
      [askedFor s (.parseFile context.document),
        answeredWith (.parseFile context.document) (.ok (some tree)),
        askedFor t (intentRequest context tree)]
      none
  | unresolved (h : context.intent = none) (s t : System) (tree : T) (e : RequestError) :
    Course context
      [askedFor s (.parseFile context.document),
        answeredWith (.parseFile context.document) (.ok (some tree)),
        askedFor t (intentRequest context tree),
        answeredWith (intentRequest context tree) (.error e)]
      (some (.error e))
  | resolved {log : Log T} {result : Result} (h : context.intent = none) (s t : System) (tree : T)
    (intent : Option Intent) (hfetches : Fetches { context with intent } log result) :
    Course context
      (askedFor s (.parseFile context.document) ::
        answeredWith (.parseFile context.document) (.ok (some tree)) ::
        askedFor t (intentRequest context tree) ::
        answeredWith (intentRequest context tree) (.ok intent) :: log)
      result

/-! ### The clients keep to it -/

/-- Nothing is asked of the state of the direct connection. -/
def anyState (_ : System) : Prop := True

theorem meets_direct (context : SuggestionContext) (s : System) :
    (DirectConnectionClient.suggestions (T := T) context).Meets anyState s fun log result =>
      (result = none ∧ Tries context log none) ∨
        ∃ response, result = some (.ok response) ∧ Tries context log (some response) := by
  refine meets_get_bind.mpr (meets_perform_bind.mpr ⟨trivial, ?_⟩)
  cases h : s.client.getSuggestions context with
  | returnsUndefined =>
    refine .inr ⟨none, rfl, .refuses ?_⟩
    intro request hsends
    rw [h] at hsends
    cases hsends
  | fetchesDetails =>
    refine .inr ⟨none, rfl, .refuses ?_⟩
    intro request hsends
    rw [h] at hsends
    cases hsends
  | sends request =>
    refine ⟨.inl ⟨rfl, .waits h⟩, ?_⟩
    intro result t _
    exact ⟨trivial, .inr ⟨(t.client.onSuggestions result).2, rfl, .returns h result⟩⟩

theorem meets_instance (context : SuggestionContext) (s : System) :
    (DefaultSuggestionClient.getSuggestions (T := T) context).Meets anyState s fun log result =>
      let request := createV2Request context none
      (result = none ∧ log = [askedFor s (.getCodeSuggestions request)]) ∨
        ∃ response, result = some (ofInstance response) ∧
          log = [askedFor s (.getCodeSuggestions request),
            answeredWith (.getCodeSuggestions request) response] := by
  refine ⟨.inl ⟨rfl, rfl⟩, ?_⟩
  intro response t _
  cases response with
  | ok response => exact .inr ⟨.ok response, rfl, rfl⟩
  | error e => exact .inr ⟨.error e, rfl, rfl⟩

theorem meets_fallback (context : SuggestionContext) (s : System) :
    (FallbackClient.getSuggestions (T := T)
      [DirectConnectionClient.suggestions, DefaultSuggestionClient.getSuggestions] context).Meets
        anyState s (Fetches context) := by
  rw [FallbackClient.getSuggestions]
  apply Meets.bind trivial (meets_direct context s)
  · intro log hlog
    rcases hlog with ⟨-, h⟩ | ⟨response, h, -⟩
    · exact .tries h
    · cases h
  · intro log e hlog
    rcases hlog with ⟨h, -⟩ | ⟨response, h, -⟩ <;> cases h
  · intro log response t _ hlog
    obtain ⟨h, -⟩ | ⟨response', h, htries⟩ := hlog
    · cases h
    · cases h
      cases response with
      | some response =>
        show Fetches context (log ++ []) _
        rw [List.append_nil]
        exact .direct htries
      | none =>
        rw [FallbackClient.getSuggestions]
        apply Meets.bind trivial (meets_instance context t)
        · intro rest hrest
          rcases hrest with ⟨-, rfl⟩ | ⟨response, h, -⟩
          · exact .asks htries t
          · cases h
        · intro rest e hrest
          rcases hrest with ⟨h, -⟩ | ⟨response, h, rfl⟩
          · cases h
          · rw [Option.some.inj h]
            exact .answered htries t response
        · intro rest response u _ hrest
          rcases hrest with ⟨h, -⟩ | ⟨answer, h, rfl⟩
          · cases h
          · have hanswered := Fetches.answered htries t answer
            rw [← h] at hanswered
            cases response with
            | some response =>
              show Fetches context ((log ++ (_ ++ []))) _
              rw [List.append_nil]
              exact hanswered
            | none =>
              show Fetches context ((log ++ (_ ++ []))) _
              rw [List.append_nil]
              exact hanswered

theorem meets_pipeline (context : SuggestionContext) (s : System) :
    (suggestionClientPipeline.getSuggestions (T := T) context).Meets anyState s
      (Course context) := by
  show (treeSitterMiddleware context _).Meets anyState s (Course context)
  rw [treeSitterMiddleware]
  split_ifs with hintent
  · refine (meets_fallback context s).mono ?_
    intro log result h
    exact .given hintent h
  · rw [Bool.not_eq_true, Option.isSome_eq_false_iff, Option.isNone_iff_eq_none] at hintent
    refine ⟨.parses hintent s, ?_⟩
    intro parsed t _
    have hunparsed : ∀ parsed : Except RequestError (Option T),
        (∀ tree, parsed ≠ .ok (some tree)) →
        (FallbackClient.getSuggestions (T := T)
          [DirectConnectionClient.suggestions, DefaultSuggestionClient.getSuggestions]
          context).Meets anyState t fun log => Course context
            (askedFor s (.parseFile context.document) ::
              answeredWith (.parseFile context.document) parsed :: log) := by
      intro parsed hparsed
      refine (meets_fallback context t).mono ?_
      intro log result h
      exact .unparsed hintent s hparsed h
    cases parsed with
    | error e =>
      apply hunparsed (.error e)
      intro tree h
      cases h
    | ok parsed =>
      cases parsed with
      | none =>
        apply hunparsed (.ok none)
        intro tree h
        cases h
      | some tree =>
        refine ⟨.resolves hintent s t tree, ?_⟩
        intro resolution u _
        cases resolution with
        | error e => exact .unresolved hintent s t tree e
        | ok intent =>
          refine (meets_fallback { context with intent } u).mono ?_
          intro log result h
          exact .resolved hintent s t tree intent h

/-! ## What every request has done -/

/-- The place of a request among those that one call of the pipeline makes. -/
def Request.rank : Request T → Nat
  | parseFile _ => 0
  | getIntent _ _ _ _ => 1
  | direct _ _ => 2
  | getCodeSuggestions _ => 3

/-- The places of the requests that a log has. -/
def ranks (log : Log T) : List Nat :=
  log.filterMap fun
    | .asked _ q => some q.rank
    | _ => none

/-- Every direct request has been answered, and not with a suggestion. -/
structure GaveNothing (log : Log T) : Prop where
  answered : ∀ s id request, askedFor s (.direct id request) ∈ log →
    ∃ result, answeredWith (.direct id request) result ∈ log
  nothing : ∀ id request response,
    answeredWith (.direct id request) (.ok (some response)) ∉ log

/-- The answer that a result was made of. -/
inductive ComesFrom (log : Log T) : Except RequestError (Option SuggestionResponse) → Prop
  | direct {id : Nat} {request : DirectRequest} {response : SuggestionResponse}
    (h : answeredWith (.direct id request) (.ok (some response)) ∈ log)
    (hfirst : 3 ∉ ranks log) :
    ComesFrom log (.ok (some { response with isDirectConnection := some true }))
  | gitlab {request : CodeSuggestionRequest}
    {result : Except RequestError (Option SuggestionResponse)}
    (h : answeredWith (.getCodeSuggestions request) result ∈ log)
    (hfallback : GaveNothing log) :
    ComesFrom log (ofInstance result)

/-- The intent could not be determined, and nothing was requested from the model. -/
def Unresolved (context : SuggestionContext) (log : Log T) (e : RequestError) : Prop :=
  (∃ tree, answeredWith (intentRequest context tree) (.error e) ∈ log) ∧
    ∀ rank ∈ ranks log, rank < 2

/-- Suggestions for a context with this intent were requested. -/
structure Orderly (context : SuggestionContext) (intent : Option Intent) (log : Log T)
    (result : Result) : Prop where
  /-- An intent that is given is not determined. -/
  kept : context.intent.isSome = true → intent = context.intent ∧ ∀ rank ∈ ranks log, 2 ≤ rank
  /-- The intent is the one that was determined, if any was. -/
  determined : context.intent = none →
    (∃ tree, answeredWith (intentRequest context tree) (.ok intent) ∈ log) ∨
      (intent = none ∧ ∀ tree o, answeredWith (intentRequest context tree) (.ok o) ∉ log)
  /-- Nothing is requested twice. -/
  ordered : (ranks log).Pairwise (· < ·)
  /-- A direct request is one that the connection could send when it was sent. -/
  direct : ∀ s id request, askedFor s (.direct id request) ∈ log →
    s.client.getSuggestions { context with intent } = .sends request
  /-- The GitLab instance is asked if nothing came of the direct connection. -/
  gitlab : ∀ s request, askedFor s (.getCodeSuggestions request) ∈ log →
    request = createV2Request { context with intent } none ∧ GaveNothing log
  returns : ∀ r, result = some r → ComesFrom log r ∨ ∃ e, r = .error e ∧ Unresolved context log e
  /-- What has not returned waits for an answer. -/
  waits : result = none → ∃ s q, log.getLast? = some (askedFor s q)

section

variable {context : SuggestionContext} {log : Log T}

theorem client_getSuggestions (context : SuggestionContext) (s : System) :
    (s.getSuggestions context).client = s.client := by
  rw [System.getSuggestions]
  split
  · rfl
  · split <;> rfl
  · rfl

theorem Tries.ranks_eq {r : Option (Option SuggestionResponse)} (h : Tries context log r) :
    ranks log = [] ∨ ranks log = [2] := by
  cases h with
  | refuses => exact .inl rfl
  | waits => exact .inr rfl
  | returns => exact .inr rfl

theorem Tries.direct {r : Option (Option SuggestionResponse)} (h : Tries context log r) {s : System}
    {id : Nat} {request : DirectRequest} (hasked : askedFor s (.direct id request) ∈ log) :
    s.client.getSuggestions context = .sends request := by
  cases h with
  | refuses =>
    rcases List.mem_singleton.mp hasked with hasked
    cases hasked
  | waits h =>
    simp only [List.mem_cons, List.not_mem_nil, or_false] at hasked
    rcases hasked with hasked | hasked
    · cases hasked
    · cases hasked
      rw [client_getSuggestions, h]
  | returns h =>
    simp only [List.mem_cons, List.not_mem_nil, or_false] at hasked
    rcases hasked with hasked | hasked | hasked | hasked
    · cases hasked
    · cases hasked
      rw [client_getSuggestions, h]
    · cases hasked
    · cases hasked

theorem Tries.not_gitlab {r : Option (Option SuggestionResponse)} (h : Tries context log r)
    {s : System} {request : CodeSuggestionRequest} :
    askedFor s (.getCodeSuggestions request) ∉ log := by
  intro hasked
  have hrank : 3 ∈ ranks log := List.mem_filterMap.mpr ⟨_, hasked, rfl⟩
  rcases h.ranks_eq with hranks | hranks
  · rw [hranks] at hrank
    cases hrank
  · rw [hranks, List.mem_singleton] at hrank
    cases hrank

/-- The direct connection has an answer, or has returned nothing. -/
theorem Tries.returned {response : SuggestionResponse}
    (h : Tries context log (some (some response))) :
    ∃ id request r, answeredWith (.direct id request) (.ok (some r)) ∈ log ∧
      response = { r with isDirectConnection := some true } := by
  generalize hr : some (some response) = r at h
  cases h with
  | refuses => cases hr
  | waits => cases hr
  | @returns s t request h result =>
    rw [Option.some.injEq] at hr
    cases result with
    | error e => cases hr
    | ok result =>
      cases result with
      | none => cases hr
      | some result =>
        cases hr
        refine ⟨s.sent.length, request, result, ?_, rfl⟩
        simp

theorem GaveNothing.append {rest : Log T} (h : GaveNothing log) (hrest : GaveNothing rest) :
    GaveNothing (log ++ rest) where
  answered := by
    intro s id request hasked
    rcases List.mem_append.mp hasked with hasked | hasked
    · obtain ⟨result, hresult⟩ := h.answered s id request hasked
      exact ⟨result, List.mem_append_left rest hresult⟩
    · obtain ⟨result, hresult⟩ := hrest.answered s id request hasked
      exact ⟨result, List.mem_append_right log hresult⟩
  nothing := by
    intro id request response hanswered
    rcases List.mem_append.mp hanswered with hanswered | hanswered
    · exact h.nothing id request response hanswered
    · exact hrest.nothing id request response hanswered

/-- A request to the GitLab instance is not a direct one. -/
theorem gaveNothing_asks (s : System) (request : CodeSuggestionRequest) :
    GaveNothing (T := T) [askedFor s (.getCodeSuggestions request)] where
  answered := by
    intro t id direct hasked
    cases List.mem_singleton.mp hasked
  nothing := by
    intro id direct response hanswered
    cases List.mem_singleton.mp hanswered

theorem gaveNothing_answered (s : System) (request : CodeSuggestionRequest)
    (result : Except RequestError (Option SuggestionResponse)) :
    GaveNothing (T := T) [askedFor s (.getCodeSuggestions request),
      answeredWith (.getCodeSuggestions request) result] where
  answered := by
    intro t id direct hasked
    simp only [List.mem_cons, List.not_mem_nil, or_false] at hasked
    rcases hasked with hasked | hasked <;> cases hasked
  nothing := by
    intro id direct response hanswered
    simp only [List.mem_cons, List.not_mem_nil, or_false] at hanswered
    rcases hanswered with hanswered | hanswered <;> cases hanswered

theorem Tries.gaveNothing (h : Tries context log (some none)) : GaveNothing log := by
  generalize hr : some none = r at h
  cases h with
  | refuses =>
    refine ⟨?_, ?_⟩
    · intro s id request hasked
      cases List.mem_singleton.mp hasked
    · intro id request response hanswered
      cases List.mem_singleton.mp hanswered
  | waits => cases hr
  | returns h result =>
    refine ⟨?_, ?_⟩
    · intro s id request hasked
      simp only [List.mem_cons, List.not_mem_nil, or_false] at hasked
      rcases hasked with hasked | hasked | hasked | hasked
      · cases hasked
      · cases hasked
        exact ⟨result, by simp⟩
      · cases hasked
      · cases hasked
    · intro id request response hanswered
      simp only [List.mem_cons, List.not_mem_nil, or_false] at hanswered
      rcases hanswered with hanswered | hanswered | hanswered | hanswered
      · cases hanswered
      · cases hanswered
      · cases hanswered
        cases hr
      · cases hanswered

theorem Tries.last (h : Tries context log none) : ∃ s q, log.getLast? = some (askedFor s q) := by
  cases h with
  | waits => exact ⟨_, _, rfl⟩

variable {result : Result}

theorem ranks_append (log rest : Log T) : ranks (log ++ rest) = ranks log ++ ranks rest :=
  List.filterMap_append

theorem Fetches.mem_ranks (h : Fetches context log result) :
    ranks log ∈ [[], [2], [3], [2, 3]] := by
  cases h with
  | tries h => rcases h.ranks_eq with hranks | hranks <;> simp [hranks]
  | direct h => rcases h.ranks_eq with hranks | hranks <;> simp [hranks]
  | asks h s =>
    have hlast : ranks
        [askedFor (T := T) s (.getCodeSuggestions (createV2Request context none))] = [3] := rfl
    rw [ranks_append, hlast]
    rcases h.ranks_eq with hranks | hranks <;> simp [hranks]
  | answered h s result =>
    have hlast : ranks
        [askedFor (T := T) s (.getCodeSuggestions (createV2Request context none)),
          answeredWith (.getCodeSuggestions (createV2Request context none)) result] = [3] := rfl
    rw [ranks_append, hlast]
    rcases h.ranks_eq with hranks | hranks <;> simp [hranks]

theorem Fetches.direct_sends (h : Fetches context log result) {s : System} {id : Nat}
    {request : DirectRequest} (hasked : askedFor s (.direct id request) ∈ log) :
    s.client.getSuggestions context = .sends request := by
  cases h with
  | tries h => exact h.direct hasked
  | direct h => exact h.direct hasked
  | asks h t =>
    rcases List.mem_append.mp hasked with hasked | hasked
    · exact h.direct hasked
    · rcases List.mem_singleton.mp hasked with hasked
      cases hasked
  | answered h t result =>
    rcases List.mem_append.mp hasked with hasked | hasked
    · exact h.direct hasked
    · simp only [List.mem_cons, List.not_mem_nil, or_false] at hasked
      rcases hasked with hasked | hasked <;> cases hasked

theorem Fetches.gitlab_sends (h : Fetches context log result) {s : System}
    {request : CodeSuggestionRequest} (hasked : askedFor s (.getCodeSuggestions request) ∈ log) :
    request = createV2Request context none ∧ GaveNothing log := by
  cases h with
  | tries h => exact absurd hasked h.not_gitlab
  | direct h => exact absurd hasked h.not_gitlab
  | asks h t =>
    refine ⟨?_, h.gaveNothing.append (gaveNothing_asks t _)⟩
    rcases List.mem_append.mp hasked with hasked | hasked
    · exact absurd hasked h.not_gitlab
    · rcases List.mem_singleton.mp hasked with hasked
      cases hasked
      rfl
  | answered h t result =>
    refine ⟨?_, h.gaveNothing.append (gaveNothing_answered t _ result)⟩
    rcases List.mem_append.mp hasked with hasked | hasked
    · exact absurd hasked h.not_gitlab
    · simp only [List.mem_cons, List.not_mem_nil, or_false] at hasked
      rcases hasked with hasked | hasked
      · cases hasked
        rfl
      · cases hasked

theorem Fetches.returns {r : Except RequestError (Option SuggestionResponse)}
    (h : Fetches context log (some r)) : ComesFrom log r := by
  generalize hr : some r = result at h
  cases h with
  | tries => cases hr
  | direct h =>
    cases hr
    obtain ⟨id, request, response, hanswered, rfl⟩ := h.returned
    refine .direct hanswered ?_
    intro hrank
    rcases h.ranks_eq with hranks | hranks
    · rw [hranks] at hrank
      cases hrank
    · rw [hranks, List.mem_singleton] at hrank
      cases hrank
  | asks => cases hr
  | @answered tried h s result =>
    cases hr
    have hanswered : answeredWith (.getCodeSuggestions (createV2Request context none)) result ∈
        tried ++ [askedFor s (.getCodeSuggestions (createV2Request context none)),
          answeredWith (.getCodeSuggestions (createV2Request context none)) result] := by simp
    exact .gitlab hanswered (h.gaveNothing.append (gaveNothing_answered s _ result))

theorem Fetches.last (h : Fetches context log none) :
    ∃ s q, log.getLast? = some (askedFor s q) := by
  generalize hr : none = result at h
  cases h with
  | tries h => exact h.last
  | direct => cases hr
  | asks h s => exact ⟨s, _, List.getLast?_concat⟩
  | answered => cases hr

theorem Tries.not_intent {r : Option (Option SuggestionResponse)} (h : Tries context log r)
    (document : SuggestionContext) (tree : T) (o : Except RequestError (Option Intent)) :
    answeredWith (intentRequest document tree) o ∉ log := by
  intro hanswered
  cases h with
  | refuses =>
    rcases List.mem_singleton.mp hanswered with hanswered
    cases hanswered
  | waits =>
    simp only [List.mem_cons, List.not_mem_nil, or_false] at hanswered
    rcases hanswered with hanswered | hanswered <;> cases hanswered
  | returns =>
    simp only [List.mem_cons, List.not_mem_nil, or_false] at hanswered
    rcases hanswered with hanswered | hanswered | hanswered | hanswered <;> cases hanswered

theorem Fetches.not_intent (h : Fetches context log result) (document : SuggestionContext)
    (tree : T) (o : Except RequestError (Option Intent)) :
    answeredWith (intentRequest document tree) o ∉ log := by
  intro hanswered
  cases h with
  | tries h => exact h.not_intent document tree o hanswered
  | direct h => exact h.not_intent document tree o hanswered
  | asks h s =>
    rcases List.mem_append.mp hanswered with hanswered | hanswered
    · exact h.not_intent document tree o hanswered
    · rcases List.mem_singleton.mp hanswered with hanswered
      cases hanswered
  | answered h s result =>
    rcases List.mem_append.mp hanswered with hanswered | hanswered
    · exact h.not_intent document tree o hanswered
    · simp only [List.mem_cons, List.not_mem_nil, or_false] at hanswered
      rcases hanswered with hanswered | hanswered <;> cases hanswered

/-- The intent is what the log has an answer for. -/
def Determines (context : SuggestionContext) (intent : Option Intent) (log : Log T) : Prop :=
  (∃ tree, answeredWith (intentRequest context tree) (.ok intent) ∈ log) ∨
    (intent = none ∧ ∀ tree o, answeredWith (intentRequest context tree) (.ok o) ∉ log)

/-- What comes before the suggestions are fetched, and asks for no suggestions. -/
structure Preliminary (log : Log T) : Prop where
  ranks : ranks log = [] ∨ ranks log = [0] ∨ ranks log = [0, 1]
  direct : ∀ id request response, answeredWith (.direct id request) (.ok (some response)) ∉ log

theorem Preliminary.not_asked {first : Log T} (h : Preliminary first) {s : System} {q : Request T}
    (hq : 2 ≤ q.rank) : askedFor s q ∉ first := by
  intro hasked
  have hrank : q.rank ∈ SuggestionClient.ranks first := List.mem_filterMap.mpr ⟨_, hasked, rfl⟩
  rcases h.ranks with hranks | hranks | hranks <;>
    simp only [hranks, List.mem_cons, List.not_mem_nil, or_false] at hrank <;> omega

theorem Preliminary.gaveNothing {first : Log T} (h : Preliminary first) : GaveNothing first where
  answered := fun _ _ _ hasked => absurd hasked (h.not_asked (Nat.le_refl 2))
  nothing := h.direct

/-- The course of a request whose intent has been determined, or could not be. -/
theorem Fetches.orderly {intent : Option Intent} {first : Log T}
    (h : Fetches { context with intent } log result) (hfirst : Preliminary first)
    (hkept : context.intent.isSome = true → intent = context.intent ∧ first = [])
    (hdetermined : context.intent = none → Determines context intent first) :
    Orderly context intent (first ++ log) result := by
  have hlast : result = none → ∃ s q, (first ++ log).getLast? = some (askedFor s q) := by
    intro hnone
    subst hnone
    obtain ⟨s, q, hlog⟩ := h.last
    refine ⟨s, q, ?_⟩
    rw [List.getLast?_append, hlog]
    rfl
  refine ⟨?_, ?_, ?_, ?_, ?_, ?_, hlast⟩
  · intro hgiven
    obtain ⟨hintent, rfl⟩ := hkept hgiven
    refine ⟨hintent, ?_⟩
    intro rank hrank
    have hmem := h.mem_ranks
    simp only [List.mem_cons, List.not_mem_nil, or_false] at hmem
    rw [List.nil_append] at hrank
    rcases hmem with hmem | hmem | hmem | hmem <;> rw [hmem] at hrank <;> simp at hrank <;> omega
  · intro hnone
    rcases hdetermined hnone with ⟨tree, hanswered⟩ | ⟨hintent, hanswered⟩
    · exact .inl ⟨tree, List.mem_append_left _ hanswered⟩
    · refine .inr ⟨hintent, ?_⟩
      intro tree o hmem
      rcases List.mem_append.mp hmem with hmem | hmem
      · exact hanswered tree o hmem
      · exact h.not_intent context tree (.ok o) hmem
  · have hmem := h.mem_ranks
    simp only [List.mem_cons, List.not_mem_nil, or_false] at hmem
    rw [ranks_append]
    rcases hfirst.ranks with hranks | hranks | hranks <;>
      rcases hmem with hmem | hmem | hmem | hmem <;> rw [hranks, hmem] <;> decide
  · intro s id request hasked
    rcases List.mem_append.mp hasked with hasked | hasked
    · exact absurd hasked (hfirst.not_asked (Nat.le_refl 2))
    · exact h.direct_sends hasked
  · intro s request hasked
    rcases List.mem_append.mp hasked with hasked | hasked
    · exact absurd hasked (hfirst.not_asked (Nat.le_succ 2))
    · obtain ⟨hrequest, hnothing⟩ := h.gitlab_sends hasked
      exact ⟨hrequest, hfirst.gaveNothing.append hnothing⟩
  · intro r hr
    subst hr
    left
    cases h.returns with
    | direct hanswered hrank =>
      refine .direct (List.mem_append_right _ hanswered) ?_
      rw [ranks_append, List.mem_append, not_or]
      refine ⟨?_, hrank⟩
      rcases hfirst.ranks with hranks | hranks | hranks <;> rw [hranks] <;> decide
    | gitlab hanswered hfallback =>
      exact .gitlab (List.mem_append_right _ hanswered) (hfirst.gaveNothing.append hfallback)

theorem preliminary_parse (s : System) (document : IDocContext) :
    Preliminary (T := T) [askedFor s (.parseFile document)] where
  ranks := .inr (.inl rfl)
  direct := by
    intro id request response h
    rcases List.mem_singleton.mp h with h
    cases h

theorem preliminary_parsed (s : System) (document : IDocContext)
    (parsed : Except RequestError (Option T)) :
    Preliminary [askedFor s (.parseFile document), answeredWith (.parseFile document) parsed] where
  ranks := .inr (.inl rfl)
  direct := by
    intro id request response h
    simp only [List.mem_cons, List.not_mem_nil, or_false] at h
    rcases h with h | h <;> cases h

/-- A document was parsed and its intent determined, or not. -/
theorem preliminary_intent (s t : System) (context : SuggestionContext) (tree : T)
    (intent : Except RequestError (Option Intent)) :
    Preliminary
      [askedFor s (.parseFile context.document),
        answeredWith (.parseFile context.document) (.ok (some tree)),
        askedFor t (intentRequest context tree),
        answeredWith (intentRequest context tree) intent] where
  ranks := .inr (.inr rfl)
  direct := by
    intro id request response h
    simp only [List.mem_cons, List.not_mem_nil, or_false] at h
    rcases h with h | h | h | h <;> cases h

/-- Of a request that has got no further than its intent. -/
theorem Preliminary.orderly {first : Log T} (hfirst : Preliminary first)
    (hnone : context.intent = none)
    (hdetermined : ∀ tree o, answeredWith (intentRequest context tree) (.ok o) ∉ first)
    (hreturns : ∀ r, result = some r → ∃ e, r = .error e ∧ Unresolved context first e)
    (hwaits : result = none → ∃ s q, first.getLast? = some (askedFor s q)) :
    Orderly context none first result where
  kept := by
    intro hgiven
    rw [hnone] at hgiven
    cases hgiven
  determined := fun _ => .inr ⟨rfl, hdetermined⟩
  ordered := by rcases hfirst.ranks with hranks | hranks | hranks <;> rw [hranks] <;> decide
  direct := by
    intro s id request hasked
    exact absurd hasked (hfirst.not_asked (Nat.le_refl 2))
  gitlab := by
    intro s request hasked
    exact absurd hasked (hfirst.not_asked (Nat.le_succ 2))
  returns := fun r hr => .inr (hreturns r hr)
  waits := hwaits

theorem Course.orderly (h : Course context log result) :
    ∃ intent, Orderly context intent log result := by
  cases h with
  | given hgiven hfetches =>
    have hempty : Preliminary ([] : Log T) := by
      refine ⟨.inl rfl, ?_⟩
      intro id request response hanswered
      cases hanswered
    refine ⟨context.intent, hfetches.orderly hempty (fun _ => ⟨rfl, rfl⟩) ?_⟩
    intro hnone
    rw [hnone] at hgiven
    cases hgiven
  | parses hnone s =>
    refine ⟨none, (preliminary_parse s context.document).orderly hnone ?_ ?_ ?_⟩
    · intro tree o hanswered
      rcases List.mem_singleton.mp hanswered with hanswered
      cases hanswered
    · intro r hr
      cases hr
    · intro _
      exact ⟨s, _, rfl⟩
  | @unparsed log result hnone s parsed hparsed hfetches =>
    refine ⟨none, ?_⟩
    have hsame : { context with intent := none } = context := by rw [← hnone]
    rw [← hsame] at hfetches
    apply hfetches.orderly (preliminary_parsed s context.document parsed)
    · intro hgiven
      rw [hnone] at hgiven
      cases hgiven
    · intro _
      refine .inr ⟨rfl, ?_⟩
      intro tree o hanswered
      simp only [List.mem_cons, List.not_mem_nil, or_false] at hanswered
      rcases hanswered with hanswered | hanswered <;> cases hanswered
  | resolves hnone s t tree =>
    have hfirst : Preliminary
        [askedFor s (.parseFile context.document),
          answeredWith (.parseFile context.document) (.ok (some tree)),
          askedFor t (intentRequest context tree)] := by
      refine ⟨.inr (.inr rfl), ?_⟩
      intro id request response h
      simp only [List.mem_cons, List.not_mem_nil, or_false] at h
      rcases h with h | h | h <;> cases h
    refine ⟨none, hfirst.orderly hnone ?_ ?_ ?_⟩
    · intro tree o hanswered
      simp only [List.mem_cons, List.not_mem_nil, or_false] at hanswered
      rcases hanswered with hanswered | hanswered | hanswered <;> cases hanswered
    · intro r hr
      cases hr
    · intro _
      exact ⟨t, _, rfl⟩
  | unresolved hnone s t tree e =>
    refine ⟨none, (preliminary_intent s t context tree (.error e)).orderly hnone ?_ ?_ ?_⟩
    · intro tree o hanswered
      simp only [List.mem_cons, List.not_mem_nil, or_false] at hanswered
      rcases hanswered with hanswered | hanswered | hanswered | hanswered <;> cases hanswered
    · intro r hr
      cases hr
      refine ⟨e, rfl, ⟨tree, by simp⟩, ?_⟩
      intro rank hrank
      have hrank : rank ∈ [0, 1] := hrank
      simp only [List.mem_cons, List.not_mem_nil, or_false] at hrank
      omega
    · intro hr
      cases hr
  | @resolved log result hnone s t tree intent hfetches =>
    refine ⟨intent, ?_⟩
    apply hfetches.orderly (preliminary_intent s t context tree (.ok intent))
    · intro hgiven
      rw [hnone] at hgiven
      cases hgiven
    · intro _
      exact .inl ⟨tree, by simp⟩

/-- **Suggestion requests in any interleaving.** Each asks for its intent before anything else, and
for suggestions in the document with this intent: over the direct connection if it is usable then,
and from the GitLab instance if nothing came of that. It returns what the last of them answered. -/
theorem orderly_of_run {s : System} {as : List (Async.Action (clientSignature T) SuggestionContext
      Action)}
    {t : Async.System (clientSignature T) SuggestionContext (Option SuggestionResponse)}
    (h : Transition.run
      (Async.System.step suggestionClientPipeline.getSuggestions clientEvent) ⟨s, []⟩ as =
        some t) :
    ∀ task ∈ t.tasks, ∃ intent, Orderly task.input intent task.log task.program.result := by
  have hprogram : ∀ context s, anyState s →
      (suggestionClientPipeline.getSuggestions (T := T) context).Meets anyState s
        (Course context) := fun context s _ => meets_pipeline context s
  obtain ⟨-, htasks⟩ :=
    Async.System.meets_of_run hprogram (fun _ _ _ _ _ => trivial) trivial h
  intro task htask
  exact (htasks task htask).orderly

/-- No request for a generation goes over the direct connection. -/
theorem Orderly.generation {intent : Option Intent} (h : Orderly context intent log result)
    {s : System} {id : Nat} {request : DirectRequest}
    (hasked : askedFor s (.direct id request) ∈ log) : intent ≠ some .generation := by
  intro hintent
  subst hintent
  have hsends := h.direct s id request hasked
  rw [DirectConnectionClient.getSuggestions, if_pos rfl] at hsends
  cases hsends

end

/-- A client that has its connection details. -/
def connected : System :=
  { System.new 0 with
    client := { DirectConnectionClient.new 0 with connectionDetails := some (sampleDetails "a") } }

/-- Every promise rejects. -/
def rejects : (q : Request Unit) → q.Answer Unit
  | .parseFile _ | .getIntent _ _ _ _ | .direct _ _ | .getCodeSuggestions _ => .error .other

/-- A direct request fails, so that the instance is asked, and fails too. Another request is made
while the first one waits. -/
theorem orderly_of_failure : ∃ t,
    Transition.run
      (Async.System.step (suggestionClientPipeline (T := Unit)).getSuggestions clientEvent)
      ⟨connected, []⟩
      [.start sampleContext, .start { sampleContext with intent := none }, .answer 0 rejects,
        .answer 0 rejects] = some t ∧
    t.tasks.map (fun task => ranks task.log) = [[2, 3], [0]] ∧
    ∀ task ∈ t.tasks, ∃ intent, Orderly task.input intent task.log task.program.result := by
  obtain ⟨t, ht, hranks⟩ : ∃ t, Transition.run
      (Async.System.step (suggestionClientPipeline (T := Unit)).getSuggestions clientEvent)
      ⟨connected, []⟩
      [.start sampleContext, .start { sampleContext with intent := none }, .answer 0 rejects,
        .answer 0 rejects] = some t ∧
      t.tasks.map (fun task => ranks task.log) = [[2, 3], [0]] := ⟨_, rfl, rfl⟩
  exact ⟨t, ht, hranks, orderly_of_run ht⟩

end KhulnasoftLsp.SuggestionClient
