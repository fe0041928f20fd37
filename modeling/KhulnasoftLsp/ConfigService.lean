import KhulnasoftLsp.EventEmitter
import KhulnasoftLsp.Transition
import KhulnasoftLsp.WorkspaceFolders
import Mathlib.Data.Rat.Init

/-!
# The configuration

`DefaultConfigService` keeps the settings of the client and some state of the server in one tree.
The client sends its settings as it likes, and whole subtrees of them: they are merged into the tree
unless `codeCompletion` has a wrong type. Other parts of the server set single values. How the tree
is read and changed is the business of packages (`ConfigPackages`), of which nothing is assumed.

After each change the listeners are called, up to the first that throws. What it throws goes through
`set` and `merge` and ends the request that has called them. `knows_of_run` says who knows the
present configuration.
-/

namespace KhulnasoftLsp

open Transition

/-- Plain JavaScript values. -/
inductive Json where
  | undefined
  | null
  | bool (value : Bool)
  | number (value : Rat)
  | string (value : String)
  | array (items : List Json)
  | object (fields : List (String × Json))

namespace Json

/-- `value[name]`; what is no object has no fields. -/
def getField (value : Json) (name : String) : Json :=
  match value with
  | .object fields => (fields.lookup name).getD .undefined
  | _ => .undefined

/-- A value that is `false` in a condition. -/
def isFalsy : Json → Bool
  | .undefined | .null | .bool false => true
  | .number value => value == 0
  | .string value => value == ""
  | _ => false

/-- `value ?? other` -/
def orElse (value other : Json) : Json :=
  match value with
  | .undefined | .null => other
  | value => value

/-- An absent value is `undefined`. -/
def ofOption (value : Option Json) : Json := value.getD .undefined

end Json

/-- What packages do: `get` and `set` of lodash with a path, its `mergeWith` in which arrays are
replaced, and `CodeSuggestionsConfig.safeParse` of zod, which has an error or has none. -/
structure ConfigPackages where
  get : Json → String → Json
  set : Json → String → Json → Json
  mergeWith : Json → Json → Json
  safeParse : Json → Bool

inductive ConfigEventName where
  | configChange
  deriving DecidableEq, Repr

/-- Something that is written into the configuration. -/
inductive ConfigWrite where
  | set (key : String) (value : Json)
  | merge (newConfig : Json)

/-- A listener has been called with the configuration of that moment, and may have thrown. -/
structure ListenerCall (ℓ : Type*) where
  listener : ℓ
  config : Json
  threw : Bool

/-- Listeners are of any type `ℓ`. -/
structure DefaultConfigService (ℓ : Type*) where
  config : Json
  eventEmitter : EventEmitter ConfigEventName ℓ
  /-- The calls of the listeners so far. -/
  calls : List (ListenerCall ℓ)

/-! ## Who writes -/

/-- `initializationOptions` -/
structure ClientContext where
  baseAssetsUrl : Json
  ide : Json
  extension : Json
  featureFlagOverrides : List (String × Json)

structure CustomInitializeParams where
  clientInfo : Json
  workspaceFolders : Json
  initializationOptions : ClientContext

/-- `ISnowplowTrackerOptions`, as `transformHeadersToSnowplowOptions` reads it from the headers. -/
structure SnowplowTrackerOptions where
  instanceId : Option String
  globalUserId : Option String
  hostName : Option String
  saasDuoProNamespaceIds : Option (List Int)
  deriving DecidableEq, Repr

inductive ConfigEvent (ℓ : Type*) where
  | initialized (params : CustomInitializeParams)
  | didChangeConfiguration (settings : Json)
  | didChangeWorkspaceFolders (event : WorkspaceFoldersChangeEvent)
  /-- `configureApi` has found the token invalid. -/
  | tokenInvalid
  /-- The details of a direct connection have arrived, or their request has failed. -/
  | directConnection (options : SnowplowTrackerOptions)
  | onConfigChange (listener : ℓ)
  | dispose (listener : ℓ)

namespace ConfigEvent

variable {ℓ : Type*} (packages : ConfigPackages)

/-- The calls of `set` in `requestHandler` of the `DefaultInitializeHandler`. -/
def initializeWrites (params : CustomInitializeParams) : List ConfigWrite :=
  let options := params.initializationOptions
  [.set "client.clientInfo" params.clientInfo,
    .set "client.workspaceFolders" params.workspaceFolders,
    .set "client.baseAssetsUrl" options.baseAssetsUrl,
    .set "client.telemetry.ide" (options.ide.orElse params.clientInfo),
    .set "client.telemetry.extension" options.extension] ++
  options.featureFlagOverrides.map fun entry =>
    .set ("client.featureFlagOverrides." ++ entry.1) entry.2

/-- `#validateConfig` has no error. It throws where there are no settings. -/
def validates : Json → Bool
  | .undefined | .null => false
  | settings =>
    let codeCompletion := settings.getField "codeCompletion"
    codeCompletion.isFalsy || packages.safeParse codeCompletion

/-- `f.name` for each folder; none of it is there for `null`, and for what is no list. -/
def folderNames : Json → Option (List (Json × Json))
  | .array items => items.mapM fun f =>
    match f with
    | .undefined | .null => none
    | f => some (f, f.getField "name")
  | value => if value.isFalsy then some [] else none

def ofFolder (folder : WorkspaceFolder) : Json :=
  .object [("uri", .string folder.uri), ("name", .string folder.name)]

/-- The call of `set` in `notificationHandler` of the `DefaultDidChangeWorkspaceFoldersHandler`, if
it gets there. -/
def workspaceFoldersWrites (event : WorkspaceFoldersChangeEvent) (config : Json) :
    List ConfigWrite :=
  match folderNames (packages.get config "client.workspaceFolders") with
  | none => []
  | some folders =>
    let afterRemoved := folders.filter fun f =>
      match f.2 with
      | .string name => !event.removedKeys.contains name
      | _ => true
    [.set "client.workspaceFolders"
      (.array (afterRemoved.map Prod.fst ++ event.addedFolders.map ofFolder))]

def snowplowTrackerOptions (options : SnowplowTrackerOptions) : Json :=
  .object [("gitlab_instance_id", .ofOption (options.instanceId.map .string)),
    ("gitlab_global_user_id", .ofOption (options.globalUserId.map .string)),
    ("gitlab_host_name", .ofOption (options.hostName.map .string)),
    ("gitlab_saas_duo_pro_namespace_ids",
      .ofOption (options.saasDuoProNamespaceIds.map fun ids =>
        .array (ids.map fun id : Int => .number id)))]

/-- What is written, one after the other, if no listener throws. -/
def writes (config : Json) : ConfigEvent ℓ → List ConfigWrite
  | .initialized params => initializeWrites params
  | .didChangeConfiguration settings =>
    if validates packages settings then [.merge (.object [("client", settings)])] else []
  | .didChangeWorkspaceFolders event => workspaceFoldersWrites packages event config
  | .tokenInvalid => [.set "client.token" .undefined]
  | .directConnection options =>
    [.merge (.object [("client",
      .object [("snowplowTrackerOptions", snowplowTrackerOptions options)])])]
  | .onConfigChange _ | .dispose _ => []

end ConfigEvent

/-! ## The service -/

namespace DefaultConfigService

variable {ℓ : Type*} (packages : ConfigPackages)
  -- whether a listener throws, after all the calls that were made before
  (throws : List (ListenerCall ℓ) → ℓ → Json → Bool)

/-- The configuration of the constructor. -/
def initialConfig : Json :=
  .object [("client", .object [
    ("baseUrl", .string "https://gitlab.com"),
    ("codeCompletion", .object [("enableSecretRedaction", .bool true)]),
    ("telemetry", .object [("enabled", .bool true)]),
    ("logLevel", .string "info"),
    ("ignoreCertificateErrors", .bool false),
    ("httpAgentOptions", .object []),
    ("duo", .object [("enabledWithoutGitlabProject", .bool true)]),
    ("featureFlagOverrides", .object [])])]

def new : DefaultConfigService ℓ := ⟨initialConfig, EventEmitter.new, []⟩

/-- `emit`: the listeners are called in their order, until one throws. -/
def emit (config : Json) : List ℓ → List (ListenerCall ℓ) → List (ListenerCall ℓ)
  | [], calls => calls
  | listener :: rest, calls =>
    let threw := throws calls listener config
    let calls := calls ++ [⟨listener, config, threw⟩]
    if threw then calls else emit config rest calls

/-- `#triggerChange` -/
def triggerChange (s : DefaultConfigService ℓ) : DefaultConfigService ℓ :=
  { s with calls := emit throws s.config (s.eventEmitter.listeners .configChange) s.calls }

/-- `set` and `merge` -/
def write (s : DefaultConfigService ℓ) : ConfigWrite → DefaultConfigService ℓ
  | .set key value => triggerChange throws { s with config := packages.set s.config key value }
  | .merge newConfig =>
    triggerChange throws { s with config := packages.mergeWith s.config newConfig }

/-- A listener has been called since, and the last that was called has thrown. -/
def threwSince (s t : DefaultConfigService ℓ) : Bool :=
  (t.calls.drop s.calls.length).getLast?.any (·.threw)

/-- What a request writes, until a listener throws. -/
def writeAll (s : DefaultConfigService ℓ) : List ConfigWrite → DefaultConfigService ℓ
  | [] => s
  | w :: ws =>
    let t := s.write packages throws w
    if s.threwSince t then t else writeAll t ws

def onConfigChange (listener : ℓ) (s : DefaultConfigService ℓ) : DefaultConfigService ℓ :=
  { s with eventEmitter := s.eventEmitter.on .configChange listener }

def dispose [DecidableEq ℓ] (listener : ℓ) (s : DefaultConfigService ℓ) : DefaultConfigService ℓ :=
  { s with eventEmitter := s.eventEmitter.removeListener .configChange listener }

def step [DecidableEq ℓ] (s : DefaultConfigService ℓ) (event : ConfigEvent ℓ) :
    Option (DefaultConfigService ℓ) :=
  let s := s.writeAll packages throws (event.writes packages s.config)
  match event with
  | .onConfigChange listener => some (s.onConfigChange listener)
  | .dispose listener => some (s.dispose listener)
  | _ => some s

/-! ## What the listeners know -/

section Listeners

variable [DecidableEq ℓ] {s t : DefaultConfigService ℓ} {listener : ℓ}
  {event : ConfigEvent ℓ}

/-- The configuration that a listener was last called with. -/
def lastTold (listener : ℓ) (calls : List (ListenerCall ℓ)) : Option Json :=
  (calls.reverse.find? fun call => call.listener = listener).map (·.config)

def Subscribed (listener : ℓ) (s : DefaultConfigService ℓ) : Prop :=
  listener ∈ s.eventEmitter.listeners .configChange

/-- The listener was last called with this configuration, or the last call of all was one with it
of another listener, which has thrown. -/
def Knows (listener : ℓ) (config : Json) (calls : List (ListenerCall ℓ)) : Prop :=
  lastTold listener calls = some config ∨
    ∃ thrower, thrower ≠ listener ∧ calls.getLast? = some ⟨thrower, config, true⟩

theorem lastTold_concat (listener : ℓ) (calls : List (ListenerCall ℓ)) (call : ListenerCall ℓ) :
    lastTold listener (calls ++ [call]) =
      if call.listener = listener then some call.config else lastTold listener calls := by
  rw [lastTold, List.reverse_append, List.reverse_singleton, List.singleton_append,
    List.find?_cons]
  by_cases h : call.listener = listener
  · simp [h]
  · simp [h, lastTold]

/-- A listener that is told stays so, as all are told the same. -/
theorem lastTold_emit {config : Json} {calls : List (ListenerCall ℓ)}
    (h : lastTold listener calls = some config) (listeners : List ℓ) :
    lastTold listener (emit throws config listeners calls) = some config := by
  induction listeners generalizing calls with
  | nil => exact h
  | cons l rest ih =>
      have htold : lastTold listener (calls ++ [⟨l, config, throws calls l config⟩]) =
          some config := by
        rw [lastTold_concat, h, ite_self]
      rw [emit]
      split
      · exact htold
      · exact ih htold

theorem knows_emit (config : Json) {listeners : List ℓ} (h : listener ∈ listeners)
    (calls : List (ListenerCall ℓ)) :
    Knows listener config (emit throws config listeners calls) := by
  induction listeners generalizing calls with
  | nil => cases h
  | cons l rest ih =>
      have htold : l = listener → lastTold listener
          (calls ++ [⟨l, config, throws calls l config⟩]) = some config := by
        intro hl
        rw [lastTold_concat, if_pos hl]
      rw [emit]
      split
      · next hthrew =>
        by_cases hl : l = listener
        · exact .inl (htold hl)
        · exact .inr ⟨l, hl, by rw [List.getLast?_concat, hthrew]⟩
      · rcases List.mem_cons.mp h with rfl | hrest
        · exact .inl (lastTold_emit throws (htold rfl) rest)
        · exact ih hrest _

omit [DecidableEq ℓ] in
theorem eventEmitter_write (s : DefaultConfigService ℓ) (w : ConfigWrite) :
    (s.write packages throws w).eventEmitter = s.eventEmitter := by
  cases w <;> rfl

/-- After a write, whoever is subscribed. -/
theorem knows_write (h : Subscribed listener s) (w : ConfigWrite) :
    Knows listener (s.write packages throws w).config (s.write packages throws w).calls := by
  cases w with
  | set key value => exact knows_emit throws _ h s.calls
  | merge newConfig => exact knows_emit throws _ h s.calls

/-- And after all that a request writes, or as much of it as it comes to. -/
theorem knows_writeAll (h : Subscribed listener s) {ws : List ConfigWrite} (hws : ws ≠ []) :
    Knows listener (s.writeAll packages throws ws).config
      (s.writeAll packages throws ws).calls := by
  induction ws generalizing s with
  | nil => exact absurd rfl hws
  | cons w ws ih =>
      have hwrite := knows_write packages throws h w
      rw [writeAll]
      split
      · exact hwrite
      · cases ws with
        | nil => exact hwrite
        | cons w' ws =>
            apply ih _ (List.cons_ne_nil w' ws)
            rw [Subscribed, eventEmitter_write packages throws s w]
            exact h

theorem exists_step (s : DefaultConfigService ℓ) (event : ConfigEvent ℓ) :
    ∃ t, step packages throws s event = some t := by
  cases event <;> exact ⟨_, rfl⟩

/-- An event writes, and changes nothing else but who is subscribed. -/
theorem step_eq (h : step packages throws s event = some t) :
    t.config = (s.writeAll packages throws (event.writes packages s.config)).config ∧
      t.calls = (s.writeAll packages throws (event.writes packages s.config)).calls := by
  cases event <;> (cases h; exact ⟨rfl, rfl⟩)

/-- An event that writes tells whoever is subscribed, up to one that throws. -/
theorem knows_step (h : Subscribed listener s) (hwrites : event.writes packages s.config ≠ [])
    (hstep : step packages throws s event = some t) : Knows listener t.config t.calls := by
  obtain ⟨hconfig, hcalls⟩ := step_eq packages throws hstep
  rw [hconfig, hcalls]
  exact knows_writeAll packages throws h hwrites

theorem knows_step_of_knows (h : Subscribed listener s) (hknows : Knows listener s.config s.calls)
    (hstep : step packages throws s event = some t) : Knows listener t.config t.calls := by
  by_cases hwrites : event.writes packages s.config = []
  · obtain ⟨hconfig, hcalls⟩ := step_eq packages throws hstep
    rw [hwrites] at hconfig hcalls
    rw [hconfig, hcalls]
    exact hknows
  · exact knows_step packages throws h hwrites hstep

theorem exists_run_from (s : DefaultConfigService ℓ) (events : List (ConfigEvent ℓ)) :
    ∃ t, run (step packages throws) s events = some t := by
  obtain ⟨t, ht, -⟩ := exists_run (I := fun _ (_ : DefaultConfigService ℓ) => True) (s := s) trivial
    (fun _ s event _ => (exists_step packages throws s event).imp fun _ h => ⟨h, trivial⟩) events
  exact ⟨t, ht⟩

/-- **Nobody misses a change, unless a listener throws.** From the first event on that writes while
a listener is subscribed, and for as long as it stays so, the configuration that it was last called
with is the present one, but where the last listener that was called has thrown. -/
theorem knows_of_run (packages : ConfigPackages)
    (throws : List (ListenerCall ℓ) → ℓ → Json → Bool) (before after : List (ConfigEvent ℓ))
    (event : ConfigEvent ℓ) :
    ∃ s m t : DefaultConfigService ℓ, run (step packages throws) new before = some s ∧
      step packages throws s event = some m ∧ run (step packages throws) m after = some t ∧
      ∀ listener, event.writes packages s.config ≠ [] →
        Always (step packages throws) (Subscribed listener) s (event :: after) →
        Knows listener t.config t.calls := by
  obtain ⟨s, hs⟩ := exists_run_from packages throws new before
  obtain ⟨m, hm⟩ := exists_step packages throws s event
  obtain ⟨t, ht⟩ := exists_run_from packages throws m after
  refine ⟨s, m, t, hs, hm, ht, ?_⟩
  intro listener hwrites hsubscribed
  rw [always_cons hm] at hsubscribed
  have hguarded : Guarded (step packages throws) (fun s _ => Subscribed listener s) m after :=
    hsubscribed.2.guarded fun _ _ hs _ => hs
  refine guarded_invariant (I := fun s => Knows listener s.config s.calls) ?_
    (knows_step packages throws hsubscribed.1 hwrites hm) hguarded ht
  intro s event t h hok hstep
  exact knows_step_of_knows packages throws hok h hstep

end Listeners

end DefaultConfigService

end KhulnasoftLsp
