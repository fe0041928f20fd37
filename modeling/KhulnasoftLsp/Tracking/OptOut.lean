import KhulnasoftLsp.JsString
import KhulnasoftLsp.Tracking.Lifetimes
import KhulnasoftLsp.Tracking.SnowplowService

/-!
# Opting out of telemetry

Telemetry is disabled in the configuration. The trackers of code suggestions follow it and send
nothing meanwhile; the tracker of the quick chat follows it too, but never asks. Its events are
queued by the Snowplow service, which asks only when it drains a queue. `optedOut_iff` says exactly
when that is too late.
-/

namespace KhulnasoftLsp.Tracking

open Transition

/-! ## The trackers -/

structure StructuredEvent where
  category : String
  action : String
  label : String
  deriving DecidableEq, Repr

def CODE_SUGGESTIONS_CATEGORY : String := "code_suggestions"

def QUICK_CHAT_CATEGORY : String := "gitlab_quick_chat"

/-- `QUICK_CHAT_EVENT` -/
inductive QuickChatEvent where
  | messageSent
  | chatOpen
  deriving DecidableEq, Repr

def QuickChatEvent.name : QuickChatEvent → String
  | messageSent => "message_sent"
  | chatOpen => "open_quick_chat"

/-- `QUICK_CHAT_OPEN_TRIGGER` -/
inductive QuickChatOpenTrigger where
  | btnClick
  | shortcut
  deriving DecidableEq, Repr

def QuickChatOpenTrigger.name : QuickChatOpenTrigger → String
  | btnClick => "click_button"
  | shortcut => "shortcut"

structure QuickChatContext where
  trigger : QuickChatOpenTrigger
  message : JsString

def getMessageSentEventLabel (message : JsString) : Option String :=
  let command := message.takeWhile (· != 0x0020)
  let is (text : String) : Bool := JsString.ofString text == command
  match ["/explain", "/refactor", "/fix", "/tests"].find? is with
  | some text => some text
  | none => if ["/reset", "/clear", "/clean"].any is then none else some "general_message"

/-- The action and the label of an event. -/
def getEventContext (event : QuickChatEvent) (context : QuickChatContext) :
    String × Option String :=
  match event with
  | .messageSent => (event.name, getMessageSentEventLabel context.message)
  | .chatOpen => (event.name, some context.trigger.name)

/-- `trackEvent` of the quick chat. The standard context and the one of the extension are valid, or
they are not. -/
def quickChatEvent (event : QuickChatEvent) (context : QuickChatContext) (valid : Bool) :
    Option StructuredEvent :=
  match getEventContext event context with
  | (action, some label) => if valid then some ⟨QUICK_CHAT_CATEGORY, action, label⟩ else none
  | (_, none) => none

def TrackerEntry.sent : TrackerEntry → Option (TrackingEvent × String)
  | .recorded event id true => some (event, id)
  | _ => none

/-- What a tracker has sent since it was `t`, in order. -/
def LiveTracker.sentSince (t u : LiveTracker) : List (TrackingEvent × String) :=
  (u.log.take (u.log.length - t.log.length)).reverse.filterMap TrackerEntry.sent

/-- `#trackCodeSuggestionsEvent`, for several events. Of each of them, the contexts are valid, or
they are not. -/
def codeSuggestionsEvents (sent : List (TrackingEvent × String)) (valid : List Bool) :
    List StructuredEvent :=
  (sent.zip valid).filterMap fun (event, valid) =>
    if valid then some ⟨CODE_SUGGESTIONS_CATEGORY, event.1.name, event.2⟩ else none

/-! ## The server -/

/-- An event, and whether telemetry was enabled when it was tracked. -/
structure TrackedEvent where
  event : StructuredEvent
  enabled : Bool

/-- A request of the instance tracker to the API. -/
structure UsageData where
  event : String
  uniqueTrackingId : String
  /-- Telemetry was enabled. -/
  enabled : Bool

structure Telemetry where
  /-- `client.telemetry.enabled` -/
  config : Option Bool
  snowplowTracker : LiveTracker
  instanceTracker : LiveTracker
  service : SnowplowService TrackedEvent
  usageData : List UsageData

inductive TelemetryAction where
  | configChange (enabled : Option Bool) (actions : Option (List TrackingEvent))
      (trackingUrl : Option String)
  /-- A tracker of code suggestions is called, or one of its timers fires. -/
  | codeSuggestions (kind : TrackerKind) (action : TrackerAction) (valid : List Bool)
  | quickChat (event : QuickChatEvent) (context : QuickChatContext) (valid : Bool)
  | service (action : ServiceAction)

namespace Telemetry

def init (now : Nat) : Telemetry where
  config := some true
  snowplowTracker := LiveTracker.init now
  instanceTracker := LiveTracker.init now
  service := SnowplowService.new
  usageData := []

/-- `enabled()` of the service -/
def enabled (s : Telemetry) : Bool := s.config.getD true

def track (events : List StructuredEvent) (s : Telemetry) : Telemetry :=
  { s with service := s.service.trackAll s.enabled (events.map fun event => ⟨event, s.enabled⟩) }

/-- All that listen to the configuration are told. -/
def configChange (enabled : Option Bool) (actions : Option (List TrackingEvent))
    (trackingUrl : Option String) (s : Telemetry) : Telemetry :=
  let s := { s with
    config := enabled
    snowplowTracker := s.snowplowTracker.reconfigure enabled actions
    instanceTracker := s.instanceTracker.reconfigure enabled actions }
  match trackingUrl with
  | some url => if url ≠ "" then { s with service := s.service.reconfigure s.enabled url } else s
  | none => s

/-- The trackers of code suggestions only hear of the configuration when it changes. -/
def IsCall : TrackerAction → Bool
  | .reconfigure _ _ => false
  | _ => true

def step (s : Telemetry) : TelemetryAction → Option Telemetry
  | .configChange enabled actions trackingUrl => some (s.configChange enabled actions trackingUrl)
  | .codeSuggestions .snowplowTracker action valid =>
    if IsCall action then
      (s.snowplowTracker.step .snowplowTracker action).map fun t =>
        ({ s with snowplowTracker := t } : Telemetry).track
          (codeSuggestionsEvents (s.snowplowTracker.sentSince t) valid)
    else none
  | .codeSuggestions .instanceTracker action _ =>
    if IsCall action then
      (s.instanceTracker.step .instanceTracker action).map fun t =>
        { s with
          instanceTracker := t
          usageData := s.usageData ++ (s.instanceTracker.sentSince t).filterMap fun sent =>
            (instanceTrackingEventsMap sent.1).map fun event => ⟨event, sent.2, s.enabled⟩ }
    else none
  | .quickChat event context valid => some (s.track (quickChatEvent event context valid).toList)
  | .service action => (s.service.step s.enabled action).map fun service => { s with service }

/-- Nothing was posted while telemetry was disabled, and nothing that was tracked then. -/
def OptedOut (s : Telemetry) : Prop :=
  s.service.OnlyPosts (fun event => event.enabled = true) ∧
    ∀ data ∈ s.usageData, data.enabled = true

/-! ## When an opt-out is kept -/

/-- What a tracker of code suggestions is about to send to the service. -/
def sends (s : Telemetry) (action : TrackerAction) (valid : List Bool) : List StructuredEvent :=
  match s.snowplowTracker.step .snowplowTracker action with
  | some t => codeSuggestionsEvents (s.snowplowTracker.sentSince t) valid
  | none => []

/-- The action drains the queue of an emitter. -/
def Drains (s : Telemetry) (emitter : Nat) : TelemetryAction → Prop
  | .configChange _ _ trackingUrl =>
    emitter = s.service.emitter ∧ ∃ url, trackingUrl = some url ∧ url ≠ "" ∧
      url ≠ s.service.endpoint
  | .codeSuggestions .snowplowTracker action valid =>
    emitter = s.service.emitter ∧ s.service.Fills (s.sends action valid).length
  | .codeSuggestions .instanceTracker _ _ => False
  | .quickChat event context valid =>
    emitter = s.service.emitter ∧ s.service.Fills (quickChatEvent event context valid).toList.length
  | .service action => s.service.drains action = some emitter

/-- Telemetry is enabled by the time of the action. -/
def enabledAt (s : Telemetry) : TelemetryAction → Bool
  | .configChange enabled _ _ => enabled.getD true
  | _ => s.enabled

/-- A queue that is drained to be posted holds no event of the quick chat that was tracked while
telemetry was disabled. -/
def KeepsOptOut (s : Telemetry) (a : TelemetryAction) : Prop :=
  ∀ emitter, s.Drains emitter a → s.service.Sends (s.enabledAt a) →
    ∀ event ∈ s.service.queue emitter,
      event.event.category = QUICK_CHAT_CATEGORY → event.enabled = true

end Telemetry

/-! ## What the trackers send -/

namespace LiveTracker

/-- A tracker that was `t` has gone on as `u`, and sent something only if it was enabled. -/
structure GoesOn (t u : LiveTracker) : Prop where
  enabled : u.enabled = t.enabled
  log : ∃ new, u.log = new ++ t.log ∧ ∀ entry ∈ new, entry.sent.isSome → t.enabled = true

variable {t u v : LiveTracker}

theorem GoesOn.of_same (henabled : u.enabled = t.enabled) (hlog : u.log = t.log) :
    GoesOn t u where
  enabled := henabled
  log := ⟨[], hlog, fun _ h => by cases h⟩

theorem GoesOn.of_entry {entry : TrackerEntry} (henabled : u.enabled = t.enabled)
    (hlog : u.log = entry :: t.log) (hsent : entry.sent.isSome → t.enabled = true) :
    GoesOn t u where
  enabled := henabled
  log := by
    refine ⟨[entry], hlog, ?_⟩
    intro entry' hentry
    rw [List.mem_singleton.mp hentry]
    exact hsent

theorem GoesOn.trans (h : GoesOn t u) (h' : GoesOn u v) : GoesOn t v where
  enabled := h'.enabled.trans h.enabled
  log := by
    obtain ⟨new, hlog, hsent⟩ := h.log
    obtain ⟨newer, hlog', hsent'⟩ := h'.log
    refine ⟨newer ++ new, by rw [hlog', hlog, List.append_assoc], ?_⟩
    intro entry hentry hsome
    rcases List.mem_append.mp hentry with hnewer | hnew
    · rw [← h.enabled]
      exact hsent' entry hnewer hsome
    · exact hsent entry hnew hsome

theorem goesOn_trackEvent (t : LiveTracker) (kind : TrackerKind) (event : TrackingEvent)
    (id : String) : GoesOn t (t.trackEvent kind event id) := by
  cases kind with
  | snowplowTracker =>
    rw [trackEvent]
    split
    · refine GoesOn.of_entry rfl rfl ?_
      intro hsent
      cases henabled : t.enabled with
      | true => rfl
      | false =>
        rw [henabled] at hsent
        cases hsent
    · exact .of_same rfl rfl
  | instanceTracker =>
    rw [trackEvent]
    split
    · exact .of_same rfl rfl
    · next henabled =>
      split
      · exact .of_same rfl rfl
      · split
        · refine GoesOn.of_entry rfl rfl ?_
          intro _
          simpa using henabled
        · exact .of_same rfl rfl

theorem goesOn_rejectOpenedSuggestions (t : LiveTracker) (kind : TrackerKind) :
    GoesOn t (t.rejectOpenedSuggestions kind) := by
  apply rejectOpenedSuggestions_induction (P := GoesOn t) (.of_same rfl rfl)
  intro u id hu
  exact hu.trans (goesOn_trackEvent u kind .rejected id)

theorem goesOn_remember (t : LiveTracker) (id : String) (isStreaming : Bool) :
    GoesOn t (t.remember id isStreaming) := by
  refine GoesOn.of_entry rfl rfl ?_
  intro hsent
  cases hsent

theorem goesOn_setTrackingContext (t : LiveTracker) (kind : TrackerKind) (id : String)
    (isStreaming : Option Bool) : GoesOn t (t.setTrackingContext kind id isStreaming) := by
  rw [setTrackingContext]
  split
  · unfold updateCodeSuggestionsContext
    split
    · split
      · exact .of_same rfl rfl
      · exact .of_same rfl rfl
    · exact .of_same rfl rfl
  · rcases t.setCodeSuggestionsContext_cases kind id isStreaming with heq | ⟨u, hrejected, hset⟩
    · rw [heq]
      exact .of_same rfl rfl
    have hu : GoesOn t u := by
      rcases hrejected with rfl | rfl
      · exact .of_same rfl rfl
      · exact goesOn_rejectOpenedSuggestions t kind
    have hremembered := hu.trans (goesOn_remember u id (isStreaming.getD false))
    rcases hset with heq | heq
    · rw [heq]
      exact hremembered
    · rw [heq]
      exact hremembered.trans (goesOn_trackEvent _ kind .requested id)

theorem goesOn_collect (t : LiveTracker) (id : String) : GoesOn t (t.collect id) := by
  rw [collect]
  split
  · refine GoesOn.of_entry rfl rfl ?_
    intro hsent
    cases hsent
  · exact .of_same rfl rfl

theorem goesOn_step {kind : TrackerKind} {a : TrackerAction} (hcall : Telemetry.IsCall a = true)
    (h : t.step kind a = some u) : GoesOn t u := by
  cases a with
  | setTrackingContext id isStreaming =>
    cases h
    exact goesOn_setTrackingContext t kind id isStreaming
  | trackEvent event id =>
    obtain ⟨-, heq⟩ := Option.ite_none_left_eq_some.mp h
    cases heq
    exact goesOn_trackEvent t kind event id
  | reconfigure enabled actions => cases hcall
  | circuitBreaker isOpen =>
    cases h
    exact .of_same rfl rfl
  | wait now =>
    obtain ⟨timers, -, rfl⟩ := Option.map_eq_some_iff.mp h
    exact .of_same rfl rfl
  | fire timer =>
    obtain ⟨timers, -, rfl⟩ := Option.map_eq_some_iff.mp h
    have hwait : GoesOn t { t with timers } := .of_same rfl rfl
    exact hwait.trans (goesOn_collect _ _)

theorem GoesOn.enabled_of_sent (h : GoesOn t u) {sent : TrackingEvent × String}
    (hsent : sent ∈ t.sentSince u) : t.enabled = true := by
  obtain ⟨new, hlog, hnew⟩ := h.log
  rw [sentSince, hlog, List.length_append, Nat.add_sub_cancel, List.take_left] at hsent
  obtain ⟨entry, hentry, hsome⟩ := List.mem_filterMap.mp hsent
  apply hnew entry (List.mem_reverse.mp hentry)
  rw [hsome]
  rfl

end LiveTracker

/-! ## What the service is given -/

namespace Telemetry

variable {s t : Telemetry} {a : TelemetryAction}

/-- Both trackers of code suggestions are disabled when telemetry is, and all that is queued while
telemetry is disabled comes from the quick chat. -/
structure Follows (s : Telemetry) : Prop where
  snowplowTracker : s.snowplowTracker.enabled = true → s.enabled = true
  instanceTracker : s.instanceTracker.enabled = true → s.enabled = true
  queued : s.service.OnlyQueues fun event =>
    event.event.category ≠ QUICK_CHAT_CATEGORY → event.enabled = true

theorem sent_of_codeSuggestionsEvents {sent : List (TrackingEvent × String)} {valid : List Bool}
    {event : StructuredEvent} (h : event ∈ codeSuggestionsEvents sent valid) :
    ∃ entry, entry ∈ sent := by
  obtain ⟨⟨entry, isValid⟩, hentry, -⟩ := List.mem_filterMap.mp h
  exact ⟨entry, (List.of_mem_zip hentry).1⟩

theorem category_of_quickChatEvent {event : QuickChatEvent} {context : QuickChatContext}
    {valid : Bool} {tracked : StructuredEvent}
    (h : quickChatEvent event context valid = some tracked) :
    tracked.category = QUICK_CHAT_CATEGORY := by
  rw [quickChatEvent] at h
  split at h
  · obtain ⟨-, heq⟩ := Option.ite_none_right_eq_some.mp h
    cases heq
    rfl
  · cases h

theorem follows_init (now : Nat) : (init now).Follows where
  snowplowTracker := fun _ => rfl
  instanceTracker := fun _ => rfl
  queued := by
    apply SnowplowService.onlyQueues_configure
    intro emitter event hevent
    cases hevent

theorem onlyPosts_track_iff {events : List StructuredEvent} :
    (s.track events).service.OnlyPosts (fun event => event.enabled = true) ↔
      s.service.OnlyPosts (fun event => event.enabled = true) ∧
        (s.service.Sends s.enabled → s.service.Fills events.length →
          ∀ event ∈ s.service.queue s.service.emitter, event.enabled = true) := by
  rw [track, SnowplowService.onlyPosts_trackAll_iff, List.length_map]
  intro henabled event hevent
  obtain ⟨tracked, -, rfl⟩ := List.mem_map.mp hevent
  exact henabled

theorem Follows.track {events : List StructuredEvent} (h : s.Follows)
    (hevents : ∀ event ∈ events, event.category ≠ QUICK_CHAT_CATEGORY → s.enabled = true) :
    (s.track events).Follows where
  snowplowTracker := h.snowplowTracker
  instanceTracker := h.instanceTracker
  queued := by
    apply SnowplowService.onlyQueues_trackAll h.queued
    intro event hevent
    obtain ⟨tracked, htracked, rfl⟩ := List.mem_map.mp hevent
    exact hevents tracked htracked

theorem Follows.codeSuggestionsEvents {u : LiveTracker} (h : s.Follows)
    (hgoesOn : s.snowplowTracker.GoesOn u) {valid : List Bool} {event : StructuredEvent}
    (hevent : event ∈ codeSuggestionsEvents (s.snowplowTracker.sentSince u) valid) :
    s.enabled = true := by
  obtain ⟨entry, hentry⟩ := sent_of_codeSuggestionsEvents hevent
  exact h.snowplowTracker (hgoesOn.enabled_of_sent hentry)

/-! ## One step -/

theorem enabled_of_reconfigure {enabled : Option Bool} {tracker : LiveTracker}
    {actions : Option (List TrackingEvent)}
    (hreconfigured : (tracker.reconfigure enabled actions).enabled = true) :
    enabled.getD true = true := by
  cases enabled with
  | none => rfl
  | some enabled => exact hreconfigured

theorem Follows.step (h : s.Follows) (hstep : s.step a = some t) : t.Follows := by
  cases a with
  | configChange enabled actions trackingUrl =>
    cases hstep
    have hchanged : Follows { s with
        config := enabled
        snowplowTracker := s.snowplowTracker.reconfigure enabled actions
        instanceTracker := s.instanceTracker.reconfigure enabled actions } :=
      { snowplowTracker := enabled_of_reconfigure
        instanceTracker := enabled_of_reconfigure
        queued := h.queued }
    unfold configChange
    dsimp only
    split
    · split
      · exact { hchanged with queued := SnowplowService.onlyQueues_reconfigure h.queued }
      · exact hchanged
    · exact hchanged
  | codeSuggestions kind action valid =>
    cases kind with
    | snowplowTracker =>
      obtain ⟨hcall, hmap⟩ := Option.ite_none_right_eq_some.mp hstep
      obtain ⟨u, hu, rfl⟩ := Option.map_eq_some_iff.mp hmap
      have hgoesOn := LiveTracker.goesOn_step hcall hu
      have hmoved : Follows { s with snowplowTracker := u } :=
        { h with snowplowTracker := fun henabled =>
            h.snowplowTracker (hgoesOn.enabled.symm.trans henabled) }
      apply hmoved.track
      intro event hevent _
      exact h.codeSuggestionsEvents hgoesOn hevent
    | instanceTracker =>
      obtain ⟨hcall, hmap⟩ := Option.ite_none_right_eq_some.mp hstep
      obtain ⟨u, hu, rfl⟩ := Option.map_eq_some_iff.mp hmap
      have hgoesOn := LiveTracker.goesOn_step hcall hu
      exact { h with instanceTracker := fun henabled =>
        h.instanceTracker (hgoesOn.enabled.symm.trans henabled) }
  | quickChat event context valid =>
    cases hstep
    apply h.track
    intro tracked htracked hcategory
    exact absurd (category_of_quickChatEvent (Option.mem_toList.mp htracked)) hcategory
  | service action =>
    obtain ⟨service, hservice, rfl⟩ := Option.map_eq_some_iff.mp hstep
    exact { h with queued := SnowplowService.onlyQueues_step hservice h.queued }

theorem onlyPosts_step_iff (h : s.step a = some t) :
    t.service.OnlyPosts (fun event => event.enabled = true) ↔
      s.service.OnlyPosts (fun event => event.enabled = true) ∧
        ∀ emitter, s.Drains emitter a → s.service.Sends (s.enabledAt a) →
          ∀ event ∈ s.service.queue emitter, event.enabled = true := by
  cases a with
  | configChange enabled actions trackingUrl =>
    cases h
    cases trackingUrl with
    | none => simp [configChange, Drains]
    | some url =>
      rw [configChange]
      dsimp only
      split
      · next hurl =>
        show (SnowplowService.reconfigure _ url s.service).OnlyPosts _ ↔ _
        rw [SnowplowService.onlyPosts_reconfigure_iff]
        simp [Drains, enabledAt, Telemetry.enabled, hurl]
      · next hurl => simp [Drains, hurl]
  | codeSuggestions kind action valid =>
    cases kind with
    | snowplowTracker =>
      obtain ⟨-, hmap⟩ := Option.ite_none_right_eq_some.mp h
      obtain ⟨u, hu, rfl⟩ := Option.map_eq_some_iff.mp hmap
      have hsends : s.sends action valid =
          Tracking.codeSuggestionsEvents (s.snowplowTracker.sentSince u) valid := by
        rw [sends, hu]
      rw [onlyPosts_track_iff, ← hsends]
      simp only [Drains, enabledAt, and_imp, forall_eq]
      show _ ∧ (s.service.Sends s.enabled → _) ↔ _
      grind
    | instanceTracker =>
      obtain ⟨-, hmap⟩ := Option.ite_none_right_eq_some.mp h
      obtain ⟨u, hu, rfl⟩ := Option.map_eq_some_iff.mp hmap
      simp [Drains]
  | quickChat event context valid =>
    cases h
    rw [onlyPosts_track_iff]
    simp only [Drains, enabledAt, and_imp, forall_eq]
    grind
  | service action =>
    obtain ⟨service, hservice, rfl⟩ := Option.map_eq_some_iff.mp h
    rw [SnowplowService.onlyPosts_step_iff hservice]
    simp only [Drains, enabledAt]
    grind

/-- The data that the instance tracker posts are appended. -/
theorem usageData_step (h : s.step a = some t) : ∃ posted, t.usageData = s.usageData ++ posted ∧
    (s.Follows → ∀ data ∈ posted, data.enabled = true) := by
  cases a with
  | configChange enabled actions trackingUrl =>
    cases h
    refine ⟨[], ?_, fun _ _ hmem => by cases hmem⟩
    rw [List.append_nil]
    unfold configChange
    dsimp only
    split
    · split
      · rfl
      · rfl
    · rfl
  | codeSuggestions kind action valid =>
    cases kind with
    | snowplowTracker =>
      obtain ⟨-, hmap⟩ := Option.ite_none_right_eq_some.mp h
      obtain ⟨u, -, rfl⟩ := Option.map_eq_some_iff.mp hmap
      exact ⟨[], (List.append_nil _).symm, fun _ _ hmem => by cases hmem⟩
    | instanceTracker =>
      obtain ⟨hcall, hmap⟩ := Option.ite_none_right_eq_some.mp h
      obtain ⟨u, hu, rfl⟩ := Option.map_eq_some_iff.mp hmap
      refine ⟨_, rfl, ?_⟩
      intro hfollows data hdata
      obtain ⟨sent, hsent, hposted⟩ := List.mem_filterMap.mp hdata
      obtain ⟨event, -, rfl⟩ := Option.map_eq_some_iff.mp hposted
      have hgoesOn := LiveTracker.goesOn_step hcall hu
      exact hfollows.instanceTracker (hgoesOn.enabled_of_sent hsent)
  | quickChat event context valid =>
    cases h
    exact ⟨[], (List.append_nil _).symm, fun _ _ hmem => by cases hmem⟩
  | service action =>
    obtain ⟨service, -, rfl⟩ := Option.map_eq_some_iff.mp h
    exact ⟨[], (List.append_nil _).symm, fun _ _ hmem => by cases hmem⟩

theorem Follows.keepsOptOut_iff (h : s.Follows) : s.KeepsOptOut a ↔
    ∀ emitter, s.Drains emitter a → s.service.Sends (s.enabledAt a) →
      ∀ event ∈ s.service.queue emitter, event.enabled = true := by
  constructor
  · intro hkeeps emitter hdrains hsends event hevent
    by_cases hcategory : event.event.category = QUICK_CHAT_CATEGORY
    · exact hkeeps emitter hdrains hsends event hevent hcategory
    · exact h.queued emitter event hevent hcategory
  · intro hall emitter hdrains hsends event hevent _
    exact hall emitter hdrains hsends event hevent

/-- An opt-out is kept exactly in those runs in which no queue is drained to be posted that holds an
event of the quick chat tracked while telemetry was disabled. -/
theorem optedOut_iff (now : Nat) (actions : List TelemetryAction) (s : Telemetry)
    (h : run step (init now) actions = some s) :
    s.OptedOut ↔ Guarded step KeepsOptOut (init now) actions := by
  have hinit : (init now).OptedOut := by
    constructor
    · intro post hpost
      cases hpost
    · intro data hdata
      cases hdata
  apply guarded_iff (I := Follows) (P := OptedOut) _ _ _ (follows_init now) hinit h
  · intro s a t hfollows _ _ hstep
    exact hfollows.step hstep
  · intro s a t hfollows hs hstep
    obtain ⟨posted, hposted, henabled⟩ := usageData_step hstep
    rw [OptedOut, onlyPosts_step_iff hstep, ← hfollows.keepsOptOut_iff, hposted]
    constructor
    · intro ht
      exact ht.1.2
    · intro hkeeps
      refine ⟨⟨hs.1, hkeeps⟩, ?_⟩
      intro data hdata
      rcases List.mem_append.mp hdata with hold | hnew
      · exact hs.2 data hold
      · exact henabled hfollows data hnew
  · intro s a t hstep ht
    obtain ⟨posted, hposted, -⟩ := usageData_step hstep
    refine ⟨((onlyPosts_step_iff hstep).mp ht.1).1, ?_⟩
    intro data hdata
    apply ht.2 data
    rw [hposted]
    exact List.mem_append_left posted hdata

/-- The chat is opened while telemetry is disabled, and again when it is enabled. -/
def openedTwice (drained : List TelemetryAction) : List TelemetryAction :=
  [.configChange (some false) none none, .quickChat .chatOpen ⟨.shortcut, []⟩ true] ++ drained ++
    [.configChange (some true) none none, .quickChat .chatOpen ⟨.btnClick, []⟩ true,
      .service (.timeout 1)]

/-- The queue is drained in between. -/
theorem optedOut_iff_openedTwice :
    ∃ s, run step (init 0) (openedTwice [.service (.timeout 1), .service (.drained 1)]) = some s ∧
      (s.OptedOut ↔ Guarded step KeepsOptOut (init 0)
        (openedTwice [.service (.timeout 1), .service (.drained 1)])) := by
  obtain ⟨s, hs⟩ : ∃ s, run step (init 0)
      (openedTwice [.service (.timeout 1), .service (.drained 1)]) = some s :=
    Option.isSome_iff_exists.mp (by decide +kernel)
  exact ⟨s, hs, optedOut_iff 0 _ s hs⟩

/-- It is not drained before telemetry is enabled. -/
theorem not_optedOut_openedTwice :
    ¬ ∀ now actions s, run step (init now) actions = some s → s.OptedOut := by
  intro h
  have hsome : (run step (init 0) (openedTwice [])).isSome := by decide +kernel
  obtain ⟨s, hs⟩ := Option.isSome_iff_exists.mp hsome
  have hposted : ∀ s ∈ run step (init 0) (openedTwice []), s.service.posts.map (fun post =>
      post.events.map fun event => (event.event.action, event.enabled)) =
        [[("open_quick_chat", false), ("open_quick_chat", true)]] := by
    decide +kernel
  have hevents := hposted s hs
  obtain ⟨post, hpost, heq⟩ := List.mem_map.mp (hevents ▸ List.mem_singleton_self _)
  obtain ⟨event, hevent, hdisabled⟩ := List.mem_map.mp (heq ▸ List.mem_cons_self)
  have henabled : event.enabled = true := ((h 0 _ s hs).1 post hpost).2 event hevent
  rw [(Prod.mk.inj hdisabled).2] at henabled
  cases henabled

end Telemetry
end KhulnasoftLsp.Tracking
