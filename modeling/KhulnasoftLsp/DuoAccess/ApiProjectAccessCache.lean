import KhulnasoftLsp.Transition
import KhulnasoftLsp.OrderedMap
import KhulnasoftLsp.JsString
import KhulnasoftLsp.DuoAccess.WorkspaceProjectAccessCache

/-!
# Duo access of projects, by their identifiers

`DefaultDuoApiProjectAccessCache` asks the API which projects have Duo enabled, and remembers the
answers. A reconfiguration of the API empties the cache; a response to a request that was sent
before it is merged into the cache all the same.
-/

namespace KhulnasoftLsp.DuoAccess

open Transition

/-! ## Global identifiers -/

namespace Gid

def isWhitespace (c : Char) : Bool := c.val < 0x10000 && JsString.isWhitespace c.val.toUInt16

/-- The characters that `.` of a regular expression does not match. -/
def endsLine (c : Char) : Bool :=
  c == '\n' || c == '\r' || c.val == 0x2028 || c.val == 0x2029

/-- If the expression `gid:\/\/gitlab\/.*\/` matches at the front, what follows the match, which is
the longest one. -/
def matchGid (s : List Char) : Option (List Char) :=
  if "gid://gitlab/".toList.isPrefixOf s then
    let tail := s.drop "gid://gitlab/".toList.length
    let line := tail.takeWhile fun c => !endsLine c
    let upToSlash := (line.reverse.dropWhile (· != '/')).length
    if upToSlash = 0 then none else some (tail.drop upToSlash)
  else none

/-- `s.replace(/gid:\/\/gitlab\/.*\//g, '')`. The fuel is the length of the string. -/
def removeGids : Nat → List Char → List Char
  | 0, s => s
  | _ + 1, [] => []
  | n + 1, c :: cs =>
    match matchGid (c :: cs) with
    | some rest => removeGids n rest
    | none => c :: removeGids n cs

/-- `parseInt(s, 10)`, where `none` is `NaN` -/
def parseInt (s : List Char) : Option Int :=
  let s := s.dropWhile isWhitespace
  let (sign, s) : Int × List Char := match s with
    | '-' :: s => (-1, s)
    | '+' :: s => (1, s)
    | s => (1, s)
  match s.takeWhile Char.isDigit with
  | [] => none
  | digits => some (sign * digits.foldl (fun n d => 10 * n + (d.toNat - '0'.toNat : Nat)) 0)

end Gid

def toKhulnaSoftGid (idNamespace : String) (id : Int) : String :=
  "gid://gitlab/" ++ idNamespace ++ "/" ++ toString id

/-- `tryParseKhulnaSoftGid`: zero is no identifier. -/
def tryParseKhulnaSoftGid (gid : String) : Option Int :=
  (Gid.parseInt (Gid.removeGids gid.toList.length gid.toList)).filter (· ≠ 0)

example : tryParseKhulnaSoftGid (toKhulnaSoftGid "Project" 9876) = some 9876 := by decide +kernel

/-! ## The cache -/

/-- The nodes of a response, each with its `id` and `duoFeaturesEnabled`, or an error. -/
abbrev ApiResponse := Except Unit (List (String × Bool))

/-- `#checkDuoFeaturesEnabled`: a project whose identifier is invalid is left out, and an error
tells nothing. -/
def checkStatuses : ApiResponse → OrderedMap Int Bool
  | .error _ => .empty
  | .ok edges => OrderedMap.empty.setAll <| edges.filterMap fun (gid, duoFeaturesEnabled) =>
      (tryParseKhulnaSoftGid gid).map fun id => (id, duoFeaturesEnabled)

/-- A call that awaits its response, and how many reconfigurations there had been when it sent its
request. -/
structure Request where
  id : Nat
  projectIds : List Int
  missingFromCache : List Int
  sentAt : Nat
  deriving DecidableEq, Repr

/-- A response that arrived. -/
structure Response where
  sentAt : Nat
  statuses : OrderedMap Int Bool

/-- What a call reported, and how many reconfigurations there had been when it was made and when
it reported. -/
structure Report where
  calledAt : Nat
  reportedAt : Nat
  enabled : OrderedMap Int Bool

structure ApiCache where
  duoProjects : OrderedMap Int Bool
  reconfigurations : Nat
  /-- The number of calls so far that have sent a request. -/
  requests : Nat
  inFlight : List Request
  responses : List Response
  reports : List Report

inductive ApiAction where
  | getEnabledForProjects (projectIds : List Int)
  /-- The response to the request `id` arrives. -/
  | responds (id : Nat) (response : ApiResponse)
  | apiReconfigured

namespace ApiCache

def new : ApiCache where
  duoProjects := .empty
  reconfigurations := 0
  requests := 0
  inFlight := []
  responses := []
  reports := []

/-- `#duoProjects[id]` is true. -/
def isEnabled (id : Int) (c : ApiCache) : Bool := (c.duoProjects.get id).getD false

/-- What `getEnabledForProjects` returns. -/
def report (projectIds : List Int) (c : ApiCache) : OrderedMap Int Bool :=
  OrderedMap.empty.setAll (projectIds.map fun projectId => (projectId, c.isEnabled projectId))

/-- `getEnabledForProjects`, up to its request. If the cache knows all projects to be enabled,
there is none. -/
def getEnabledForProjects (projectIds : List Int) (c : ApiCache) : ApiCache :=
  let missingFromCache := (projectIds.filter fun id => !c.isEnabled id).eraseDups
  if missingFromCache.length = 0 then
    { c with
      reports := c.reports ++
      [{ calledAt := c.reconfigurations
         reportedAt := c.reconfigurations
         enabled := c.report projectIds }] }
  else
    { c with
      requests := c.requests + 1
      inFlight := c.inFlight ++
        [{ id := c.requests, projectIds, missingFromCache, sentAt := c.reconfigurations }] }

/-- The rest of `getEnabledForProjects`: the response is merged into what the cache holds now. -/
def responds (r : Request) (response : ApiResponse) (c : ApiCache) : ApiCache :=
  let statuses := checkStatuses response
  let c : ApiCache := { c with
    duoProjects := c.duoProjects.setAll statuses.entries
    inFlight := c.inFlight.filter (· ≠ r)
    responses := c.responses ++ [{ sentAt := r.sentAt, statuses := statuses }] }
  { c with
    reports := c.reports ++
      [{ calledAt := r.sentAt
         reportedAt := c.reconfigurations
         enabled := c.report r.projectIds }] }

/-- The listener that the constructor registers with `onApiReconfigured`. -/
def onApiReconfigured (c : ApiCache) : ApiCache :=
  { c with duoProjects := .empty, reconfigurations := c.reconfigurations + 1 }

def step (c : ApiCache) : ApiAction → Option ApiCache
  | .getEnabledForProjects projectIds => some (c.getEnabledForProjects projectIds)
  | .responds id response =>
    (c.inFlight.find? (·.id = id)).map fun r => c.responds r response
  | .apiReconfigured => some c.onApiReconfigured

end ApiCache

/-- `checkProjectStatusesByIds`, given what the cache reports. -/
def checkProjectStatusesByIds (projectIds : List Int) (statuses : OrderedMap Int Bool) :
    OrderedMap Int DuoProjectStatus :=
  OrderedMap.empty.setAll <| projectIds.map fun projectId =>
    (projectId, if (statuses.get projectId).getD false then .DuoEnabled else .DuoDisabled)

namespace ApiCache

/-! ## What is reported as enabled -/

/-- A response to a request sent since the reconfiguration number `n` says that the project is
enabled. -/
def Confirmed (n : Nat) (projectId : Int) (c : ApiCache) : Prop :=
  ∃ r ∈ c.responses, r.sentAt = n ∧ r.statuses.get projectId = some true

/-- The cache holds a project as enabled only if that has been confirmed since the latest
reconfiguration. -/
def HoldsConfirmed (c : ApiCache) : Prop :=
  ∀ projectId, c.duoProjects.get projectId = some true → Confirmed c.reconfigurations projectId c

/-- A call made after the latest reconfiguration reports a project as enabled only if that has been
confirmed since. -/
def ReportsConfirmed (c : ApiCache) : Prop :=
  ∀ report ∈ c.reports, report.calledAt = report.reportedAt →
    ∀ projectId, report.enabled.get projectId = some true →
      Confirmed report.reportedAt projectId c

/-- A response to a request sent before the latest reconfiguration says of no project that it is
enabled, unless that has been confirmed since. -/
def NoStaleEnabled (c : ApiCache) : ApiAction → Prop
  | .responds id response => ∀ r ∈ c.inFlight.find? (·.id = id), r.sentAt ≠ c.reconfigurations →
      ∀ e ∈ (checkStatuses response).entries, e.2 = true → Confirmed c.reconfigurations e.1 c
  | _ => True

instance (n : Nat) (projectId : Int) (c : ApiCache) : Decidable (Confirmed n projectId c) :=
  inferInstanceAs (Decidable (∃ r ∈ c.responses, _))

instance : (c : ApiCache) → (a : ApiAction) → Decidable (NoStaleEnabled c a)
  | c, .responds id response => inferInstanceAs (Decidable (∀ r ∈ c.inFlight.find? (·.id = id),
      r.sentAt ≠ c.reconfigurations → ∀ e ∈ (checkStatuses response).entries,
        e.2 = true → Confirmed c.reconfigurations e.1 c))
  | _, .getEnabledForProjects _ => isTrue trivial
  | _, .apiReconfigured => isTrue trivial

/-- The checker says `DuoEnabled` of the projects that are reported as enabled, and of no other. -/
theorem checkProjectStatusesByIds_iff (projectIds : List Int) (c : ApiCache) (projectId : Int) :
    (checkProjectStatusesByIds projectIds (c.report projectIds)).get projectId =
        some .DuoEnabled ↔
      (c.report projectIds).get projectId = some true := by
  rw [checkProjectStatusesByIds, OrderedMap.get_setAll_map, report, OrderedMap.get_setAll_map]
  by_cases h : projectId ∈ projectIds <;> simp [h]

theorem isEnabled_of_report {projectIds : List Int} {c : ApiCache} {projectId : Int}
    (h : (c.report projectIds).get projectId = some true) :
    c.duoProjects.get projectId = some true := by
  rw [report, OrderedMap.get_setAll_map] at h
  split at h
  · have henabled : (c.duoProjects.get projectId).getD false = true := Option.some.inj h
    cases hget : c.duoProjects.get projectId with
    | none => simp [hget] at henabled
    | some enabled => simpa [hget] using henabled
  · cases h

theorem get_responds (r : Request) (response : ApiResponse) (c : ApiCache) (projectId : Int) :
    (c.responds r response).duoProjects.get projectId =
      ((checkStatuses response).get projectId).or (c.duoProjects.get projectId) :=
  OrderedMap.get_setAll_entries c.duoProjects (checkStatuses response) projectId

theorem confirmed_responds (r : Request) (response : ApiResponse) (c : ApiCache) (n : Nat)
    (projectId : Int) : Confirmed n projectId (c.responds r response) ↔
      Confirmed n projectId c ∨
        (r.sentAt = n ∧ (checkStatuses response).get projectId = some true) := by
  simp [Confirmed, responds, or_and_right, exists_or]

/-- A call reports at once, or sends a request. -/
theorem getEnabledForProjects_cases (projectIds : List Int) (c : ApiCache) :
    c.getEnabledForProjects projectIds =
        { c with reports := c.reports ++
          [⟨c.reconfigurations, c.reconfigurations, c.report projectIds⟩] } ∨
      ∃ r, c.getEnabledForProjects projectIds =
        { c with requests := c.requests + 1, inFlight := c.inFlight ++ [r] } := by
  by_cases hknown : ((projectIds.filter fun id => !c.isEnabled id).eraseDups).length = 0
  · exact .inl (if_pos hknown)
  · exact .inr ⟨_, if_neg hknown⟩

/-- A confirmation is never taken back. -/
theorem Confirmed.step {c c' : ApiCache} {a : ApiAction} {n : Nat} {projectId : Int}
    (hc : Confirmed n projectId c) (h : step c a = some c') : Confirmed n projectId c' := by
  cases a with
  | getEnabledForProjects projectIds =>
      cases h
      rcases getEnabledForProjects_cases projectIds c with heq | ⟨r, heq⟩
      · rw [heq]
        exact hc
      · rw [heq]
        exact hc
  | responds id response =>
      obtain ⟨r, -, rfl⟩ := Option.map_eq_some_iff.mp h
      exact (confirmed_responds r response c n projectId).mpr (.inl hc)
  | apiReconfigured =>
      cases h
      exact hc

theorem holdsConfirmed_step {c c' : ApiCache} {a : ApiAction} (hc : HoldsConfirmed c)
    (h : step c a = some c') : HoldsConfirmed c' ↔ NoStaleEnabled c a := by
  cases a with
  | getEnabledForProjects projectIds =>
      cases h
      have hsame : HoldsConfirmed (c.getEnabledForProjects projectIds) := by
        rcases getEnabledForProjects_cases projectIds c with heq | ⟨r, heq⟩
        · rw [heq]
          exact hc
        · rw [heq]
          exact hc
      simp [NoStaleEnabled, hsame]
  | apiReconfigured =>
      cases h
      have hempty : HoldsConfirmed c.onApiReconfigured := by
        rintro projectId ⟨⟩
      simp [NoStaleEnabled, hempty]
  | responds id response =>
      obtain ⟨r, hr, rfl⟩ := Option.map_eq_some_iff.mp h
      constructor
      · intro hholds r' hr' hstale e he htrue
        rw [hr, Option.mem_some_iff] at hr'
        subst hr'
        have hstatus : (checkStatuses response).get e.1 = some true := by
          rw [OrderedMap.get_eq_some_iff, ← htrue]
          exact he
        have hget : (c.responds r response).duoProjects.get e.1 = some true := by
          rw [get_responds, hstatus, Option.some_or]
        rcases (confirmed_responds r response c _ e.1).mp (hholds e.1 hget) with hold | ⟨hnow, -⟩
        · exact hold
        · exact absurd hnow hstale
      · intro hok projectId hget
        apply (confirmed_responds r response c c.reconfigurations projectId).mpr
        rw [get_responds] at hget
        cases hstatus : (checkStatuses response).get projectId with
        | none =>
            rw [hstatus, Option.none_or] at hget
            exact .inl (hc projectId hget)
        | some enabled =>
            obtain rfl : enabled = true := by simpa [hstatus] using hget
            by_cases hnow : r.sentAt = c.reconfigurations
            · exact .inr ⟨hnow, rfl⟩
            · have hentry := OrderedMap.get_eq_some_iff.mp hstatus
              exact .inl (hok r hr hnow _ hentry rfl)

/-- A step adds at most one report, of what the cache holds after it. -/
theorem step_reports {c c' : ApiCache} {a : ApiAction} (h : step c a = some c') :
    c'.reports = c.reports ∨ ∃ calledAt projectIds,
      c'.reports = c.reports ++ [⟨calledAt, c'.reconfigurations, c'.report projectIds⟩] := by
  cases a with
  | getEnabledForProjects projectIds =>
      cases h
      rcases getEnabledForProjects_cases projectIds c with heq | ⟨r, heq⟩
      · rw [heq]
        exact .inr ⟨c.reconfigurations, projectIds, rfl⟩
      · rw [heq]
        exact .inl rfl
  | responds id response =>
      obtain ⟨r, -, rfl⟩ := Option.map_eq_some_iff.mp h
      exact .inr ⟨r.sentAt, r.projectIds, rfl⟩
  | apiReconfigured =>
      cases h
      exact .inl rfl

theorem ReportsConfirmed.step {c c' : ApiCache} {a : ApiAction} (hc : ReportsConfirmed c)
    (hholds : HoldsConfirmed c') (h : ApiCache.step c a = some c') : ReportsConfirmed c' := by
  have hold : ∀ report ∈ c.reports, report.calledAt = report.reportedAt →
      ∀ projectId, report.enabled.get projectId = some true →
        Confirmed report.reportedAt projectId c' :=
    fun report hr hcalled projectId henabled => (hc report hr hcalled projectId henabled).step h
  rcases step_reports h with hsame | ⟨calledAt, projectIds, hnew⟩
  · rw [ReportsConfirmed, hsame]
    exact hold
  · rw [ReportsConfirmed, hnew]
    intro report hr hcalled projectId henabled
    rcases List.mem_append.mp hr with hr | hr
    · exact hold report hr hcalled projectId henabled
    · obtain rfl := List.mem_singleton.mp hr
      exact hholds projectId (isEnabled_of_report henabled)

/-- **What the cache keeps of its contract.** It never holds a project as enabled without a
confirmation since the latest reconfiguration if and only if no late response reports one as
enabled; and in such a run no call reports one. -/
theorem reportsConfirmed_of_noStaleEnabled (as : List ApiAction) (c : ApiCache)
    (hrun : run step new as = some c) :
    (Always step HoldsConfirmed new as ↔ Guarded step NoStaleEnabled new as) ∧
      (Guarded step NoStaleEnabled new as → Always step ReportsConfirmed new as) := by
  have hholds : HoldsConfirmed new := by
    rintro projectId ⟨⟩
  have hreports : ReportsConfirmed new := by
    rintro report ⟨⟩
  constructor
  · apply always_iff_guarded (I := fun _ => True) _ _ trivial hholds hrun
    · exact fun _ _ _ _ _ _ _ => trivial
    · exact fun _ _ _ _ hc h => holdsConfirmed_step hc h
  · intro hg
    have hboth : Always step (fun c => HoldsConfirmed c ∧ ReportsConfirmed c) new as := by
      apply always_of_guarded (I := fun c => HoldsConfirmed c ∧ ReportsConfirmed c) _
        ⟨hholds, hreports⟩ hg
      intro c a c' hc hok h
      have hnext := (holdsConfirmed_step hc.1 h).mpr hok
      exact ⟨hnext, hc.2.step hnext h⟩
    exact hboth.mono fun _ hc => hc.2

/-- The response arrives before the reconfiguration, and the next call asks again. -/
theorem reportsConfirmed_of_prompt_response :
    Always step ReportsConfirmed new [.getEnabledForProjects [1],
      .responds 0 (.ok [("gid://gitlab/Project/1", true)]), .apiReconfigured,
      .getEnabledForProjects [1], .responds 1 (.ok [("gid://gitlab/Project/1", false)])] := by
  obtain ⟨c, hc⟩ : ∃ c, run step new [.getEnabledForProjects [1],
      .responds 0 (.ok [("gid://gitlab/Project/1", true)]), .apiReconfigured,
      .getEnabledForProjects [1],
      .responds 1 (.ok [("gid://gitlab/Project/1", false)])] = some c :=
    Option.isSome_iff_exists.mp (by decide +kernel)
  exact (reportsConfirmed_of_noStaleEnabled _ c hc).2 (by decide +kernel)

/-- The response arrives after the reconfiguration, and the next call reports the project as
enabled without asking. -/
theorem not_reportsConfirmed_of_late_response :
    ¬ Always step ReportsConfirmed new [.getEnabledForProjects [1], .apiReconfigured,
      .responds 0 (.ok [("gid://gitlab/Project/1", true)]), .getEnabledForProjects [1]] := by
  intro h
  obtain ⟨c, hc⟩ : ∃ c, run step new [.getEnabledForProjects [1], .apiReconfigured,
      .responds 0 (.ok [("gid://gitlab/Project/1", true)]),
      .getEnabledForProjects [1]] = some c :=
    Option.isSome_iff_exists.mp (by decide +kernel)
  have hreport : ∀ c ∈ run step new [.getEnabledForProjects [1], .apiReconfigured,
      .responds 0 (.ok [("gid://gitlab/Project/1", true)]), .getEnabledForProjects [1]],
      ¬ Confirmed 1 1 c ∧ ∃ report ∈ c.reports, report.calledAt = report.reportedAt ∧
        report.reportedAt = 1 ∧ report.enabled.get 1 = some true := by
    decide +kernel
  obtain ⟨hnot, report, hr, hcalled, hone, henabled⟩ := hreport c hc
  have hconfirmed := h _ [] c rfl hc report hr hcalled 1 henabled
  rw [hone] at hconfirmed
  exact hnot hconfirmed

end ApiCache
end KhulnasoftLsp.DuoAccess
