import KhulnasoftLsp.DocContext
import KhulnasoftLsp.Transition
import Mathlib.Data.List.Nodup

/-!
# Security scans

`handleScanNotification` sends the text of a document to the API and publishes a diagnostic for each
vulnerability in the response. Any number of scans may be under way for one document, and each
publishes when its own response arrives: nothing looks whether a later scan has published before.

`latestPublished_iff` says for which orders of the responses the diagnostics that stay are those of
the scan that was started last. A publication is marked with the scan it comes from.
-/

namespace KhulnasoftLsp.SecurityScan

open Transition

structure Vulnerability where
  name : String
  description : String
  severity : String
  startLine : Int
  endLine : Int
  startColumn : Int
  endColumn : Int
  deriving DecidableEq, Repr

inductive DiagnosticSeverity where
  | error
  | warning
  deriving DecidableEq, Repr

structure Position where
  line : Int
  character : Int
  deriving DecidableEq, Repr

structure Diagnostic where
  message : String
  start : Position
  stop : Position
  severity : DiagnosticSeverity
  source : String
  deriving DecidableEq, Repr

/-- What may be thrown, as far as `#handleError` looks at it. -/
inductive ScanError where
  | fetchError (status : Int)
  | error (message : String)
  | other
  deriving DecidableEq, Repr

structure SecurityScanClientResponse where
  filePath : String
  status : Int
  results : Option (List Vulnerability)
  error : Option String
  deriving DecidableEq, Repr

/-- How the request of a scan is answered. An element of the response that is no vulnerability comes
with what reading it throws. -/
inductive ScanAnswer where
  | rejected (error : ScanError)
  | notAnArray
  | vulnerabilities (elements : List (Except ScanError Vulnerability))

structure ScanDocument where
  uri : String
  text : String
  deriving DecidableEq, Repr

/-- What a scan looks at when it starts. -/
structure ScanEnvironment where
  getDocument : String → Option ScanDocument
  workspaceFolders : List WorkspaceFolder
  /-- `namespaceWithPath` of the project of a document -/
  project : String → WorkspaceFolder → Option String
  /-- `parseURIString(uri).path` -/
  pathOf : String → String
  /-- `#publish` is set. -/
  initialized : Bool
  remoteSecurityScans : Bool
  /-- `enabled` of `#opts`, if these are set -/
  opts : Option Bool

/-- The request to `/projects/:project/security_scans/sast/scan` -/
structure ScanRequest where
  uri : String
  project : String
  filePath : String
  content : String
  deriving DecidableEq, Repr

/-! ## One scan -/

def unknownErrorCode : Int := 500

def apiErrorMessageMapping (status : Int) : Option String :=
  if status = 401 then
    some ("Real-time SAST scan authentication failed. Your KhulnaSoft authentication token is " ++
      "invalid or has expired. Reauthenticate with your KhulnaSoft account or generate a new " ++
      "personal access token.")
  else if status = 403 then
    some ("Real-time SAST scan is not available for this project or " ++
      "[namespace](https://docs.khulnasoft.com/ee/user/namespace).")
  else if status = 404 then
    some ("Real-time SAST scan is not available on your [KhulnaSoft instance version]" ++
      "(https://docs.khulnasoft.com/ee/api/projects.html#real-time-security-scan).")
  else if status = unknownErrorCode then
    some ("Real-time SAST scan failed with an unknown error. Check your network connection, " ++
      "reload your IDE, and try again ")
  else
    none

/-- `#handleError`, the response that it sends. -/
def handleError (error : ScanError) (filePath : String) : SecurityScanClientResponse :=
  let status := match error with
    | .fetchError status => status
    | _ => unknownErrorCode
  let errorMessage := match error with
    | .fetchError status => apiErrorMessageMapping status
    | .error message => some message
    | .other => none
  { filePath, status, results := none,
    error := errorMessage.or (apiErrorMessageMapping unknownErrorCode) }

/-- Every error is reported with a message. -/
theorem handleError_message (error : ScanError) (filePath : String) :
    (handleError error filePath).error ≠ none := by
  have hunknown : apiErrorMessageMapping unknownErrorCode ≠ none := by
    simp [apiErrorMessageMapping, unknownErrorCode]
  simp [handleError, hunknown]

def mapVulnerabilityToDiagnostic (vuln : Vulnerability) : Diagnostic where
  message := s!"{vuln.name}\n\n{vuln.description}"
  start := ⟨vuln.startLine - 1, vuln.startColumn - 1⟩
  stop := ⟨vuln.endLine - 1, vuln.endColumn - 1⟩
  severity := if vuln.severity = "high" then .error else .warning
  source := "gitlab_security_scan"

/-- `#runSecurityScan` up to its request: it may throw, or return without one. -/
def prepare (env : ScanEnvironment) (documentUri : String) :
    Except ScanError (Option ScanRequest) :=
  match env.getDocument documentUri with
  | none => .ok none
  | some document =>
    match env.workspaceFolders.find? fun wf => wf.uri.toList.isPrefixOf document.uri.toList with
    | none => .error (.error "Real-time SAST scan failed. No valid workspace detected.")
    | some workspaceFolder =>
      match (env.project document.uri workspaceFolder).filter (!·.isEmpty) with
      | none => .error (.error "Real-time SAST scan failed. No valid project detected.")
      | some project =>
        if !env.initialized then
          .error (.error "Real-time SAST scan failed. Reload your IDE, and try again")
        else if !env.remoteSecurityScans then
          .ok none
        else if !env.opts.getD false then
          .ok none
        else
          .ok (some { uri := document.uri, project, filePath := env.pathOf document.uri,
                      content := document.text })

/-- The vulnerabilities of an answer: a scan may fail, or end without any. -/
def ScanAnswer.read : ScanAnswer → Except ScanError (Option (List Vulnerability))
  | rejected error => .error error
  | notAnArray => .ok none
  | vulnerabilities elements => (elements.mapM id).map some

structure Scan where
  id : Nat
  request : ScanRequest
  deriving DecidableEq, Repr

structure Publication where
  scan : Nat
  uri : String
  diagnostics : List Diagnostic
  deriving DecidableEq, Repr

/-- What `#publish` is called with. -/
def Scan.publication (scan : Scan) (vulns : List Vulnerability) : Publication where
  scan := scan.id
  uri := scan.request.uri
  diagnostics := vulns.map mapVulnerabilityToDiagnostic

/-- A scan with its answer. -/
structure Arrival where
  scan : Scan
  answer : ScanAnswer

/-- What is published when the answer has arrived. -/
def Arrival.publication (a : Arrival) : Option Publication :=
  match a.answer.read with
  | .ok (some vulns) => some (a.scan.publication vulns)
  | _ => none

/-- The scan succeeded, and it was of this document. -/
def Arrival.SucceededFor (uri : String) (a : Arrival) : Prop :=
  a.publication.isSome ∧ a.scan.request.uri = uri

instance (uri : String) (a : Arrival) : Decidable (a.SucceededFor uri) :=
  inferInstanceAs (Decidable (_ ∧ _))

/-! ## The publisher -/

structure SecurityDiagnosticsPublisher where
  env : ScanEnvironment
  nextScan : Nat
  /-- The scans that wait for an answer. -/
  fetching : List Scan
  /-- The scans that wait for the client to take their diagnostics. -/
  publishing : List (Scan × List Vulnerability)
  published : List Publication
  responses : List SecurityScanClientResponse
  /-- The answers in the order in which they arrived. -/
  arrivals : List Arrival

inductive ScanAction where
  /-- The configuration or a document has changed. -/
  | environment (env : ScanEnvironment)
  | handleScanNotification (documentUri : String)
  | answer (scan : Nat) (answer : ScanAnswer)
  /-- The promise of `#publish` settles. -/
  | publishSettled (scan : Nat) (error : Option ScanError)

namespace SecurityDiagnosticsPublisher

def new (env : ScanEnvironment) : SecurityDiagnosticsPublisher where
  env
  nextScan := 0
  fetching := []
  publishing := []
  published := []
  responses := []
  arrivals := []

def sendScanResponse (response : SecurityScanClientResponse) (s : SecurityDiagnosticsPublisher) :
    SecurityDiagnosticsPublisher :=
  { s with responses := s.responses ++ [response] }

/-- `handleScanNotification` up to the request of its scan. -/
def handleScanNotification (documentUri : String) (s : SecurityDiagnosticsPublisher) :
    SecurityDiagnosticsPublisher :=
  match prepare s.env documentUri with
  | .error error => s.sendScanResponse (handleError error documentUri)
  | .ok none => s
  | .ok (some request) =>
    { s with nextScan := s.nextScan + 1, fetching := s.fetching ++ [⟨s.nextScan, request⟩] }

/-- A scan goes on with the answer to its request. -/
def receive (scan : Scan) (answer : ScanAnswer) (s : SecurityDiagnosticsPublisher) :
    SecurityDiagnosticsPublisher :=
  let s := { s with
    fetching := s.fetching.filter (·.id != scan.id)
    arrivals := s.arrivals ++ [⟨scan, answer⟩] }
  match answer.read with
  | .error error => s.sendScanResponse (handleError error scan.request.filePath)
  | .ok none => s
  | .ok (some vulns) =>
    { s with
      published := s.published ++ [scan.publication vulns]
      publishing := s.publishing ++ [(scan, vulns)] }

/-- A scan ends once its diagnostics are taken. -/
def finish (scan : Scan) (vulns : List Vulnerability) (error : Option ScanError)
    (s : SecurityDiagnosticsPublisher) : SecurityDiagnosticsPublisher :=
  let s := { s with publishing := s.publishing.filter (·.1.id != scan.id) }
  s.sendScanResponse <| match error with
    | some error => handleError error scan.request.filePath
    | none =>
      { filePath := scan.request.filePath, status := 200, results := some vulns, error := none }

def step (s : SecurityDiagnosticsPublisher) : ScanAction → Option SecurityDiagnosticsPublisher
  | .environment env => some { s with env }
  | .handleScanNotification documentUri => some (s.handleScanNotification documentUri)
  | .answer id answer => (s.fetching.find? (·.id == id)).map fun scan => s.receive scan answer
  | .publishSettled id error =>
    (s.publishing.find? (·.1.id == id)).map fun entry => s.finish entry.1 entry.2 error

/-- The last diagnostics published for a document are those of the latest scan of it that
succeeded. -/
def LatestPublished (uri : String) (s : SecurityDiagnosticsPublisher) : Prop :=
  ∀ a ∈ s.arrivals, a.SucceededFor uri →
    (∀ b ∈ s.arrivals, b.SucceededFor uri → b.scan.id ≤ a.scan.id) →
    (s.published.filter (·.uri == uri)).getLast? = a.publication

/-- Of the scans of a document that succeed, the last one to be answered is the latest. -/
def LatestAnsweredLast (uri : String) (s : SecurityDiagnosticsPublisher) : Prop :=
  ∀ a ∈ (s.arrivals.filter fun a => decide (a.SucceededFor uri)).getLast?,
    ∀ b ∈ s.arrivals, b.SucceededFor uri → b.scan.id ≤ a.scan.id

/-! ## What a run keeps -/

/-- What is published is what the answers gave, and every scan has one answer at most. -/
structure Consistent (s : SecurityDiagnosticsPublisher) : Prop where
  published : s.published = s.arrivals.filterMap Arrival.publication
  nodup : (s.arrivals.map (·.scan.id) ++ s.fetching.map (·.id)).Nodup
  below : ∀ i ∈ s.arrivals.map (·.scan.id) ++ s.fetching.map (·.id), i < s.nextScan

variable {s t : SecurityDiagnosticsPublisher}

theorem consistent_new (env : ScanEnvironment) : Consistent (new env) where
  published := rfl
  nodup := List.nodup_nil
  below i hi := by cases hi

theorem consistent_handleScanNotification (hs : Consistent s) (documentUri : String) :
    Consistent (s.handleScanNotification documentUri) := by
  unfold handleScanNotification
  split
  · exact ⟨hs.published, hs.nodup, hs.below⟩
  · exact hs
  · next request _ =>
      have hids : s.arrivals.map (·.scan.id) ++
          (s.fetching ++ [Scan.mk s.nextScan request]).map (·.id) =
          (s.arrivals.map (·.scan.id) ++ s.fetching.map (·.id)) ++ [s.nextScan] := by simp
      refine ⟨hs.published, ?_, ?_⟩
      · show (s.arrivals.map (·.scan.id) ++ _).Nodup
        rw [hids, List.nodup_append]
        refine ⟨hs.nodup, List.nodup_singleton _, ?_⟩
        intro i hi j hj heq
        have := hs.below i hi
        rw [List.mem_singleton.mp hj] at heq
        omega
      · intro i hi
        rw [hids] at hi
        show i < s.nextScan + 1
        rcases List.mem_append.mp hi with hold | hnew
        · have := hs.below i hold
          omega
        · rw [List.mem_singleton.mp hnew]
          omega

/-- The ids move from the scans that wait to those that are answered. -/
theorem perm_ids_receive {scan : Scan} (hs : Consistent s) (hscan : scan ∈ s.fetching)
    (answer : ScanAnswer) :
    ((s.receive scan answer).arrivals.map (·.scan.id) ++
      (s.receive scan answer).fetching.map (·.id)).Perm
        (s.arrivals.map (·.scan.id) ++ s.fetching.map (·.id)) := by
  have hreceive : (s.receive scan answer).arrivals = s.arrivals ++ [⟨scan, answer⟩] ∧
      (s.receive scan answer).fetching = s.fetching.filter (·.id != scan.id) := by
    unfold receive
    split <;> exact ⟨rfl, rfl⟩
  rw [hreceive.1, hreceive.2]
  have hnodup : (s.fetching.map (·.id)).Nodup := (List.nodup_append.mp hs.nodup).2.1
  have hfilter : (s.fetching.filter (·.id != scan.id)).map (·.id) =
      (s.fetching.map (·.id)).erase scan.id := by
    rw [hnodup.erase_eq_filter, List.filter_map]
    rfl
  rw [hfilter, List.map_append, List.append_assoc]
  apply List.Perm.append_left
  exact (List.perm_cons_erase (List.mem_map_of_mem hscan)).symm

theorem consistent_receive {scan : Scan} {answer : ScanAnswer} (hs : Consistent s)
    (hscan : scan ∈ s.fetching) : Consistent (s.receive scan answer) := by
  have hperm := perm_ids_receive hs hscan answer
  have hnext : (s.receive scan answer).nextScan = s.nextScan := by
    unfold receive
    split <;> rfl
  refine ⟨?_, hperm.nodup_iff.mpr hs.nodup, ?_⟩
  · unfold receive
    split
    · next h => simp [sendScanResponse, hs.published, Arrival.publication, h]
    · next h => simp [hs.published, Arrival.publication, h]
    · next h => simp [hs.published, Arrival.publication, h]
  · intro i hi
    rw [hnext]
    exact hs.below i (hperm.mem_iff.mp hi)

theorem consistent_step {a : ScanAction} (hs : Consistent s) (h : step s a = some t) :
    Consistent t := by
  cases a with
  | environment env =>
      cases h
      exact ⟨hs.published, hs.nodup, hs.below⟩
  | handleScanNotification documentUri =>
      cases h
      exact consistent_handleScanNotification hs documentUri
  | answer id answer =>
      obtain ⟨scan, hscan, rfl⟩ := Option.map_eq_some_iff.mp h
      exact consistent_receive hs (List.mem_of_find?_eq_some hscan)
  | publishSettled id error =>
      obtain ⟨entry, -, rfl⟩ := Option.map_eq_some_iff.mp h
      exact ⟨hs.published, hs.nodup, hs.below⟩

/-! ## The last publication -/

theorem Arrival.scan_of_publication {a : Arrival} {p : Publication} (h : a.publication = some p) :
    p.scan = a.scan.id ∧ p.uri = a.scan.request.uri := by
  unfold Arrival.publication at h
  split at h
  · cases h
    exact ⟨rfl, rfl⟩
  · cases h

/-- The publications for a document are those of the scans of it that succeeded. -/
theorem published_for (hs : Consistent s) (uri : String) :
    s.published.filter (·.uri == uri) =
      (s.arrivals.filter fun a => decide (a.SucceededFor uri)).filterMap Arrival.publication := by
  rw [hs.published]
  induction s.arrivals with
  | nil => rfl
  | cons a as ih =>
      cases h : a.publication with
      | none => simp [h, Arrival.SucceededFor, ih]
      | some p =>
          have hp := (Arrival.scan_of_publication h).2
          by_cases huri : a.scan.request.uri = uri
          · simp [h, Arrival.SucceededFor, hp, huri, ih]
          · simp [h, Arrival.SucceededFor, hp, huri, ih]

/-- Scans are told apart by their ids. -/
theorem eq_of_id_eq (hs : Consistent s) {a b : Arrival} (ha : a ∈ s.arrivals) (hb : b ∈ s.arrivals)
    (h : a.scan.id = b.scan.id) : a = b :=
  List.inj_on_of_nodup_map (List.nodup_append.mp hs.nodup).1 ha hb h

/-- Among some scans there is a latest one. -/
theorem exists_latest {as : List Arrival} (hne : as ≠ []) :
    ∃ latest ∈ as, ∀ b ∈ as, b.scan.id ≤ latest.scan.id := by
  induction as with
  | nil => exact absurd rfl hne
  | cons a as ih =>
      by_cases has : as = []
      · subst has
        exact ⟨a, List.mem_cons_self, by simp⟩
      · obtain ⟨latest, hmem, hall⟩ := ih has
        by_cases hle : a.scan.id ≤ latest.scan.id
        · exact ⟨latest, List.mem_cons_of_mem a hmem, List.forall_mem_cons.mpr ⟨hle, hall⟩⟩
        · refine ⟨a, List.mem_cons_self, List.forall_mem_cons.mpr ⟨le_rfl, ?_⟩⟩
          intro b hb
          have := hall b hb
          omega

theorem latestPublished_iff_of_consistent (hs : Consistent s) (uri : String) :
    LatestPublished uri s ↔ LatestAnsweredLast uri s := by
  have hsuccess : ∀ a, a ∈ s.arrivals.filter (fun a => decide (a.SucceededFor uri)) ↔
      a ∈ s.arrivals ∧ a.SucceededFor uri := by simp
  unfold LatestPublished LatestAnsweredLast
  rw [published_for hs]
  generalize s.arrivals.filter (fun a => decide (a.SucceededFor uri)) = successes at hsuccess ⊢
  rcases List.eq_nil_or_concat successes with rfl | ⟨earlier, last, rfl⟩
  · -- No scan has succeeded.
    have hnone : ∀ a ∈ s.arrivals, ¬ a.SucceededFor uri := fun a ha hsucc =>
      List.not_mem_nil ((hsuccess a).mpr ⟨ha, hsucc⟩)
    apply iff_of_true
    · intro a ha hsucc
      exact absurd hsucc (hnone a ha)
    · intro a ha
      cases ha
  · obtain ⟨hlast, hlastSucc⟩ := (hsuccess last).mp (by simp)
    obtain ⟨p, hp⟩ := Option.isSome_iff_exists.mp hlastSucc.1
    have hend : ((earlier.concat last).filterMap Arrival.publication).getLast? =
        last.publication := by
      simp [List.concat_eq_append, List.filterMap_append, hp]
    have hlast? : (earlier.concat last).getLast? = some last := by simp
    rw [hend, hlast?]
    constructor
    · intro h a ha b hb hbsucc
      cases ha
      have hne : earlier.concat last ≠ [] := by simp
      obtain ⟨latest, hlatest, hmax⟩ := exists_latest hne
      obtain ⟨hmem, hlatestSucc⟩ := (hsuccess latest).mp hlatest
      have heq := h latest hmem hlatestSucc fun b hb hsucc => hmax b ((hsuccess b).mpr ⟨hb, hsucc⟩)
      -- The publications are the same, and so are the scans they come from.
      have hid := (Arrival.scan_of_publication hp).1
      rw [hp] at heq
      rw [← hid, (Arrival.scan_of_publication heq.symm).1]
      exact hmax b ((hsuccess b).mpr ⟨hb, hbsucc⟩)
    · intro h a ha hasucc hmax
      have hle := h last rfl a ha hasucc
      have hge := hmax last hlast hlastSucc
      rw [eq_of_id_eq hs ha hlast (le_antisymm hle hge)]

/-- **When the diagnostics are those of the latest scan.** Whatever run has led to a state, and in
particular to one in which all scans have settled: the last diagnostics published for a document are
those of the most recently started scan of it that succeeded if and only if, of the scans that
succeeded, that one was answered last. -/
theorem latestPublished_iff {env : ScanEnvironment} {actions : List ScanAction}
    (h : run step (new env) actions = some s) (uri : String) :
    LatestPublished uri s ↔ LatestAnsweredLast uri s :=
  latestPublished_iff_of_consistent
    (run_invariant (I := Consistent) (fun _ _ _ hs hstep => consistent_step hs hstep)
      (consistent_new env) h) uri

/-! ### Two scans answered in the other order -/

def sampleEnvironment : ScanEnvironment where
  getDocument uri := some ⟨uri, "eval(x)"⟩
  workspaceFolders := [⟨"file:///ws", "ws"⟩]
  project _ _ := some "group/project"
  pathOf uri := uri
  initialized := true
  remoteSecurityScans := true
  opts := some true

def sampleVulnerability : Vulnerability := ⟨"Eval", "Code injection", "high", 1, 1, 1, 8⟩

/-- The second scan finds nothing, and is answered before the first one. -/
def sampleActions : List ScanAction :=
  [.handleScanNotification "file:///ws/a.js", .handleScanNotification "file:///ws/a.js",
    .answer 1 (.vulnerabilities []), .answer 0 (.vulnerabilities [.ok sampleVulnerability]),
    .publishSettled 1 none, .publishSettled 0 none]

def sampleEnd : SecurityDiagnosticsPublisher :=
  (run step (new sampleEnvironment) sampleActions).getD (new sampleEnvironment)

def sampleRequest : ScanRequest where
  uri := "file:///ws/a.js"
  project := "group/project"
  filePath := "file:///ws/a.js"
  content := "eval(x)"

theorem sample_run : run step (new sampleEnvironment) sampleActions = some sampleEnd := rfl

theorem latestPublished_iff_sample :
    run step (new sampleEnvironment) sampleActions = some sampleEnd ∧
      (LatestPublished "file:///ws/a.js" sampleEnd ↔
        LatestAnsweredLast "file:///ws/a.js" sampleEnd) :=
  ⟨sample_run, latestPublished_iff sample_run _⟩

/-- The diagnostics that stay are those of the first scan, with all scans settled. -/
theorem older_scan_published_last :
    run step (new sampleEnvironment) sampleActions = some sampleEnd ∧
      sampleEnd.fetching = [] ∧ sampleEnd.publishing = [] ∧
      sampleEnd.published.getLast?.map (·.scan) = some 0 ∧
      ¬ LatestPublished "file:///ws/a.js" sampleEnd := by
  refine ⟨sample_run, rfl, rfl, rfl, ?_⟩
  intro h
  have harrivals : sampleEnd.arrivals =
      [⟨⟨1, sampleRequest⟩, .vulnerabilities []⟩,
        ⟨⟨0, sampleRequest⟩, .vulnerabilities [.ok sampleVulnerability]⟩] := rfl
  have hlast := h ⟨⟨1, sampleRequest⟩, .vulnerabilities []⟩ (by simp [harrivals]) (by decide)
    (by simp [harrivals])
  have hfirst : ((sampleEnd.published.filter (·.uri == "file:///ws/a.js")).getLast?).map (·.scan) =
      some 0 := rfl
  rw [hlast] at hfirst
  exact absurd hfirst (by decide)

end SecurityDiagnosticsPublisher

end KhulnasoftLsp.SecurityScan
