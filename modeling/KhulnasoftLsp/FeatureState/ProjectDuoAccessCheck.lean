import KhulnasoftLsp.DuoAccess.WorkspaceProjectAccessCache

/-!
# The check that Duo is enabled for the project of the document

`DefaultProjectDuoAccessCheck` looks at the active document again whenever the document, the
configuration or the cache of the projects changes. A check takes the setting for files outside of a
project at once, waits for the workspace folder, and only then asks the cache; so checks overlap,
and one that waited asks for the document that is active by then, with the folder of the document
that was active before.

Every check waits for the same number of steps, so that they end in the order in which they were
started. Then the last one decides, unless an older one decided on a folder where the last one does
not: `settled_of_run`.
-/

namespace KhulnasoftLsp

open Transition DuoAccess

/-- What of the configuration of the client the check reads. -/
structure DuoClientConfig where
  /-- `duo?.enabledWithoutGitlabProject` -/
  enabledWithoutGitlabProject : Option Bool
  workspaceFolders : Option (List WorkspaceFolder)
  deriving DecidableEq, Repr

structure DefaultProjectDuoAccessCheck where
  client : DuoClientConfig
  duoProjectAccessCache : WorkspaceCache
  isEnabledInSettings : Bool
  /-- The URI of the active document. -/
  currentDocument : Option String
  hasDuoAccess : Option Bool
  /-- The checks under way, each with the workspace folder that it is waiting for. -/
  pending : List (Option WorkspaceFolder)
  /-- What the listeners were told. -/
  emitted : List Bool

inductive DuoCheckAction where
  | init
  | onDidSetActive (uri : String)
  | onConfigChange (client : DuoClientConfig)
  | cache (action : Action)
  /-- The check that has waited longest goes on. -/
  | resume

namespace DefaultProjectDuoAccessCheck

/-- Before `init`, with the settings that the client starts from. -/
def new (workspaceFolders : Option (List WorkspaceFolder)) : DefaultProjectDuoAccessCheck where
  client := ⟨some true, workspaceFolders⟩
  duoProjectAccessCache := .new
  isEnabledInSettings := true
  currentDocument := none
  hasDuoAccess := none
  pending := []
  emitted := []

def engaged (s : DefaultProjectDuoAccessCheck) : Bool := !(s.hasDuoAccess == some true)

/-- `this.#stateEmitter.emit('change', this)` -/
def emitChange (s : DefaultProjectDuoAccessCheck) : DefaultProjectDuoAccessCheck :=
  { s with emitted := s.emitted ++ [s.engaged] }

/-- `#getWorkspaceFolderForUri` -/
def getWorkspaceFolderForUri (uri : String) (client : DuoClientConfig) : Option WorkspaceFolder :=
  client.workspaceFolders.bind fun folders =>
    folders.find? fun folder => folder.uri.toList.isPrefixOf uri.toList

/-- `#checkIfProjectHasDuoAccess`, up to where it waits for the folder. -/
def checkIfProjectHasDuoAccess (s : DefaultProjectDuoAccessCheck) : DefaultProjectDuoAccessCheck :=
  let s := { s with hasDuoAccess := some s.isEnabledInSettings }
  match s.currentDocument with
  | none => s.emitChange
  | some uri => { s with pending := s.pending ++ [getWorkspaceFolderForUri uri s.client] }

/-- The access that a status stands for, if it does for any. -/
def accessOf : DuoProjectStatus → Option Bool
  | .DuoEnabled => some true
  | .DuoDisabled => some false
  | .NonGitlabProject => none

/-- What the projects of the folder say about the active document. -/
def decision (s : DefaultProjectDuoAccessCheck) (workspaceFolder : Option WorkspaceFolder) :
    Option Bool := do
  let uri ← s.currentDocument
  let folder ← workspaceFolder
  accessOf (s.duoProjectAccessCache.checkProjectStatus uri folder).2

/-- The rest of `#checkIfProjectHasDuoAccess`, when the folder is there. -/
def afterFolder (workspaceFolder : Option WorkspaceFolder) (s : DefaultProjectDuoAccessCheck) :
    DefaultProjectDuoAccessCheck :=
  { s with hasDuoAccess := (s.decision workspaceFolder).or s.hasDuoAccess }.emitChange

variable (parse : String → String → Option KhulnaSoftRemote)

/-- A call of `updateCache` that has failed does not tell its listeners. -/
def updateSucceeds (s : DefaultProjectDuoAccessCheck) : Action → Bool
  | .updateCache _ => false
  | .updateEnds id answers =>
    (s.duoProjectAccessCache.inFlight.find? (·.id = id)).any fun u =>
      (fetchFolders parse u.args answers).isSome

def step (s : DefaultProjectDuoAccessCheck) :
    DuoCheckAction → Option DefaultProjectDuoAccessCheck
  | .init => some s.checkIfProjectHasDuoAccess
  | .onDidSetActive uri => some { s with currentDocument := some uri }.checkIfProjectHasDuoAccess
  | .onConfigChange client =>
    some { s with
      client := client
      isEnabledInSettings := client.enabledWithoutGitlabProject == some true
    }.checkIfProjectHasDuoAccess
  | .cache action =>
    (s.duoProjectAccessCache.step parse action).map fun cache =>
      let told := { s with duoProjectAccessCache := cache }
      if s.updateSucceeds parse action then told.checkIfProjectHasDuoAccess else told
  | .resume =>
    match s.pending with
    | [] => none
    | workspaceFolder :: pending => some ({ s with pending := pending }.afterFolder workspaceFolder)

/-! ## What the checks settle on -/

/-- The folder of the active document. -/
def currentFolder (s : DefaultProjectDuoAccessCheck) : Option WorkspaceFolder :=
  s.currentDocument.bind fun uri => getWorkspaceFolderForUri uri s.client

/-- The project decides, and outside of a project the setting does. The project is the one that the
code itself looks up by the path. -/
def hasAccess (s : DefaultProjectDuoAccessCheck) : Bool :=
  (s.decision s.currentFolder).getD (s.client.enabledWithoutGitlabProject == some true)

/-- No call of `updateCache` fails, and no older check decides otherwise than the setting does where
the folder of the document does not decide. -/
def Undisturbed (s : DefaultProjectDuoAccessCheck) : DuoCheckAction → Prop
  | .cache (.updateEnds id answers) => s.updateSucceeds parse (.updateEnds id answers) = true
  | .resume => 1 < s.pending.length → s.decision s.currentFolder = none →
      ∀ access ∈ s.pending.head?.bind s.decision, access = s.isEnabledInSettings
  | _ => True

instance (s : DefaultProjectDuoAccessCheck) : ∀ a, Decidable (s.Undisturbed parse a)
  | .cache (.updateEnds id answers) =>
    inferInstanceAs (Decidable (s.updateSucceeds parse (.updateEnds id answers) = true))
  | .resume =>
    inferInstanceAs (Decidable (1 < s.pending.length → s.decision s.currentFolder = none →
      ∀ access ∈ s.pending.head?.bind s.decision, access = s.isEnabledInSettings))
  | .init => .isTrue trivial
  | .onDidSetActive _ => .isTrue trivial
  | .onConfigChange _ => .isTrue trivial
  | .cache (.updateCache _) => .isTrue trivial

/-- What holds of every state in a run of such steps. -/
structure Tracked (s : DefaultProjectDuoAccessCheck) : Prop where
  settings : s.isEnabledInSettings = (s.client.enabledWithoutGitlabProject == some true)
  inactive : s.currentDocument = none → s.pending = []
  /-- The last check waits for the folder of the active document. -/
  newest : ∀ folder ∈ s.pending.getLast?, folder = s.currentFolder
  /-- And what it does not decide is as in the settings. -/
  undecided : s.duoProjectAccessCache.inFlight = [] → s.pending ≠ [] →
    s.decision s.currentFolder = none → s.hasDuoAccess = some s.isEnabledInSettings
  settled : s.duoProjectAccessCache.inFlight = [] → s.pending = [] →
    s.emitted ≠ [] → s.hasDuoAccess = some s.hasAccess
  /-- While no check is under way, the listeners know. -/
  told : s.pending = [] → ∀ engaged ∈ s.emitted.getLast?, engaged = s.engaged

theorem tracked_new (workspaceFolders : Option (List WorkspaceFolder)) :
    Tracked (new workspaceFolders) where
  settings := rfl
  inactive := fun _ => rfl
  newest := by simp [new]
  undecided := by simp [new]
  settled := by simp [new]
  told := by simp [new]

variable {parse} {s t : DefaultProjectDuoAccessCheck}

/-- A check that starts takes the setting, and is the last one. -/
theorem tracked_checkIfProjectHasDuoAccess
    (hsettings : s.isEnabledInSettings = (s.client.enabledWithoutGitlabProject == some true))
    (hinactive : s.currentDocument = none → s.pending = []) :
    Tracked s.checkIfProjectHasDuoAccess := by
  unfold checkIfProjectHasDuoAccess
  cases hdocument : s.currentDocument with
  | none =>
      have hpending := hinactive hdocument
      refine ⟨hsettings, fun _ => hpending, ?_, ?_, ?_, ?_⟩
      · simp [emitChange, hpending]
      · intro _ hne
        exact absurd hpending hne
      · intro _ _ _
        simp [emitChange, hasAccess, decision, hsettings]
      · intro _ engaged hengaged
        simp only [emitChange, List.getLast?_concat, Option.mem_some_iff] at hengaged
        exact hengaged.symm
  | some uri =>
      have hne : s.pending ++ [getWorkspaceFolderForUri uri s.client] ≠ [] := by simp
      refine ⟨hsettings, ?_, ?_, ?_, ?_, ?_⟩
      · intro h
        cases h
      · simp [currentFolder]
      · intro _ _ _
        rfl
      · intro _ hpending
        exact absurd hpending hne
      · intro hpending
        exact absurd hpending hne

/-- A check that ends leaves what the newest one takes over, or what the project says. -/
theorem tracked_afterFolder (hs : Tracked s) {folder : Option WorkspaceFolder}
    {pending : List (Option WorkspaceFolder)} (hpending : s.pending = folder :: pending)
    (hok : Undisturbed parse s .resume) :
    Tracked ({ s with pending := pending }.afterFolder folder) := by
  have hdecision (f : Option WorkspaceFolder) :
      ({ s with pending := pending }.afterFolder folder).decision f = s.decision f := rfl
  have hfolder : ({ s with pending := pending }.afterFolder folder).currentFolder =
      s.currentFolder := rfl
  have hne : s.pending ≠ [] := by simp [hpending]
  refine ⟨hs.settings, ?_, ?_, ?_, ?_, ?_⟩
  · intro h
    exact absurd (hs.inactive h) hne
  · intro f hf
    rw [hfolder]
    apply hs.newest f
    rw [hpending, List.getLast?_cons]
    have hf : pending.getLast? = some f := hf
    simp [hf]
  · intro hinFlight hrest hundecided
    rw [hdecision, hfolder] at hundecided
    have hbefore := hs.undecided hinFlight hne hundecided
    have hlater : pending ≠ [] := hrest
    have hlength : 1 < s.pending.length := by
      have := List.length_pos_of_ne_nil hlater
      simp only [hpending, List.length_cons]
      omega
    show (s.decision folder).or s.hasDuoAccess = some s.isEnabledInSettings
    cases hdecided : s.decision folder with
    | none => exact hbefore
    | some access =>
        have haccess := hok hlength hundecided access (by simp [hpending, hdecided])
        rw [haccess]
        rfl
  · intro hinFlight hrest _
    obtain rfl : pending = [] := hrest
    obtain rfl : folder = s.currentFolder := hs.newest folder (by simp [hpending])
    show (s.decision s.currentFolder).or s.hasDuoAccess = some ((s.decision s.currentFolder).getD _)
    cases hdecided : s.decision s.currentFolder with
    | some access => rfl
    | none =>
        rw [hs.undecided hinFlight hne hdecided, hs.settings]
        rfl
  · intro _ engaged hengaged
    simp only [afterFolder, emitChange, List.getLast?_concat, Option.mem_some_iff] at hengaged
    exact hengaged.symm

theorem tracked_step {a : DuoCheckAction} (hs : Tracked s) (hok : Undisturbed parse s a)
    (h : s.step parse a = some t) : Tracked t := by
  cases a with
  | init =>
      cases h
      exact tracked_checkIfProjectHasDuoAccess hs.settings hs.inactive
  | onDidSetActive uri =>
      cases h
      exact tracked_checkIfProjectHasDuoAccess hs.settings (by simp)
  | onConfigChange client =>
      cases h
      exact tracked_checkIfProjectHasDuoAccess rfl hs.inactive
  | cache action =>
      obtain ⟨cache, hcache, rfl⟩ := Option.map_eq_some_iff.mp h
      cases action with
      | updateCache args =>
          -- the call is in flight now, and nothing is settled before it ends
          cases hcache
          have hinFlight : (s.duoProjectAccessCache.updateCache args).inFlight ≠ [] := by
            simp [WorkspaceCache.updateCache]
          refine ⟨hs.settings, hs.inactive, hs.newest, ?_, ?_, hs.told⟩
          · intro hnil
            exact absurd hnil hinFlight
          · intro hnil
            exact absurd hnil hinFlight
      | updateEnds id answers =>
          simp only [show s.updateSucceeds parse (.updateEnds id answers) = true from hok, if_true]
          exact tracked_checkIfProjectHasDuoAccess hs.settings hs.inactive
  | resume =>
      rw [step] at h
      split at h
      · cases h
      · rename_i folder pending hpending
        cases h
        exact tracked_afterFolder hs hpending hok

/-- **When the checks and the updates of the cache have ended, the answer is that of the active
document, of the folder that it is in, of the projects and of the settings as they are then, and it
is what the listeners were told last.** -/
theorem settled_of_run {workspaceFolders : Option (List WorkspaceFolder)}
    {actions : List DuoCheckAction} (h : run (step parse) (new workspaceFolders) actions = some s)
    (hok : Guarded (step parse) (Undisturbed parse) (new workspaceFolders) actions)
    (hpending : s.pending = []) (hinFlight : s.duoProjectAccessCache.inFlight = []) :
    ∀ engaged ∈ s.emitted.getLast?, engaged = s.engaged ∧ engaged = !s.hasAccess := by
  have hs : Tracked s := guarded_invariant (I := Tracked)
    (fun s a t hs hok ha => tracked_step hs hok ha) (tracked_new workspaceFolders) hok h
  intro engaged hengaged
  have htold := hs.told hpending engaged hengaged
  refine ⟨htold, ?_⟩
  have hne : s.emitted ≠ [] := List.ne_nil_of_mem (List.mem_of_getLast? hengaged)
  rw [htold, DefaultProjectDuoAccessCheck.engaged, hs.settled hinFlight hpending hne]
  cases s.hasAccess <;> rfl

section Sample

open WorkspaceCache (sampleParse sampleArgs sampleAnswers)

def sampleStart : DefaultProjectDuoAccessCheck := new (some [⟨"file:///a", "a"⟩])

/-- A document of a project with Duo disabled: two checks overlap, and both find that out. -/
def sampleChecks : List DuoCheckAction :=
  [.init, .cache (.updateCache (sampleArgs "file:///a")), .onDidSetActive "file:///a/x.ts",
    .cache (.updateEnds 0 (sampleAnswers "file:///a" (.ok (some false)))), .resume, .resume]

theorem settled_of_run_of_disabled :
    ∃ s, run (step sampleParse) sampleStart sampleChecks = some s ∧ s.engaged = true ∧
      ∀ engaged ∈ s.emitted.getLast?, engaged = s.engaged ∧ engaged = !s.hasAccess := by
  obtain ⟨s, hs⟩ : ∃ s, run (step sampleParse) sampleStart sampleChecks = some s :=
    Option.isSome_iff_exists.mp (by decide +kernel)
  have hstate : ∀ s ∈ run (step sampleParse) sampleStart sampleChecks,
      s.pending = [] ∧ s.duoProjectAccessCache.inFlight = [] ∧ s.engaged = true := by
    decide +kernel
  obtain ⟨hpending, hinFlight, hengaged⟩ := hstate s hs
  exact ⟨s, hs, hengaged, settled_of_run hs (by decide +kernel) hpending hinFlight⟩

/-- And then the folder cannot be read. -/
def failedChecks : List DuoCheckAction :=
  sampleChecks ++ [.cache (.updateCache (sampleArgs "file:///a")),
    .cache (.updateEnds 1 fun _ => ⟨none, fun _ => .error ()⟩)]

/-- A call of `updateCache` that fails has emptied the cache, and nobody is told. -/
theorem not_settled_of_failed_update :
    ∃ s, run (step sampleParse) sampleStart failedChecks = some s ∧ s.pending = [] ∧
      s.duoProjectAccessCache.inFlight = [] ∧ s.engaged = true ∧ s.hasAccess = true := by
  obtain ⟨s, hs⟩ : ∃ s, run (step sampleParse) sampleStart failedChecks = some s :=
    Option.isSome_iff_exists.mp (by decide +kernel)
  have hstate : ∀ s ∈ run (step sampleParse) sampleStart failedChecks, s.pending = [] ∧
      s.duoProjectAccessCache.inFlight = [] ∧ s.engaged = true ∧ s.hasAccess = true := by
    decide +kernel
  exact ⟨s, hs, hstate s hs⟩

end Sample

end DefaultProjectDuoAccessCheck

end KhulnasoftLsp
