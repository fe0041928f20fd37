import KhulnasoftLsp.DocContext
import KhulnasoftLsp.Transition
import Mathlib.Data.List.Nodup

/-!
# The workspace folders of the configuration

A client tells the server which folders are open when it initializes it, and after that in
`didChangeWorkspaceFolders` notifications, each with the folders that were removed and added. The
handler edits the list in the configuration: it takes out every folder with the *name* of a removed
one. A folder is known by its URI, and two folders may have one name.

`configured_iff` says when the configuration keeps up with the client.
-/

namespace KhulnasoftLsp

open Transition

/-- The workspace folders of `params.event`. The protocol promises `added`; the handler does not
rely on it. -/
structure WorkspaceFoldersChangeEvent where
  added : Option (List WorkspaceFolder)
  removed : List WorkspaceFolder
  deriving DecidableEq, Repr

namespace WorkspaceFoldersChangeEvent

def addedFolders (event : WorkspaceFoldersChangeEvent) : List WorkspaceFolder :=
  event.added.getD []

def removedUris (event : WorkspaceFoldersChangeEvent) : List String := event.removed.map (·.uri)

/-- `removedKeys` -/
def removedKeys (event : WorkspaceFoldersChangeEvent) : List String := event.removed.map (·.name)

end WorkspaceFoldersChangeEvent

/-- `client.workspaceFolders` -/
structure WorkspaceConfig where
  workspaceFolders : Option (List WorkspaceFolder)
  deriving DecidableEq, Repr

namespace WorkspaceConfig

/-- `configService.get('client.workspaceFolders') || []` -/
def folders (config : WorkspaceConfig) : List WorkspaceFolder := config.workspaceFolders.getD []

/-- `notificationHandler` of `DefaultDidChangeWorkspaceFoldersHandler` -/
def notificationHandler (event : WorkspaceFoldersChangeEvent) (config : WorkspaceConfig) :
    WorkspaceConfig :=
  let afterRemoved := config.folders.filter fun f => !event.removedKeys.contains f.name
  ⟨some (afterRemoved ++ event.addedFolders)⟩

theorem mem_folders_notificationHandler {event : WorkspaceFoldersChangeEvent}
    {config : WorkspaceConfig} {f : WorkspaceFolder} :
    f ∈ (config.notificationHandler event).folders ↔
      f ∈ config.folders ∧ f.name ∉ event.removedKeys ∨ f ∈ event.addedFolders := by
  simp [notificationHandler, folders]

end WorkspaceConfig

/-! ## The client and the server -/

structure WorkspaceSystem where
  config : WorkspaceConfig
  /-- The folders that are open in the client. -/
  opened : List WorkspaceFolder
  deriving DecidableEq, Repr

namespace WorkspaceSystem

/-- `initialize`: the client may leave its folders out, and has none then. -/
def initialized (workspaceFolders : Option (List WorkspaceFolder)) : WorkspaceSystem where
  config := ⟨workspaceFolders⟩
  opened := workspaceFolders.getD []

/-- What a client may report: removed folders are open, and added ones are not. -/
def Reportable (opened : List WorkspaceFolder) (event : WorkspaceFoldersChangeEvent) : Prop :=
  (∀ uri ∈ event.removedUris, uri ∈ opened.map (·.uri)) ∧
    (event.addedFolders.map (·.uri)).Nodup ∧
    ∀ f ∈ event.addedFolders, f.uri ∉ opened.map (·.uri)
  deriving Decidable

/-- The folders that are open once the client has made a change. -/
def openedAfter (event : WorkspaceFoldersChangeEvent) (opened : List WorkspaceFolder) :
    List WorkspaceFolder :=
  opened.filter (fun f => !event.removedUris.contains f.uri) ++ event.addedFolders

/-- The client changes its folders and notifies the server. -/
def step (s : WorkspaceSystem) (event : WorkspaceFoldersChangeEvent) : Option WorkspaceSystem :=
  if Reportable s.opened event then
    some ⟨s.config.notificationHandler event, openedAfter event s.opened⟩
  else
    none

/-- The configured folders are the open ones, and each URI is configured once. -/
def Configured (s : WorkspaceSystem) : Prop :=
  (∀ f, f ∈ s.config.folders ↔ f ∈ s.opened) ∧ (s.config.folders.map (·.uri)).Nodup

/-- Of the open folders, those with the name of a removed folder are the removed ones. -/
def NamesTellRemoved (s : WorkspaceSystem) (event : WorkspaceFoldersChangeEvent) : Prop :=
  ∀ f ∈ s.opened, f.name ∈ event.removedKeys ↔ f.uri ∈ event.removedUris
  deriving Decidable

variable {s t : WorkspaceSystem} {event : WorkspaceFoldersChangeEvent}

theorem step_eq_some (h : step s event = some t) :
    Reportable s.opened event ∧
      t = ⟨s.config.notificationHandler event, openedAfter event s.opened⟩ := by
  unfold step at h
  split at h
  · next hr =>
      cases h
      exact ⟨hr, rfl⟩
  · cases h

theorem mem_openedAfter {opened : List WorkspaceFolder} {f : WorkspaceFolder} :
    f ∈ openedAfter event opened ↔
      f ∈ opened ∧ f.uri ∉ event.removedUris ∨ f ∈ event.addedFolders := by
  simp [openedAfter]

/-- Folders that are kept and new ones have different URIs. -/
theorem nodup_append_added {folders opened : List WorkspaceFolder}
    (hnd : (folders.map (·.uri)).Nodup) (hsub : ∀ f ∈ folders, f ∈ opened)
    (hr : Reportable opened event) (kept : WorkspaceFolder → Bool) :
    ((folders.filter kept ++ event.addedFolders).map (·.uri)).Nodup := by
  rw [List.map_append, List.nodup_append]
  refine ⟨hnd.sublist (List.filter_sublist.map _), hr.2.1, ?_⟩
  intro uri huri _ hadded heq
  subst heq
  obtain ⟨f, hf, rfl⟩ := List.mem_map.mp huri
  obtain ⟨g, hg, hgf⟩ := List.mem_map.mp hadded
  apply hr.2.2 g hg
  rw [hgf]
  exact List.mem_map_of_mem (hsub f (List.mem_of_mem_filter hf))

theorem nodup_opened_step (hnd : (s.opened.map (·.uri)).Nodup) (h : step s event = some t) :
    (t.opened.map (·.uri)).Nodup := by
  obtain ⟨hr, rfl⟩ := step_eq_some h
  exact nodup_append_added hnd (fun _ hf => hf) hr _

/-- One notification keeps the configuration up exactly when names tell the removed folders from
those that stay. -/
theorem configured_step (hc : Configured s) (h : step s event = some t) :
    Configured t ↔ NamesTellRemoved s event := by
  obtain ⟨hr, rfl⟩ := step_eq_some h
  have hnew : ∀ f ∈ s.opened, f ∉ event.addedFolders := fun f hf hadded =>
    hr.2.2 f hadded (List.mem_map_of_mem hf)
  constructor
  · intro ht f hf
    have hmem := ht.1 f
    rw [WorkspaceConfig.mem_folders_notificationHandler, mem_openedAfter, hc.1 f] at hmem
    have := hnew f hf
    grind
  · intro hnames
    refine ⟨?_, nodup_append_added hc.2 (fun f hf => (hc.1 f).mp hf) hr _⟩
    intro f
    rw [WorkspaceConfig.mem_folders_notificationHandler, mem_openedAfter, hc.1 f]
    have := hnames f
    grind

theorem configured_initialized {workspaceFolders : Option (List WorkspaceFolder)}
    (hnd : ((workspaceFolders.getD []).map (·.uri)).Nodup) :
    Configured (initialized workspaceFolders) :=
  ⟨fun _ => Iff.rfl, hnd⟩

/-- **Which runs the configuration keeps up with.** After every notification of a run the configured
folders are the client's open ones, each URI once, if and only if with every notification the open
folders that have the name of a removed folder are the removed ones. -/
theorem configured_iff {workspaceFolders : Option (List WorkspaceFolder)}
    (hnd : ((workspaceFolders.getD []).map (·.uri)).Nodup)
    {events : List WorkspaceFoldersChangeEvent}
    (h : run step (initialized workspaceFolders) events = some t) :
    Always step Configured (initialized workspaceFolders) events ↔
      Guarded step NamesTellRemoved (initialized workspaceFolders) events :=
  always_iff_guarded (I := fun _ => True) (fun _ _ _ _ _ _ _ => trivial)
    (fun _ _ _ _ hc hstep => configured_step hc hstep) trivial (configured_initialized hnd) h

/-! ## Names as the client has them -/

/-- The removed folders are named as they are open. -/
def NamedAsOpened (s : WorkspaceSystem) (event : WorkspaceFoldersChangeEvent) : Prop :=
  ∀ f ∈ event.removed, f ∈ s.opened

/-- No folder that stays open has the name of a removed one. -/
def NoNameShared (s : WorkspaceSystem) (event : WorkspaceFoldersChangeEvent) : Prop :=
  ∀ f ∈ s.opened, ∀ g ∈ event.removed, f.name = g.name → f.uri ∈ event.removedUris

/-- With the names that the client has, only a shared name can do harm. -/
theorem namesTellRemoved_iff (hnd : (s.opened.map (·.uri)).Nodup) (hnamed : NamedAsOpened s event) :
    NamesTellRemoved s event ↔ NoNameShared s event := by
  constructor
  · intro h f hf g hg hname
    exact (h f hf).mp (List.mem_map.mpr ⟨g, hg, hname.symm⟩)
  · intro h f hf
    constructor
    · intro hkey
      obtain ⟨g, hg, hname⟩ := List.mem_map.mp hkey
      exact h f hf g hg hname.symm
    · intro huri
      obtain ⟨g, hg, hgf⟩ := List.mem_map.mp huri
      have : g = f := List.inj_on_of_nodup_map hnd (hnamed g hg) hf hgf
      exact this ▸ List.mem_map_of_mem hg

/-- A folder that is not open is not configured either, however often names are shared. -/
theorem folders_subset_opened {events : List WorkspaceFoldersChangeEvent}
    (hnamed : Guarded step NamedAsOpened s events) (hsub : s.config.folders ⊆ s.opened)
    (hnd : (s.opened.map (·.uri)).Nodup) (h : run step s events = some t) :
    t.config.folders ⊆ t.opened := by
  let I (s : WorkspaceSystem) : Prop :=
    s.config.folders ⊆ s.opened ∧ (s.opened.map (·.uri)).Nodup
  have hI : ∀ s event t, I s → NamedAsOpened s event → step s event = some t → I t := by
    intro s event t hs hok hstep
    refine ⟨?_, nodup_opened_step hs.2 hstep⟩
    obtain ⟨-, rfl⟩ := step_eq_some hstep
    intro f hf
    rw [mem_openedAfter]
    rcases WorkspaceConfig.mem_folders_notificationHandler.mp hf with ⟨hold, hname⟩ | hadded
    · left
      refine ⟨hs.1 hold, ?_⟩
      intro huri
      obtain ⟨g, hg, hgf⟩ := List.mem_map.mp huri
      have : g = f := List.inj_on_of_nodup_map hs.2 (hok g hg) (hs.1 hold) hgf
      exact hname (this ▸ List.mem_map_of_mem hg)
    · exact Or.inr hadded
  exact (guarded_invariant (I := I) hI ⟨hsub, hnd⟩ hnamed h).1

/-! ### Two folders with one name -/

def sampleOne : WorkspaceFolder := ⟨"file:///one/app", "app"⟩
def sampleTwo : WorkspaceFolder := ⟨"file:///two/app", "app"⟩

/-- The client opens a second `app` and closes the first. -/
def sampleEvents : List WorkspaceFoldersChangeEvent :=
  [⟨some [sampleTwo], []⟩, ⟨some [], [sampleOne]⟩]

theorem configured_iff_sample :
    (∃ t, run step (initialized (some [sampleOne])) sampleEvents = some t) ∧
      (Always step Configured (initialized (some [sampleOne])) sampleEvents ↔
        Guarded step NamesTellRemoved (initialized (some [sampleOne])) sampleEvents) :=
  ⟨⟨_, rfl⟩, configured_iff (by decide) rfl⟩

/-- The folder that stays open is no longer configured. -/
theorem shared_name_forgets_opened :
    ∃ t, run step (initialized (some [sampleOne])) sampleEvents = some t ∧
      t.opened = [sampleTwo] ∧ t.config.folders = [] ∧
      ¬ Always step Configured (initialized (some [sampleOne])) sampleEvents := by
  refine ⟨⟨⟨some []⟩, [sampleTwo]⟩, rfl, rfl, rfl, ?_⟩
  intro hall
  have hend := (hall sampleEvents [] _ (by simp) rfl).1 sampleTwo
  exact absurd (hend.mpr List.mem_cons_self) List.not_mem_nil

end WorkspaceSystem

end KhulnasoftLsp
