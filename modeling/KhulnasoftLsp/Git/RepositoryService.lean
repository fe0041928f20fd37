import KhulnasoftLsp.DocContext
import KhulnasoftLsp.OrderedMap
import KhulnasoftLsp.SerialQueue
import KhulnasoftLsp.Transition
import Mathlib.Logic.Function.Basic

/-!
# The queues of the repository service

The repository service keeps the repositories of each workspace folder up to date. When the files
of a folder are known, or one of its git files changes, the repositories of the folder are rebuilt
from scratch. Each other file change is a small update of what is there.

Two kinds of queue order this work. Each folder has a queue for its rebuilds, and one queue for all
folders holds the file updates. A rebuild pauses the queue of the file updates when it begins, and
starts it again as its last act.

The model is about this order: which task of which queue runs when, and at which `await` another
one gets its turn. What a rebuild does to the repositories, and whether it throws, is up to the
run, as is whether a file update asks for a rebuild.
-/

namespace KhulnasoftLsp.Git

/-- The data of a `WorkspaceFileEvent`: a file that has changed, and its workspace folder. -/
structure WorkspaceFileUpdate where
  uri : String
  workspaceFolder : WorkspaceFolder
  deriving DecidableEq, Repr

/-- How far a call of `#queueSetWorkspaceRepositories` has come, and with it the run of
`#setWorkspaceRepositories` that it has queued. -/
inductive Progress where
  /-- The run waits in the queue. -/
  | waiting
  /-- The run has paused the queue of the file updates, and goes on. -/
  | running
  /-- The run has started the queue of the file updates, and is over. -/
  | returned
  /-- The run is over because it threw. -/
  | threw
  /-- The promise of `queue.add` is fulfilled. -/
  | fulfilled
  /-- The promise of `queue.add` is rejected. -/
  | rejected
  /-- The call has stored its queue, and awaits that it is idle. -/
  | awaitsIdle
  /-- The promise of the call is settled. -/
  | settled
  deriving DecidableEq, Repr

namespace Progress

/-- The queue holds the task of the run as the one it runs. -/
def isActive : Progress → Bool
  | running | returned | threw => true
  | _ => false

/-- The call has still to store its queue, unless its run throws. -/
def mayStore : Progress → Bool
  | waiting | running | returned | fulfilled => true
  | _ => false

end Progress

/-- A call of `#queueSetWorkspaceRepositories`, with the address of the queue that it uses. -/
structure Rebuild where
  workspaceFolder : WorkspaceFolder
  queue : Nat
  /-- Whether it is the file update being handled that makes the call, and awaits it. -/
  fromFileUpdate : Bool
  progress : Progress
  deriving DecidableEq, Repr

/-- The queues of the service. A rebuild is named by its place among all rebuilds, in the order in
which they were queued. -/
structure RepositoryService where
  fileChangeQueue : SerialQueue WorkspaceFileUpdate
  /-- The updates whose handling has started, first one first. -/
  handledUpdates : List WorkspaceFileUpdate
  /-- The address of the queue of a folder, by the URI of the folder. -/
  setWorkspaceRepositoriesQueueMap : OrderedMap String Nat
  /-- The queue at each address. -/
  queues : Nat → SerialQueue Nat
  /-- The first address at which no queue has been created. -/
  nextQueue : Nat
  rebuilds : List Rebuild

/-- What can happen. A step is what the code does from one `await` to the next. -/
inductive Action where
  /-- The files of a workspace folder are known. -/
  | workspaceFilesEvent (workspaceFolder : WorkspaceFolder)
  /-- A file has changed. -/
  | workspaceFileEvent (data : WorkspaceFileUpdate)
  /-- The handler of the running file update has found the files of its folder, since a git file
  has changed, and asks for a rebuild. -/
  | handleWorkspaceFolderStateChange
  /-- The running file update has been handled. -/
  | updateHandled
  /-- The files are added to the repositories of the rebuild. -/
  | rebuildReturns (r : Nat)
  /-- The rebuild throws. -/
  | rebuildThrows (r : Nat)
  /-- The queue of the rebuild notices that it is over. -/
  | addSettles (r : Nat)
  /-- The call that has queued the rebuild goes on after `await queue.add`. -/
  | callResumes (r : Nat)
  deriving DecidableEq, Repr

namespace RepositoryService

def new : RepositoryService where
  fileChangeQueue := .new
  handledUpdates := []
  setWorkspaceRepositoriesQueueMap := .empty
  queues := fun _ => .new
  nextQueue := 0
  rebuilds := []

/-- How far the rebuild `r` has come. -/
def progress (r : Nat) (s : RepositoryService) : Option Progress :=
  s.rebuilds[r]?.map (·.progress)

def setProgress (r : Nat) (p : Progress) (s : RepositoryService) : RepositoryService :=
  { s with rebuilds := s.rebuilds.modify r fun b => { b with progress := p } }

/-- `#setWorkspaceRepositories`, up to its `await`. -/
def setWorkspaceRepositories (r : Nat) (s : RepositoryService) : RepositoryService :=
  { s.setProgress r .running with fileChangeQueue := s.fileChangeQueue.pause }

/-- The queue at an address has changed, and a rebuild that it has started runs up to its
`await`. -/
def withQueue (queue : Nat) (next : SerialQueue Nat × Option Nat) (s : RepositoryService) :
    RepositoryService :=
  next.2.elim id setWorkspaceRepositories
    { s with queues := Function.update s.queues queue next.1 }

/-- The queue of the file updates has changed, and may have started an update. -/
def withFileChangeQueue (next : SerialQueue WorkspaceFileUpdate × Option WorkspaceFileUpdate)
    (s : RepositoryService) : RepositoryService :=
  { s with fileChangeQueue := next.1, handledUpdates := s.handledUpdates ++ next.2.toList }

/-- The queue that is stored for the folder, or else the next one to be created. -/
def queueOf (workspaceFolder : WorkspaceFolder) (s : RepositoryService) : Nat :=
  (s.setWorkspaceRepositoriesQueueMap.get workspaceFolder.uri).getD s.nextQueue

/-- A new call of `#queueSetWorkspaceRepositories`. It creates a queue, but does not store it, if
the folder has none. -/
def appendRebuild (workspaceFolder : WorkspaceFolder) (fromFileUpdate : Bool)
    (s : RepositoryService) : RepositoryService :=
  let isStored := (s.setWorkspaceRepositoriesQueueMap.get workspaceFolder.uri).isSome
  let rebuild : Rebuild := { workspaceFolder, queue := s.queueOf workspaceFolder, fromFileUpdate
                             progress := .waiting }
  { s with nextQueue := if isStored then s.nextQueue else s.nextQueue + 1
           rebuilds := s.rebuilds ++ [rebuild] }

/-- `#queueSetWorkspaceRepositories`, up to its `await`. -/
def queueSetWorkspaceRepositories (workspaceFolder : WorkspaceFolder) (fromFileUpdate : Bool)
    (s : RepositoryService) : RepositoryService :=
  let queue := s.queueOf workspaceFolder
  (s.appendRebuild workspaceFolder fromFileUpdate).withQueue queue
    ((s.queues queue).add s.rebuilds.length)

/-- Those who await that the queue is idle go on if it is. -/
def emitIdle (queue : Nat) (s : RepositoryService) : RepositoryService :=
  if (s.queues queue).isIdle then
    { s with rebuilds := s.rebuilds.map fun b =>
        if b.queue = queue ∧ b.progress = .awaitsIdle then { b with progress := .settled } else b }
  else s

/-- The task of the rebuild `b` at `r` has settled, and its queue starts the next one. -/
def settleAdd (r : Nat) (b : Rebuild) (p : Progress) (s : RepositoryService) :
    RepositoryService :=
  emitIdle b.queue ((s.setProgress r p).withQueue b.queue (s.queues b.queue).settle)

/-- `#queueSetWorkspaceRepositories`, after its `await`: the queue is stored, and the call awaits
that it is idle. -/
def storeQueue (r : Nat) (b : Rebuild) (s : RepositoryService) : RepositoryService :=
  { s.setProgress r (if (s.queues b.queue).isIdle then .settled else .awaitsIdle) with
    setWorkspaceRepositoriesQueueMap :=
      s.setWorkspaceRepositoriesQueueMap.set b.workspaceFolder.uri b.queue }

/-- The file update that is being handled awaits no rebuild. -/
def awaitsNoRebuild (s : RepositoryService) : Bool :=
  s.rebuilds.all fun b => !b.fromFileUpdate || b.progress == .settled

def step (s : RepositoryService) : Action → Option RepositoryService
  | .workspaceFilesEvent workspaceFolder =>
    some (s.queueSetWorkspaceRepositories workspaceFolder false)
  | .workspaceFileEvent data => some (s.withFileChangeQueue (s.fileChangeQueue.add data))
  | .handleWorkspaceFolderStateChange =>
    s.fileChangeQueue.running.map fun data =>
      s.queueSetWorkspaceRepositories data.workspaceFolder true
  | .updateHandled =>
    if s.fileChangeQueue.running.isSome && s.awaitsNoRebuild then
      some (s.withFileChangeQueue s.fileChangeQueue.settle)
    else none
  | .rebuildReturns r =>
    if s.progress r = some .running then
      -- whoever else is rebuilding: the pauses are not counted
      some ((s.setProgress r .returned).withFileChangeQueue s.fileChangeQueue.start)
    else none
  | .rebuildThrows r =>
    -- the last statement, which starts the queue, is not reached
    if s.progress r = some .running then some (s.setProgress r .threw) else none
  | .addSettles r =>
    match s.rebuilds[r]? with
    | none => none
    | some b =>
      match b.progress with
      | .returned => some (s.settleAdd r b .fulfilled)
      | .threw => some (s.settleAdd r b .rejected)
      | _ => none
  | .callResumes r =>
    match s.rebuilds[r]? with
    | none => none
    | some b =>
      match b.progress with
      | .fulfilled => some (s.storeQueue r b)
      -- `await` throws, and the queue is never stored
      | .rejected => some (s.setProgress r .settled)
      | _ => none

/-! ## The rebuilds after a change of the queues -/

theorem getElem?_setProgress (r : Nat) (p : Progress) (s : RepositoryService) (r' : Nat) :
    (s.setProgress r p).rebuilds[r']? =
      s.rebuilds[r']?.map fun b => if r = r' then { b with progress := p } else b := by
  simp only [setProgress, List.getElem?_modify]
  cases s.rebuilds[r']? <;> rfl

@[simp] theorem queues_setProgress (r : Nat) (p : Progress) (s : RepositoryService) :
    (s.setProgress r p).queues = s.queues := rfl

theorem getElem?_appendRebuild (workspaceFolder : WorkspaceFolder) (fromFileUpdate : Bool)
    (s : RepositoryService) (r : Nat) :
    (s.appendRebuild workspaceFolder fromFileUpdate).rebuilds[r]? =
      if r = s.rebuilds.length then
        some { workspaceFolder, queue := s.queueOf workspaceFolder, fromFileUpdate
               progress := .waiting }
      else s.rebuilds[r]? := by
  simp only [appendRebuild, List.getElem?_append]
  grind

theorem progress_eq_some {r : Nat} {p : Progress} {s : RepositoryService} :
    s.progress r = some p ↔ ∃ b, s.rebuilds[r]? = some b ∧ b.progress = p := by
  simp [progress, Option.map_eq_some_iff]

/-- The next rebuild of the queue starts, if there is one and none runs. -/
def runNext (queue : Nat) (s : RepositoryService) : RepositoryService :=
  s.withQueue queue (s.queues queue).startNext

/-- The rebuild `r` waits at the end of the queue. -/
def enqueue (queue r : Nat) (s : RepositoryService) : RepositoryService :=
  { s with
    queues := Function.update s.queues queue
      { s.queues queue with waiting := (s.queues queue).waiting ++ [r] } }

/-- The queue runs nothing. -/
def vacate (queue : Nat) (s : RepositoryService) : RepositoryService :=
  { s with queues := Function.update s.queues queue { s.queues queue with running := none } }

@[simp] theorem setWorkspaceRepositoriesQueueMap_emitIdle (queue : Nat) (s : RepositoryService) :
    (s.emitIdle queue).setWorkspaceRepositoriesQueueMap = s.setWorkspaceRepositoriesQueueMap := by
  unfold emitIdle
  split_ifs <;> rfl

@[simp] theorem waiting_vacate (queue q : Nat) (s : RepositoryService) :
    ((s.vacate queue).queues q).waiting = (s.queues q).waiting := by
  by_cases hq : q = queue
  · subst hq
    simp [vacate]
  · simp [vacate, Function.update_of_ne hq]

@[simp] theorem running_enqueue (queue r q : Nat) (s : RepositoryService) :
    ((s.enqueue queue r).queues q).running = (s.queues q).running := by
  by_cases hq : q = queue
  · subst hq
    simp [enqueue]
  · simp [enqueue, Function.update_of_ne hq]

@[simp] theorem waiting_enqueue (queue r q : Nat) (s : RepositoryService) :
    ((s.enqueue queue r).queues q).waiting =
      if q = queue then (s.queues q).waiting ++ [r] else (s.queues q).waiting := by
  by_cases hq : q = queue
  · subst hq
    simp [enqueue]
  · simp [enqueue, hq]

theorem withQueue_add (queue r : Nat) (s : RepositoryService) :
    s.withQueue queue ((s.queues queue).add r) = (s.enqueue queue r).runNext queue := by
  simp [withQueue, runNext, enqueue, SerialQueue.add]

theorem withQueue_settle (queue : Nat) (s : RepositoryService) :
    s.withQueue queue (s.queues queue).settle = (s.vacate queue).runNext queue := by
  simp [withQueue, runNext, vacate, SerialQueue.settle]

/-- **What starting the next rebuild of a queue does**: the first of those that wait begins, or
nothing happens. -/
theorem runNext_cases (queue : Nat) (s : RepositoryService) :
    (∃ r rs, (s.queues queue).running = none ∧ (s.queues queue).waiting = r :: rs ∧
      s.runNext queue =
        { s.setProgress r .running with
          fileChangeQueue := s.fileChangeQueue.pause
          queues := Function.update s.queues queue
            { s.queues queue with running := some r, waiting := rs } }) ∨
    s.runNext queue = s := by
  rcases (s.queues queue).startNext_cases with ⟨r, rs, hr, hw, -, h⟩ | ⟨h, -⟩
  · left
    refine ⟨r, rs, hr, hw, ?_⟩
    rw [runNext, h]
    rfl
  · right
    rw [runNext, h]
    simp [withQueue]

/-! ## What a step does -/

/-- The folder for which the action calls `#queueSetWorkspaceRepositories`, if it does. -/
def queuesRebuild (s : RepositoryService) : Action → Option WorkspaceFolder
  | .workspaceFilesEvent workspaceFolder => some workspaceFolder
  | .handleWorkspaceFolderStateChange => s.fileChangeQueue.running.map (·.workspaceFolder)
  | _ => none

/-- The steps, by what they do to the queues. -/
inductive StepTo (s : RepositoryService) : Action → RepositoryService → Prop where
  | queues {a : Action} {workspaceFolder : WorkspaceFolder} (fromFileUpdate : Bool)
      (hqueues : s.queuesRebuild a = some workspaceFolder) :
      StepTo s a (((s.appendRebuild workspaceFolder fromFileUpdate).enqueue
        (s.queueOf workspaceFolder) s.rebuilds.length).runNext (s.queueOf workspaceFolder))
  | event (data : WorkspaceFileUpdate) :
      StepTo s (.workspaceFileEvent data) (s.withFileChangeQueue (s.fileChangeQueue.add data))
  | handled (hrunning : s.fileChangeQueue.running.isSome = true)
      (hawaits : s.awaitsNoRebuild = true) :
      StepTo s .updateHandled (s.withFileChangeQueue s.fileChangeQueue.settle)
  | returns {r : Nat} {b : Rebuild} (hb : s.rebuilds[r]? = some b) (hp : b.progress = .running) :
      StepTo s (.rebuildReturns r)
        ((s.setProgress r .returned).withFileChangeQueue s.fileChangeQueue.start)
  | throws {r : Nat} {b : Rebuild} (hb : s.rebuilds[r]? = some b) (hp : b.progress = .running) :
      StepTo s (.rebuildThrows r) (s.setProgress r .threw)
  | settles {r : Nat} {b : Rebuild} {p : Progress} (hb : s.rebuilds[r]? = some b)
      (hp : b.progress = .returned ∧ p = .fulfilled ∨ b.progress = .threw ∧ p = .rejected) :
      StepTo s (.addSettles r)
        ((((s.setProgress r p).vacate b.queue).runNext b.queue).emitIdle b.queue)
  | stores {r : Nat} {b : Rebuild} (hb : s.rebuilds[r]? = some b) (hp : b.progress = .fulfilled) :
      StepTo s (.callResumes r) (s.storeQueue r b)
  | rejects {r : Nat} {b : Rebuild} (hb : s.rebuilds[r]? = some b) (hp : b.progress = .rejected) :
      StepTo s (.callResumes r) (s.setProgress r .settled)

theorem queueSetWorkspaceRepositories_eq (workspaceFolder : WorkspaceFolder)
    (fromFileUpdate : Bool) (s : RepositoryService) :
    s.queueSetWorkspaceRepositories workspaceFolder fromFileUpdate =
      ((s.appendRebuild workspaceFolder fromFileUpdate).enqueue (s.queueOf workspaceFolder)
        s.rebuilds.length).runNext (s.queueOf workspaceFolder) :=
  withQueue_add (s.queueOf workspaceFolder) s.rebuilds.length
    (s.appendRebuild workspaceFolder fromFileUpdate)

theorem settleAdd_eq (r : Nat) (b : Rebuild) (p : Progress) (s : RepositoryService) :
    s.settleAdd r b p =
      ((((s.setProgress r p).vacate b.queue).runNext b.queue).emitIdle b.queue) := by
  rw [settleAdd, ← withQueue_settle]
  rfl

theorem stepTo_of_step {s s' : RepositoryService} {a : Action} (hs : s.step a = some s') :
    s.StepTo a s' := by
  cases a with
  | workspaceFilesEvent workspaceFolder =>
      cases hs
      rw [queueSetWorkspaceRepositories_eq]
      exact .queues false rfl
  | workspaceFileEvent data =>
      cases hs
      exact .event data
  | handleWorkspaceFolderStateChange =>
      obtain ⟨data, hdata, rfl⟩ := Option.map_eq_some_iff.mp hs
      rw [queueSetWorkspaceRepositories_eq]
      exact .queues true (by simp [queuesRebuild, hdata])
  | updateHandled =>
      simp only [step] at hs
      split_ifs at hs with h
      cases hs
      obtain ⟨hrunning, hawaits⟩ := Bool.and_eq_true_iff.mp h
      exact .handled hrunning hawaits
  | rebuildReturns r =>
      simp only [step] at hs
      split_ifs at hs with hrun
      cases hs
      obtain ⟨b, hb, hp⟩ := progress_eq_some.mp hrun
      exact .returns hb hp
  | rebuildThrows r =>
      simp only [step] at hs
      split_ifs at hs with hrun
      cases hs
      obtain ⟨b, hb, hp⟩ := progress_eq_some.mp hrun
      exact .throws hb hp
  | addSettles r =>
      simp only [step] at hs
      split at hs
      · cases hs
      · rename_i b hb
        split at hs
        · rename_i hp
          cases hs
          rw [settleAdd_eq]
          exact .settles hb (.inl ⟨hp, rfl⟩)
        · rename_i hp
          cases hs
          rw [settleAdd_eq]
          exact .settles hb (.inr ⟨hp, rfl⟩)
        · cases hs
  | callResumes r =>
      simp only [step] at hs
      split at hs
      · cases hs
      · rename_i b hb
        split at hs
        · rename_i hp
          cases hs
          exact .stores hb hp
        · rename_i hp
          cases hs
          exact .rejects hb hp
        · cases hs

end RepositoryService
end KhulnasoftLsp.Git
