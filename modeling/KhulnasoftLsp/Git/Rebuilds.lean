import KhulnasoftLsp.Git.Queues

/-!
# The rebuilds of a workspace folder

The rebuilds of a folder share a queue that runs them one at a time. But the queue is stored only
after the first of them is over. A rebuild that is asked for before gets a queue of its own, and
does not wait: `not_inOrder_of_two_events` is such a run. In the runs in which this does not
happen, `inOrder_of_storesFirst` shows that the rebuilds of each folder run one at a time, in the
order in which they were queued.
-/

namespace KhulnasoftLsp.Git

open Transition

namespace RepositoryService

/-- No two rebuilds of a folder are in progress at once, and none starts before one that was queued
earlier. -/
structure InOrder (s : RepositoryService) : Prop where
  exclusive : ∀ (r r' : Nat) (b b' : Rebuild),
    s.rebuilds[r]? = some b → s.rebuilds[r']? = some b' →
    b.workspaceFolder.uri = b'.workspaceFolder.uri → b.progress = .running →
      b'.progress = .running → r = r'
  ordered : ∀ (r r' : Nat) (b b' : Rebuild),
    s.rebuilds[r]? = some b → s.rebuilds[r']? = some b' →
    b.workspaceFolder.uri = b'.workspaceFolder.uri → r < r' → b'.progress ≠ .waiting →
      b.progress ≠ .waiting

/-! ## Folders with one queue -/

/-- The calls for a folder that have still to store their queue all have the same one, and it is
the one that is stored, if there is one. -/
structure OneQueue (s : RepositoryService) : Prop where
  same : ∀ (r r' : Nat) (b b' : Rebuild),
    s.rebuilds[r]? = some b → s.rebuilds[r']? = some b' →
    b.workspaceFolder.uri = b'.workspaceFolder.uri → b.progress.mayStore = true →
      b'.progress.mayStore = true → b.queue = b'.queue
  stored : ∀ (r : Nat) (b : Rebuild) (q : Nat), s.rebuilds[r]? = some b →
    b.progress.mayStore = true →
    s.setWorkspaceRepositoriesQueueMap.get b.workspaceFolder.uri = some q → b.queue = q

/-- What holds in all states of the runs in which queues are stored first. -/
structure Serial (s : RepositoryService) : Prop where
  queued : s.Queued
  oneQueue : s.OneQueue
  inOrder : s.InOrder

/-- A folder that has one queue runs one rebuild at a time. -/
theorem OneQueue.exclusive {s : RepositoryService} (h : s.OneQueue) (hq : s.Queued) {r r' : Nat}
    {b b' : Rebuild} (hb : s.rebuilds[r]? = some b) (hb' : s.rebuilds[r']? = some b')
    (huri : b.workspaceFolder.uri = b'.workspaceFolder.uri) (hrun : b.progress = .running)
    (hrun' : b'.progress = .running) : r = r' := by
  have hqueue : b.queue = b'.queue :=
    h.same r r' b b' hb hb' huri (by rw [hrun]; rfl) (by rw [hrun']; rfl)
  have hr : (s.queues b.queue).running = some r :=
    (hq.running _ r).mpr ⟨b, hb, rfl, by rw [hrun]; rfl⟩
  have hr' : (s.queues b.queue).running = some r' :=
    (hq.running _ r').mpr ⟨b', hb', hqueue.symm, by rw [hrun']; rfl⟩
  exact Option.some.inj (hr.symm.trans hr')

/-- With one queue for each folder, it remains to look at the order. -/
theorem serial_of_ordered {s : RepositoryService} (hqueued : s.Queued) (hone : s.OneQueue)
    (hordered : ∀ (r r' : Nat) (b b' : Rebuild),
      s.rebuilds[r]? = some b → s.rebuilds[r']? = some b' →
      b.workspaceFolder.uri = b'.workspaceFolder.uri → r < r' → b'.progress ≠ .waiting →
        b.progress ≠ .waiting) : s.Serial :=
  ⟨hqueued, hone, ⟨fun _ _ _ _ => hone.exclusive hqueued, hordered⟩⟩

/-- **The next rebuild of a queue starts in order.** -/
theorem Serial.runNext {s : RepositoryService} (h : s.Serial) (queue : Nat) :
    (s.runNext queue).Serial := by
  have hqueued := h.queued.runNext queue
  rcases s.runNext_cases queue with ⟨r, rs, -, hwaiting, heq⟩ | heq
  swap
  · rw [heq]
    exact h
  obtain ⟨b, hb, hbq, hbp⟩ := (h.queued.waiting queue r).mp (by simp [hwaiting])
  have hfirst : ∀ r' ∈ rs, r < r' := by
    have hsorted := h.queued.sorted queue
    rw [hwaiting] at hsorted
    exact (List.pairwise_cons.mp hsorted).1
  have hget := getElem?_setProgress r .running s
  rw [heq] at hqueued ⊢
  have hone : OneQueue { s.setProgress r .running with
      fileChangeQueue := s.fileChangeQueue.pause
      queues := Function.update s.queues queue
        { s.queues queue with running := some r, waiting := rs } } := by
    constructor
    · intro r₁ r₂ b₁ b₂ h₁ h₂ huri hm₁ hm₂
      have hsame := h.oneQueue.same r₁ r₂
      grind [Progress.mayStore]
    -- nothing is stored when a rebuild starts
    · intro r₁ b₁ q h₁ hm hq
      have hstored := h.oneQueue.stored r₁
      change s.setWorkspaceRepositoriesQueueMap.get _ = _ at hq
      grind [Progress.mayStore]
  apply serial_of_ordered hqueued hone
  -- a rebuild of the folder that still waits, does so in the queue, behind the one that starts
  intro r₁ r₂ b₁ b₂ h₁ h₂ huri hlt hp₂ hp₁
  have hordered := h.inOrder.ordered r₁ r₂
  have hsame := h.oneQueue.same r₁ r
  have hwaits := h.queued.waiting queue r₁
  grind [Progress.mayStore]

/-- Rebuilds that go on stay serial. -/
theorem Serial.allGoOn {s s' : RepositoryService} (h : s.Serial) (hgo : s.AllGoOn s')
    (hstored : ∀ (r : Nat) (b : Rebuild) (q : Nat), s.rebuilds[r]? = some b →
      b.progress.mayStore = true →
      s'.setWorkspaceRepositoriesQueueMap.get b.workspaceFolder.uri = some q → b.queue = q) :
    s'.Serial := by
  have hqueued := h.queued.allGoOn hgo
  have hone : s'.OneQueue := by
    constructor
    · intro r₁ r₂ b₁ b₂ h₁ h₂ huri hm₁ hm₂
      obtain ⟨c₁, hc₁, hg₁⟩ := hgo.back h₁
      obtain ⟨c₂, hc₂, hg₂⟩ := hgo.back h₂
      rw [hg₁.workspaceFolder, hg₂.workspaceFolder] at huri
      rw [hg₁.queue, hg₂.queue]
      exact h.oneQueue.same r₁ r₂ c₁ c₂ hc₁ hc₂ huri (hg₁.mayStore hm₁) (hg₂.mayStore hm₂)
    · intro r₁ b₁ q h₁ hm hq
      obtain ⟨c₁, hc₁, hg₁⟩ := hgo.back h₁
      rw [hg₁.workspaceFolder] at hq
      rw [hg₁.queue]
      exact hstored r₁ c₁ q hc₁ (hg₁.mayStore hm) hq
  apply serial_of_ordered hqueued hone
  intro r₁ r₂ b₁ b₂ h₁ h₂ huri hlt hp₂ hp₁
  obtain ⟨c₁, hc₁, hg₁⟩ := hgo.back h₁
  obtain ⟨c₂, hc₂, hg₂⟩ := hgo.back h₂
  rw [hg₁.workspaceFolder, hg₂.workspaceFolder] at huri
  exact h.inOrder.ordered r₁ r₂ c₁ c₂ hc₁ hc₂ huri hlt (fun hw => hp₂ (hg₂.waiting.mpr hw))
    (hg₁.waiting.mp hp₁)

/-- A rebuild that is over leaves its queue. -/
theorem Serial.vacate {s : RepositoryService} (h : s.Serial) {r : Nat} {b : Rebuild} {p : Progress}
    (hb : s.rebuilds[r]? = some b) (hactive : b.progress.isActive = true)
    (hp : p.isActive = false) (hwaiting : p ≠ .waiting)
    (hmay : p.mayStore = true → b.progress.mayStore = true) :
    ((s.setProgress r p).vacate b.queue).Serial := by
  have hget : ∀ r' : Nat, ((s.setProgress r p).vacate b.queue).rebuilds[r']? =
      s.rebuilds[r']?.map fun b => if r = r' then { b with progress := p } else b :=
    getElem?_setProgress r p s
  have hne : b.progress ≠ .waiting := by
    intro hw
    rw [hw] at hactive
    cases hactive
  have hone : ((s.setProgress r p).vacate b.queue).OneQueue := by
    constructor
    · intro r₁ r₂ b₁ b₂ h₁ h₂ huri hm₁ hm₂
      have hsame := h.oneQueue.same r₁ r₂
      rw [hget] at h₁ h₂
      grind
    · intro r₁ b₁ q h₁ hm hq
      have hstored := h.oneQueue.stored r₁
      rw [hget] at h₁
      change s.setWorkspaceRepositoriesQueueMap.get _ = _ at hq
      grind
  apply serial_of_ordered (h.queued.vacate hb hactive hp hwaiting) hone
  intro r₁ r₂ b₁ b₂ h₁ h₂ huri hlt hp₂ hp₁
  have hordered := h.inOrder.ordered r₁ r₂
  rw [hget] at h₁ h₂
  grind

/-! ## Queues that are stored first -/

/-- If the action asks for a rebuild of a folder for which no queue is stored, then no earlier call
for the folder has still to store its queue. -/
def StoresFirst (s : RepositoryService) (a : Action) : Prop :=
  ∀ workspaceFolder ∈ s.queuesRebuild a,
    s.setWorkspaceRepositoriesQueueMap.get workspaceFolder.uri = none →
      ∀ b ∈ s.rebuilds, b.workspaceFolder.uri = workspaceFolder.uri → b.progress.mayStore = false

instance (s : RepositoryService) (a : Action) : Decidable (StoresFirst s a) :=
  inferInstanceAs (Decidable (∀ workspaceFolder ∈ s.queuesRebuild a, _ → ∀ b ∈ s.rebuilds, _ → _))

/-- The queue of a new rebuild is that of the calls for its folder. -/
theorem OneQueue.eq_queueOf {s : RepositoryService} (h : s.OneQueue)
    {workspaceFolder : WorkspaceFolder}
    (hfirst : s.setWorkspaceRepositoriesQueueMap.get workspaceFolder.uri = none →
      ∀ b ∈ s.rebuilds, b.workspaceFolder.uri = workspaceFolder.uri → b.progress.mayStore = false)
    {r : Nat} {b : Rebuild} (hb : s.rebuilds[r]? = some b)
    (huri : b.workspaceFolder.uri = workspaceFolder.uri) (hmay : b.progress.mayStore = true) :
    b.queue = s.queueOf workspaceFolder := by
  unfold queueOf
  cases hstored : s.setWorkspaceRepositoriesQueueMap.get workspaceFolder.uri with
  | none =>
      have hno := hfirst hstored b (List.mem_of_getElem? hb) huri
      rw [hmay] at hno
      cases hno
  | some q =>
      rw [← huri] at hstored
      exact h.stored r b q hb hmay hstored

/-- A new rebuild waits in the queue of its folder. -/
theorem Serial.append {s : RepositoryService} (h : s.Serial) {workspaceFolder : WorkspaceFolder}
    (fromFileUpdate : Bool)
    (hfirst : s.setWorkspaceRepositoriesQueueMap.get workspaceFolder.uri = none →
      ∀ b ∈ s.rebuilds, b.workspaceFolder.uri = workspaceFolder.uri → b.progress.mayStore = false) :
    ((s.appendRebuild workspaceFolder fromFileUpdate).enqueue (s.queueOf workspaceFolder)
      s.rebuilds.length).Serial := by
  have hget : ∀ r : Nat, ((s.appendRebuild workspaceFolder fromFileUpdate).enqueue
      (s.queueOf workspaceFolder) s.rebuilds.length).rebuilds[r]? = _ :=
    getElem?_appendRebuild workspaceFolder fromFileUpdate s
  have hlast : ∀ (r : Nat) (b : Rebuild), s.rebuilds[r]? = some b → r < s.rebuilds.length := by
    intro r b hb
    exact (List.getElem?_eq_some_iff.mp hb).1
  have hsame := fun r b => h.oneQueue.eq_queueOf hfirst (r := r) (b := b)
  have hone : ((s.appendRebuild workspaceFolder fromFileUpdate).enqueue
      (s.queueOf workspaceFolder) s.rebuilds.length).OneQueue := by
    constructor
    · intro r₁ r₂ b₁ b₂ h₁ h₂ huri hm₁ hm₂
      have hold := h.oneQueue.same r₁ r₂
      have hs₁ := hsame r₁
      have hs₂ := hsame r₂
      rw [hget] at h₁ h₂
      grind
    · intro r₁ b₁ q h₁ hm hq
      have hold := h.oneQueue.stored r₁
      rw [hget] at h₁
      change s.setWorkspaceRepositoriesQueueMap.get b₁.workspaceFolder.uri = some q at hq
      grind [queueOf]
  apply serial_of_ordered (h.queued.append workspaceFolder fromFileUpdate) hone
  -- the new rebuild is the last one, and it waits
  intro r₁ r₂ b₁ b₂ h₁ h₂ huri hlt hp₂ hp₁
  have hold := h.inOrder.ordered r₁ r₂
  have hr₂ := hlast r₂
  rw [hget] at h₁ h₂
  grind

/-- A queue that is stored is the one of the calls for its folder. -/
theorem Serial.storeQueue {s : RepositoryService} (h : s.Serial) {r : Nat} {b : Rebuild}
    (hb : s.rebuilds[r]? = some b) (hp : b.progress = .fulfilled) : (s.storeQueue r b).Serial := by
  apply h.allGoOn (allGoOn_storeQueue hb hp)
  intro r' b' q hb' hm hq
  by_cases huri : b'.workspaceFolder.uri = b.workspaceFolder.uri
  · have hstored : b.queue = q := by
      simpa [RepositoryService.storeQueue, huri] using hq
    rw [← hstored]
    exact h.oneQueue.same r' r b' b hb' hb huri hm (by rw [hp]; rfl)
  · apply h.oneQueue.stored r' b' q hb' hm
    rw [← hq]
    exact (OrderedMap.get_set_other _ _ huri).symm

/-- **A step keeps the rebuilds serial** if queues are stored first. -/
theorem Serial.step {s s' : RepositoryService} {a : Action} (h : s.Serial)
    (hok : s.StoresFirst a) (hs : RepositoryService.step s a = some s') : s'.Serial := by
  have hstored := h.oneQueue.stored
  cases stepTo_of_step hs with
  | queues fromFileUpdate hqueues =>
      exact (h.append fromFileUpdate (hok _ hqueues)).runNext _
  | event data => exact h.allGoOn (allGoOn_refl rfl rfl) hstored
  | handled => exact h.allGoOn (allGoOn_refl rfl rfl) hstored
  | returns hb hp => exact h.allGoOn (allGoOn_returns hb hp) hstored
  | throws hb hp =>
      exact h.allGoOn (allGoOn_setProgress hb (goesOn_of_progress (by simp [hp]))) hstored
  | @settles r b p hb hp =>
      obtain ⟨hactive, hp, hwaiting, hmay⟩ := progress_of_settles hp
      have hnext := (h.vacate hb hactive hp hwaiting hmay).runNext b.queue
      apply hnext.allGoOn (allGoOn_emitIdle _ _)
      rw [setWorkspaceRepositoriesQueueMap_emitIdle]
      exact hnext.oneQueue.stored
  | stores hb hp => exact h.storeQueue hb hp
  | rejects hb hp =>
      exact h.allGoOn (allGoOn_setProgress hb (goesOn_of_progress (by simp [hp]))) hstored

theorem serial_new : new.Serial :=
  ⟨queued_new, ⟨by simp [new], by simp [new]⟩, ⟨by simp [new], by simp [new]⟩⟩

/-- **When the rebuilds of a folder are serial.** In every interleaving in which no rebuild of a
folder is asked for while an earlier call for the folder has created a queue and not yet stored it:
in each state on the way, no two rebuilds of a folder are in progress, and those that have started
did so in the order in which they were queued. -/
theorem inOrder_of_storesFirst (as : List Action) (hg : Guarded step StoresFirst new as) :
    Always step InOrder new as :=
  (always_of_guarded (fun _ _ _ h hok hs => h.step hok hs) serial_new hg).mono
    fun _ h => h.inOrder

/-- A workspace folder. -/
def folderA : WorkspaceFolder := { uri := "file:///a", name := "a" }

/-- The first rebuild of the folder is over, and its queue stored, before two more are queued. -/
theorem inOrder_of_stored : Always step InOrder new
    [.workspaceFilesEvent folderA, .rebuildReturns 0, .addSettles 0, .callResumes 0,
      .workspaceFilesEvent folderA, .workspaceFilesEvent folderA, .rebuildReturns 1,
      .addSettles 1] :=
  inOrder_of_storesFirst _ (by decide)

/-- Two events for a folder, and both rebuilds are in progress. -/
theorem not_inOrder_of_two_events : ¬ Always step InOrder new
    [.workspaceFilesEvent folderA, .workspaceFilesEvent folderA] := by
  intro h
  have hlast := h _ [] _ (List.append_nil _).symm rfl
  have hsame := hlast.exclusive 0 1 _ _ rfl rfl rfl rfl rfl
  cases hsame

end RepositoryService
end KhulnasoftLsp.Git
