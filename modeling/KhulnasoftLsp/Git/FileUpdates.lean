import KhulnasoftLsp.Git.Queues

/-!
# File updates and rebuilds

A rebuild pauses the one queue of the file updates when it begins, and starts it when it returns.
Neither is counted, and a rebuild that throws does not start the queue. So the first of two
rebuilds that returns lets the updates run into the other one
(`not_separate_of_two_folders`), and a single rebuild that throws leaves the queue paused
(`not_separate_of_throw`). `separate_of_balanced` says in which runs updates and rebuilds stay
apart, and `pausedExactly_iff_balanced` that these are the runs in which the queue is paused just
while a rebuild is in progress.
-/

namespace KhulnasoftLsp.Git

open Transition

namespace RepositoryService

/-- How many rebuilds are in progress. -/
def rebuilding (s : RepositoryService) : Nat := s.rebuilds.countP (·.progress = .running)

/-- No file update starts while a rebuild is in progress, and whenever none is, the queue of the
file updates is not paused. -/
structure Separate (s₀ : RepositoryService) (as : List Action) : Prop where
  starts : ∀ before a after s t, as = before ++ a :: after → run step s₀ before = some s →
    s.step a = some t → t.handledUpdates ≠ s.handledUpdates → t.rebuilding = 0
  resumes : Always step (fun t => t.rebuilding = 0 → t.fileChangeQueue.isPaused = false) s₀ as

/-- The queue of the file updates is paused just while a rebuild is in progress. -/
def PausedExactly (s : RepositoryService) : Prop :=
  s.fileChangeQueue.isPaused = true ↔ 0 < s.rebuilding

/-- A rebuild that returns is the only one in progress, and one that throws is not. -/
def Balanced (s : RepositoryService) : Action → Prop
  | .rebuildReturns _ => s.rebuilding ≤ 1
  | .rebuildThrows _ => 1 < s.rebuilding
  | _ => True

instance (s : RepositoryService) : ∀ a, Decidable (Balanced s a)
  | .rebuildReturns _ => inferInstanceAs (Decidable (_ ≤ _))
  | .rebuildThrows _ => inferInstanceAs (Decidable (_ < _))
  | .workspaceFilesEvent _ | .workspaceFileEvent _ | .handleWorkspaceFolderStateChange
  | .updateHandled | .addSettles _ | .callResumes _ => isTrue trivial

/-! ## Counting rebuilds -/

theorem rebuilding_setProgress {s : RepositoryService} {r : Nat} {b : Rebuild} {p : Progress}
    (hb : s.rebuilds[r]? = some b) :
    (s.setProgress r p).rebuilding + (if b.progress = .running then 1 else 0) =
      s.rebuilding + (if p = .running then 1 else 0) := by
  obtain ⟨hr, rfl⟩ := List.getElem?_eq_some_iff.mp hb
  have hset : (s.setProgress r p).rebuilds =
      s.rebuilds.set r { s.rebuilds[r] with progress := p } := by
    simp [setProgress, List.modify_eq_set_getElem?, hb]
  have hpos : s.rebuilds[r].progress = .running → 0 < s.rebuilding := by
    intro hp
    exact List.countP_pos_iff.mpr ⟨_, List.getElem_mem hr, by simpa using hp⟩
  have hcount : (s.setProgress r p).rebuilding =
      s.rebuilding - (if s.rebuilds[r].progress = .running then 1 else 0) +
        (if p = .running then 1 else 0) := by
    rw [rebuilding, hset, List.countP_set hr]
    simp [rebuilding]
  rw [hcount]
  by_cases hrun : s.rebuilds[r].progress = .running
  · have hpos' := hpos hrun
    simp only [hrun, if_true]
    omega
  · simp [hrun]

theorem rebuilding_emitIdle (queue : Nat) (s : RepositoryService) :
    (s.emitIdle queue).rebuilding = s.rebuilding := by
  unfold emitIdle
  split_ifs
  · simp only [rebuilding, List.countP_map]
    congr 1
    funext b
    by_cases hb : b.queue = queue ∧ b.progress = .awaitsIdle
    · simp [hb]
    · simp [hb]
  · rfl

/-- What a step does to the rebuilds in progress and to the file updates. -/
inductive Effect (s s' : RepositoryService) : Action → Prop where
  /-- No rebuild begins or ends, and an update starts only if the queue is not paused. -/
  | keeps {a : Action} (hbalanced : s.Balanced a) (hcount : s'.rebuilding = s.rebuilding)
      (hpaused : s'.fileChangeQueue.isPaused = s.fileChangeQueue.isPaused)
      (hupdates : s'.handledUpdates ≠ s.handledUpdates → s.fileChangeQueue.isPaused = false) :
      Effect s s' a
  /-- A rebuild begins, and pauses the queue. -/
  | begins {a : Action} (hbalanced : s.Balanced a) (hcount : s'.rebuilding = s.rebuilding + 1)
      (hpaused : s'.fileChangeQueue.isPaused = true)
      (hupdates : s'.handledUpdates = s.handledUpdates) : Effect s s' a
  /-- A rebuild returns, and starts the queue. -/
  | returns (r : Nat) (hcount : s'.rebuilding + 1 = s.rebuilding)
      (hpaused : s'.fileChangeQueue.isPaused = false) : Effect s s' (.rebuildReturns r)
  /-- A rebuild throws, and leaves the queue as it is. -/
  | throws (r : Nat) (hcount : s'.rebuilding + 1 = s.rebuilding)
      (hpaused : s'.fileChangeQueue.isPaused = s.fileChangeQueue.isPaused)
      (hupdates : s'.handledUpdates = s.handledUpdates) : Effect s s' (.rebuildThrows r)

/-- The next rebuild of a queue begins, or nothing happens. -/
theorem effect_runNext {s : RepositoryService} (hq : s.Queued) (queue : Nat) {a : Action}
    (hbalanced : s.Balanced a) : Effect s (s.runNext queue) a := by
  rcases s.runNext_cases queue with ⟨r, rs, -, hwaiting, heq⟩ | heq
  · obtain ⟨b, hb, -, hbp⟩ := (hq.waiting queue r).mp (by simp [hwaiting])
    have hcount : (s.setProgress r .running).rebuilding = s.rebuilding + 1 := by
      simpa [hbp] using rebuilding_setProgress (p := .running) hb
    rw [heq]
    exact .begins hbalanced hcount rfl rfl
  · rw [heq]
    exact .keeps hbalanced rfl rfl fun hne => absurd rfl hne

/-- A queue that starts a task was not paused. -/
theorem effect_withFileChangeQueue {s : RepositoryService} {a : Action}
    (hbalanced : s.Balanced a) (q : SerialQueue WorkspaceFileUpdate)
    (hpaused : q.isPaused = s.fileChangeQueue.isPaused) :
    Effect s (s.withFileChangeQueue q.startNext) a := by
  refine .keeps hbalanced rfl ?_ ?_
  · show q.startNext.1.isPaused = _
    rw [SerialQueue.isPaused_startNext, hpaused]
  · intro hne
    by_contra hp
    have hstart : q.startNext = (q, none) :=
      SerialQueue.startNext_of_isPaused (by rw [hpaused]; simpa using hp)
    exact hne (by simp [withFileChangeQueue, hstart])

/-- An effect is told by the rebuilds in progress and the file updates alone. -/
theorem Effect.congr {s s' t t' : RepositoryService} {a : Action} (h : Effect t t' a)
    (hcount : t.rebuilding = s.rebuilding) (hcount' : t'.rebuilding = s'.rebuilding)
    (hqueue : t.fileChangeQueue = s.fileChangeQueue)
    (hqueue' : t'.fileChangeQueue = s'.fileChangeQueue)
    (hupdates : t.handledUpdates = s.handledUpdates)
    (hupdates' : t'.handledUpdates = s'.handledUpdates) : Effect s s' a := by
  have hbalanced : t.Balanced a → s.Balanced a := by
    cases a <;> simp [Balanced, hcount]
  cases h with
  | keeps hb h₁ h₂ h₃ =>
      rw [hcount, hcount'] at h₁
      rw [hqueue, hqueue'] at h₂
      rw [hqueue, hupdates, hupdates'] at h₃
      exact .keeps (hbalanced hb) h₁ h₂ h₃
  | begins hb h₁ h₂ h₃ =>
      rw [hcount, hcount'] at h₁
      rw [hqueue'] at h₂
      rw [hupdates, hupdates'] at h₃
      exact .begins (hbalanced hb) h₁ h₂ h₃
  | returns r h₁ h₂ =>
      rw [hcount, hcount'] at h₁
      rw [hqueue'] at h₂
      exact .returns r h₁ h₂
  | throws r h₁ h₂ h₃ =>
      rw [hcount, hcount'] at h₁
      rw [hqueue, hqueue'] at h₂
      rw [hupdates, hupdates'] at h₃
      exact .throws r h₁ h₂ h₃

theorem effect_step {s s' : RepositoryService} {a : Action} (hq : s.Queued)
    (hs : s.step a = some s') : Effect s s' a := by
  cases stepTo_of_step hs with
  | @queues _ workspaceFolder fromFileUpdate hqueues =>
      have happend := hq.append workspaceFolder fromFileUpdate
      refine (effect_runNext happend (s.queueOf workspaceFolder) (a := a) ?_).congr ?_ rfl rfl rfl
        rfl rfl
      · cases a <;> trivial
      · simp [rebuilding, enqueue, appendRebuild]
  | event data =>
      have hbalanced : s.Balanced (.workspaceFileEvent data) := trivial
      exact effect_withFileChangeQueue hbalanced _ rfl
  | handled =>
      have hbalanced : s.Balanced .updateHandled := trivial
      exact effect_withFileChangeQueue hbalanced _ rfl
  | @returns r b hb hp =>
      have hcount : (s.setProgress r .returned).rebuilding + 1 = s.rebuilding := by
        simpa [hp] using rebuilding_setProgress (p := .returned) hb
      exact .returns r hcount (SerialQueue.isPaused_start _)
  | @throws r b hb hp =>
      have hcount : (s.setProgress r .threw).rebuilding + 1 = s.rebuilding := by
        simpa [hp] using rebuilding_setProgress (p := .threw) hb
      exact .throws r hcount rfl rfl
  | @settles r b p hb hp =>
      obtain ⟨hactive, hpa, hwaiting, -⟩ := progress_of_settles hp
      have hcount : (s.setProgress r p).rebuilding = s.rebuilding := by
        have hset := rebuilding_setProgress (p := p) hb
        rcases hp with ⟨hp, rfl⟩ | ⟨hp, rfl⟩ <;> simpa [hp] using hset
      have hvacate := hq.vacate hb hactive hpa hwaiting
      refine (effect_runNext hvacate b.queue (a := .addSettles r) trivial).congr hcount
        (rebuilding_emitIdle _ _).symm rfl ?_ rfl ?_
      · unfold emitIdle
        split_ifs <;> rfl
      · unfold emitIdle
        split_ifs <;> rfl
  | @stores r b hb hp =>
      have hcount : (s.setProgress r
          (if (s.queues b.queue).isIdle then .settled else .awaitsIdle)).rebuilding =
            s.rebuilding := by
        have hset := rebuilding_setProgress
          (p := if (s.queues b.queue).isIdle then .settled else .awaitsIdle) hb
        by_cases hidle : (s.queues b.queue).isIdle = true <;> simpa [hp, hidle] using hset
      exact .keeps trivial hcount rfl fun hne => absurd rfl hne
  | @rejects r b hb hp =>
      have hcount := rebuilding_setProgress (p := .settled) hb
      exact .keeps trivial (by simpa [hp] using hcount) rfl fun hne => absurd rfl hne

/-! ## When updates and rebuilds stay apart -/

/-- A step keeps the queue paused exactly while rebuilds are in progress if it is balanced, and
only then. -/
theorem pausedExactly_step {s s' : RepositoryService} {a : Action} (hq : s.Queued)
    (h : s.PausedExactly) (hs : s.step a = some s') : s'.PausedExactly ↔ s.Balanced a := by
  unfold PausedExactly at h ⊢
  cases effect_step hq hs with
  | keeps hbalanced hcount hpaused hupdates =>
      rw [hcount, hpaused]
      exact ⟨fun _ => hbalanced, fun _ => h⟩
  | begins hbalanced hcount hpaused hupdates =>
      rw [hcount, hpaused]
      exact ⟨fun _ => hbalanced, fun _ => by simp⟩
  | returns r hcount hpaused =>
      simp only [Balanced, hpaused]
      simp
      omega
  | throws r hcount hpaused hupdates =>
      rw [hpaused, h]
      simp only [Balanced]
      omega

theorem pausedExactly_new : new.PausedExactly := by
  simp [PausedExactly, new, rebuilding]

/-- **The queue of the file updates is paused exactly while a rebuild is in progress** all the way
through a run if and only if each rebuild that returns is the only one in progress, and none that
throws is. -/
theorem pausedExactly_iff_balanced (as : List Action) (s : RepositoryService)
    (hrun : run step new as = some s) :
    Always step PausedExactly new as ↔ Guarded step Balanced new as :=
  always_iff_guarded (I := Queued) (fun _ _ _ hq _ _ hs => hq.step hs)
    (fun _ _ _ hq h hs => pausedExactly_step hq h hs) queued_new pausedExactly_new hrun

/-- **When file updates and rebuilds stay apart.** In every interleaving in which each rebuild that
returns is the only one in progress, and each rebuild that throws is not: no file update starts
while a rebuild of any folder is in progress, and the queue of the file updates is not paused when
none is. -/
theorem separate_of_balanced (as : List Action) (hg : Guarded step Balanced new as) :
    Separate new as := by
  have hall : Always step (fun s => s.Queued ∧ s.PausedExactly) new as :=
    always_of_guarded
      (fun _ _ _ h hok hs => ⟨h.1.step hs, (pausedExactly_step h.1 h.2 hs).mpr hok⟩)
      ⟨queued_new, pausedExactly_new⟩ hg
  constructor
  · intro before a after s t has hs ht hupdates
    obtain ⟨hq, hpaused⟩ := hall before (a :: after) s has hs
    have ht' : run step new (before ++ [a]) = some t := run_concat_eq_some.mpr ⟨s, hs, ht⟩
    obtain ⟨-, hpaused'⟩ := hall (before ++ [a]) after t (by simp [has]) ht'
    -- a rebuild in progress after the step keeps the queue paused, and so nothing has started
    by_contra hne
    have hp' := hpaused'.mpr (Nat.pos_of_ne_zero hne)
    cases effect_step hq ht with
    | keeps _ _ hsame hstart =>
        rw [hsame, hstart hupdates] at hp'
        cases hp'
    | begins _ _ _ hsame => exact hupdates hsame
    | returns _ _ hstarted =>
        rw [hstarted] at hp'
        cases hp'
    | throws _ _ _ hsame => exact hupdates hsame
  · refine hall.mono ?_
    rintro t ⟨-, hpaused⟩ hnone
    have hnot : ¬ t.fileChangeQueue.isPaused = true := by
      intro hp
      have hpos := hpaused.mp hp
      omega
    simpa using hnot

/-- Another workspace folder. -/
def folderB : WorkspaceFolder := { uri := "file:///b", name := "b" }

/-- A changed file of the other folder. -/
def fileOfB : WorkspaceFileUpdate := { uri := "file:///b/file", workspaceFolder := folderB }

/-- Two rebuilds overlap, and the one that throws is not the last to end. -/
theorem separate_of_throw_first : Separate new
    [.workspaceFileEvent fileOfB, .updateHandled, .workspaceFilesEvent folderB,
      .workspaceFilesEvent folderB, .workspaceFileEvent fileOfB, .rebuildThrows 0,
      .rebuildReturns 1, .addSettles 0, .addSettles 1, .updateHandled] :=
  separate_of_balanced _ (by decide)

/-- The rebuild of one folder returns, and a file update runs into that of another one. -/
theorem not_separate_of_two_folders : ¬ Separate new
    [.workspaceFilesEvent folderB, .workspaceFilesEvent { uri := "file:///c", name := "c" },
      .workspaceFileEvent fileOfB, .rebuildReturns 0] := by
  intro h
  have hnone := h.starts [_, _, _] _ [] _ _ rfl rfl rfl (by decide)
  exact absurd hnone (by decide)

/-- A rebuild throws, and the queue of the file updates stays paused. -/
theorem not_separate_of_throw : ¬ Separate new
    [.workspaceFilesEvent folderB, .rebuildThrows 0] := by
  intro h
  have hresumed := h.resumes _ [] _ (List.append_nil _).symm rfl (by decide)
  cases hresumed

end RepositoryService
end KhulnasoftLsp.Git
