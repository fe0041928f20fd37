import KhulnasoftLsp.Git.RepositoryService

/-!
# The queues hold the rebuilds

In every state that a run reaches, the task that a queue runs is a rebuild that is in progress or
has just ended, and the tasks that wait in it are the rebuilds of its calls that have not begun, in
the order in which they were queued (`queued_of_run`).
-/

namespace KhulnasoftLsp.Git

open Transition

namespace RepositoryService

/-- The queues hold the rebuilds that have to run, each in the queue of its call. -/
structure Queued (s : RepositoryService) : Prop where
  running : ∀ q r, (s.queues q).running = some r ↔
    ∃ b, s.rebuilds[r]? = some b ∧ b.queue = q ∧ b.progress.isActive = true
  waiting : ∀ q r, r ∈ (s.queues q).waiting ↔
    ∃ b, s.rebuilds[r]? = some b ∧ b.queue = q ∧ b.progress = .waiting
  sorted : ∀ q, (s.queues q).waiting.Pairwise (· < ·)

/-- The rebuild that starts is the first of those that wait. -/
theorem Queued.runNext {s : RepositoryService} (h : s.Queued) (queue : Nat) :
    (s.runNext queue).Queued := by
  rcases s.runNext_cases queue with ⟨r, rs, hidle, hwaiting, heq⟩ | heq
  swap
  · rw [heq]
    exact h
  obtain ⟨b, hb, hbq, hbp⟩ := (h.waiting queue r).mp (by simp [hwaiting])
  -- `r` is smaller than all that wait behind it, so it is not among them
  have hsorted : (∀ r' ∈ rs, r < r') ∧ rs.Pairwise (· < ·) := by
    simpa [hwaiting] using h.sorted queue
  have hget := getElem?_setProgress r .running s
  rw [heq]
  constructor
  · intro q r'
    have hold := h.running q r'
    simp only [hget]
    by_cases hq : q = queue
    · subst hq
      rw [hidle] at hold
      rw [Function.update_self]
      grind [Progress.isActive]
    · rw [Function.update_of_ne hq, hold]
      grind [Progress.isActive]
  · intro q r'
    have hold := h.waiting q r'
    simp only [hget]
    by_cases hq : q = queue
    · subst hq
      rw [hwaiting] at hold
      rw [Function.update_self]
      grind
    · rw [Function.update_of_ne hq, hold]
      grind
  · intro q
    by_cases hq : q = queue
    · subst hq
      simpa using hsorted.2
    · simpa [Function.update_of_ne hq] using h.sorted q

/-- A rebuild that goes on, but neither begins nor leaves its queue. -/
structure GoesOn (b b' : Rebuild) : Prop where
  workspaceFolder : b'.workspaceFolder = b.workspaceFolder
  queue : b'.queue = b.queue
  waiting : b'.progress = .waiting ↔ b.progress = .waiting
  active : b'.progress.isActive = b.progress.isActive
  mayStore : b'.progress.mayStore = true → b.progress.mayStore = true
  running : b'.progress = .running → b.progress = .running

theorem GoesOn.refl (b : Rebuild) : GoesOn b b := ⟨rfl, rfl, Iff.rfl, rfl, id, id⟩

/-- The steps of a rebuild between its begin and its end, and those of its call after that. -/
theorem goesOn_of_progress {b : Rebuild} {p : Progress}
    (h : b.progress = .running ∧ p = .returned ∨ b.progress = .running ∧ p = .threw ∨
      b.progress = .fulfilled ∧ p = .awaitsIdle ∨ b.progress = .fulfilled ∧ p = .settled ∨
      b.progress = .rejected ∧ p = .settled ∨ b.progress = .awaitsIdle ∧ p = .settled) :
    GoesOn b { b with progress := p } := by
  constructor
  · rfl
  · rfl
  all_goals
    rcases h with ⟨h, rfl⟩ | ⟨h, rfl⟩ | ⟨h, rfl⟩ | ⟨h, rfl⟩ | ⟨h, rfl⟩ | ⟨h, rfl⟩ <;>
      simp [h, Progress.isActive, Progress.mayStore]

/-- Each rebuild goes on, and the queues stay as they are. -/
structure AllGoOn (s s' : RepositoryService) : Prop where
  queues : s'.queues = s.queues
  rebuilds : ∀ r : Nat, Option.Rel GoesOn s.rebuilds[r]? s'.rebuilds[r]?

theorem AllGoOn.back {s s' : RepositoryService} (h : s.AllGoOn s') {r : Nat} {b' : Rebuild}
    (hb' : s'.rebuilds[r]? = some b') : ∃ b, s.rebuilds[r]? = some b ∧ GoesOn b b' := by
  have hrel := h.rebuilds r
  rw [hb'] at hrel
  cases hb : s.rebuilds[r]? with
  | none =>
      rw [hb] at hrel
      cases hrel
  | some b =>
      rw [hb] at hrel
      cases hrel with
      | some hgo => exact ⟨b, rfl, hgo⟩

theorem AllGoOn.forth {s s' : RepositoryService} (h : s.AllGoOn s') {r : Nat} {b : Rebuild}
    (hb : s.rebuilds[r]? = some b) : ∃ b', s'.rebuilds[r]? = some b' ∧ GoesOn b b' := by
  have hrel := h.rebuilds r
  rw [hb] at hrel
  cases hb' : s'.rebuilds[r]? with
  | none =>
      rw [hb'] at hrel
      cases hrel
  | some b' =>
      rw [hb'] at hrel
      cases hrel with
      | some hgo => exact ⟨b', rfl, hgo⟩

theorem allGoOn_refl {s s' : RepositoryService} (hqueues : s'.queues = s.queues)
    (hrebuilds : s'.rebuilds = s.rebuilds) : s.AllGoOn s' := by
  refine ⟨hqueues, ?_⟩
  intro r
  rw [hrebuilds]
  cases s.rebuilds[r]? with
  | none => exact .none
  | some b => exact .some (GoesOn.refl b)

/-- The rebuild `r` goes on, and the others stay as they are. -/
theorem allGoOn_setProgress {s : RepositoryService} {r : Nat} {b : Rebuild} {p : Progress}
    (hb : s.rebuilds[r]? = some b) (hgo : GoesOn b { b with progress := p }) :
    s.AllGoOn (s.setProgress r p) := by
  refine ⟨rfl, ?_⟩
  intro r'
  rw [getElem?_setProgress]
  by_cases hr : r = r'
  · subst hr
    rw [hb]
    simpa using hgo
  · cases s.rebuilds[r']? with
    | none => exact .none
    | some b' => simpa [hr] using GoesOn.refl b'

theorem allGoOn_emitIdle (queue : Nat) (s : RepositoryService) :
    s.AllGoOn (s.emitIdle queue) := by
  unfold emitIdle
  split_ifs
  · refine ⟨rfl, ?_⟩
    intro r
    rw [List.getElem?_map]
    cases s.rebuilds[r]? with
    | none => exact .none
    | some b =>
        rw [Option.map_some]
        split_ifs with h
        · exact .some (goesOn_of_progress (by simp [h.2]))
        · exact .some (GoesOn.refl b)
  · exact allGoOn_refl rfl rfl

theorem Queued.allGoOn {s s' : RepositoryService} (h : s.Queued) (hgo : s.AllGoOn s') :
    s'.Queued := by
  have hback := fun (r : Nat) (b' : Rebuild) (h : s'.rebuilds[r]? = some b') => hgo.back h
  have hforth := fun (r : Nat) (b : Rebuild) (h : s.rebuilds[r]? = some b) => hgo.forth h
  constructor
  · intro q r
    rw [hgo.queues, h.running]
    grind [GoesOn]
  · intro q r
    rw [hgo.queues, h.waiting]
    grind [GoesOn]
  · rw [hgo.queues]
    exact h.sorted

/-- A rebuild that is over leaves its queue. -/
theorem Queued.vacate {s : RepositoryService} (h : s.Queued) {r : Nat} {b : Rebuild} {p : Progress}
    (hb : s.rebuilds[r]? = some b) (hactive : b.progress.isActive = true)
    (hp : p.isActive = false) (hwaiting : p ≠ .waiting) :
    ((s.setProgress r p).vacate b.queue).Queued := by
  have hget : ∀ r' : Nat, ((s.setProgress r p).vacate b.queue).rebuilds[r']? =
      s.rebuilds[r']?.map fun b => if r = r' then { b with progress := p } else b :=
    getElem?_setProgress r p s
  have hrunning : (s.queues b.queue).running = some r :=
    (h.running b.queue r).mpr ⟨b, hb, rfl, hactive⟩
  have hne : b.progress ≠ .waiting := by
    intro hw
    rw [hw] at hactive
    cases hactive
  constructor
  · intro q r'
    have hold := h.running q r'
    rw [hget]
    by_cases hq : q = b.queue
    · subst hq
      rw [hrunning] at hold
      simp only [RepositoryService.vacate, Function.update_self]
      grind
    · simp only [RepositoryService.vacate, Function.update_of_ne hq, queues_setProgress, hold]
      grind
  · intro q r'
    rw [waiting_vacate, queues_setProgress, h.waiting q r', hget]
    grind
  · intro q
    rw [waiting_vacate, queues_setProgress]
    exact h.sorted q

/-- A new rebuild is the last one in its queue. -/
theorem Queued.append {s : RepositoryService} (h : s.Queued) (workspaceFolder : WorkspaceFolder)
    (fromFileUpdate : Bool) :
    ((s.appendRebuild workspaceFolder fromFileUpdate).enqueue (s.queueOf workspaceFolder)
      s.rebuilds.length).Queued := by
  set queue := s.queueOf workspaceFolder with hqueue
  have hget := getElem?_appendRebuild workspaceFolder fromFileUpdate s
  have hlast : ∀ (r : Nat) (b : Rebuild), s.rebuilds[r]? = some b → r < s.rebuilds.length := by
    intro r b hb
    exact (List.getElem?_eq_some_iff.mp hb).1
  have hlt : ∀ q, ∀ r ∈ (s.queues q).waiting, r < s.rebuilds.length := by
    intro q r hr
    obtain ⟨b, hb, -⟩ := (h.waiting q r).mp hr
    exact hlast r b hb
  -- all that wait are older than the new rebuild, which goes to the end
  constructor
  · intro q r
    rw [running_enqueue]
    show (s.queues q).running = some r ↔ ∃ b, (s.appendRebuild _ _).rebuilds[r]? = some b ∧ _
    rw [hget]
    have hold := h.running q r
    have hr := hlast r
    grind [Progress.isActive]
  · intro q r
    rw [waiting_enqueue]
    show r ∈ (if q = queue then (s.queues q).waiting ++ [s.rebuilds.length]
      else (s.queues q).waiting) ↔ ∃ b, (s.appendRebuild _ _).rebuilds[r]? = some b ∧ _
    rw [hget]
    by_cases hnew : r = s.rebuilds.length
    · have hnone : r ∉ (s.queues q).waiting := fun hmem => absurd (hlt q r hmem) (by omega)
      rw [if_pos hnew]
      by_cases hq : q = queue
      · simp [hq, hnew, hqueue]
      · have hne : queue ≠ q := fun heq => hq heq.symm
        simp [hq, hnone, ← hqueue, hne]
    · rw [if_neg hnew, ← h.waiting q r]
      by_cases hq : q = queue
      · simp [hq, hnew]
      · simp [hq]
  · intro q
    rw [waiting_enqueue]
    show (if q = queue then (s.queues q).waiting ++ [s.rebuilds.length]
      else (s.queues q).waiting).Pairwise (· < ·)
    split_ifs
    · rw [List.pairwise_append]
      exact ⟨h.sorted q, by simp, by simpa using hlt q⟩
    · exact h.sorted q

theorem allGoOn_returns {s : RepositoryService} {r : Nat} {b : Rebuild}
    (hb : s.rebuilds[r]? = some b) (hp : b.progress = .running) :
    s.AllGoOn ((s.setProgress r .returned).withFileChangeQueue s.fileChangeQueue.start) := by
  obtain ⟨hqueues, hrebuilds⟩ :=
    allGoOn_setProgress hb (goesOn_of_progress (p := .returned) (by simp [hp]))
  exact ⟨hqueues, hrebuilds⟩

theorem allGoOn_storeQueue {s : RepositoryService} {r : Nat} {b : Rebuild}
    (hb : s.rebuilds[r]? = some b) (hp : b.progress = .fulfilled) :
    s.AllGoOn (s.storeQueue r b) := by
  obtain ⟨hqueues, hrebuilds⟩ := allGoOn_setProgress hb (goesOn_of_progress
    (p := if (s.queues b.queue).isIdle then .settled else .awaitsIdle) (by split_ifs <;> simp [hp]))
  exact ⟨hqueues, hrebuilds⟩

/-- What a rebuild is when its queue notices that it is over, and what it becomes. -/
theorem progress_of_settles {b : Rebuild} {p : Progress}
    (h : b.progress = .returned ∧ p = .fulfilled ∨ b.progress = .threw ∧ p = .rejected) :
    b.progress.isActive = true ∧ p.isActive = false ∧ p ≠ .waiting ∧
      (p.mayStore = true → b.progress.mayStore = true) := by
  rcases h with ⟨h, rfl⟩ | ⟨h, rfl⟩ <;> simp [h, Progress.isActive, Progress.mayStore]

theorem Queued.step {s s' : RepositoryService} {a : Action} (h : s.Queued)
    (hs : RepositoryService.step s a = some s') : s'.Queued := by
  cases stepTo_of_step hs with
  | queues fromFileUpdate hqueues => exact (h.append _ fromFileUpdate).runNext _
  | event data => exact h.allGoOn (allGoOn_refl rfl rfl)
  | handled => exact h.allGoOn (allGoOn_refl rfl rfl)
  | returns hb hp => exact h.allGoOn (allGoOn_returns hb hp)
  | throws hb hp =>
      exact h.allGoOn (allGoOn_setProgress hb (goesOn_of_progress (by simp [hp])))
  | settles hb hp =>
      obtain ⟨hactive, hp, hwaiting, -⟩ := progress_of_settles hp
      exact ((h.vacate hb hactive hp hwaiting).runNext _).allGoOn (allGoOn_emitIdle _ _)
  | stores hb hp => exact h.allGoOn (allGoOn_storeQueue hb hp)
  | rejects hb hp =>
      exact h.allGoOn (allGoOn_setProgress hb (goesOn_of_progress (by simp [hp])))

theorem queued_new : new.Queued := ⟨by simp [new], by simp [new], by simp [new]⟩

/-- **The queues hold the rebuilds** in every state that a run reaches. -/
theorem queued_of_run {as : List Action} {s : RepositoryService}
    (hrun : run step new as = some s) : s.Queued :=
  run_invariant (I := Queued) (fun _ _ _ h hs => h.step hs) queued_new hrun

end RepositoryService
end KhulnasoftLsp.Git
