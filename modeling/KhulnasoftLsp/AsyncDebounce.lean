import KhulnasoftLsp.Transition
import Mathlib.Data.List.Nodup
import Mathlib.Data.List.Range

/-!
# Debounced asynchronous functions

Every call of a debounced function returns a promise of its own, and the function behind it is
invoked when no call has been made for some time. When that is, is decided by `debounce` of a
package: `Debounce.Lawful` is what is promised of it, `Debounce.trailing` the usual way to do it.

The promises that wait are kept in two sets that all invocations share: the first that completes
settles whatever waits, and clears them. So no promise is settled twice, and none is left when all
is done. But an invocation that takes long settles the promises of calls that were made after it had
started: `promises_settle_iff` says that this is what happens whenever it completes while such a
call waits.
-/

namespace KhulnasoftLsp

open Transition

/-- A debounced function, called with arguments `α`. -/
structure Debounce (α : Type) where
  State : Type
  new : State
  /-- The debounced function is called at some time. -/
  call : Nat → α → State → State
  /-- The timeout has ended: the arguments with which the function is invoked, if it is. -/
  timerExpired : Nat → State → Option α × State
  /-- When the timeout ends, if it runs. -/
  timer : State → Option Nat

namespace Debounce

variable {α : Type}

structure Lawful (D : Debounce α) : Prop where
  /-- The timeout runs after a call. -/
  timer_call : ∀ time args s, (D.timer (D.call time args s)).isSome
  /-- When it has ended the function is invoked, or the timeout goes on. -/
  trailing : ∀ time s, (D.timer s).isSome →
    (D.timerExpired time s).1.isSome ∨ (D.timer (D.timerExpired time s).2).isSome

/-- The function is invoked with the last arguments, `wait` milliseconds after the last call. -/
def trailing (wait : Nat) : Debounce α where
  State := Option (Nat × α)
  new := none
  call := fun time args _ => some (time + wait, args)
  timerExpired := fun _ s => (s.map Prod.snd, none)
  timer := fun s => s.map Prod.fst

theorem lawful_trailing (wait : Nat) : (trailing wait : Debounce α).Lawful where
  timer_call := fun _ _ _ => rfl
  trailing := by
    intro time s htimer
    left
    exact Option.isSome_map.trans (Option.isSome_map.symm.trans htimer)

end Debounce

/-- `func` has been applied. -/
structure Invocation (α β ε : Type) where
  args : α
  /-- How many calls had been made. -/
  calls : Nat
  outcome : Option (Except ε β)
  deriving Repr

/-- The promise of a call is resolved with the result of an invocation, or rejected. -/
structure Settlement (β ε : Type) where
  call : Nat
  invocation : Nat
  outcome : Except ε β
  deriving Repr

structure AsyncDebounce {α : Type} (D : Debounce α) (β ε : Type) where
  now : Nat
  /-- How many calls have been made. -/
  calls : Nat
  /-- The `resolve` of a promise is the number of its call. -/
  resolveSet : List Nat
  rejectSet : List Nat
  debounced : D.State
  invocations : List (Invocation α β ε)
  settlements : List (Settlement β ε)

inductive DebounceAction (α β ε : Type) where
  | debouncedWrapper (args : α)
  | elapse (time : Nat)
  | timerExpired
  | complete (invocation : Nat) (outcome : Except ε β)
  deriving Repr

namespace AsyncDebounce

variable {α β ε : Type} {D : Debounce α}

def asyncDebounce (D : Debounce α) (now : Nat) : AsyncDebounce D β ε where
  now
  calls := 0
  resolveSet := []
  rejectSet := []
  debounced := D.new
  invocations := []
  settlements := []

def debouncedWrapper (args : α) (s : AsyncDebounce D β ε) : AsyncDebounce D β ε :=
  { s with
    calls := s.calls + 1
    resolveSet := s.resolveSet ++ [s.calls]
    rejectSet := s.rejectSet ++ [s.calls]
    debounced := D.call s.now args s.debounced }

def debouncedFn (args : α) (s : AsyncDebounce D β ε) : Invocation α β ε := ⟨args, s.calls, none⟩

/-- The timeout has ended, and the function is applied if the package says so. -/
def timerExpired (s : AsyncDebounce D β ε) : AsyncDebounce D β ε :=
  let (invoked, debounced) := D.timerExpired s.now s.debounced
  { s with
    debounced
    invocations := s.invocations ++ (invoked.map fun args => s.debouncedFn args).toList }

/-- The promises of a set of calls are settled. -/
def settle (set : List Nat) (invocation : Nat) (outcome : Except ε β) :
    List (Settlement β ε) :=
  set.map fun call => ⟨call, invocation, outcome⟩

def complete (i : Nat) (outcome : Except ε β) (s : AsyncDebounce D β ε) : AsyncDebounce D β ε :=
  { s with
    settlements := s.settlements ++
      match outcome with
      | .ok _ => settle s.resolveSet i outcome
      | .error _ => settle s.rejectSet i outcome
    resolveSet := []
    rejectSet := []
    invocations := s.invocations.modify i fun invocation =>
      { invocation with outcome := some outcome } }

def step (s : AsyncDebounce D β ε) : DebounceAction α β ε → Option (AsyncDebounce D β ε)
  | .debouncedWrapper args => some (s.debouncedWrapper args)
  | .elapse time => if s.now ≤ time then some { s with now := time } else none
  | .timerExpired =>
    (D.timer s.debounced).bind fun due => if due ≤ s.now then some s.timerExpired else none
  | .complete i outcome =>
    s.invocations[i]?.bind fun invocation =>
      if invocation.outcome.isNone then some (s.complete i outcome) else none

def settlementsOf (s : AsyncDebounce D β ε) (call : Nat) : List (Settlement β ε) :=
  s.settlements.filter fun settlement => settlement.call == call

/-- The function will not be invoked again, and all its invocations have completed. -/
def Done (s : AsyncDebounce D β ε) : Prop :=
  D.timer s.debounced = none ∧ ∀ invocation ∈ s.invocations, invocation.outcome.isSome

/-- The outcome is that of an invocation that started after the call. -/
def Newer (s : AsyncDebounce D β ε) (settlement : Settlement β ε) : Prop :=
  ∃ invocation, s.invocations[settlement.invocation]? = some invocation ∧
    settlement.call < invocation.calls ∧ invocation.outcome = some settlement.outcome

structure Settles (s : AsyncDebounce D β ε) : Prop where
  once : ∀ call, (s.settlementsOf call).length ≤ 1
  all : s.Done → ∀ call < s.calls, (s.settlementsOf call).length = 1
  newer : ∀ settlement ∈ s.settlements, s.Newer settlement

/-- An invocation completes when no call waits, or when there has been none since it started. -/
def InOrder (s : AsyncDebounce D β ε) : DebounceAction α β ε → Prop
  | .complete i _ => s.resolveSet = [] ∨
      ∀ invocation ∈ s.invocations[i]?, invocation.calls = s.calls
  | _ => True

/-! ## The calls that wait -/

/-- The first calls have been settled, the others wait. -/
structure WaitsFrom (n : Nat) (s : AsyncDebounce D β ε) : Prop where
  le : n ≤ s.calls
  resolveSet : s.resolveSet = List.range' n (s.calls - n)
  rejectSet : s.rejectSet = s.resolveSet
  settled : ∀ call, (s.settlementsOf call).length = if call < n then 1 else 0
  /-- What has started has started after some of the calls. -/
  started : ∀ invocation ∈ s.invocations, invocation.calls ≤ s.calls
  /-- If a call waits, the function is about to be invoked or has not completed since. -/
  awaited : n < s.calls → D.timer s.debounced = none →
    ∃ invocation ∈ s.invocations, invocation.outcome = none

variable {s t : AsyncDebounce D β ε} {n : Nat}

theorem asyncDebounce_waitsFrom (now : Nat) :
    (asyncDebounce D now : AsyncDebounce D β ε).WaitsFrom 0 where
  le := Nat.le_refl 0
  resolveSet := rfl
  rejectSet := rfl
  settled := fun _ => rfl
  started := nofun
  awaited := nofun

/-- Once all is done, no call waits any longer. -/
theorem WaitsFrom.settles_iff (h : s.WaitsFrom n) :
    s.Settles ↔ ∀ settlement ∈ s.settlements, s.Newer settlement := by
  refine ⟨Settles.newer, fun hnewer => ⟨?_, ?_, hnewer⟩⟩
  · intro call
    rw [h.settled]
    split
    · exact Nat.le_refl 1
    · exact Nat.zero_le 1
  · rintro ⟨hdebounced, hcompleted⟩ call hcall
    rw [h.settled, if_pos]
    by_contra hwaits
    have hn : n < s.calls := Nat.lt_of_le_of_lt (Nat.le_of_not_lt hwaits) hcall
    obtain ⟨invocation, hinvocation, houtcome⟩ := h.awaited hn hdebounced
    have hsome := hcompleted invocation hinvocation
    rw [houtcome] at hsome
    cases hsome

theorem WaitsFrom.debouncedWrapper (hD : D.Lawful) (args : α) (h : s.WaitsFrom n) :
    (s.debouncedWrapper args).WaitsFrom n where
  le := Nat.le_succ_of_le h.le
  resolveSet := by
    show s.resolveSet ++ [s.calls] = List.range' n (s.calls + 1 - n)
    have hle := h.le
    rw [Nat.sub_add_comm hle, List.range'_1_concat, ← h.resolveSet, Nat.add_sub_cancel' hle]
  rejectSet := by
    show s.rejectSet ++ [s.calls] = s.resolveSet ++ [s.calls]
    rw [h.rejectSet]
  settled := h.settled
  started := fun invocation hinvocation => Nat.le_succ_of_le (h.started invocation hinvocation)
  awaited := by
    intro _ htimer
    have hcall := hD.timer_call s.now args s.debounced
    have hnone : D.timer (D.call s.now args s.debounced) = none := htimer
    rw [hnone] at hcall
    cases hcall

theorem mem_invocations_timerExpired {invocation : Invocation α β ε} :
    invocation ∈ s.timerExpired.invocations ↔ invocation ∈ s.invocations ∨
      ∃ args, (D.timerExpired s.now s.debounced).1 = some args ∧
        invocation = s.debouncedFn args := by
  show invocation ∈ s.invocations ++ _ ↔ _
  rw [List.mem_append, Option.mem_toList, Option.map_eq_some_iff]
  simp only [eq_comm]

theorem WaitsFrom.timerExpired (hD : D.Lawful) (htimer : (D.timer s.debounced).isSome)
    (h : s.WaitsFrom n) : s.timerExpired.WaitsFrom n where
  le := h.le
  resolveSet := h.resolveSet
  rejectSet := h.rejectSet
  settled := h.settled
  started := by
    intro invocation hinvocation
    rcases mem_invocations_timerExpired.mp hinvocation with hinvocation | ⟨args, -, rfl⟩
    · exact h.started invocation hinvocation
    · exact Nat.le_refl s.calls
  awaited := by
    intro _ hnone
    rcases hD.trailing s.now s.debounced htimer with hinvoked | hagain
    · obtain ⟨args, hargs⟩ := Option.isSome_iff_exists.mp hinvoked
      exact ⟨_, mem_invocations_timerExpired.mpr (.inr ⟨args, hargs, rfl⟩), rfl⟩
    · have hstopped : D.timer (D.timerExpired s.now s.debounced).2 = none := hnone
      rw [hstopped] at hagain
      cases hagain

/-- Whatever the outcome, all promises that wait are settled with it. -/
theorem WaitsFrom.settlements_complete (h : s.WaitsFrom n) (i : Nat) (outcome : Except ε β) :
    (s.complete i outcome).settlements = s.settlements ++ settle s.resolveSet i outcome := by
  cases outcome with
  | ok result => rfl
  | error reason =>
    show s.settlements ++ settle s.rejectSet i _ = _
    rw [h.rejectSet]

theorem filter_settle {i call : Nat} {outcome : Except ε β} {set : List Nat} (h : set.Nodup) :
    ((settle set i outcome).filter fun settlement => settlement.call == call).length =
      if call ∈ set then 1 else 0 := by
  rw [settle, List.filter_map, List.length_map]
  show (set.filter (· == call)).length = _
  rw [← List.count_eq_length_filter]
  split
  · next hcall => exact List.count_eq_one_of_mem h hcall
  · next hcall => exact List.count_eq_zero_of_not_mem hcall

theorem WaitsFrom.complete (i : Nat) (outcome : Except ε β) (h : s.WaitsFrom n) :
    (s.complete i outcome).WaitsFrom s.calls where
  le := Nat.le_refl s.calls
  resolveSet := by
    show [] = List.range' s.calls (s.calls - s.calls)
    rw [Nat.sub_self]
    rfl
  rejectSet := rfl
  settled := by
    intro call
    have hnodup : s.resolveSet.Nodup := by
      rw [h.resolveSet]
      exact List.nodup_range'
    rw [settlementsOf, h.settlements_complete, List.filter_append, List.length_append,
      filter_settle hnodup]
    show (s.settlementsOf call).length + _ = _
    rw [h.settled, h.resolveSet]
    simp only [List.mem_range'_1]
    have hle := h.le
    split <;> split <;> split <;> omega
  started := by
    intro invocation hinvocation
    obtain ⟨j, hj⟩ := List.mem_iff_getElem?.mp hinvocation
    have hmodify : (s.invocations.modify i _)[j]? = some invocation := hj
    rw [List.getElem?_modify, Option.map_eq_map, Option.map_eq_some_iff] at hmodify
    obtain ⟨before, hbefore, rfl⟩ := hmodify
    have hle := h.started before (List.mem_of_getElem? hbefore)
    split
    · exact hle
    · exact hle
  awaited := fun hn => absurd hn (Nat.lt_irrefl s.calls)

/-- The last of the calls that wait is the last call. -/
theorem WaitsFrom.forall_waiting_iff (h : s.WaitsFrom n) {m : Nat} :
    (∀ call ∈ s.resolveSet, call < m) ↔ s.resolveSet = [] ∨ s.calls ≤ m := by
  rw [h.resolveSet]
  simp only [List.mem_range'_1, List.range'_eq_nil_iff]
  have hle := h.le
  constructor
  · intro hall
    by_cases hn : n < s.calls
    · right
      have hlast := hall (s.calls - 1) (by omega)
      omega
    · left
      omega
  · intro hlast call hcall
    omega

/-! ## Steps -/

theorem step_waitsFrom (hD : D.Lawful) {a : DebounceAction α β ε} (h : ∃ n, s.WaitsFrom n)
    (hstep : s.step a = some t) : ∃ n, t.WaitsFrom n := by
  obtain ⟨n, h⟩ := h
  cases a with
  | debouncedWrapper args =>
    cases hstep
    exact ⟨n, h.debouncedWrapper hD args⟩
  | elapse time =>
    obtain ⟨-, helapsed⟩ := Option.ite_none_right_eq_some.mp hstep
    cases helapsed
    exact ⟨n, h.le, h.resolveSet, h.rejectSet, h.settled, h.started, h.awaited⟩
  | timerExpired =>
    obtain ⟨due, htimer, hdue⟩ := Option.bind_eq_some_iff.mp hstep
    obtain ⟨-, hexpired⟩ := Option.ite_none_right_eq_some.mp hdue
    cases hexpired
    exact ⟨n, h.timerExpired hD (Option.isSome_iff_exists.mpr ⟨due, htimer⟩)⟩
  | complete i outcome =>
    obtain ⟨invocation, -, hcomplete⟩ := Option.bind_eq_some_iff.mp hstep
    obtain ⟨-, hcompleted⟩ := Option.ite_none_right_eq_some.mp hcomplete
    cases hcompleted
    exact ⟨s.calls, h.complete i outcome⟩

/-- What an invocation that has completed has settled is not touched by another. -/
theorem newer_complete {i : Nat} {outcome : Except ε β} {invocation : Invocation α β ε}
    {settlement : Settlement β ε} (hinvocation : s.invocations[i]? = some invocation)
    (hrunning : invocation.outcome = none) (h : s.Newer settlement) :
    (s.complete i outcome).Newer settlement := by
  obtain ⟨other, hother, hlt, houtcome⟩ := h
  refine ⟨other, ?_, hlt, houtcome⟩
  show (s.invocations.modify i _)[settlement.invocation]? = _
  have hne : i ≠ settlement.invocation := by
    rintro rfl
    rw [hinvocation, Option.some.injEq] at hother
    rw [hother, houtcome] at hrunning
    cases hrunning
  rw [List.getElem?_modify_ne _ _ hne]
  exact hother

theorem newer_settle_iff {i call : Nat} {outcome : Except ε β} {invocation : Invocation α β ε}
    (hinvocation : s.invocations[i]? = some invocation) :
    (s.complete i outcome).Newer ⟨call, i, outcome⟩ ↔ call < invocation.calls := by
  have hself : (s.complete i outcome).invocations[i]? =
      some { invocation with outcome := some outcome } := by
    show (s.invocations.modify i _)[i]? = _
    rw [List.getElem?_modify_eq, hinvocation]
    rfl
  constructor
  · rintro ⟨other, hother, hlt, -⟩
    rw [hself, Option.some.injEq] at hother
    rw [← hother] at hlt
    exact hlt
  · intro hlt
    exact ⟨_, hself, hlt, rfl⟩

theorem step_settles_iff (hD : D.Lawful) {a : DebounceAction α β ε} (h : ∃ n, s.WaitsFrom n)
    (hs : s.Settles) (hstep : s.step a = some t) : t.Settles ↔ s.InOrder a := by
  obtain ⟨m, ht⟩ := step_waitsFrom hD h hstep
  obtain ⟨n, h⟩ := h
  rw [ht.settles_iff]
  cases a with
  | debouncedWrapper args =>
    cases hstep
    exact iff_of_true hs.newer trivial
  | elapse time =>
    obtain ⟨-, helapsed⟩ := Option.ite_none_right_eq_some.mp hstep
    cases helapsed
    exact iff_of_true hs.newer trivial
  | timerExpired =>
    obtain ⟨due, -, hdue⟩ := Option.bind_eq_some_iff.mp hstep
    obtain ⟨-, hexpired⟩ := Option.ite_none_right_eq_some.mp hdue
    cases hexpired
    refine iff_of_true ?_ trivial
    intro settlement hsettlement
    obtain ⟨invocation, hinvocation, hnewer⟩ := hs.newer settlement hsettlement
    refine ⟨invocation, ?_, hnewer⟩
    obtain ⟨hlength, -⟩ := List.getElem?_eq_some_iff.mp hinvocation
    show (s.invocations ++ _)[settlement.invocation]? = _
    rw [List.getElem?_append_left hlength]
    exact hinvocation
  | complete i outcome =>
    obtain ⟨invocation, hinvocation, hcomplete⟩ := Option.bind_eq_some_iff.mp hstep
    obtain ⟨hrunning, hcompleted⟩ := Option.ite_none_right_eq_some.mp hcomplete
    cases hcompleted
    rw [Option.isNone_iff_eq_none] at hrunning
    have hle := h.started invocation (List.mem_of_getElem? hinvocation)
    have horder : s.InOrder (.complete i outcome) ↔
        ∀ call ∈ s.resolveSet, call < invocation.calls := by
      rw [h.forall_waiting_iff, InOrder, hinvocation]
      simp only [Option.mem_some, forall_eq']
      rw [Nat.le_antisymm_iff, and_iff_right hle]
    rw [horder, h.settlements_complete]
    simp only [List.mem_append, or_imp, forall_and, settle, List.forall_mem_map,
      newer_settle_iff hinvocation]
    apply and_iff_right
    intro settlement hsettlement
    exact newer_complete hinvocation hrunning (hs.newer settlement hsettlement)

/-! ## Whole runs -/

/-- **A debounced function settles its promises** once and with an outcome of the function that is
newer than the call, exactly as long as no invocation completes while a call waits that was made
after it had started. -/
theorem promises_settle_iff (hD : D.Lawful) {now : Nat} {as : List (DebounceAction α β ε)}
    (h : run step (asyncDebounce D now) as = some s) :
    Always step Settles (asyncDebounce D now : AsyncDebounce D β ε) as ↔
      Guarded step InOrder (asyncDebounce D now : AsyncDebounce D β ε) as := by
  have hinit : (asyncDebounce D now : AsyncDebounce D β ε).WaitsFrom 0 :=
    asyncDebounce_waitsFrom now
  apply always_iff_guarded (I := fun s => ∃ n, s.WaitsFrom n) _ _ ⟨0, hinit⟩ _ h
  · intro s a t hs _ _ hstep
    exact step_waitsFrom hD hs hstep
  · intro s a t hs hp hstep
    exact step_settles_iff hD hs hp hstep
  · rw [hinit.settles_iff]
    exact nofun

/-- Calls of a search, with a pause of 50 milliseconds. -/
abbrev SampleDebounce := AsyncDebounce (Debounce.trailing 50 : Debounce String) String String

theorem promises_settle_iff_of_two_calls : ∃ s : SampleDebounce,
    run step (asyncDebounce _ 0) [.debouncedWrapper "a", .elapse 40, .debouncedWrapper "ab",
      .elapse 90, .timerExpired, .complete 0 (.ok "files")] = some s ∧
    (Always step Settles (asyncDebounce _ 0 : SampleDebounce)
        [.debouncedWrapper "a", .elapse 40, .debouncedWrapper "ab", .elapse 90, .timerExpired,
          .complete 0 (.ok "files")] ↔
      Guarded step InOrder (asyncDebounce _ 0 : SampleDebounce)
        [.debouncedWrapper "a", .elapse 40, .debouncedWrapper "ab", .elapse 90, .timerExpired,
          .complete 0 (.ok "files")]) := by
  obtain ⟨s, hs⟩ : ∃ s : SampleDebounce,
      run step (asyncDebounce _ 0) [.debouncedWrapper "a", .elapse 40, .debouncedWrapper "ab",
        .elapse 90, .timerExpired, .complete 0 (.ok "files")] = some s := ⟨_, rfl⟩
  exact ⟨s, hs, promises_settle_iff (Debounce.lawful_trailing 50) hs⟩

/-- A search that takes long answers the call for the next. -/
theorem not_promises_settle : ∃ s : SampleDebounce,
    run step (asyncDebounce _ 0) [.debouncedWrapper "a", .elapse 50, .timerExpired,
      .debouncedWrapper "ab", .complete 0 (.ok "files of a"), .elapse 100, .timerExpired,
      .complete 1 (.ok "files of ab")] = some s ∧
    s.Done ∧ s.settlements = [⟨0, 0, .ok "files of a"⟩, ⟨1, 0, .ok "files of a"⟩] ∧
    ¬ s.Settles := by
  refine ⟨_, rfl, ⟨rfl, ?_⟩, rfl, ?_⟩
  · intro invocation hinvocation
    rcases List.mem_cons.mp hinvocation with rfl | hinvocation
    · rfl
    · rw [List.mem_singleton.mp hinvocation]
      rfl
  · intro h
    obtain ⟨invocation, hinvocation, hlt, -⟩ :=
      h.newer ⟨1, 0, .ok "files of a"⟩ (List.mem_cons_of_mem _ List.mem_cons_self)
    cases hinvocation
    exact absurd hlt (Nat.lt_irrefl 1)

end AsyncDebounce
end KhulnasoftLsp
