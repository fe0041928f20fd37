import Mathlib.Logic.Relation
import Mathlib.Data.List.Basic

/-!
# Reachability in acyclic graphs

A graph is a relation between nodes; it is acyclic when no node is reached from itself by one step
or more. A search through such a graph makes progress along each edge: fewer of the nodes of a list
are reachable from the target than from the source (`reachCount_lt`).
-/

open Relation

/-- No node is reached from itself by one step or more. -/
def Acyclic {α : Type*} (r : α → α → Prop) : Prop := ∀ a, ¬ TransGen r a a

namespace Acyclic

variable {α : Type*} {r : α → α → Prop} {a b : α}

theorem not_reach_back (h : Acyclic r) (hab : r a b) : ¬ ReflTransGen r b a :=
  fun hba => h a (TransGen.head' hab hba)

/-- A graph that maps into an acyclic one is acyclic. -/
theorem of_map {β : Type*} {q : β → β → Prop} {f : β → α} (h : Acyclic r)
    (hf : ∀ x y, q x y → r (f x) (f y)) : Acyclic q :=
  fun x hx => h (f x) (hx.lift f hf)

/-- A graph whose edges all go down is acyclic. -/
theorem of_lt {f : α → Nat} (h : ∀ x y, r x y → f y < f x) : Acyclic r := by
  apply of_map (r := fun m n : Nat => n < m) _ h
  intro n hn
  have hdown : ∀ {m}, TransGen (fun m n : Nat => n < m) n m → m < n := by
    intro m hm
    induction hm with
    | single h => exact h
    | tail _ h ih => exact Nat.lt_trans h ih
  exact Nat.lt_irrefl n (hdown hn)

end Acyclic

/-- What holds of a node and along every edge holds of all that is reached from the node. -/
theorem Relation.ReflTransGen.invariant {α : Type*} {r : α → α → Prop} {p : α → Prop}
    (hstep : ∀ a b, p a → r a b → p b) {a b : α} (h : ReflTransGen r a b) (ha : p a) : p b := by
  induction h with
  | refl => exact ha
  | tail _ hbc ih => exact hstep _ _ ih hbc

theorem List.countP_lt_countP_of_mem {β : Type*} {p q : β → Bool} {l : List β}
    (himp : ∀ x ∈ l, p x → q x) {x : β} (hx : x ∈ l) (hq : q x) (hp : ¬ p x) :
    l.countP p < l.countP q := by
  induction l with
  | nil => cases hx
  | cons y l ih =>
      have hle : l.countP p ≤ l.countP q :=
        List.countP_mono_left fun z hz => himp z (List.mem_cons_of_mem y hz)
      rcases List.mem_cons.mp hx with rfl | hx
      · rw [List.countP_cons_of_neg hp, List.countP_cons_of_pos hq]
        omega
      · have hlt := ih (fun z hz => himp z (List.mem_cons_of_mem y hz)) hx
        have hy := himp y List.mem_cons_self
        rw [List.countP_cons, List.countP_cons]
        grind

section Count

variable {α β : Type*} (r : α → α → Prop) (key : β → α) (nodes : List β)

open Classical in
/-- How many of the listed nodes are reachable. -/
noncomputable def reachCount (a : α) : Nat := nodes.countP fun x => ReflTransGen r a (key x)

theorem reachCount_le (a : α) : reachCount r key nodes a ≤ nodes.length := by
  unfold reachCount
  exact List.countP_le_length

/-- In an acyclic graph, fewer nodes are reachable from the end of an edge than from its start, if
the start is listed. -/
theorem reachCount_lt (h : Acyclic r) {a b : α} (hab : r a b) {x : β} (hx : x ∈ nodes)
    (hxa : key x = a) : reachCount r key nodes b < reachCount r key nodes a := by
  unfold reachCount
  apply List.countP_lt_countP_of_mem _ hx
  · simpa using hxa ▸ ReflTransGen.refl
  · simpa [hxa] using h.not_reach_back hab
  · intro y _ hy
    simp only [decide_eq_true_eq] at hy ⊢
    exact ReflTransGen.head hab hy

end Count
