import KhulnasoftLsp.JsString
import Mathlib.Data.Prod.Lex

/-!
# Syntax trees

A node of a syntax tree covers a part of a text, from its start up to its end, and its children lie
in it one behind the other. A node is named by its path, the indices of the children on the way to
it; so the ancestors of a node are at the prefixes of its path.

`Consistent.within` and `Consistent.before` say where two nodes lie: one in the other, if its path
goes on the other's, and else one behind the other, as their paths part.
-/

namespace TreeSitter

/-- A position in a text, of which the rows come first. -/
structure Point where
  row : Nat
  column : Nat
  deriving DecidableEq, Repr

instance : LinearOrder Point :=
  LinearOrder.lift' (fun p => toLex (p.row, p.column)) fun p q h => by
    cases p
    cases q
    simpa using h

theorem Point.le_iff {p q : Point} :
    p ≤ q ↔ p.row < q.row ∨ p.row = q.row ∧ p.column ≤ q.column :=
  Prod.Lex.toLex_le_toLex

theorem Point.row_le {p q : Point} (h : p ≤ q) : p.row ≤ q.row := by
  rcases Point.le_iff.mp h with h | h
  · exact Nat.le_of_lt h
  · exact Nat.le_of_eq h.1

inductive SyntaxNode where
  | node (startPosition endPosition : Point) (text : JsString) (children : List SyntaxNode)

namespace SyntaxNode

def startPosition : SyntaxNode → Point
  | node start _ _ _ => start

def endPosition : SyntaxNode → Point
  | node _ stop _ _ => stop

def text : SyntaxNode → JsString
  | node _ _ text _ => text

def children : SyntaxNode → List SyntaxNode
  | node _ _ _ children => children

/-- The node at a path. -/
def nodeAt (tree : SyntaxNode) : List Nat → Option SyntaxNode
  | [] => some tree
  | i :: path => tree.children[i]?.bind fun child => nodeAt child path

@[simp] theorem nodeAt_nil (tree : SyntaxNode) : tree.nodeAt [] = some tree := rfl

theorem nodeAt_cons (tree : SyntaxNode) (i : Nat) (path : List Nat) :
    tree.nodeAt (i :: path) = tree.children[i]?.bind fun child => child.nodeAt path := rfl

theorem nodeAt_append (tree : SyntaxNode) (p q : List Nat) :
    tree.nodeAt (p ++ q) = (tree.nodeAt p).bind fun n => n.nodeAt q := by
  induction p generalizing tree with
  | nil => rfl
  | cons i p ih =>
      rw [List.cons_append, nodeAt_cons, nodeAt_cons]
      cases tree.children[i]? with
      | none => rfl
      | some child => exact ih child

/-! ## Consistent positions -/

/-- A node has its children in it, one behind the other. -/
structure WellPlaced (n : SyntaxNode) : Prop where
  start_le_end : n.startPosition ≤ n.endPosition
  start_le : ∀ child ∈ n.children, n.startPosition ≤ child.startPosition
  end_le : ∀ child ∈ n.children, child.endPosition ≤ n.endPosition
  ordered : n.children.Pairwise fun a b => a.endPosition ≤ b.startPosition

/-- Every node of the tree has. -/
def Consistent (tree : SyntaxNode) : Prop := ∀ path n, tree.nodeAt path = some n → n.WellPlaced

theorem consistent_iff {tree : SyntaxNode} :
    tree.Consistent ↔ tree.WellPlaced ∧ ∀ child ∈ tree.children, child.Consistent := by
  constructor
  · intro h
    refine ⟨h [] tree rfl, ?_⟩
    intro child hchild path n hn
    obtain ⟨i, hi⟩ := List.mem_iff_getElem?.mp hchild
    apply h (i :: path) n
    rw [nodeAt_cons, hi]
    exact hn
  · rintro ⟨htree, hchildren⟩ path n hn
    cases path with
    | nil =>
        obtain rfl := Option.some.inj hn
        exact htree
    | cons i path =>
        obtain ⟨child, hchild, hn⟩ := Option.bind_eq_some_iff.mp hn
        exact hchildren child (List.mem_of_getElem? hchild) path n hn

instance (n : SyntaxNode) : Decidable n.WellPlaced :=
  decidable_of_iff (n.startPosition ≤ n.endPosition ∧
    (∀ child ∈ n.children, n.startPosition ≤ child.startPosition) ∧
    (∀ child ∈ n.children, child.endPosition ≤ n.endPosition) ∧
    n.children.Pairwise fun a b => a.endPosition ≤ b.startPosition)
    ⟨fun h => ⟨h.1, h.2.1, h.2.2.1, h.2.2.2⟩, fun h => ⟨h.1, h.2, h.3, h.4⟩⟩

/-- A tree of which only the root has children. -/
theorem consistent_of_leaves {tree : SyntaxNode} (h : tree.WellPlaced)
    (hleaves : ∀ child ∈ tree.children, child.WellPlaced ∧ child.children = []) :
    tree.Consistent := by
  refine consistent_iff.mpr ⟨h, ?_⟩
  intro child hchild
  obtain ⟨hplaced, hnil⟩ := hleaves child hchild
  refine consistent_iff.mpr ⟨hplaced, ?_⟩
  simp [hnil]

namespace Consistent

variable {tree n m : SyntaxNode} {p q : List Nat}

theorem nodeAt (h : tree.Consistent) (hn : tree.nodeAt p = some n) : n.Consistent := by
  intro q m hm
  apply h (p ++ q) m
  rw [nodeAt_append, hn]
  exact hm

theorem start_le_end (h : tree.Consistent) : tree.startPosition ≤ tree.endPosition :=
  (h [] tree rfl).start_le_end

/-- A node lies in the nodes above it. -/
theorem within (h : tree.Consistent) (hn : tree.nodeAt p = some n) :
    tree.startPosition ≤ n.startPosition ∧ n.endPosition ≤ tree.endPosition := by
  induction p generalizing tree with
  | nil =>
      obtain rfl := Option.some.inj hn
      exact ⟨le_refl _, le_refl _⟩
  | cons i p ih =>
      obtain ⟨child, hchild, hn⟩ := Option.bind_eq_some_iff.mp hn
      have hmem := List.mem_of_getElem? hchild
      obtain ⟨htree, hchildren⟩ := consistent_iff.mp h
      obtain ⟨hstart, hend⟩ := ih (hchildren child hmem) hn
      exact ⟨le_trans (htree.start_le child hmem) hstart, le_trans hend (htree.end_le child hmem)⟩

/-- Of two nodes whose paths part, the one ends before the other starts. -/
theorem before {r : List Nat} {j k : Nat} (h : tree.Consistent) (hjk : j < k)
    (hn : tree.nodeAt (r ++ j :: p) = some n) (hm : tree.nodeAt (r ++ k :: q) = some m) :
    n.endPosition ≤ m.startPosition := by
  rw [nodeAt_append] at hn hm
  obtain ⟨parent, hparent, hn⟩ := Option.bind_eq_some_iff.mp hn
  rw [hparent, Option.bind_some] at hm
  obtain ⟨a, ha, hn⟩ := Option.bind_eq_some_iff.mp hn
  obtain ⟨b, hb, hm⟩ := Option.bind_eq_some_iff.mp hm
  have hconsistent := h.nodeAt hparent
  obtain ⟨hplaced, hchildren⟩ := consistent_iff.mp hconsistent
  have hab : a.endPosition ≤ b.startPosition := by
    obtain ⟨hj, rfl⟩ := List.getElem?_eq_some_iff.mp ha
    obtain ⟨hk, rfl⟩ := List.getElem?_eq_some_iff.mp hb
    exact List.pairwise_iff_getElem.mp hplaced.ordered j k hj hk hjk
  calc n.endPosition ≤ a.endPosition := ((hchildren a (List.mem_of_getElem? ha)).within hn).2
    _ ≤ b.startPosition := hab
    _ ≤ m.startPosition := ((hchildren b (List.mem_of_getElem? hb)).within hm).1

end Consistent

end SyntaxNode

/-! ## The nodes of a tree -/

/-- A node of a tree, with its path. -/
structure NodeIn (tree : SyntaxNode) where
  path : List Nat
  node : SyntaxNode
  isNode : tree.nodeAt path = some node

namespace NodeIn

variable {tree : SyntaxNode}

/-- A node is above another, or is this node itself. -/
def IsAncestor (a b : NodeIn tree) : Prop := a.path <+: b.path

instance (a b : NodeIn tree) : Decidable (a.IsAncestor b) :=
  inferInstanceAs (Decidable (a.path <+: b.path))

/-- A node is a later child of the parent of another. -/
def IsLaterSibling (s n : NodeIn tree) : Prop :=
  ∃ path i j, n.path = path ++ [i] ∧ s.path = path ++ [j] ∧ i < j

theorem IsLaterSibling.not_isAncestor {s n : NodeIn tree} (h : s.IsLaterSibling n) :
    ¬ s.IsAncestor n := by
  obtain ⟨path, i, j, hn, hs, hij⟩ := h
  rw [IsAncestor, hn, hs, List.prefix_append_right_inj, List.singleton_prefix_cons_iff]
  omega

/-- `node.parent` -/
def parent (n : NodeIn tree) : Option (NodeIn tree) :=
  if n.path = [] then none
  else
    match h : tree.nodeAt n.path.dropLast with
    | some node => some ⟨n.path.dropLast, node, h⟩
    | none => none

/-- There is a node at every path above a node. -/
theorem exists_of_path_append (n : NodeIn tree) {p q : List Nat} (h : n.path = p ++ q) :
    ∃ a : NodeIn tree, a.path = p := by
  have hn := n.isNode
  rw [h, SyntaxNode.nodeAt_append] at hn
  obtain ⟨node, hnode, -⟩ := Option.bind_eq_some_iff.mp hn
  exact ⟨⟨p, node, hnode⟩, rfl⟩

theorem start_le_end (hconsistent : tree.Consistent) (n : NodeIn tree) :
    n.node.startPosition ≤ n.node.endPosition := (hconsistent.nodeAt n.isNode).start_le_end

/-- A node lies in its ancestors. -/
theorem within {a b : NodeIn tree} (hconsistent : tree.Consistent) (h : a.IsAncestor b) :
    a.node.startPosition ≤ b.node.startPosition ∧ b.node.endPosition ≤ a.node.endPosition := by
  obtain ⟨q, hq⟩ := h
  have hb := b.isNode
  rw [← hq, SyntaxNode.nodeAt_append, a.isNode] at hb
  exact (hconsistent.nodeAt a.isNode).within hb

theorem eq_of_path {a b : NodeIn tree} (h : a.path = b.path) : a = b := by
  obtain ⟨p, n, hn⟩ := a
  obtain ⟨q, m, hm⟩ := b
  obtain rfl : p = q := h
  obtain rfl : n = m := Option.some.inj (hn.symm.trans hm)
  rfl

/-- The parent is one step up. -/
theorem parent_eq_some_iff {n p : NodeIn tree} :
    n.parent = some p ↔ ∃ i, n.path = p.path ++ [i] := by
  rw [parent]
  split
  · rename_i hroot
    simp [hroot]
  · rename_i hne
    have hlast : n.path = n.path.dropLast ++ [n.path.getLast hne] :=
      (List.dropLast_append_getLast hne).symm
    split
    · rename_i node hnode
      rw [Option.some.injEq]
      constructor
      · rintro rfl
        exact ⟨_, hlast⟩
      · rintro ⟨i, hi⟩
        apply eq_of_path
        show n.path.dropLast = p.path
        rw [hi, List.dropLast_concat]
    · rename_i hnone
      obtain ⟨a, ha⟩ := exists_of_path_append n hlast
      have hnode := a.isNode
      rw [ha, hnone] at hnode
      cases hnode

theorem mem_children {p n : NodeIn tree} {i : Nat} (h : n.path = p.path ++ [i]) :
    n.node ∈ p.node.children := by
  have hn := n.isNode
  rw [h, SyntaxNode.nodeAt_append, p.isNode, Option.bind_some, SyntaxNode.nodeAt_cons] at hn
  obtain ⟨child, hchild, hn⟩ := Option.bind_eq_some_iff.mp hn
  obtain rfl := Option.some.inj hn
  exact List.mem_of_getElem? hchild

/-- A node ends before a later one starts. -/
theorem before {n m : NodeIn tree} {r p q : List Nat} {j k : Nat} (hconsistent : tree.Consistent)
    (hn : n.path = r ++ j :: p) (hm : m.path = r ++ k :: q) (hjk : j < k) :
    n.node.endPosition ≤ m.node.startPosition := by
  have hnNode := n.isNode
  have hmNode := m.isNode
  rw [hn] at hnNode
  rw [hm] at hmNode
  exact hconsistent.before hjk hnNode hmNode

/-- The one node is above the other, or their paths part. -/
theorem isAncestor_or_part (n m : NodeIn tree) :
    n.IsAncestor m ∨ m.IsAncestor n ∨
      ∃ r j k p q, n.path = r ++ j :: p ∧ m.path = r ++ k :: q ∧ j ≠ k := by
  have hpaths : ∀ a b : List Nat, a <+: b ∨ b <+: a ∨
      ∃ r j k p q, a = r ++ j :: p ∧ b = r ++ k :: q ∧ j ≠ k := by
    intro a
    induction a with
    | nil => exact fun b => .inl List.nil_prefix
    | cons j a ih =>
        intro b
        cases b with
        | nil => exact .inr (.inl List.nil_prefix)
        | cons k b =>
            by_cases hjk : j = k
            · obtain h | h | ⟨r, j', k', p, q, rfl, rfl, hne⟩ := ih b
              · exact .inl (by rwa [hjk, List.cons_prefix_cons, and_iff_right rfl])
              · exact .inr (.inl (by rwa [hjk, List.cons_prefix_cons, and_iff_right rfl]))
              · exact .inr (.inr ⟨j :: r, j', k', p, q, rfl, by rw [hjk]; rfl, hne⟩)
            · exact .inr (.inr ⟨[], j, k, a, b, rfl, rfl, hjk⟩)
  exact hpaths n.path m.path

end NodeIn

end TreeSitter
