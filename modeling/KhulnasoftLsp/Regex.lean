import Mathlib.Data.List.Basic
import Mathlib.Data.List.Forall2
import Mathlib.Data.List.Infix

/-!
# Backtracking patterns

A pattern of a backtracking matcher, as all its ways to match at the front of a text: for each what
it captures and what it leaves, the ones that are tried first in front. So the match that is found
is the head of the list, a greedy repetition lists its longest match first and a lazy one its
shortest.

`mem_bind` and its companions say which ways there are. `first_greedy` and `first_lazy` say which
of them is the first, `search_eq_some` and `search_eq_none_iff` where in a text it is found.
-/

/-- The ways to match at the front of a text, with what is captured and what is left. -/
def Pattern (α β : Type) : Type := List α → List (β × List α)

namespace Pattern

variable {α β γ : Type}

instance : Monad (Pattern α) where
  pure b := fun text => [(b, text)]
  bind P Q := fun text => (P text).flatMap fun r => Q r.1 r.2

/-- One entry of a class. -/
def char (p : α → Bool) : Pattern α α
  | [] => []
  | c :: cs => if p c then [(c, cs)] else []

/-- A word whose entries are compared in some way. -/
def literalBy (same : α → α → Bool) : List α → Pattern α (List α)
  | [] => pure []
  | a :: as => do
    let c ← char (same a)
    let cs ← literalBy same as
    return c :: cs

/-- A given word. -/
def literal [DecidableEq α] (word : List α) : Pattern α (List α) :=
  literalBy (fun a c => decide (a = c)) word

/-- `?` -/
def optional (P : Pattern α (List α)) : Pattern α (List α) := fun text => P text ++ [([], text)]

/-- The texts of a class at the front of a text, each with the rest, the longest first. -/
def runs (p : α → Bool) : Pattern α (List α)
  | [] => [([], [])]
  | c :: cs =>
    if p c then (runs p cs).map (fun r => (c :: r.1, r.2)) ++ [([], c :: cs)] else [([], c :: cs)]

/-- A repetition of a class, at least `n` times: `*` is `greedy 0`, and `+` is `greedy 1`. -/
def greedy (n : Nat) (p : α → Bool) : Pattern α (List α) := fun text =>
  (runs p text).filter fun r => n ≤ r.1.length

/-- The same, as short as possible: `*?` is `lazy 0`, and `+?` is `lazy 1`. -/
def lazy (n : Nat) (p : α → Bool) : Pattern α (List α) := fun text => (greedy n p text).reverse

/-- `$` -/
def atEnd : Pattern α Unit
  | [] => [((), [])]
  | _ :: _ => []

/-- `$` with the flag `m` -/
def atLineEnd (terminator : α → Bool) : Pattern α Unit := fun text =>
  if text.head?.all terminator then [((), text)] else []

/-! ## The ways to match -/

theorem mem_pure {b b' : β} {text rest : List α} :
    (b', rest) ∈ (pure b : Pattern α β) text ↔ b' = b ∧ rest = text := by
  show (b', rest) ∈ [(b, text)] ↔ _
  simp

theorem mem_bind {P : Pattern α β} {Q : β → Pattern α γ} {text : List α} {r : γ × List α} :
    r ∈ (P >>= Q) text ↔ ∃ b rest, (b, rest) ∈ P text ∧ r ∈ Q b rest := by
  show r ∈ (P text).flatMap (fun r => Q r.1 r.2) ↔ _
  simp

theorem mem_char {p : α → Bool} {c : α} {text rest : List α} :
    (c, rest) ∈ char p text ↔ text = c :: rest ∧ p c = true := by
  cases text with
  | nil => simp [char]
  | cons d ds =>
      rw [char]
      split
      · rename_i hd
        simp only [List.mem_singleton, Prod.mk.injEq, List.cons.injEq]
        constructor
        · rintro ⟨rfl, rfl⟩
          exact ⟨⟨rfl, rfl⟩, hd⟩
        · rintro ⟨⟨rfl, rfl⟩, -⟩
          exact ⟨rfl, rfl⟩
      · rename_i hd
        simp only [List.not_mem_nil, List.cons.injEq, false_iff]
        rintro ⟨⟨rfl, -⟩, hc⟩
        exact hd hc

theorem mem_literalBy {same : α → α → Bool} {word w text rest : List α} :
    (w, rest) ∈ literalBy same word text ↔
      text = w ++ rest ∧ List.Forall₂ (fun a c => same a c = true) word w := by
  induction word generalizing w text rest with
  | nil =>
      rw [literalBy, mem_pure, List.forall₂_nil_left_iff]
      constructor
      · rintro ⟨rfl, rfl⟩
        exact ⟨rfl, rfl⟩
      · rintro ⟨rfl, rfl⟩
        exact ⟨rfl, rfl⟩
  | cons a word ih =>
      simp only [literalBy, mem_bind, mem_char, ih, mem_pure]
      constructor
      · rintro ⟨c, _, ⟨rfl, hc⟩, v, _, ⟨rfl, hv⟩, rfl, rfl⟩
        exact ⟨rfl, .cons hc hv⟩
      · rintro ⟨rfl, hforall⟩
        cases hforall with
        | cons hc hv => exact ⟨_, _, ⟨rfl, hc⟩, _, _, ⟨rfl, hv⟩, rfl, rfl⟩

theorem mem_literal [DecidableEq α] {word w text rest : List α} :
    (w, rest) ∈ literal word text ↔ w = word ∧ text = word ++ rest := by
  rw [literal, mem_literalBy]
  simp only [decide_eq_true_eq, List.forall₂_eq_eq_eq]
  constructor
  · rintro ⟨rfl, rfl⟩
    exact ⟨rfl, rfl⟩
  · rintro ⟨rfl, rfl⟩
    exact ⟨rfl, rfl⟩

theorem mem_optional {P : Pattern α (List α)} {text : List α} {r : List α × List α} :
    r ∈ optional P text ↔ r ∈ P text ∨ r = ([], text) := by
  simp [optional]

theorem mem_runs {p : α → Bool} {w text rest : List α} :
    (w, rest) ∈ runs p text ↔ text = w ++ rest ∧ ∀ c ∈ w, p c = true := by
  induction text generalizing w with
  | nil =>
      rw [runs, List.mem_singleton, Prod.mk.injEq, List.nil_eq_append_iff]
      constructor
      · rintro ⟨rfl, rfl⟩
        exact ⟨⟨rfl, rfl⟩, by simp⟩
      · exact fun h => h.1
  | cons c cs ih =>
      rw [runs]
      cases w with
      | nil =>
          have hnil : ([], rest) ∈ [(([] : List α), c :: cs)] ↔
              c :: cs = [] ++ rest ∧ ∀ c ∈ ([] : List α), p c = true := by
            rw [List.mem_singleton, Prod.mk.injEq, List.nil_append]
            constructor
            · rintro ⟨-, rfl⟩
              exact ⟨rfl, by simp⟩
            · rintro ⟨rfl, -⟩
              exact ⟨rfl, rfl⟩
          split
          · rw [List.mem_append, hnil]
            apply or_iff_right
            simp
          · exact hnil
      | cons d w =>
          split
          · rename_i hc
            simp only [List.mem_append, List.mem_map, Prod.mk.injEq, List.cons.injEq,
              List.mem_singleton, reduceCtorEq, false_and, or_false, List.cons_append,
              List.forall_mem_cons]
            constructor
            · rintro ⟨⟨v, rest'⟩, hv, ⟨rfl, rfl⟩, rfl⟩
              obtain ⟨rfl, hall⟩ := ih.mp hv
              exact ⟨⟨rfl, rfl⟩, hc, hall⟩
            · rintro ⟨⟨rfl, rfl⟩, -, hall⟩
              exact ⟨(w, rest), ih.mpr ⟨rfl, hall⟩, ⟨rfl, rfl⟩, rfl⟩
          · rename_i hc
            simp only [List.mem_singleton, Prod.mk.injEq, reduceCtorEq, false_and, false_iff,
              List.cons_append, List.cons.injEq, List.forall_mem_cons]
            rintro ⟨⟨rfl, -⟩, hd, -⟩
            exact hc hd

theorem mem_greedy {n : Nat} {p : α → Bool} {w text rest : List α} :
    (w, rest) ∈ greedy n p text ↔ text = w ++ rest ∧ (∀ c ∈ w, p c = true) ∧ n ≤ w.length := by
  rw [greedy, List.mem_filter, mem_runs, decide_eq_true_iff, and_assoc]

theorem mem_lazy {n : Nat} {p : α → Bool} {w text rest : List α} :
    (w, rest) ∈ lazy n p text ↔ text = w ++ rest ∧ (∀ c ∈ w, p c = true) ∧ n ≤ w.length := by
  rw [lazy, List.mem_reverse, mem_greedy]

theorem mem_atEnd {u : Unit} {text rest : List α} :
    (u, rest) ∈ atEnd text ↔ text = [] ∧ rest = [] := by
  cases text <;> simp [atEnd]

theorem mem_atLineEnd {terminator : α → Bool} {u : Unit} {text rest : List α} :
    (u, rest) ∈ atLineEnd terminator text ↔ rest = text ∧ text.head?.all terminator = true := by
  rw [atLineEnd]
  split <;> simp [*]

/-! ## The first way to match -/

/-- The first of the ways to match. -/
def first (P : Pattern α β) (text : List α) : Option (β × List α) := (P text).head?

theorem first_eq_none_iff {P : Pattern α β} {text : List α} :
    first P text = none ↔ ∀ r, r ∉ P text := by
  rw [first, List.head?_eq_none_iff, List.eq_nil_iff_forall_not_mem]

theorem mem_of_first {P : Pattern α β} {text : List α} {r : β × List α}
    (h : first P text = some r) : r ∈ P text := List.mem_of_head? h

theorem first_bind (P : Pattern α β) (Q : β → Pattern α γ) (text : List α) :
    first (P >>= Q) text = (P text).findSome? fun r => first (Q r.1) r.2 := by
  show ((P text).flatMap fun r => Q r.1 r.2).head? = _
  rw [List.head?_flatMap]
  rfl

/-- The first way goes on from the first part that it can go on from. -/
theorem first_bind_of_split {P : Pattern α β} {Q : β → Pattern α γ} {text : List α}
    {r : β × List α} {tried later : List (β × List α)} {x : γ × List α}
    (hP : P text = tried ++ r :: later) (htried : ∀ r' ∈ tried, first (Q r'.1) r'.2 = none)
    (hx : first (Q r.1) r.2 = some x) : first (P >>= Q) text = some x := by
  rw [first_bind, hP, List.findSome?_append, List.findSome?_eq_none_iff.mpr htried,
    List.findSome?_cons, hx]
  rfl

theorem first_bind_pure (P : Pattern α β) (f : β → γ) (text : List α) :
    first (P >>= fun b => pure (f b)) text = (first P text).map fun r => (f r.1, r.2) := by
  rw [first_bind, first]
  cases P text <;> rfl

theorem first_optional_bind (P : Pattern α (List α)) (Q : List α → Pattern α γ) (text : List α) :
    first (optional P >>= Q) text = (first (P >>= Q) text).or (first (Q []) text) := by
  rw [first_bind, first_bind, optional, List.findSome?_append]
  congr 1
  rw [List.findSome?_cons]
  cases first (Q []) text <;> rfl

theorem literal_append [DecidableEq α] (word rest : List α) :
    literal word (word ++ rest) = [(word, rest)] := by
  rw [literal]
  induction word with
  | nil => rfl
  | cons a word ih =>
      show ((char fun c => decide (a = c)) (a :: (word ++ rest))).flatMap _ = _
      rw [char, if_pos (decide_eq_true rfl), List.flatMap_singleton]
      show ((literalBy _ word) (word ++ rest)).flatMap _ = _
      rw [ih, List.flatMap_singleton]
      rfl

/-- There is one way to match a word. -/
theorem first_literal_bind [DecidableEq α] (word rest : List α) (Q : List α → Pattern α γ) :
    first (literal word >>= Q) (word ++ rest) = first (Q word) rest := by
  rw [first_bind, literal_append, List.findSome?_cons]
  cases first (Q word) rest <;> rfl

theorem first_bind_eq_none {P : Pattern α β} {Q : β → Pattern α γ} {text : List α} :
    first (P >>= Q) text = none ↔ ∀ b rest, (b, rest) ∈ P text → first (Q b) rest = none := by
  rw [first_bind, List.findSome?_eq_none_iff]
  simp

/-- The longer ones come before a given one, and the shorter ones behind it. -/
theorem runs_split {p : α → Bool} {w : List α} (hw : ∀ c ∈ w, p c = true) (rest : List α) :
    ∃ longer shorter, runs p (w ++ rest) = longer ++ (w, rest) :: shorter ∧
      (∀ r ∈ longer, w.length < r.1.length) ∧ ∀ r ∈ shorter, r.1.length < w.length := by
  induction w with
  | nil =>
      cases rest with
      | nil => exact ⟨[], [], rfl, by simp, by simp⟩
      | cons c cs =>
          rw [List.nil_append, runs]
          split
          · refine ⟨_, [], rfl, ?_, by simp⟩
            intro r hr
            obtain ⟨r', -, rfl⟩ := List.mem_map.mp hr
            simp
          · exact ⟨[], [], rfl, by simp, by simp⟩
  | cons c w ih =>
      obtain ⟨hc, hw⟩ := List.forall_mem_cons.mp hw
      obtain ⟨longer, shorter, hsplit, hlonger, hshorter⟩ := ih hw
      refine ⟨longer.map fun r => (c :: r.1, r.2),
        shorter.map (fun r => (c :: r.1, r.2)) ++ [([], c :: (w ++ rest))], ?_, ?_, ?_⟩
      · rw [List.cons_append, runs, if_pos hc, hsplit]
        simp
      · intro r hr
        obtain ⟨r', hr', rfl⟩ := List.mem_map.mp hr
        simpa using hlonger r' hr'
      · intro r hr
        rcases List.mem_append.mp hr with hr | hr
        · obtain ⟨r', hr', rfl⟩ := List.mem_map.mp hr
          simpa using hshorter r' hr'
        · rw [List.mem_singleton.mp hr]
          simp

theorem greedy_split {n : Nat} {p : α → Bool} {w : List α} (hw : ∀ c ∈ w, p c = true)
    (hn : n ≤ w.length) (rest : List α) :
    ∃ longer shorter, greedy n p (w ++ rest) = longer ++ (w, rest) :: shorter ∧
      (∀ r ∈ longer, w.length < r.1.length) ∧ ∀ r ∈ shorter, r.1.length < w.length := by
  obtain ⟨longer, shorter, hsplit, hlonger, hshorter⟩ := runs_split hw rest
  refine ⟨longer.filter fun r => n ≤ r.1.length, shorter.filter fun r => n ≤ r.1.length, ?_,
    fun r hr => hlonger r (List.mem_filter.mp hr).1,
    fun r hr => hshorter r (List.mem_filter.mp hr).1⟩
  rw [greedy, hsplit, List.filter_append, List.filter_cons, if_pos (decide_eq_true hn)]

section Priority

variable {n : Nat} {p : α → Bool} {Q : List α → Pattern α γ} {w rest : List α} {x : γ × List α}

/-- The first way through a greedy repetition: no longer one can go on. -/
theorem first_greedy (hw : ∀ c ∈ w, p c = true) (hn : n ≤ w.length)
    (hlonger : ∀ w' rest', w' ++ rest' = w ++ rest → (∀ c ∈ w', p c = true) →
      w.length < w'.length → first (Q w') rest' = none)
    (hx : first (Q w) rest = some x) : first (greedy n p >>= Q) (w ++ rest) = some x := by
  obtain ⟨longer, shorter, hsplit, hlong, -⟩ := greedy_split hw hn rest
  apply first_bind_of_split hsplit _ hx
  intro r hr
  have hmem : (r.1, r.2) ∈ greedy n p (w ++ rest) := by
    rw [hsplit]
    exact List.mem_append_left _ hr
  obtain ⟨htext, hall, -⟩ := mem_greedy.mp hmem
  exact hlonger r.1 r.2 htext.symm hall (hlong r hr)

/-- The longest way through a greedy repetition. -/
theorem first_greedy_longest (hw : ∀ c ∈ w, p c = true) (hn : n ≤ w.length)
    (hrest : ∀ c ∈ rest.head?, p c = false) (hx : first (Q w) rest = some x) :
    first (greedy n p >>= Q) (w ++ rest) = some x := by
  apply first_greedy hw hn _ hx
  intro w' rest' htext hall hlt
  have hshorter : ¬ ∃ v, w = w' ++ v ∧ rest' = v ++ rest := by
    rintro ⟨v, rfl, -⟩
    grind
  obtain ⟨v, rfl, hv⟩ := (List.append_eq_append_iff.mp htext).resolve_left hshorter
  cases v with
  | nil => simp at hlt
  | cons c v =>
      have hc := hall c (by simp)
      rw [hrest c (by simp [hv])] at hc
      cases hc

/-- The first way through a lazy repetition: no shorter one can go on. -/
theorem first_lazy (hw : ∀ c ∈ w, p c = true) (hn : n ≤ w.length)
    (hshorter : ∀ w' rest', w' ++ rest' = w ++ rest → n ≤ w'.length →
      w'.length < w.length → first (Q w') rest' = none)
    (hx : first (Q w) rest = some x) : first (lazy n p >>= Q) (w ++ rest) = some x := by
  obtain ⟨longer, shorter, hsplit, -, hshort⟩ := greedy_split hw hn rest
  have hsplit' : lazy n p (w ++ rest) = shorter.reverse ++ (w, rest) :: longer.reverse := by
    rw [lazy, hsplit]
    simp
  apply first_bind_of_split hsplit' _ hx
  intro r hr
  have hr' := List.mem_reverse.mp hr
  have hmem : (r.1, r.2) ∈ greedy n p (w ++ rest) := by
    rw [hsplit]
    exact List.mem_append_right _ (List.mem_cons_of_mem _ hr')
  obtain ⟨htext, -, hle⟩ := mem_greedy.mp hmem
  exact hshorter r.1 r.2 htext.symm hle (hshort r hr')

end Priority

/-! ## Where a match is found -/

/-- A match of a pattern in a text: where it begins, the text it covers, and what it captures. -/
structure Found (α β : Type) where
  index : Nat
  text : List α
  value : β
  deriving DecidableEq, Repr

/-- A condition on the place where a match begins: on the entry in front of it, and on the text
behind it. `^` is `atStart`. -/
abbrev Place (α : Type) : Type := Option α → List α → Bool

def anywhere : Place α := fun _ _ => true

def atStart : Place α := fun prev _ => prev.isNone

/-- `^` with the flag `m` -/
def atLineStart (terminator : α → Bool) : Place α := fun prev _ => prev.all terminator

/-- `\b` -/
def wordBoundary (word : α → Bool) : Place α := fun prev text =>
  prev.any word != text.head?.any word

/-- The ways to cut a text in two, from the front. -/
def splits : List α → List (List α × List α)
  | [] => [([], [])]
  | c :: cs => ([], c :: cs) :: (splits cs).map fun s => (c :: s.1, s.2)

/-- The match behind a given part of the text. -/
def matchAt (here : Place α) (P : Pattern α β) (s : List α × List α) : Option (Found α β) :=
  if here s.1.getLast? s.2 then
    (first P s.2).map fun r => ⟨s.1.length, s.2.take (s.2.length - r.2.length), r.1⟩
  else none

/-- `text.match(P)` -/
def search (here : Place α) (P : Pattern α β) (text : List α) : Option (Found α β) :=
  (splits text).findSome? (matchAt here P)

theorem mem_splits {pre rest text : List α} : (pre, rest) ∈ splits text ↔ pre ++ rest = text := by
  induction text generalizing pre with
  | nil => simp [splits]
  | cons c cs ih =>
      simp only [splits, List.mem_cons, Prod.mk.injEq, List.mem_map, Prod.exists]
      cases pre with
      | nil => simp
      | cons d pre =>
          simp only [List.cons.injEq, reduceCtorEq, false_and, false_or, List.cons_append]
          constructor
          · rintro ⟨pre', rest', hs, ⟨rfl, rfl⟩, rfl⟩
            exact ⟨rfl, ih.mp hs⟩
          · rintro ⟨rfl, htext⟩
            exact ⟨pre, rest, ih.mpr htext, ⟨rfl, rfl⟩, rfl⟩

/-- The cuts in front of a given one are shorter. -/
theorem splits_split (pre rest : List α) :
    ∃ earlier later, splits (pre ++ rest) = earlier ++ (pre, rest) :: later ∧
      ∀ s ∈ earlier, s.1.length < pre.length := by
  induction pre with
  | nil =>
      cases rest with
      | nil => exact ⟨[], [], rfl, by simp⟩
      | cons c cs => exact ⟨[], _, rfl, by simp⟩
  | cons c pre ih =>
      obtain ⟨earlier, later, hsplit, hshort⟩ := ih
      refine ⟨([], c :: (pre ++ rest)) :: earlier.map fun s => (c :: s.1, s.2),
        later.map fun s => (c :: s.1, s.2), ?_, ?_⟩
      · rw [List.cons_append, splits, hsplit]
        simp
      · intro s hs
        obtain rfl | hs := List.mem_cons.mp hs
        · simp
        · obtain ⟨s', hs', rfl⟩ := List.mem_map.mp hs
          simpa using hshort s' hs'

section Search

variable {here : Place α} {P : Pattern α β}

theorem matchAt_eq_none_iff {s : List α × List α} :
    matchAt here P s = none ↔ (here s.1.getLast? s.2 = true → first P s.2 = none) := by
  rw [matchAt]
  split <;> simp [*]

theorem matchAt_eq_some {pre w rest : List α} {b : β}
    (hhere : here pre.getLast? (w ++ rest) = true) (hfirst : first P (w ++ rest) = some (b, rest)) :
    matchAt here P (pre, w ++ rest) = some ⟨pre.length, w, b⟩ := by
  rw [matchAt, if_pos hhere, hfirst]
  simp

/-- No place of the text has a match. -/
theorem search_eq_none_iff {text : List α} :
    search here P text = none ↔
      ∀ pre rest, pre ++ rest = text → here pre.getLast? rest = true → first P rest = none := by
  rw [search, List.findSome?_eq_none_iff]
  constructor
  · intro h pre rest htext
    exact matchAt_eq_none_iff.mp (h _ (mem_splits.mpr htext))
  · intro h s hs
    exact matchAt_eq_none_iff.mpr (h s.1 s.2 (mem_splits.mp hs))

/-- The match is at the first place that has one. -/
theorem search_eq_some {pre w rest : List α} {b : β}
    (hhere : here pre.getLast? (w ++ rest) = true) (hfirst : first P (w ++ rest) = some (b, rest))
    (hearlier : ∀ pre' rest', pre' ++ rest' = pre ++ (w ++ rest) → pre'.length < pre.length →
      here pre'.getLast? rest' = true → first P rest' = none) :
    search here P (pre ++ (w ++ rest)) = some ⟨pre.length, w, b⟩ := by
  obtain ⟨earlier, later, hsplit, hshort⟩ := splits_split pre (w ++ rest)
  have hnone : ∀ s ∈ earlier, matchAt here P s = none := by
    intro s hs
    have hmem : (s.1, s.2) ∈ splits (pre ++ (w ++ rest)) := by
      rw [hsplit]
      exact List.mem_append_left _ hs
    exact matchAt_eq_none_iff.mpr (hearlier s.1 s.2 (mem_splits.mp hmem) (hshort s hs))
  rw [search, hsplit, List.findSome?_append, List.findSome?_eq_none_iff.mpr hnone,
    List.findSome?_cons, matchAt_eq_some hhere hfirst]
  rfl

/-- What is found is a way to match at its place, for a pattern that leaves the end of a text. -/
theorem exists_of_search_eq_some {text : List α} {m : Found α β}
    (hP : ∀ text r, r ∈ P text → r.2 <:+ text) (h : search here P text = some m) :
    ∃ pre rest, text = pre ++ (m.text ++ rest) ∧ m.index = pre.length ∧
      here pre.getLast? (m.text ++ rest) = true ∧ (m.value, rest) ∈ P (m.text ++ rest) := by
  obtain ⟨⟨pre, behind⟩, hs, hm⟩ := List.exists_of_findSome?_eq_some h
  rw [matchAt] at hm
  split at hm
  · rename_i hhere
    obtain ⟨⟨b, rest⟩, hfirst, rfl⟩ := Option.map_eq_some_iff.mp hm
    obtain ⟨w, rfl⟩ := hP _ _ (mem_of_first hfirst)
    have htake : (w ++ rest).take ((w ++ rest).length - rest.length) = w := by simp
    simp only [htake]
    exact ⟨pre, rest, (mem_splits.mp hs).symm, rfl, hhere, mem_of_first hfirst⟩
  · cases hm

end Search

/-- At the start there is one place. -/
theorem search_atStart_eq_none_iff {P : Pattern α β} {text : List α} :
    search atStart P text = none ↔ first P text = none := by
  rw [search_eq_none_iff]
  constructor
  · intro h
    exact h [] text rfl rfl
  · intro h pre rest htext hhere
    cases pre with
    | nil => rwa [← List.nil_append rest, htext]
    | cons c pre => simp [atStart] at hhere

theorem search_atStart_eq_some {P : Pattern α β} {w rest : List α} {b : β}
    (hfirst : first P (w ++ rest) = some (b, rest)) :
    search atStart P (w ++ rest) = some ⟨0, w, b⟩ := by
  have h : search atStart P ([] ++ (w ++ rest)) = some ⟨([] : List α).length, w, b⟩ :=
    search_eq_some rfl hfirst (by simp)
  exact h

section WholeText

variable {P : Pattern α β} {text : List α} {b : β} (hfirst : first P text = some (b, []))

include hfirst

/-- The match is the text from the first place on that has one. -/
theorem search_anywhere_of_first (front : List α)
    (hearlier : ∀ pre rest, pre ++ rest = front ++ text → pre.length < front.length →
      first P rest = none) :
    search anywhere P (front ++ text) = some ⟨front.length, text, b⟩ := by
  have hfirst' : first P (text ++ []) = some (b, []) := by rwa [List.append_nil]
  have h : search anywhere P (front ++ (text ++ [])) = some ⟨front.length, text, b⟩ := by
    refine search_eq_some rfl hfirst' ?_
    intro pre rest htext hlt _
    rw [List.append_nil] at htext
    exact hearlier pre rest htext hlt
  rwa [List.append_nil] at h

/-- The match is the whole text. -/
theorem search_anywhere_all : search anywhere P text = some ⟨0, text, b⟩ :=
  search_anywhere_of_first hfirst [] (by simp)

theorem search_atStart_all : search atStart P text = some ⟨0, text, b⟩ := by
  have hfirst' : first P (text ++ []) = some (b, []) := by rwa [List.append_nil]
  have h := search_atStart_eq_some hfirst'
  rwa [List.append_nil] at h

end WholeText

end Pattern
