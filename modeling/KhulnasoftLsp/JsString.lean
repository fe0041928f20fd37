import Mathlib.Data.List.Basic
import Mathlib.Data.List.TakeWhile

/-!
# Strings of JavaScript

A JavaScript string is the list of its UTF-16 code units: lengths and positions count code units,
and a character outside the basic plane takes two of them.
-/

/-- No part of a list that is split has the separator. -/
theorem List.notMem_of_mem_splitOn {α : Type*} [BEq α] [LawfulBEq α] {x : α} :
    ∀ {l part : List α}, part ∈ l.splitOn x → x ∉ part := by
  intro l
  induction l with
  | nil =>
      intro part h
      rw [List.splitOn_nil, List.mem_singleton] at h
      simp [h]
  | cons a l ih =>
      intro part h
      rw [List.splitOn_cons_eq_if_modifyHead] at h
      split at h
      · obtain rfl | h := List.mem_cons.mp h
        · exact List.not_mem_nil
        · exact ih h
      · rename_i hne
        cases hl : l.splitOn x with
        | nil => exact absurd hl (List.splitOn_ne_nil x l)
        | cons first rest =>
            rw [hl, List.modifyHead_cons] at h
            obtain rfl | h := List.mem_cons.mp h
            · have hfirst : x ∉ first := ih (hl ▸ List.mem_cons_self)
              rw [List.mem_cons, not_or]
              exact ⟨fun hx => hne (beq_iff_eq.mpr hx.symm), hfirst⟩
            · exact ih (hl ▸ List.mem_cons_of_mem first h)

namespace List

section Run

variable {α : Type*} {p : α → Bool}

theorem head?_cons_not {c : α} (hc : p c = false) (s : List α) :
    ∀ d ∈ (c :: s).head?, p d = false := by
  intro d hd
  obtain rfl := Option.some.inj hd
  exact hc

variable {v s : List α} (hv : ∀ c ∈ v, p c = true) (hs : ∀ c ∈ s.head?, p c = false)

include hv hs

/-- A run of a class in front of a text that does not go on with the class. -/
theorem takeWhile_run : (v ++ s).takeWhile p = v := by
  rw [takeWhile_append_of_pos hv]
  cases s with
  | nil => exact append_nil v
  | cons c s => rw [takeWhile_cons_of_neg (by simp [hs c rfl]), append_nil]

theorem dropWhile_run : (v ++ s).dropWhile p = s := by
  rw [dropWhile_append_of_pos hv]
  cases s with
  | nil => rfl
  | cons c s => exact dropWhile_cons_of_neg (by simp [hs c rfl])

theorem run_unique {w t : List α} (hw : ∀ c ∈ w, p c = true) (ht : ∀ c ∈ t.head?, p c = false)
    (h : v ++ s = w ++ t) : v = w ∧ s = t := by
  constructor
  · rw [← takeWhile_run hv hs, h, takeWhile_run hw ht]
  · rw [← dropWhile_run hv hs, h, dropWhile_run hw ht]

end Run

end List

/-- A string of JavaScript. -/
abbrev JsString := List UInt16

namespace JsString

/-- The class `\s` of regular expressions: the white space and the line terminators. -/
def isWhitespace (u : UInt16) : Bool :=
  (0x0009 ≤ u && u ≤ 0x000d) || u == 0x0020 || u == 0x00a0 || u == 0x1680 ||
    (0x2000 ≤ u && u ≤ 0x200a) || u == 0x2028 || u == 0x2029 || u == 0x202f || u == 0x205f ||
    u == 0x3000 || u == 0xfeff

/-- The code units of a text. -/
def ofString (s : String) : JsString :=
  s.toList.flatMap fun c =>
    if c.toNat < 0x10000 then [UInt16.ofNat c.toNat]
    else
      let rest := c.toNat - 0x10000
      [UInt16.ofNat (0xd800 + rest / 0x400), UInt16.ofNat (0xdc00 + rest % 0x400)]

/-- `s.split('\n')` -/
def lines (s : JsString) : List JsString := s.splitOn 0x000a

/-- `s.trimEnd()` -/
def trimEnd (s : JsString) : JsString := (s.reverse.dropWhile isWhitespace).reverse

/-- `s.trim()` -/
def trim (s : JsString) : JsString :=
  ((s.dropWhile isWhitespace).reverse.dropWhile isWhitespace).reverse

/-- `s.substring(i, j)`: the two ends may be given in either order. -/
def substring (i j : Nat) (s : JsString) : JsString := (s.take (max i j)).drop (min i j)

/-- `s.replace(/\s/g, '')` -/
def removeWhitespace (s : JsString) : JsString := s.filter fun u => !isWhitespace u

/-- `s.replace(/\s/g, '').length` is not zero. -/
def hasContent (s : JsString) : Bool := (removeWhitespace s).length != 0

theorem hasContent_iff {s : JsString} : hasContent s = true ↔ ∃ u ∈ s, isWhitespace u = false := by
  simp [hasContent, removeWhitespace]

@[simp] theorem hasContent_nil : hasContent [] = false := rfl

theorem hasContent_append {s t : JsString} :
    hasContent (s ++ t) = (hasContent s || hasContent t) := by
  rw [Bool.eq_iff_iff, Bool.or_eq_true]
  simp only [hasContent_iff, List.mem_append]
  grind

/-! ## Trimming -/

theorem trimEnd_eq_nil_iff {s : JsString} : trimEnd s = [] ↔ ∀ u ∈ s, isWhitespace u = true := by
  rw [trimEnd, List.reverse_eq_nil_iff, List.dropWhile_eq_nil_iff]
  simp

theorem trimEnd_append {s t : JsString} (hlast : ∀ u ∈ s.getLast?, isWhitespace u = false) :
    trimEnd (s ++ t) = s ++ trimEnd t := by
  have hback : s.reverse.dropWhile isWhitespace = s.reverse := by
    have hhead : ∀ u ∈ s.reverse.head?, isWhitespace u = false := by rwa [List.head?_reverse]
    exact List.dropWhile_run (v := []) (by simp) hhead
  rw [trimEnd, List.reverse_append, List.dropWhile_append, hback]
  split
  · rename_i hempty
    have ht : trimEnd t = [] := by
      rw [trimEnd, List.isEmpty_iff.mp hempty, List.reverse_nil]
    rw [ht, List.reverse_reverse, List.append_nil]
  · rw [List.reverse_append, List.reverse_reverse]
    rfl

/-- White space behind a text is trimmed off with its own. -/
theorem trimEnd_append_white {s t : JsString} (ht : ∀ u ∈ t, isWhitespace u = true) :
    trimEnd (s ++ t) = trimEnd s := by
  rw [trimEnd, trimEnd, List.reverse_append, List.dropWhile_append_of_pos]
  intro u hu
  exact ht u (List.mem_reverse.mp hu)

theorem getLast?_trimEnd {s : JsString} : ∀ u ∈ (trimEnd s).getLast?, isWhitespace u = false := by
  intro u hu
  rw [trimEnd, List.getLast?_reverse] at hu
  have h := List.head?_dropWhile_not isWhitespace s.reverse
  rw [Option.mem_def.mp hu] at h
  exact h

/-- What is in front of the first character is trimmed off, and the white space at the end. -/
theorem trim_append_trimEnd {a s t : JsString} (ha : ∀ u ∈ a, isWhitespace u = true) (hne : s ≠ [])
    (hhead : ∀ u ∈ s.head?, isWhitespace u = false)
    (hlast : ∀ u ∈ s.getLast?, isWhitespace u = false) :
    trim (a ++ (s ++ t)) = s ++ trimEnd t := by
  have hfront : (a ++ (s ++ t)).dropWhile isWhitespace = s ++ t := by
    apply List.dropWhile_run ha
    obtain ⟨u, us, rfl⟩ := List.exists_cons_of_ne_nil hne
    exact hhead
  rw [← trimEnd_append hlast]
  show trimEnd ((a ++ (s ++ t)).dropWhile isWhitespace) = _
  rw [hfront]

theorem trim_eq_nil_iff {s : JsString} : trim s = [] ↔ ∀ u ∈ s, isWhitespace u = true := by
  constructor
  · intro h u hu
    have h := trimEnd_eq_nil_iff.mp h
    rw [← List.takeWhile_append_dropWhile (p := isWhitespace) (l := s)] at hu
    rcases List.mem_append.mp hu with htake | hdrop
    · exact List.mem_takeWhile_imp htake
    · exact h u hdrop
  · intro h
    rw [trim, List.dropWhile_eq_nil_iff.mpr h]
    rfl

/-- What is trimmed begins and ends with no white space. -/
theorem head?_trim {s : JsString} : ∀ u ∈ (trim s).head?, isWhitespace u = false := by
  intro u hu
  have hfront : trim s <+: s.dropWhile isWhitespace := by
    have hsuffix := List.dropWhile_suffix (l := (s.dropWhile isWhitespace).reverse) isWhitespace
    rwa [← List.reverse_prefix, List.reverse_reverse] at hsuffix
  obtain ⟨rest, hrest⟩ := hfront
  have h := List.head?_dropWhile_not isWhitespace s
  have hhead : (s.dropWhile isWhitespace).head? = some u := by
    rw [← hrest, List.head?_append, Option.mem_def.mp hu]
    rfl
  rw [hhead] at h
  exact h

theorem trim_of_ends {s : JsString} (hhead : ∀ u ∈ s.head?, isWhitespace u = false)
    (hlast : ∀ u ∈ s.getLast?, isWhitespace u = false) : trim s = s := by
  cases hs : s with
  | nil => rfl
  | cons u us =>
      rw [hs] at hhead hlast
      have h := trim_append_trimEnd (a := []) (t := []) (by simp) (List.cons_ne_nil u us) hhead
        hlast
      rw [List.nil_append, List.append_nil] at h
      rw [h]
      exact List.append_nil _

theorem trim_trim (s : JsString) : trim (trim s) = trim s :=
  trim_of_ends head?_trim getLast?_trimEnd

theorem trimEnd_trimEnd (s : JsString) : trimEnd (trimEnd s) = trimEnd s := by
  have h := trimEnd_append (s := trimEnd s) (t := []) getLast?_trimEnd
  have hnil : trimEnd [] = [] := rfl
  rwa [hnil, List.append_nil] at h

/-- A word has no white space. -/
def IsWord (s : JsString) : Prop := s ≠ [] ∧ ∀ u ∈ s, isWhitespace u = false

theorem isWord_of_all {s : JsString} (hne : s ≠ []) (h : s.all (fun u => !isWhitespace u) = true) :
    IsWord s :=
  ⟨hne, fun u hu => by simpa using List.all_eq_true.mp h u hu⟩

theorem IsWord.head? {s : JsString} (h : IsWord s) : ∀ u ∈ s.head?, isWhitespace u = false :=
  fun u hu => h.2 u (List.mem_of_head? hu)

theorem IsWord.getLast? {s : JsString} (h : IsWord s) : ∀ u ∈ s.getLast?, isWhitespace u = false :=
  fun u hu => h.2 u (List.mem_of_getLast? hu)

theorem IsWord.head?_append {s : JsString} (h : IsWord s) (t : JsString) :
    ∀ u ∈ (s ++ t).head?, isWhitespace u = false := by
  rw [List.head?_append_of_ne_nil s h.1]
  exact h.head?

theorem IsWord.getLast?_append {s : JsString} (h : IsWord s) (t : JsString) :
    ∀ u ∈ (t ++ s).getLast?, isWhitespace u = false := by
  rw [List.getLast?_append_of_ne_nil t h.1]
  exact h.getLast?

/-- The first word of a text, up to its white space. -/
theorem first_word_unique {v w g s t : JsString} {u : UInt16}
    (hv : ∀ x ∈ v, isWhitespace x = false) (hw : ∀ x ∈ w, isWhitespace x = false)
    (hu : isWhitespace u = true) (hne : g ≠ []) (hg : ∀ x ∈ g, isWhitespace x = true)
    (h : v ++ u :: s = w ++ (g ++ t)) : v = w ∧ g.head? = some u := by
  obtain ⟨x, g, rfl⟩ := List.exists_cons_of_ne_nil hne
  have hx := hg x List.mem_cons_self
  have hletters : ∀ {l : JsString}, (∀ x ∈ l, isWhitespace x = false) →
      ∀ x ∈ l, (!isWhitespace x) = true := by
    intro l hl x hmem
    rw [hl x hmem]
    rfl
  obtain ⟨hword, hrest⟩ := List.run_unique (hletters hv) (List.head?_cons_not (by simp [hu]) s)
    (hletters hw) (List.head?_cons_not (by simp [hx]) (g ++ t)) h
  exact ⟨hword, congrArg some (List.cons.inj hrest).1.symm⟩

end JsString
