import KhulnasoftLsp.JsString

/-!
# The lines of a text that is trimmed at its end

`HasLines wanted text` says that a text has some lines, in order, up to the white space that is
trimmed off at its end. Of a text from which lines were taken away, `hasLines_iff` says when it has
the lines that were to be kept.

`solidLength` is the length of a list of lines without the blank ones at its end. It does not depend
on what is trimmed off a text, and a list of lines that has another one in it is not shorter.
-/

namespace JsString

/-- The text of some lines. -/
def unlines (ls : List JsString) : JsString := [0x000a].intercalate ls

def isBlankLine (line : JsString) : Bool := line.all isWhitespace

/-- The wanted lines are lines of the text, in order, but for the white space at its end. -/
def HasLines (wanted : List JsString) (text : JsString) : Prop :=
  ∃ whole, trimEnd whole = trimEnd text ∧ wanted.Sublist (lines whole)

theorem isBlankLine_iff {line : JsString} :
    isBlankLine line = true ↔ ∀ u ∈ line, isWhitespace u = true := List.all_eq_true

/-! ## Lines -/

theorem lines_unlines {ls : List JsString} (hne : ls ≠ []) (h : ∀ l ∈ ls, 0x000a ∉ l) :
    lines (unlines ls) = ls := List.splitOn_intercalate _ h hne

theorem unlines_lines (text : JsString) : unlines (lines text) = text :=
  List.intercalate_splitOn _

theorem newline_notMem_of_mem_lines {text line : JsString} (h : line ∈ lines text) :
    0x000a ∉ line := List.notMem_of_mem_splitOn h

theorem lines_cons (u : UInt16) (s : JsString) :
    lines (u :: s) = if u == 0x000a then [] :: lines s else (lines s).modifyHead (List.cons u) :=
  List.splitOn_cons_eq_if_modifyHead u s

theorem mem_of_mem_lines {text line : JsString} (h : line ∈ lines text) :
    ∀ u ∈ line, u ∈ text := by
  intro v hv
  induction text generalizing line with
  | nil =>
      rw [List.mem_singleton.mp h] at hv
      cases hv
  | cons u text ih =>
      rw [lines_cons] at h
      split at h
      · obtain rfl | h := List.mem_cons.mp h
        · cases hv
        · exact List.mem_cons_of_mem u (ih h hv)
      · obtain ⟨first, rest, hlines⟩ :=
          List.exists_cons_of_ne_nil (List.splitOn_ne_nil 0x000a text)
        have hlines : lines text = first :: rest := hlines
        rw [hlines, List.modifyHead_cons] at h
        obtain rfl | h := List.mem_cons.mp h
        · obtain rfl | hv := List.mem_cons.mp hv
          · exact List.mem_cons_self
          · exact List.mem_cons_of_mem u (ih (hlines ▸ List.mem_cons_self) hv)
        · exact List.mem_cons_of_mem u (ih (hlines ▸ List.mem_cons_of_mem first h) hv)

/-- What is behind the first line of a text. -/
theorem unlines_cons (l : JsString) (ls : List JsString) :
    unlines (l :: ls) = l ++ if ls = [] then [] else 0x000a :: unlines ls := by
  cases ls with
  | nil => simp [unlines]
  | cons l' ls => simp [unlines, List.intercalate_cons_cons]

/-- Between two texts the last line of the one is joined with the first one of the other. -/
theorem lines_append (a b : JsString) :
    ∃ front x y later, lines a = front ++ [x] ∧ lines b = y :: later ∧
      lines (a ++ b) = front ++ (x ++ y) :: later := by
  obtain ⟨y, later, hb⟩ := List.exists_cons_of_ne_nil (List.splitOn_ne_nil 0x000a b)
  induction a with
  | nil => exact ⟨[], [], y, later, rfl, hb, hb⟩
  | cons u a ih =>
      obtain ⟨front, x, y', later', ha, hb', hab⟩ := ih
      rw [List.cons_append, lines_cons, lines_cons, ha, hab]
      split
      · exact ⟨[] :: front, x, y', later', rfl, hb', rfl⟩
      · cases front with
        | nil => exact ⟨[], u :: x, y', later', rfl, hb', rfl⟩
        | cons z front => exact ⟨(u :: z) :: front, x, y', later', rfl, hb', rfl⟩

theorem lines_of_notMem {l : JsString} (h : 0x000a ∉ l) : lines l = [l] :=
  List.splitOn_eq_singleton h

/-- A text behind some lines goes on with the last one of them. -/
theorem lines_append_left {a p : JsString} {front : List JsString} (ha : lines a = front ++ [p])
    (t : JsString) : lines (a ++ t) = front ++ lines (p ++ t) := by
  have hmem : p ∈ lines a := by
    rw [ha]
    exact List.mem_append_right _ List.mem_cons_self
  have hp := newline_notMem_of_mem_lines hmem
  obtain ⟨front₁, x₁, y₁, later₁, ha₁, ht₁, hat⟩ := lines_append a t
  obtain ⟨front₂, x₂, y₂, later₂, hp₂, ht₂, hpt⟩ := lines_append p t
  rw [ha] at ha₁
  have hp₂ : [] ++ [p] = front₂ ++ [x₂] := (lines_of_notMem hp).symm.trans hp₂
  obtain ⟨rfl, hx₁⟩ := List.append_inj' ha₁ rfl
  obtain ⟨rfl, hx₂⟩ := List.append_inj' hp₂ rfl
  obtain rfl := List.singleton_inj.mp hx₁
  obtain rfl := List.singleton_inj.mp hx₂
  obtain ⟨rfl, rfl⟩ := List.cons.inj (ht₁.symm.trans ht₂)
  rw [hat, hpt]
  rfl

/-- In front of some lines it is joined with the first one of them. -/
theorem lines_append_right {b s : JsString} {later : List JsString} (hb : lines b = s :: later)
    (t : JsString) : lines (t ++ b) = lines (t ++ s) ++ later := by
  have hmem : s ∈ lines b := by
    rw [hb]
    exact List.mem_cons_self
  have hs := newline_notMem_of_mem_lines hmem
  obtain ⟨front₁, x₁, y₁, later₁, ht₁, hb₁, htb⟩ := lines_append t b
  obtain ⟨front₂, x₂, y₂, later₂, ht₂, hs₂, hts⟩ := lines_append t s
  obtain ⟨rfl, rfl⟩ := List.cons.inj (hb.symm.trans hb₁)
  obtain ⟨rfl, rfl⟩ := List.cons.inj ((lines_of_notMem hs).symm.trans hs₂)
  obtain ⟨rfl, hx⟩ := List.append_inj' (ht₁.symm.trans ht₂) rfl
  obtain rfl := List.singleton_inj.mp hx
  rw [htb, hts, List.append_assoc]
  rfl

/-- A part of a text touches the lines in which it begins and ends, and those in between. -/
theorem lines_around {a b p s : JsString} {front later : List JsString}
    (ha : lines a = front ++ [p]) (hb : lines b = s :: later) (m : JsString) :
    lines (a ++ (m ++ b)) = front ++ (lines (p ++ (m ++ s)) ++ later) := by
  rw [lines_append_left ha, ← List.append_assoc, lines_append_right hb, List.append_assoc]

/-- Taken away, the part leaves one line. -/
theorem lines_append_of_ends {a b p s : JsString} {front later : List JsString}
    (ha : lines a = front ++ [p]) (hb : lines b = s :: later) :
    0x000a ∉ p ++ s ∧ lines (a ++ b) = front ++ (p ++ s) :: later := by
  have hp : p ∈ lines a := by
    rw [ha]
    exact List.mem_append_right _ List.mem_cons_self
  have hs : s ∈ lines b := by
    rw [hb]
    exact List.mem_cons_self
  have hleft : 0x000a ∉ p ++ s := by
    rw [List.mem_append, not_or]
    exact ⟨newline_notMem_of_mem_lines hp, newline_notMem_of_mem_lines hs⟩
  have h := lines_around ha hb []
  rw [List.nil_append, List.nil_append, lines_of_notMem hleft, List.singleton_append] at h
  exact ⟨hleft, h⟩

/-! ## Trimming -/

theorem exists_trimEnd_append (s : JsString) :
    ∃ w, (∀ u ∈ w, isWhitespace u = true) ∧ s = trimEnd s ++ w := by
  refine ⟨(s.reverse.takeWhile isWhitespace).reverse, ?_, ?_⟩
  · intro u hu
    exact List.mem_takeWhile_imp (List.mem_reverse.mp hu)
  · rw [trimEnd, ← List.reverse_append, List.takeWhile_append_dropWhile, List.reverse_reverse]

/-- What is in front of a text that is not blank is not trimmed. -/
theorem trimEnd_append_of_not_blank (a : JsString) {s : JsString} (h : trimEnd s ≠ []) :
    trimEnd (a ++ s) = a ++ trimEnd s := by
  obtain ⟨w, hw, hs⟩ := exists_trimEnd_append s
  have hlast : ∀ u ∈ (a ++ trimEnd s).getLast?, isWhitespace u = false := by
    rw [List.getLast?_append_of_ne_nil a h]
    exact getLast?_trimEnd
  calc trimEnd (a ++ s) = trimEnd ((a ++ trimEnd s) ++ w) := by rw [List.append_assoc, ← hs]
    _ = a ++ trimEnd s ++ trimEnd w := trimEnd_append hlast
    _ = a ++ trimEnd s := by rw [trimEnd_eq_nil_iff.mpr hw, List.append_nil]

/-- Two texts that are trimmed to the same. -/
theorem trimEnd_append_trimEnd {w : JsString} (s : JsString)
    (hw : ∀ u ∈ w, isWhitespace u = true) : trimEnd (trimEnd s ++ w) = trimEnd s := by
  rw [trimEnd_append_white hw, trimEnd_trimEnd]

theorem isWhitespace_of_mem_unlines {ls : List JsString} (h : ls.all isBlankLine = true) :
    ∀ u ∈ unlines ls, isWhitespace u = true := by
  induction ls with
  | nil => simp [unlines]
  | cons l ls ih =>
      obtain ⟨hl, hls⟩ := Bool.and_eq_true_iff.mp (List.all_cons.symm.trans h)
      intro u hu
      rw [unlines_cons] at hu
      obtain hu | hu := List.mem_append.mp hu
      · exact isBlankLine_iff.mp hl u hu
      · split at hu
        · cases hu
        · obtain rfl | hu := List.mem_cons.mp hu
          · rfl
          · exact ih hls u hu

theorem all_isBlankLine_lines {text : JsString} (h : ∀ u ∈ text, isWhitespace u = true) :
    (lines text).all isBlankLine = true := by
  apply List.all_eq_true.mpr
  intro line hline
  exact isBlankLine_iff.mpr fun u hu => h u (mem_of_mem_lines hline u hu)

theorem trimEnd_unlines_cons (l : JsString) {ls : List JsString} (h : ls.all isBlankLine = true) :
    trimEnd (unlines (l :: ls)) = trimEnd l := by
  rw [unlines_cons]
  apply trimEnd_append_white
  intro u hu
  split at hu
  · cases hu
  · obtain rfl | hu := List.mem_cons.mp hu
    · rfl
    · exact isWhitespace_of_mem_unlines h u hu

/-- Lines are trimmed behind the last one that is not blank. -/
theorem trimEnd_unlines_cons_of_not_blank (l : JsString) {ls : List JsString}
    (hnewline : ∀ l ∈ ls, 0x000a ∉ l) (h : ls.all isBlankLine = false) :
    trimEnd (unlines ls) ≠ [] ∧
      trimEnd (unlines (l :: ls)) = l ++ 0x000a :: trimEnd (unlines ls) := by
  have hne : ls ≠ [] := by
    rintro rfl
    cases h
  have hblank : trimEnd (unlines ls) ≠ [] := by
    intro htrim
    have hall := all_isBlankLine_lines (trimEnd_eq_nil_iff.mp htrim)
    rw [lines_unlines hne hnewline, h] at hall
    cases hall
  refine ⟨hblank, ?_⟩
  rw [unlines_cons, if_neg hne, List.append_cons, trimEnd_append_of_not_blank _ hblank,
    ← List.append_cons]

/-! ## The lines up to the last one that is not blank -/

/-- The number of lines without the blank ones at the end. -/
def solidLength : List JsString → Nat
  | [] => 0
  | l :: ls => if (l :: ls).all isBlankLine then 0 else solidLength ls + 1

theorem solidLength_eq_zero_iff {ls : List JsString} :
    solidLength ls = 0 ↔ ls.all isBlankLine = true := by
  cases ls with
  | nil => simp [solidLength]
  | cons l ls =>
      rw [solidLength]
      split <;> simp [*]

/-- Lines in order are not more than there are. -/
theorem solidLength_le_of_sublist {ls ls' : List JsString} (h : ls.Sublist ls') :
    solidLength ls ≤ solidLength ls' := by
  induction h with
  | slnil => exact le_rfl
  | @cons ls ls' l hsub ih =>
      rw [solidLength.eq_def (l :: ls')]
      dsimp only
      split
      · rename_i hall
        rw [List.all_cons, Bool.and_eq_true] at hall
        rw [solidLength_eq_zero_iff.mpr hall.2] at ih
        exact ih
      · omega
  | @cons_cons ls ls' l hsub ih =>
      rw [solidLength, solidLength]
      split
      · exact Nat.zero_le _
      · rename_i hnot
        rw [if_neg]
        · omega
        · intro hall
          apply hnot
          rw [List.all_eq_true] at hall ⊢
          exact fun x hx => hall x ((hsub.cons_cons l).subset hx)

theorem solidLength_append {front ls : List JsString} (h : ls.all isBlankLine = false) :
    solidLength (front ++ ls) = front.length + solidLength ls := by
  induction front with
  | nil => simp
  | cons l front ih =>
      rw [List.cons_append, solidLength, if_neg (by simp [h]), ih, List.length_cons]
      omega

theorem solidLength_append_blank {ls blanks : List JsString} (h : blanks.all isBlankLine = true) :
    solidLength (ls ++ blanks) = solidLength ls := by
  induction ls with
  | nil => exact solidLength_eq_zero_iff.mpr h
  | cons l ls ih =>
      rw [List.cons_append, solidLength, solidLength, ih, ← List.cons_append, List.all_append, h,
        Bool.and_true]

theorem solidLength_concat (front : List JsString) (l : JsString) :
    solidLength (front ++ [l]) =
      if isBlankLine l then solidLength front else front.length + 1 := by
  cases hl : isBlankLine l with
  | true => exact solidLength_append_blank (by simp [hl])
  | false =>
      rw [solidLength_append (by simp [hl])]
      simp [solidLength, hl]

/-! ## The lines that a text has -/

section HasLines

variable {wanted ls : List JsString} {l text : JsString}

theorem hasLines_of_sublist (h : wanted.Sublist (lines text)) : HasLines wanted text :=
  ⟨text, rfl, h⟩

theorem HasLines.of_sublist {wanted' : List JsString} (h : HasLines wanted text)
    (hsub : wanted'.Sublist wanted) : HasLines wanted' text := by
  obtain ⟨whole, htrim, hlines⟩ := h
  exact ⟨whole, htrim, hsub.trans hlines⟩

/-- Blank lines may be at the end of every text. -/
theorem hasLines_of_blank (hnewline : ∀ l ∈ wanted, 0x000a ∉ l)
    (h : wanted.all isBlankLine = true) (text : JsString) : HasLines wanted text := by
  by_cases hne : wanted = []
  · rw [hne]
    exact hasLines_of_sublist (List.nil_sublist _)
  · refine ⟨text ++ 0x000a :: unlines wanted, ?_, ?_⟩
    · apply trimEnd_append_white
      intro u hu
      obtain rfl | hu := List.mem_cons.mp hu
      · rfl
      · exact isWhitespace_of_mem_unlines h u hu
    · have hlines : lines (text ++ 0x000a :: unlines wanted) =
          lines text ++ lines (unlines wanted) := List.splitOn_append_cons_self _ _
      rw [hlines, lines_unlines hne hnewline]
      exact List.sublist_append_right _ _

/-- The lines that a blank text has are blank. -/
theorem HasLines.all_isBlankLine (h : HasLines wanted text)
    (htext : ∀ u ∈ text, isWhitespace u = true) : wanted.all isBlankLine = true := by
  obtain ⟨whole, htrim, hsub⟩ := h
  rw [trimEnd_eq_nil_iff.mpr htext, trimEnd_eq_nil_iff] at htrim
  have hall := List.all_eq_true.mp (all_isBlankLine_lines htrim)
  exact List.all_eq_true.mpr fun line hline => hall line (hsub.subset hline)

/-- With nothing but blank lines behind a line, the white space at its own end is free. -/
theorem hasLines_unlines_cons_blank (hwanted : ∀ l ∈ wanted, 0x000a ∉ l) (hl : 0x000a ∉ l)
    (hblank : ls.all isBlankLine = true) :
    HasLines wanted (unlines (l :: ls)) ↔ wanted.all isBlankLine = true ∨
      ∃ first blanks, wanted = first :: blanks ∧ blanks.all isBlankLine = true ∧
        trimEnd first = trimEnd l := by
  constructor
  · rintro ⟨whole, htrim, hsub⟩
    rw [trimEnd_unlines_cons l hblank] at htrim
    obtain ⟨w, hw, hwhole⟩ := exists_trimEnd_append whole
    have hnewline : 0x000a ∉ trimEnd l := by
      intro hmem
      obtain ⟨w', -, hl'⟩ := exists_trimEnd_append l
      rw [hl'] at hl
      exact hl (List.mem_append_left w' hmem)
    obtain ⟨w₀, blanks, hlines⟩ := List.exists_cons_of_ne_nil (List.splitOn_ne_nil 0x000a w)
    have hlines : lines w = w₀ :: blanks := hlines
    have hall := all_isBlankLine_lines hw
    rw [hlines, List.all_cons, Bool.and_eq_true] at hall
    have hw₀ := isBlankLine_iff.mp hall.1
    have hfirst : lines whole = (trimEnd l ++ w₀) :: blanks := by
      rw [hwhole, htrim, lines_append_right hlines, lines_of_notMem]
      · rfl
      · rw [List.mem_append, not_or]
        exact ⟨hnewline, newline_notMem_of_mem_lines (hlines ▸ List.mem_cons_self)⟩
    rw [hfirst, List.sublist_cons_iff] at hsub
    obtain hsub | ⟨rest, rfl, hsub⟩ := hsub
    · left
      exact List.all_eq_true.mpr fun x hx => List.all_eq_true.mp hall.2 x (hsub.subset hx)
    · right
      refine ⟨_, rest, rfl, ?_, trimEnd_append_trimEnd l hw₀⟩
      exact List.all_eq_true.mpr fun x hx => List.all_eq_true.mp hall.2 x (hsub.subset hx)
  · rintro (hall | ⟨first, blanks, rfl, hall, htrim⟩)
    · exact hasLines_of_blank hwanted hall _
    · refine ⟨unlines (first :: blanks), ?_, ?_⟩
      · rw [trimEnd_unlines_cons first hall, trimEnd_unlines_cons l hblank, htrim]
      · rw [lines_unlines (List.cons_ne_nil _ _) hwanted]

/-- In front of lines that are not all blank a line stays as it is. -/
theorem hasLines_unlines_cons (hl : 0x000a ∉ l) (hnewline : ∀ l ∈ ls, 0x000a ∉ l)
    (hblank : ls.all isBlankLine = false) :
    HasLines wanted (unlines (l :: ls)) ↔
      HasLines wanted (unlines ls) ∨ ∃ rest, wanted = l :: rest ∧ HasLines rest (unlines ls) := by
  obtain ⟨hne, htrim⟩ := trimEnd_unlines_cons_of_not_blank l hnewline hblank
  have hcons : ∀ whole, lines (l ++ 0x000a :: whole) = l :: lines whole :=
    List.splitOn_append_cons_self_of_not_mem hl
  have hexists : HasLines wanted (unlines (l :: ls)) ↔
      ∃ whole, trimEnd whole = trimEnd (unlines ls) ∧ wanted.Sublist (l :: lines whole) := by
    constructor
    · rintro ⟨whole, hwhole, hsub⟩
      obtain ⟨w, hw, hsplit⟩ := exists_trimEnd_append whole
      refine ⟨trimEnd (unlines ls) ++ w, trimEnd_append_trimEnd _ hw, ?_⟩
      rwa [← hcons, ← List.cons_append, ← List.append_assoc, ← htrim, ← hwhole, ← hsplit]
    · rintro ⟨whole, hwhole, hsub⟩
      refine ⟨l ++ 0x000a :: whole, ?_, by rwa [hcons]⟩
      have hnot : trimEnd whole ≠ [] := by rwa [hwhole]
      rw [htrim, ← hwhole, List.append_cons, trimEnd_append_of_not_blank _ hnot,
        ← List.append_cons]
  rw [hexists]
  constructor
  · rintro ⟨whole, hwhole, hsub⟩
    obtain hlater | ⟨rest, rfl, hrest⟩ := List.sublist_cons_iff.mp hsub
    · exact .inl ⟨whole, hwhole, hlater⟩
    · exact .inr ⟨rest, rfl, whole, hwhole, hrest⟩
  · rintro (⟨whole, hwhole, hsub⟩ | ⟨rest, rfl, whole, hwhole, hsub⟩)
    · exact ⟨whole, hwhole, hsub.cons l⟩
    · exact ⟨whole, hwhole, hsub.cons_cons l⟩

end HasLines

/-! ## Lines that are kept

`keep` says which lines are to be kept, whatever the white space at their ends. -/

section Keep

variable {keep : JsString → Bool}
  (hkeep : ∀ l w, (∀ u ∈ w, isWhitespace u = true) → keep (l ++ w) = keep l)

include hkeep

theorem keep_of_trimEnd_eq {l l' : JsString} (h : trimEnd l = trimEnd l') : keep l = keep l' := by
  obtain ⟨w, hw, hl⟩ := exists_trimEnd_append l
  obtain ⟨w', hw', hl'⟩ := exists_trimEnd_append l'
  rw [hl, hl', hkeep _ _ hw, hkeep _ _ hw', h]

/-- A line in front of a text is to be had if and only if it is kept. -/
theorem hasLines_cons_filter {wanted ls : List JsString} {l : JsString}
    (hwanted : ∀ l ∈ wanted, 0x000a ∉ l ∧ keep l = true) (hl : 0x000a ∉ l)
    (hnewline : ∀ l ∈ ls, 0x000a ∉ l) :
    HasLines ([l].filter keep ++ wanted) (unlines (l :: ls)) ↔ HasLines wanted (unlines ls) := by
  have hwanted' : ∀ l' ∈ l :: wanted, 0x000a ∉ l' :=
    List.forall_mem_cons.mpr ⟨hl, fun l' hl' => (hwanted l' hl').1⟩
  cases hblank : ls.all isBlankLine with
  | true =>
      have hrest : HasLines wanted (unlines ls) ↔ wanted.all isBlankLine = true :=
        ⟨fun h => h.all_isBlankLine (isWhitespace_of_mem_unlines hblank),
          fun h => hasLines_of_blank (fun l' hl' => (hwanted l' hl').1) h _⟩
      rw [hrest]
      cases hk : keep l with
      | true =>
          rw [List.filter_cons_of_pos hk, List.filter_nil, List.singleton_append,
            hasLines_unlines_cons_blank hwanted' hl hblank]
          constructor
          · rintro (hall | ⟨first, blanks, heq, hall, -⟩)
            · rw [List.all_cons, Bool.and_eq_true] at hall
              exact hall.2
            · rwa [(List.cons.inj heq).2]
          · exact fun hall => .inr ⟨l, wanted, rfl, hall, rfl⟩
      | false =>
          rw [List.filter_cons_of_neg (Bool.eq_false_iff.mp hk), List.filter_nil, List.nil_append,
            hasLines_unlines_cons_blank (fun l' hl' => (hwanted l' hl').1) hl hblank]
          apply or_iff_left
          rintro ⟨first, blanks, rfl, -, htrim⟩
          have hfirst := (hwanted first List.mem_cons_self).2
          rw [keep_of_trimEnd_eq hkeep htrim, hk] at hfirst
          cases hfirst
  | false =>
      rw [hasLines_unlines_cons hl hnewline hblank]
      cases hk : keep l with
      | true =>
          rw [List.filter_cons_of_pos hk, List.filter_nil, List.singleton_append]
          constructor
          · rintro (h | ⟨rest, heq, h⟩)
            · exact h.of_sublist (List.sublist_cons_self l wanted)
            · rwa [(List.cons.inj heq).2]
          · exact fun h => .inr ⟨wanted, rfl, h⟩
      | false =>
          rw [List.filter_cons_of_neg (Bool.eq_false_iff.mp hk), List.filter_nil, List.nil_append]
          apply or_iff_left
          rintro ⟨rest, rfl, -⟩
          rw [(hwanted l List.mem_cons_self).2] at hk
          cases hk

theorem hasLines_append_filter {before wanted ls : List JsString}
    (hwanted : ∀ l ∈ wanted, 0x000a ∉ l ∧ keep l = true) (hbefore : ∀ l ∈ before, 0x000a ∉ l)
    (hnewline : ∀ l ∈ ls, 0x000a ∉ l) :
    HasLines (before.filter keep ++ wanted) (unlines (before ++ ls)) ↔
      HasLines wanted (unlines ls) := by
  induction before with
  | nil => rfl
  | cons l before ih =>
      obtain ⟨hl, hbefore⟩ := List.forall_mem_cons.mp hbefore
      have hall : ∀ l' ∈ before.filter keep ++ wanted, 0x000a ∉ l' ∧ keep l' = true := by
        intro l' hl'
        obtain hl' | hl' := List.mem_append.mp hl'
        · obtain ⟨hmem, hk⟩ := List.mem_filter.mp hl'
          exact ⟨hbefore l' hmem, hk⟩
        · exact hwanted l' hl'
      have hsplit : ([l] ++ before).filter keep = [l].filter keep ++ before.filter keep :=
        List.filter_append [l] before
      rw [← List.singleton_append, hsplit, List.append_assoc, List.append_assoc,
        List.singleton_append, hasLines_cons_filter hkeep hall hl
          (List.forall_mem_append.mpr ⟨hbefore, hnewline⟩), ih hbefore]

/-- What is trimmed off a text has no lines but blank ones. -/
theorem solidLength_filter_lines (text : JsString) :
    solidLength ((lines text).filter keep) = solidLength ((lines (trimEnd text)).filter keep) := by
  obtain ⟨w, hw, hsplit⟩ := exists_trimEnd_append text
  obtain ⟨front, x, y, later, hfront, hlater, hjoined⟩ := lines_append (trimEnd text) w
  have hall := all_isBlankLine_lines hw
  rw [hlater, List.all_cons, Bool.and_eq_true] at hall
  have hy := isBlankLine_iff.mp hall.1
  have hblanks : (later.filter keep).all isBlankLine = true := by
    apply List.all_eq_true.mpr
    intro l hl
    exact List.all_eq_true.mp hall.2 l (List.mem_of_mem_filter hl)
  have hsame : isBlankLine (x ++ y) = isBlankLine x := by
    have hy : y.all isWhitespace = true := hall.1
    rw [isBlankLine, List.all_append, hy, Bool.and_true]
    rfl
  have hlines : (lines text).filter keep =
      (front.filter keep ++ [x ++ y].filter keep) ++ later.filter keep := by
    rw [← List.filter_append, ← List.filter_append, List.append_assoc, List.singleton_append,
      ← hjoined, ← hsplit]
  have hkept : keep (x ++ y) = keep x := hkeep x y hy
  rw [hlines, hfront, solidLength_append_blank hblanks, List.filter_append]
  cases hx : keep x with
  | false =>
      rw [hx] at hkept
      rw [List.filter_cons_of_neg (Bool.eq_false_iff.mp hx),
        List.filter_cons_of_neg (Bool.eq_false_iff.mp hkept)]
  | true =>
      rw [hx] at hkept
      rw [List.filter_cons_of_pos hx, List.filter_cons_of_pos hkept, List.filter_nil,
        solidLength_concat, solidLength_concat, hsame]

/-- Lines that a text does not have in front of its own: there are none, or all are blank. -/
theorem eq_nil_or_blank_of_hasLines {lost ls : List JsString} (hne : ls ≠ [])
    (hlost : ∀ l ∈ lost, keep l = true) (hnewline : ∀ l ∈ ls, 0x000a ∉ l)
    (h : HasLines (lost ++ ls.filter keep) (unlines ls)) :
    lost = [] ∨ (ls.filter keep).all isBlankLine = true ∧ lost.all isBlankLine = true := by
  obtain ⟨whole, htrim, hsub⟩ := h
  have hlostKept : lost.filter keep = lost := List.filter_eq_self.mpr hlost
  have hle := solidLength_le_of_sublist (hsub.filter keep)
  rw [List.filter_append, hlostKept, List.filter_filter, solidLength_filter_lines hkeep whole,
    htrim, ← solidLength_filter_lines hkeep, lines_unlines hne hnewline] at hle
  simp only [Bool.and_self] at hle
  cases hblank : (ls.filter keep).all isBlankLine with
  | false =>
      rw [solidLength_append hblank] at hle
      left
      exact List.length_eq_zero_iff.mp (by omega)
  | true =>
      right
      rw [solidLength_eq_zero_iff.mpr hblank, Nat.le_zero, solidLength_eq_zero_iff,
        List.all_append, Bool.and_eq_true] at hle
      exact ⟨rfl, hle.1⟩

/-- What may be lost in front of some lines if `left` is there in its place: nothing, or what is
left, or blank lines if all that is wanted behind them is blank. -/
def Dispensable (keep : JsString → Bool) (lost : List JsString) (left : JsString)
    (behind : List JsString) : Prop :=
  lost.Sublist [left] ∨ (behind.filter keep).all isBlankLine = true ∧
    (lost.all isBlankLine = true ∨ ∃ l blanks, lost = l :: blanks ∧
      blanks.all isBlankLine = true ∧
        (l = left ∨ behind.all isBlankLine = true ∧ trimEnd l = trimEnd left))

section Lost

variable {lost behind : List JsString} {left : JsString}

omit hkeep in
/-- With nothing but blank lines behind what is left. -/
theorem hasLines_lost_of_blank (hnewline : ∀ l ∈ lost ++ behind.filter keep, 0x000a ∉ l)
    (hleft : 0x000a ∉ left) (hblank : behind.all isBlankLine = true) :
    HasLines (lost ++ behind.filter keep) (unlines (left :: behind)) ↔
      Dispensable keep lost left behind := by
  have hkept : (behind.filter keep).all isBlankLine = true := by
    apply List.all_eq_true.mpr
    intro l hl
    exact List.all_eq_true.mp hblank l (List.mem_of_mem_filter hl)
  rw [hasLines_unlines_cons_blank hnewline hleft hblank, Dispensable, hkept, hblank,
    List.all_append, hkept, Bool.and_true]
  cases lost with
  | nil => simp
  | cons x lost =>
      constructor
      · rintro (hall | ⟨first, blanks, heq, hall, htrim⟩)
        · exact .inr ⟨rfl, .inl hall⟩
        · obtain ⟨rfl, rfl⟩ := List.cons.inj heq
          rw [List.append_eq, List.all_append, Bool.and_eq_true] at hall
          exact .inr ⟨rfl, .inr ⟨x, lost, rfl, hall.1, .inr ⟨rfl, htrim⟩⟩⟩
      · have hrest : ∀ {blanks : List JsString}, blanks.all isBlankLine = true →
            (blanks ++ behind.filter keep).all isBlankLine = true := by
          intro blanks hall
          rw [List.all_append, hall, hkept]
          rfl
        rintro (hsub | ⟨-, hall | ⟨l, blanks, heq, hall, rfl | ⟨-, htrim⟩⟩⟩)
        · obtain heq | heq := List.sublist_singleton.mp hsub
          · cases heq
          · obtain ⟨rfl, rfl⟩ := List.cons.inj heq
            exact .inr ⟨x, behind.filter keep, rfl, hkept, rfl⟩
        · exact .inl hall
        · obtain ⟨rfl, rfl⟩ := List.cons.inj heq
          exact .inr ⟨x, _, rfl, hrest hall, rfl⟩
        · obtain ⟨rfl, rfl⟩ := List.cons.inj heq
          exact .inr ⟨x, _, rfl, hrest hall, htrim⟩

theorem hasLines_lost_of_not_blank (hlost : ∀ l ∈ lost, keep l = true)
    (hnewline : ∀ l ∈ lost ++ behind.filter keep, 0x000a ∉ l) (hleft : 0x000a ∉ left)
    (hbehind : ∀ l ∈ behind, 0x000a ∉ l) (hblank : behind.all isBlankLine = false) :
    HasLines (lost ++ behind.filter keep) (unlines (left :: behind)) ↔
      Dispensable keep lost left behind := by
  have hne : behind ≠ [] := by
    rintro rfl
    cases hblank
  have hkept : HasLines (behind.filter keep) (unlines behind) := by
    apply hasLines_of_sublist
    rw [lines_unlines hne hbehind]
    exact List.filter_sublist
  rw [hasLines_unlines_cons hleft hbehind hblank, Dispensable, hblank]
  constructor
  · rintro (h | ⟨rest, heq, h⟩)
    · obtain rfl | hblanks := eq_nil_or_blank_of_hasLines hkeep hne hlost hbehind h
      · exact .inl (List.nil_sublist _)
      · exact .inr ⟨hblanks.1, .inl hblanks.2⟩
    · cases lost with
      | nil => exact .inl (List.nil_sublist _)
      | cons x lost =>
          obtain ⟨rfl, rfl⟩ := List.cons.inj heq
          obtain rfl | hblanks := eq_nil_or_blank_of_hasLines hkeep hne
            (fun l hl => hlost l (List.mem_cons_of_mem x hl)) hbehind h
          · exact .inl (List.Sublist.refl _)
          · exact .inr ⟨hblanks.1, .inr ⟨x, lost, rfl, hblanks.2, .inl rfl⟩⟩
  · rintro (hsub | ⟨hkeptBlank, hall | ⟨l, blanks, rfl, hall, rfl | ⟨hnot, -⟩⟩⟩)
    · obtain rfl | rfl := List.sublist_singleton.mp hsub
      · exact .inl hkept
      · exact .inr ⟨_, rfl, hkept⟩
    · left
      apply hasLines_of_blank hnewline
      rw [List.all_append, hall, hkeptBlank]
      rfl
    · right
      refine ⟨_, rfl, ?_⟩
      apply hasLines_of_blank fun l' hl' => hnewline l' (List.mem_cons_of_mem l hl')
      rw [List.append_eq, List.all_append, hall, hkeptBlank]
      rfl
    · cases hnot

/-- **A text from which some of the wanted lines were taken has all of them if and only if these
were dispensable.** -/
theorem hasLines_iff_dispensable {before : List JsString} (hbefore : ∀ l ∈ before, 0x000a ∉ l)
    (hlost : ∀ l ∈ lost, 0x000a ∉ l ∧ keep l = true) (hleft : 0x000a ∉ left)
    (hbehind : ∀ l ∈ behind, 0x000a ∉ l) :
    HasLines (before.filter keep ++ (lost ++ behind.filter keep))
        (unlines (before ++ left :: behind)) ↔ Dispensable keep lost left behind := by
  have hwanted : ∀ l ∈ lost ++ behind.filter keep, 0x000a ∉ l ∧ keep l = true := by
    intro l hl
    obtain hl | hl := List.mem_append.mp hl
    · exact hlost l hl
    · obtain ⟨hmem, hk⟩ := List.mem_filter.mp hl
      exact ⟨hbehind l hmem, hk⟩
  have hnewline : ∀ l ∈ lost ++ behind.filter keep, 0x000a ∉ l := fun l hl => (hwanted l hl).1
  rw [hasLines_append_filter hkeep hwanted hbefore (List.forall_mem_cons.mpr ⟨hleft, hbehind⟩)]
  cases hblank : behind.all isBlankLine with
  | true => exact hasLines_lost_of_blank hnewline hleft hblank
  | false =>
      exact hasLines_lost_of_not_blank hkeep (fun l hl => (hlost l hl).2) hnewline hleft hbehind
        hblank

end Lost

end Keep

end JsString
