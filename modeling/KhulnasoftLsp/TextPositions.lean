import KhulnasoftLsp.JsString

/-!
# Positions in a text document

A position is a line and a character, both counted from zero. A line ends in `\r\n`, in `\n` or in
`\r`, and a character is a code unit of its line. `offsetAt` is the offset in the text that a
position denotes, if it denotes one: there is no such line, or the line is shorter, otherwise.

`lineStart_pos` and `offsetAt_eq_some_iff` are what later proofs use: in front of a later line there
is a line end, and between the start of a line and a position on it there is none.
-/

namespace TextPositions

def isLineEnd (u : UInt16) : Bool := u == 0x000a || u == 0x000d

/-- The offset at which the second line begins. -/
def nextLine : JsString → Option Nat
  | [] => none
  | u :: us =>
    if u == 0x000d && us.head? == some 0x000a then some 2
    else if isLineEnd u then some 1
    else (nextLine us).map (· + 1)

/-- The offset at which a line begins. -/
def lineStart (text : JsString) : Nat → Option Nat
  | 0 => some 0
  | line + 1 =>
    (lineStart text line).bind fun start => (nextLine (text.drop start)).map (start + ·)

/-- The length of the first line, without its line end. -/
def lineLength (text : JsString) : Nat := (text.takeWhile fun u => !isLineEnd u).length

/-- The offset that a position denotes. -/
def offsetAt (text : JsString) (line character : Nat) : Option Nat :=
  (lineStart text line).bind fun start =>
    if character ≤ lineLength (text.drop start) then some (start + character) else none

theorem nextLine_pos {text : JsString} {next : Nat} (h : nextLine text = some next) :
    0 < next ∧ ∃ u, text[next - 1]? = some u ∧ isLineEnd u = true := by
  induction text generalizing next with
  | nil => cases h
  | cons u us ih =>
      rw [nextLine] at h
      split at h
      · rename_i hcrlf
        obtain rfl := Option.some.inj h
        obtain ⟨-, hlf⟩ := Bool.and_eq_true_iff.mp hcrlf
        refine ⟨by omega, 0x000a, ?_, rfl⟩
        rw [beq_iff_eq, List.head?_eq_getElem?] at hlf
        exact hlf
      · split at h
        · rename_i hend
          obtain rfl := Option.some.inj h
          exact ⟨by omega, u, rfl, hend⟩
        · obtain ⟨n, hn, rfl⟩ := Option.map_eq_some_iff.mp h
          obtain ⟨hpos, v, hv, hend⟩ := ih hn
          refine ⟨by omega, v, ?_, hend⟩
          rw [show n + 1 - 1 = (n - 1) + 1 by omega]
          exact hv

/-- In front of a later line there is a line end. -/
theorem lineStart_pos {text : JsString} {line start : Nat} (hline : line ≠ 0)
    (h : lineStart text line = some start) :
    0 < start ∧ ∃ u, text[start - 1]? = some u ∧ isLineEnd u = true := by
  cases line with
  | zero => exact absurd rfl hline
  | succ line =>
      rw [lineStart] at h
      obtain ⟨before, -, hnext⟩ := Option.bind_eq_some_iff.mp h
      obtain ⟨n, hn, rfl⟩ := Option.map_eq_some_iff.mp hnext
      obtain ⟨hpos, u, hu, hend⟩ := nextLine_pos hn
      refine ⟨by omega, u, ?_, hend⟩
      rw [List.getElem?_drop] at hu
      rw [← hu]
      congr 1
      omega

theorem le_lineLength_iff {text : JsString} {n : Nat} :
    n ≤ lineLength text ↔ n ≤ text.length ∧ ∀ u ∈ text.take n, isLineEnd u = false := by
  induction text generalizing n with
  | nil => simp [lineLength]
  | cons u us ih =>
      cases n with
      | zero => simp
      | succ n =>
          cases hu : isLineEnd u with
          | true => simp [lineLength, hu]
          | false =>
              have hlen : lineLength (u :: us) = lineLength us + 1 := by simp [lineLength, hu]
              rw [hlen, Nat.succ_le_succ_iff, ih]
              simp [hu]

/-- Between the start of its line and a position there is no line end. -/
theorem offsetAt_eq_some_iff {text : JsString} {line character offset : Nat} :
    offsetAt text line character = some offset ↔
      ∃ start, lineStart text line = some start ∧ start + character = offset ∧
        character ≤ (text.drop start).length ∧
        ∀ u ∈ (text.drop start).take character, isLineEnd u = false := by
  rw [offsetAt, Option.bind_eq_some_iff]
  constructor
  · rintro ⟨start, hstart, h⟩
    rw [Option.ite_none_right_eq_some, Option.some.injEq, le_lineLength_iff] at h
    exact ⟨start, hstart, h.2, h.1⟩
  · rintro ⟨start, hstart, hoffset, h⟩
    refine ⟨start, hstart, ?_⟩
    rw [if_pos (le_lineLength_iff.mpr h), hoffset]

/-- On the first line the character is the offset. -/
theorem offsetAt_zero_eq_some_iff {text : JsString} {character offset : Nat} :
    offsetAt text 0 character = some offset ↔
      character = offset ∧ offset ≤ text.length ∧ ∀ u ∈ text.take offset, isLineEnd u = false := by
  rw [offsetAt_eq_some_iff]
  constructor
  · rintro ⟨start, hstart, hoffset, hlen, hend⟩
    obtain rfl := Option.some.inj hstart
    obtain rfl : character = offset := by omega
    exact ⟨rfl, hlen, hend⟩
  · rintro ⟨rfl, hlen, hend⟩
    exact ⟨0, rfl, by omega, hlen, hend⟩

/-! ## A part of a text

A part of a text begins behind `pre`, and a position of the text lies behind `before` in it. -/

section Part

variable {pre before after post : JsString} {line character : Nat}

/-- On the first line, it is taken off the character what is in front of the part. -/
theorem offsetAt_part_of_first_line
    (h : offsetAt (pre ++ ((before ++ after) ++ post)) 0 character =
      some (pre.length + before.length)) :
    offsetAt (before ++ after) 0 (character - pre.length) = some before.length := by
  obtain ⟨rfl, -, hend⟩ := offsetAt_zero_eq_some_iff.mp h
  rw [List.append_assoc, ← List.append_assoc, ← List.length_append, List.take_left] at hend
  rw [offsetAt_zero_eq_some_iff, List.take_left, List.length_append]
  refine ⟨by omega, by omega, ?_⟩
  intro u hu
  exact hend u (List.mem_append_right pre hu)

/-- And there is no line in front of it. -/
theorem lines_of_first_line
    (h : offsetAt (pre ++ ((before ++ after) ++ post)) 0 character =
      some (pre.length + before.length)) : JsString.lines pre = [pre] := by
  obtain ⟨rfl, -, hend⟩ := offsetAt_zero_eq_some_iff.mp h
  rw [List.append_assoc, ← List.append_assoc, ← List.length_append, List.take_left] at hend
  apply List.splitOn_eq_singleton
  intro hmem
  exact absurd (hend _ (List.mem_append_left before hmem)) (by decide)

/-- On a later line, no line of the part has the position there. -/
theorem offsetAt_part_of_later_line (hline : line ≠ 0) (hpre : pre ≠ [])
    (hcharacter : pre.length ≤ character)
    (h : offsetAt (pre ++ ((before ++ after) ++ post)) line character =
      some (pre.length + before.length)) (line' : Nat) :
    offsetAt (before ++ after) line' (character - pre.length) ≠ some before.length := by
  intro h'
  obtain ⟨start, hstart, hoffset, -, hend⟩ := offsetAt_eq_some_iff.mp h
  obtain ⟨start', hstart', hoffset', -, -⟩ := offsetAt_eq_some_iff.mp h'
  have hpos : 0 < pre.length := List.length_pos_iff.mpr hpre
  obtain ⟨hstartPos, -⟩ := lineStart_pos hline hstart
  -- the line would begin as far behind the start of the part as it does behind the text's
  obtain rfl : start' = start := by omega
  have hline' : line' ≠ 0 := by
    rintro rfl
    cases hstart'
    omega
  obtain ⟨-, u, hu, hisEnd⟩ := lineStart_pos hline' hstart'
  -- and the line end in front of it would stand between the start of the line and the position
  have hmem : u ∈ ((pre ++ ((before ++ after) ++ post)).drop start').take character := by
    apply List.mem_of_getElem? (i := pre.length - 1)
    rw [List.getElem?_take_of_lt (by omega), List.getElem?_drop,
      List.getElem?_append_right (by omega), List.getElem?_append_left]
    · rw [← hu]
      congr 1
      omega
    · have := (List.getElem?_eq_some_iff.mp hu).1
      omega
  rw [hend u hmem] at hisEnd
  cases hisEnd

end Part

end TextPositions
