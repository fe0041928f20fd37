import Mathlib.Data.List.Infix

/-!
# Segments of a path

A path written as a text is the list of the non-empty names between its separators. A text that
*begins* with another need not lie under it: the text may go on inside the last name.
`under_iff_of_begins` says that nothing else stands between the two notions.
-/

namespace PathSegments

variable {α : Type*} [DecidableEq α] (sep : α)

/-- The names of a path. -/
def segments (path : List α) : List (List α) :=
  (path.splitOn sep).filter fun name => !name.isEmpty

/-- The path is the directory, or lies under it. -/
def Under (dir path : List α) : Prop := segments sep dir <+: segments sep path

/-- The path lies under the directory and is not the directory itself. -/
def ProperlyUnder (dir path : List α) : Prop :=
  Under sep dir path ∧ segments sep path ≠ segments sep dir

/-- The text of the path begins with that of the directory, and goes on inside the last name of the
directory. -/
def GoesOn (dir path : List α) : Prop :=
  ∃ d ∈ dir.getLast?, ∃ c rest, path = dir ++ c :: rest ∧ d ≠ sep ∧ c ≠ sep

instance (dir path : List α) : Decidable (Under sep dir path) :=
  inferInstanceAs (Decidable (_ <+: _))

instance (dir path : List α) : Decidable (ProperlyUnder sep dir path) :=
  inferInstanceAs (Decidable (_ ∧ _))

variable {sep}

@[simp] theorem segments_nil : segments sep ([] : List α) = [] := by
  simp [segments]

theorem segments_append_cons (a b : List α) :
    segments sep (a ++ sep :: b) = segments sep a ++ segments sep b := by
  rw [segments, List.splitOn_append_cons_self, List.filter_append]
  rfl

theorem segments_of_notMem {name : List α} (h : sep ∉ name) (hne : name ≠ []) :
    segments sep name = [name] := by
  rw [segments, List.splitOn_eq_singleton h]
  simp [hne]

/-- The first name of a path that begins with a name: it ends where the first separator stands. -/
theorem head?_segments {name : List α} (h : sep ∉ name) (hne : name ≠ []) (rest : List α) :
    ∃ more, (segments sep (name ++ rest)).head? = some (name ++ more) ∧
      (more = [] ↔ ∀ c ∈ rest.head?, c = sep) := by
  induction rest generalizing name with
  | nil =>
      refine ⟨[], ?_, by simp⟩
      rw [List.append_nil, segments_of_notMem h hne]
      rfl
  | cons c rest ih =>
      by_cases hc : c = sep
      · subst hc
        refine ⟨[], ?_, by simp⟩
        rw [segments_append_cons, segments_of_notMem h hne, List.append_nil]
        rfl
      · have hmem : sep ∉ name ++ [c] := by
          simp [h, Ne.symm hc]
        obtain ⟨more, hmore, -⟩ := ih hmem (by simp)
        refine ⟨c :: more, ?_, by simpa using hc⟩
        rw [List.append_cons, hmore, List.append_assoc]
        rfl

/-- A text is the name that it ends in, behind a text that is empty or ends in a separator. -/
theorem eq_append_name (sep : α) (path : List α) :
    ∃ before name, path = before ++ name ∧ sep ∉ name ∧ (∀ d ∈ before.getLast?, d = sep) ∧
      ∀ rest, segments sep (path ++ rest) = segments sep before ++ segments sep (name ++ rest) := by
  induction path using List.reverseRecOn with
  | nil => exact ⟨[], [], rfl, List.not_mem_nil, by simp, by simp⟩
  | append_singleton path c ih =>
      by_cases hc : c = sep
      · subst hc
        refine ⟨path ++ [c], [], by simp, List.not_mem_nil, by simp, fun rest => ?_⟩
        rw [List.append_assoc, List.singleton_append, segments_append_cons, segments_append_cons]
        simp
      · obtain ⟨before, name, rfl, hname, hlast, hrest⟩ := ih
        refine ⟨before, name ++ [c], by simp, by simp [hname, Ne.symm hc], hlast, fun rest => ?_⟩
        rw [List.append_assoc, hrest, List.append_assoc]

/-- **Beginning and containment.** A path whose text begins with that of a directory lies under the
directory, unless the text goes on inside the directory's last name. -/
theorem under_iff_of_begins {dir path : List α} (h : dir <+: path) :
    Under sep dir path ↔ ¬ GoesOn sep dir path := by
  obtain ⟨rest, rfl⟩ := h
  obtain ⟨before, name, rfl, hname, hlast, hrest⟩ := eq_append_name sep dir
  have hdir := hrest []
  rw [List.append_nil, List.append_nil] at hdir
  rw [Under, hdir, hrest, List.prefix_append_right_inj]
  by_cases hnil : name = []
  · -- the directory is empty, or its text ends in a separator
    subst hnil
    rw [segments_nil]
    refine iff_of_true List.nil_prefix ?_
    rintro ⟨d, hd, c, more, -, hdsep, -⟩
    rw [List.append_nil] at hd
    exact hdsep (hlast d hd)
  · obtain ⟨more, hhead, hmore⟩ := head?_segments hname hnil rest
    have hd : ∀ d ∈ (before ++ name).getLast?, d ≠ sep := by
      intro d hd
      rw [List.getLast?_append_of_ne_nil _ hnil] at hd
      rintro rfl
      exact hname (List.mem_of_getLast? hd)
    have hbegins : [name] <+: segments sep (name ++ rest) ↔ more = [] := by
      cases hsegs : segments sep (name ++ rest) with
      | nil =>
          rw [hsegs] at hhead
          cases hhead
      | cons first others =>
          rw [hsegs, List.head?_cons, Option.some_inj] at hhead
          rw [List.cons_prefix_cons, hhead]
          simp
    rw [segments_of_notMem hname hnil, hbegins, hmore]
    constructor
    · rintro hall ⟨d, -, c, others, heq, -, hc⟩
      rw [List.append_cancel_left heq] at hall
      exact hc (hall c rfl)
    · intro hnot c hc
      by_contra hne
      obtain ⟨others, rfl⟩ := List.head?_eq_some_iff.mp hc
      obtain ⟨d, hdlast⟩ : ∃ d, d ∈ (before ++ name).getLast? := by
        rw [List.getLast?_append_of_ne_nil _ hnil]
        exact ⟨name.getLast hnil, List.getLast?_eq_some_getLast hnil⟩
      exact hnot ⟨d, hdlast, c, others, rfl, hd d hdlast, hne⟩

theorem goesOn_iff {dir path : List α} :
    GoesOn sep dir path ↔ dir <+: path ∧ ¬ Under sep dir path := by
  constructor
  · intro h
    have hbegins : dir <+: path := by
      obtain ⟨d, -, c, rest, rfl, -, -⟩ := h
      exact List.prefix_append _ _
    exact ⟨hbegins, fun hunder => (under_iff_of_begins hbegins).mp hunder h⟩
  · rintro ⟨hbegins, hnot⟩
    by_contra hgoes
    exact hnot ((under_iff_of_begins hbegins).mpr hgoes)

instance (dir path : List α) : Decidable (GoesOn sep dir path) :=
  decidable_of_iff (dir <+: path ∧ ¬ Under sep dir path) goesOn_iff.symm

/-- A path that goes on after the directory's text with a separator lies under the directory. -/
theorem under_append_cons (dir rest : List α) : Under sep dir (dir ++ sep :: rest) := by
  rw [Under, segments_append_cons]
  exact List.prefix_append _ _

end PathSegments
