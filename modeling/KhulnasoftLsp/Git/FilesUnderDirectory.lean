import KhulnasoftLsp.Git.Repository

/-!
# Removing the files under a directory

When a directory is deleted, `removeFilesUnderDirectory` removes from its repository all files and
directories whose URI *begins* with the text of the directory's URI. A sibling `src-old` begins
with `src` and goes with it. `removesExactlyUnder_iff` says for which stored files and directories
that text cannot be told from the directory.
-/

namespace KhulnasoftLsp.Git

open Transition PathSegments

namespace Repository

theorem startsWith_iff {directoryPath uri : String} :
    startsWith directoryPath uri = true ↔ directoryPath.toList <+: uri.toList := by
  rw [startsWith, List.isPrefixOf_iff_prefix]

/-- The files that lie under the directory are removed and returned, the directories that lie under
it or are it are removed, and all else is as it was. -/
structure RemovesExactlyUnder (directoryUri : String) (r : Repository) : Prop where
  files : ∀ uri, (r.removeFilesUnderDirectory directoryUri).1.files.get uri =
    if ProperlyUnderUri directoryUri uri then none else r.files.get uri
  directories : ∀ uri, (r.removeFilesUnderDirectory directoryUri).1.directories.get uri =
    if UnderUri directoryUri uri then none else r.directories.get uri
  returned : (r.removeFilesUnderDirectory directoryUri).2 =
    (r.files.entries.filter fun e => ProperlyUnderUri directoryUri e.1).map Prod.snd
  unchanged : (r.removeFilesUnderDirectory directoryUri).1 = { r with
    files := (r.removeFilesUnderDirectory directoryUri).1.files
    directories := (r.removeFilesUnderDirectory directoryUri).1.directories }

/-- No stored URI goes on inside the directory's last name; those of files do not name the
directory itself; and what lies under the directory is spelled with its text. -/
structure ToldApart (directoryUri : String) (r : Repository) : Prop where
  files : ∀ e ∈ r.files.entries, ¬ GoesOn '/' directoryUri.toList e.1.toList
  notDirectory : ∀ e ∈ r.files.entries, startsWith directoryUri e.1 = true →
    segments '/' e.1.toList ≠ segments '/' directoryUri.toList
  filesSpelled : ∀ e ∈ r.files.entries, ProperlyUnderUri directoryUri e.1 →
    startsWith directoryUri e.1 = true
  directories : ∀ e ∈ r.directories.entries, ¬ GoesOn '/' directoryUri.toList e.1.toList
  directoriesSpelled : ∀ e ∈ r.directories.entries, UnderUri directoryUri e.1 →
    startsWith directoryUri e.1 = true

instance (directoryUri : String) (r : Repository) : Decidable (ToldApart directoryUri r) :=
  decidable_of_iff
    ((∀ e ∈ r.files.entries, ¬ GoesOn '/' directoryUri.toList e.1.toList) ∧
      (∀ e ∈ r.files.entries, startsWith directoryUri e.1 = true →
        segments '/' e.1.toList ≠ segments '/' directoryUri.toList) ∧
      (∀ e ∈ r.files.entries, ProperlyUnderUri directoryUri e.1 →
        startsWith directoryUri e.1 = true) ∧
      (∀ e ∈ r.directories.entries, ¬ GoesOn '/' directoryUri.toList e.1.toList) ∧
      ∀ e ∈ r.directories.entries, UnderUri directoryUri e.1 → startsWith directoryUri e.1 = true)
    ⟨fun ⟨h1, h2, h3, h4, h5⟩ => ⟨h1, h2, h3, h4, h5⟩,
      fun h => ⟨h.files, h.notDirectory, h.filesSpelled, h.directories, h.directoriesSpelled⟩⟩

/-! ## What is removed -/

/-- The stored files and directories whose URI begins with the directory's text are removed. -/
theorem get_removeFilesUnderDirectory {r : Repository} (hr : Keyed r) (directoryUri uri : String) :
    (r.removeFilesUnderDirectory directoryUri).1.files.get uri =
      (if startsWith directoryUri uri then none else r.files.get uri) ∧
    (r.removeFilesUnderDirectory directoryUri).1.directories.get uri =
      if startsWith directoryUri uri then none else r.directories.get uri := by
  constructor
  · have hkeys : ∀ e ∈ r.files.entries, e.2.uri = e.1 := by
      intro e he
      exact hr e.1 e.2 (OrderedMap.get_eq_some_iff.mpr he)
    have huris : (((r.files.entries.filter fun e => startsWith directoryUri e.1).map
        Prod.snd).map RepositoryFile.uri) =
          (r.files.entries.map Prod.fst).filter (startsWith directoryUri) := by
      rw [List.map_map, List.filter_map]
      apply List.map_congr_left
      intro e he
      exact hkeys e (List.mem_of_mem_filter he)
    exact OrderedMap.get_foldl_delete_of_filter huris uri
  · exact OrderedMap.get_foldl_delete_of_filter (List.map_id _) uri

theorem startsWith_iff_underUri {directoryUri uri : String}
    (h : startsWith directoryUri uri = true) :
    UnderUri directoryUri uri ↔ ¬ GoesOn '/' directoryUri.toList uri.toList :=
  under_iff_of_begins (startsWith_iff.mp h)

/-- Which stored file or directory is treated as it should be. -/
theorem file_told_apart {directoryUri uri : String} :
    (startsWith directoryUri uri = true ↔ ProperlyUnderUri directoryUri uri) ↔
      ¬ GoesOn '/' directoryUri.toList uri.toList ∧
      (startsWith directoryUri uri = true →
        segments '/' uri.toList ≠ segments '/' directoryUri.toList) ∧
      (ProperlyUnderUri directoryUri uri → startsWith directoryUri uri = true) := by
  constructor
  · intro h
    refine ⟨?_, fun hs => (h.mp hs).2, h.mpr⟩
    intro hgoes
    obtain ⟨hbegins, hnot⟩ := goesOn_iff.mp hgoes
    exact hnot (h.mp (startsWith_iff.mpr hbegins)).1
  · rintro ⟨hgoes, hne, hspelled⟩
    refine ⟨fun hs => ⟨?_, hne hs⟩, hspelled⟩
    exact (startsWith_iff_underUri hs).mpr hgoes

theorem directory_told_apart {directoryUri uri : String} :
    (startsWith directoryUri uri = true ↔ UnderUri directoryUri uri) ↔
      ¬ GoesOn '/' directoryUri.toList uri.toList ∧
      (UnderUri directoryUri uri → startsWith directoryUri uri = true) := by
  constructor
  · intro h
    refine ⟨?_, h.mpr⟩
    intro hgoes
    obtain ⟨hbegins, hnot⟩ := goesOn_iff.mp hgoes
    exact hnot (h.mp (startsWith_iff.mpr hbegins))
  · rintro ⟨hgoes, hspelled⟩
    exact ⟨fun hs => (startsWith_iff_underUri hs).mpr hgoes, hspelled⟩

/-- The condition, file by file and directory by directory. -/
theorem toldApart_iff {directoryUri : String} {r : Repository} :
    ToldApart directoryUri r ↔
      (∀ e ∈ r.files.entries,
        (startsWith directoryUri e.1 = true ↔ ProperlyUnderUri directoryUri e.1)) ∧
      ∀ e ∈ r.directories.entries,
        (startsWith directoryUri e.1 = true ↔ UnderUri directoryUri e.1) := by
  simp only [file_told_apart, directory_told_apart]
  constructor
  · intro h
    exact ⟨fun e he => ⟨h.files e he, h.notDirectory e he, h.filesSpelled e he⟩,
      fun e he => ⟨h.directories e he, h.directoriesSpelled e he⟩⟩
  · rintro ⟨hfiles, hdirectories⟩
    exact ⟨fun e he => (hfiles e he).1, fun e he => (hfiles e he).2.1,
      fun e he => (hfiles e he).2.2, fun e he => (hdirectories e he).1,
      fun e he => (hdirectories e he).2⟩

/-- A map from which one kind of keys is removed, where another kind was meant. -/
theorem forall_removed_iff {ν : Type} {m : OrderedMap String ν} {p : String → Bool}
    {q : String → Prop} [DecidablePred q] :
    (∀ uri, (if p uri then none else m.get uri) = if q uri then none else m.get uri) ↔
      ∀ e ∈ m.entries, (p e.1 = true ↔ q e.1) := by
  constructor
  · intro h e he
    have hget := h e.1
    rw [OrderedMap.get_eq_some_iff.mpr he] at hget
    grind
  · intro h uri
    cases hget : m.get uri with
    | none => simp
    | some v =>
        have hpq := h (uri, v) (OrderedMap.get_eq_some_iff.mp hget)
        simp only [hpq]

/-- **What the removal keeps of its contract.** In every state that a run of a repository reaches,
the files under a directory are removed, and they alone, if and only if the stored URIs can be told
apart by the directory's text. -/
theorem removesExactlyUnder_iff (env : Environment) (workspaceFolder : WorkspaceFolder)
    (uri configFileUri : String) (as : List Action) (r : Repository)
    (hrun : run (step env) (new workspaceFolder uri configFileUri) as = some r)
    (directoryUri : String) :
    RemovesExactlyUnder directoryUri r ↔ ToldApart directoryUri r := by
  have hkeyed : Keyed r := by
    apply run_invariant (I := Keyed) (fun s a t hs ht => hs.step env ht) _ hrun
    rintro uri file ⟨⟩
  have hfiles := fun uri => (get_removeFilesUnderDirectory hkeyed directoryUri uri).1
  have hdirectories := fun uri => (get_removeFilesUnderDirectory hkeyed directoryUri uri).2
  rw [toldApart_iff]
  constructor
  · intro h
    constructor
    · apply forall_removed_iff.mp
      intro uri
      rw [← hfiles, h.files]
    · apply forall_removed_iff.mp
      intro uri
      rw [← hdirectories, h.directories]
  · rintro ⟨htold, htoldDirectories⟩
    refine ⟨?_, ?_, ?_, rfl⟩
    · intro uri
      rw [hfiles]
      exact forall_removed_iff.mpr htold uri
    · intro uri
      rw [hdirectories]
      exact forall_removed_iff.mpr htoldDirectories uri
    · show (r.files.entries.filter fun e => startsWith directoryUri e.1).map Prod.snd = _
      congr 1
      apply List.filter_congr
      intro e he
      rw [Bool.eq_iff_iff, htold e he, decide_eq_true_iff]

/-- The directory `src` is removed, with a file and a directory in it, beside a file `lib`. -/
theorem removesExactlyUnder_of_src :
    ∃ r, run (step sampleEnvironment) sampleRepository
      [.setFile "file:///repo/src/a.ts", .setFile "file:///repo/lib/a.ts",
        .setDirectory "file:///repo/src", .setDirectory "file:///repo/src/x"] = some r ∧
      RemovesExactlyUnder "file:///repo/src" r := by
  obtain ⟨r, hr⟩ : ∃ r, run (step sampleEnvironment) sampleRepository
      [.setFile "file:///repo/src/a.ts", .setFile "file:///repo/lib/a.ts",
        .setDirectory "file:///repo/src", .setDirectory "file:///repo/src/x"] = some r :=
    Option.isSome_iff_exists.mp (by decide +kernel)
  refine ⟨r, hr, ?_⟩
  apply (removesExactlyUnder_iff sampleEnvironment ⟨"file:///repo", "repo"⟩ "file:///repo"
    "file:///repo/.git/config" _ r hr "file:///repo/src").mpr
  have htold : ∀ r ∈ run (step sampleEnvironment) sampleRepository
      [.setFile "file:///repo/src/a.ts", .setFile "file:///repo/lib/a.ts",
        .setDirectory "file:///repo/src", .setDirectory "file:///repo/src/x"],
      ToldApart "file:///repo/src" r := by
    decide +kernel
  exact htold r hr

/-- With the directory `src`, a file of its sibling `src-old` is removed. -/
theorem not_removesExactlyUnder_of_sibling :
    ∃ r, run (step sampleEnvironment) sampleRepository
      [.setFile "file:///repo/src/a.ts", .setFile "file:///repo/src-old/a.ts"] = some r ∧
      ¬ RemovesExactlyUnder "file:///repo/src" r := by
  obtain ⟨r, hr⟩ : ∃ r, run (step sampleEnvironment) sampleRepository
      [.setFile "file:///repo/src/a.ts", .setFile "file:///repo/src-old/a.ts"] = some r :=
    Option.isSome_iff_exists.mp (by decide +kernel)
  refine ⟨r, hr, fun h => ?_⟩
  have hlost : ∀ r ∈ run (step sampleEnvironment) sampleRepository
      [.setFile "file:///repo/src/a.ts", .setFile "file:///repo/src-old/a.ts"],
      (r.files.get "file:///repo/src-old/a.ts").isSome ∧
      ¬ ((r.removeFilesUnderDirectory "file:///repo/src").1.files.get
        "file:///repo/src-old/a.ts").isSome ∧
      ¬ ProperlyUnderUri "file:///repo/src" "file:///repo/src-old/a.ts" := by
    decide +kernel
  obtain ⟨hstored, hremoved, hunder⟩ := hlost r hr
  have hkept := h.files "file:///repo/src-old/a.ts"
  rw [if_neg hunder] at hkept
  rw [hkept] at hremoved
  exact hremoved hstored

end Repository
end KhulnasoftLsp.Git
