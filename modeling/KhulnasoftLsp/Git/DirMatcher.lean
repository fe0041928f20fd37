import KhulnasoftLsp.Git.Registration

/-!
# The directories that a matcher finds

A `FastDirectoryMatcher` keeps one directory at each node. It agrees with a search through the list
of the directories that were added since it was disposed last, where of several with the same
segments only the one counts that was added last (`findMatchingDirectories_spec`).
-/

namespace KhulnasoftLsp.Git

open Transition

section LastAt

variable {α β κ : Type} [DecidableEq κ]

/-- The last of the values that have the key. -/
def lastAt (key : α → κ) (values : List α) (k : κ) : Option α :=
  values.reverse.find? fun a => decide (key a = k)

theorem lastAt_append_singleton (key : α → κ) (values : List α) (a : α) (k : κ) :
    lastAt key (values ++ [a]) k = if k = key a then some a else lastAt key values k := by
  unfold lastAt
  rw [List.reverse_append, List.reverse_singleton, List.singleton_append, List.find?_cons]
  by_cases h : key a = k
  · simp [h]
  · simp [h, Ne.symm h]

theorem lastAt_map (key : β → κ) (f : α → β) (values : List α) (k : κ) :
    lastAt key (values.map f) k = (lastAt (key ∘ f) values k).map f := by
  unfold lastAt
  rw [← List.map_reverse, List.find?_map]
  rfl

theorem key_eq_of_lastAt {key : α → κ} {values : List α} {k : κ} {a : α}
    (h : lastAt key values k = some a) : key a = k := by
  simpa using List.find?_some h

/-- A value is the last one at its key, if none behind it has the key. -/
theorem lastAt_key_eq_some_iff {key : α → κ} {values : List α} {a : α} :
    lastAt key values (key a) = some a ↔
      ∃ before after, values = before ++ a :: after ∧ ∀ b ∈ after, key b ≠ key a := by
  unfold lastAt
  rw [List.find?_eq_some_iff_append]
  constructor
  · rintro ⟨-, after, before, hvalues, hafter⟩
    refine ⟨before.reverse, after.reverse, ?_, ?_⟩
    · rw [← List.reverse_reverse values, hvalues]
      simp
    · intro b hb
      simpa using hafter b (List.mem_reverse.mp hb)
  · rintro ⟨before, after, rfl, hafter⟩
    refine ⟨by simp, after.reverse, before.reverse, by simp, ?_⟩
    intro b hb
    simpa using hafter b (List.mem_reverse.mp hb)

end LastAt

section Matcher

variable {URI : Type} (uris : UriPackage URI) (dirname : URI → URI)

namespace FastDirectoryMatcher

def addFileToMatch (uri : URI) (m : FastDirectoryMatcher) : Option FastDirectoryMatcher :=
  addDirectoryToMatch uris (dirname uri) m

/-- `dispose` clears the nodes and makes a new root. -/
def dispose (_ : FastDirectoryMatcher) : FastDirectoryMatcher := new

/-- A call that changes the matcher. -/
inductive MatcherAction (URI : Type) where
  | addFileToMatch (uri : URI)
  | addDirectoryToMatch (directoryUri : URI)
  | dispose
  deriving DecidableEq, Repr

def step (m : FastDirectoryMatcher) : MatcherAction URI → Option FastDirectoryMatcher
  | .addFileToMatch uri => addFileToMatch uris dirname uri m
  | .addDirectoryToMatch directoryUri => addDirectoryToMatch uris directoryUri m
  | .dispose => some m.dispose

/-! ## The list of the added directories -/

/-- What a call does to the list of the directories that were added since the last `dispose`. -/
def note (directories : List URI) : MatcherAction URI → List URI
  | .addFileToMatch uri => directories ++ [dirname uri]
  | .addDirectoryToMatch directoryUri => directories ++ [directoryUri]
  | .dispose => []

/-- The directories that were added since the last `dispose`, in their order. -/
def addedDirectories (actions : List (MatcherAction URI)) : List URI :=
  actions.foldl (note dirname) []

/-- The segments of a URI, whose string can be decoded. -/
def segmentsOf (uri : URI) : List Segment := (splitPath (uris.toString uri)).getD []

/-- The directory was added, and none with the same segments was added after it. -/
def AddedLast (directories : List URI) (directoryUri : URI) : Prop :=
  ∃ before after, directories = before ++ directoryUri :: after ∧
    ∀ other ∈ after, segmentsOf uris other ≠ segmentsOf uris directoryUri

variable {uris dirname}

theorem splitPath_eq (hlawful : uris.Lawful) (uri : URI) :
    splitPath (uris.toString uri) = some (segmentsOf uris uri) := by
  obtain ⟨segments, hsegments, -⟩ := hlawful.splitPath uri
  rw [segmentsOf, hsegments]
  rfl

theorem segmentsOf_ne_nil (hlawful : uris.Lawful) (uri : URI) : segmentsOf uris uri ≠ [] := by
  obtain ⟨segments, hsegments, hne⟩ := hlawful.splitPath uri
  rw [segmentsOf, hsegments]
  exact hne

theorem toString_ne_empty (hlawful : uris.Lawful) (uri : URI) : uris.toString uri ≠ "" := by
  intro hempty
  apply segmentsOf_ne_nil hlawful uri
  rw [segmentsOf, hempty]
  rfl

/-! ## The matcher represents the list -/

variable (uris) in
/-- At the end of each path, the matcher keeps the directory with these segments that was added
last. -/
def Represents (m : FastDirectoryMatcher) (directories : List URI) : Prop :=
  ∀ path, m.get path = (lastAt (segmentsOf uris) directories path).map uris.toString

theorem represents_new : Represents uris new [] := by
  intro path
  rw [new, Trie.get_empty]
  rfl

theorem addDirectoryToMatch_eq (hlawful : uris.Lawful) (directoryUri : URI)
    (m : FastDirectoryMatcher) :
    addDirectoryToMatch uris directoryUri m =
      some (m.insert (segmentsOf uris directoryUri) (uris.toString directoryUri)) := by
  rw [addDirectoryToMatch, splitPath_eq hlawful, Option.map_some]

theorem Represents.insert {m : FastDirectoryMatcher} {directories : List URI}
    (h : Represents uris m directories) (directoryUri : URI) :
    Represents uris (m.insert (segmentsOf uris directoryUri) (uris.toString directoryUri))
      (directories ++ [directoryUri]) := by
  intro path
  rw [Trie.get_insert, lastAt_append_singleton, h]
  split <;> rfl

variable (dirname) in
theorem Represents.step (hlawful : uris.Lawful) {m : FastDirectoryMatcher}
    {directories : List URI} (h : Represents uris m directories) (a : MatcherAction URI) :
    ∃ m', step uris dirname m a = some m' ∧ Represents uris m' (note dirname directories a) := by
  cases a with
  | addFileToMatch uri =>
      exact ⟨_, addDirectoryToMatch_eq hlawful _ m, h.insert (dirname uri)⟩
  | addDirectoryToMatch directoryUri =>
      exact ⟨_, addDirectoryToMatch_eq hlawful _ m, h.insert directoryUri⟩
  | dispose => exact ⟨new, rfl, represents_new⟩

variable (dirname) in
/-- No call throws, and the matcher represents the list after all of them. -/
theorem exists_run_represents (hlawful : uris.Lawful) (actions : List (MatcherAction URI)) :
    ∃ m, run (FastDirectoryMatcher.step uris dirname) new actions = some m ∧
      Represents uris m (addedDirectories dirname actions) := by
  apply exists_run (I := fun actions m => Represents uris m (addedDirectories dirname actions))
  · exact represents_new
  · intro actions m a hm
    unfold addedDirectories
    rw [List.foldl_append]
    exact hm.step dirname hlawful a

/-- **What a represented list finds**: for each beginning of the path, from the shortest to the
longest, the directory with these segments that was added last. -/
theorem Represents.findMatchingDirectories_eq (hlawful : uris.Lawful) {m : FastDirectoryMatcher}
    {directories : List URI} (h : Represents uris m directories) (uri : URI) :
    findMatchingDirectories uris uri m = some
      ((segmentsOf uris uri).inits.tail.filterMap (lastAt (segmentsOf uris) directories)) := by
  rw [findMatchingDirectories, splitPath_eq hlawful, Option.map_some, Trie.walk_eq]
  congr 1
  rw [List.filter_filterMap, List.map_filterMap]
  congr 1
  funext path
  rw [h path]
  cases lastAt (segmentsOf uris) directories path with
  | none => rfl
  | some directoryUri =>
      simp [hlawful.parse_toString, toString_ne_empty hlawful directoryUri]

end FastDirectoryMatcher

open FastDirectoryMatcher

/-- **What the matcher finds.** After any calls, a query is answered with the directories whose
segments the query begins with, the shortest first, of all that were added since the last `dispose`.
Of those with the same segments, it is the one that was added last. -/
theorem findMatchingDirectories_spec (hlawful : uris.Lawful)
    (actions : List (MatcherAction URI)) (uri : URI) :
    ∃ m result, run (step uris dirname) new actions = some m ∧
      findMatchingDirectories uris uri m = some result ∧
      (∀ directoryUri, directoryUri ∈ result ↔
        AddedLast uris (addedDirectories dirname actions) directoryUri ∧
          segmentsOf uris directoryUri <+: segmentsOf uris uri) ∧
      result.Pairwise fun d d' => (segmentsOf uris d).length < (segmentsOf uris d').length := by
  obtain ⟨m, hrun, hm⟩ := exists_run_represents dirname hlawful actions
  refine ⟨m, _, hrun, hm.findMatchingDirectories_eq hlawful uri, ?_, ?_⟩
  · intro directoryUri
    rw [List.mem_filterMap]
    constructor
    · rintro ⟨path, hpath, hlast⟩
      obtain rfl := key_eq_of_lastAt hlast
      exact ⟨lastAt_key_eq_some_iff.mp hlast, (Trie.mem_tail_inits.mp hpath).1⟩
    · rintro ⟨hlast, hbegins⟩
      refine ⟨segmentsOf uris directoryUri, ?_, lastAt_key_eq_some_iff.mpr hlast⟩
      exact Trie.mem_tail_inits.mpr ⟨hbegins, segmentsOf_ne_nil hlawful directoryUri⟩
  · apply List.Pairwise.filterMap _ _ (Trie.pairwise_inits (segmentsOf uris uri)).tail
    intro path path' hlt d hd d' hd'
    rw [key_eq_of_lastAt hd, key_eq_of_lastAt hd']
    exact hlt

end Matcher

/-! ## A directory with and without a slash at its end -/

section SampleDirectories

/-- A folder with a gitignore file, and one in it that is added with two different URIs. -/
inductive SampleDirectory where
  | work
  | workGitignore
  | src
  | srcSlash
  | srcFile
  | srcsFile
  deriving DecidableEq, Repr

namespace SampleDirectory

def print : SampleDirectory → String
  | work => "file:///work"
  | workGitignore => "file:///work/.gitignore"
  | src => "file:///work/src"
  | srcSlash => "file:///work/src/"
  | srcFile => "file:///work/src/a.ts"
  | srcsFile => "file:///work/srcs/a.ts"

def parse (s : String) : SampleDirectory :=
  ([work, workGitignore, src, srcSlash, srcFile, srcsFile].find? fun uri =>
    uri.print == s).getD work

def dirname : SampleDirectory → SampleDirectory
  | srcFile => src
  | _ => work

end SampleDirectory

def sampleDirectories : UriPackage SampleDirectory where
  toString := SampleDirectory.print
  parse := SampleDirectory.parse
  resolvePath uri _ := uri.dirname.dirname

theorem sampleDirectories_lawful : sampleDirectories.Lawful := by
  apply UriPackage.Lawful.of_any
  · intro uri
    cases uri <;> decide +kernel
  · intro uri
    cases uri <;> decide +kernel

open FastDirectoryMatcher

/-- A directory that was added again after the last `dispose`, and the one of a file. -/
def addedAgain : List (MatcherAction SampleDirectory) :=
  [.addDirectoryToMatch .srcSlash, .dispose, .addDirectoryToMatch .src,
    .addFileToMatch .workGitignore]

/-- What was added before the last `dispose` is not found. -/
theorem findMatchingDirectories_spec_of_nested :
    ∃ m result,
      run (step sampleDirectories SampleDirectory.dirname) new addedAgain = some m ∧
      findMatchingDirectories sampleDirectories .srcFile m = some result ∧
      .work ∈ result ∧ .srcSlash ∉ result := by
  obtain ⟨m, result, hrun, hresult, hmem, -⟩ := findMatchingDirectories_spec sampleDirectories
    SampleDirectory.dirname sampleDirectories_lawful addedAgain .srcFile
  have hadded : addedDirectories SampleDirectory.dirname addedAgain = [.src, .work] := rfl
  rw [hadded] at hmem
  refine ⟨m, result, hrun, hresult, ?_, ?_⟩
  · rw [hmem]
    refine ⟨⟨[.src], [], rfl, by simp⟩, ?_⟩
    decide +kernel
  · rw [hmem]
    rintro ⟨⟨before, after, hsplit, -⟩, -⟩
    have hnew : SampleDirectory.srcSlash ∈ [SampleDirectory.src, .work] := by
      rw [hsplit]
      simp
    exact absurd hnew (by decide)

/-- Of a directory that is added with a slash at its end and without one, only the URI that was
added last is found. -/
theorem not_found_of_same_segments :
    ¬ ∀ (actions : List (MatcherAction SampleDirectory)) (uri : SampleDirectory)
        (m : FastDirectoryMatcher) (result : List SampleDirectory),
      run (step sampleDirectories SampleDirectory.dirname) new actions = some m →
      findMatchingDirectories sampleDirectories uri m = some result →
      ∀ directoryUri, directoryUri ∈ result ↔
        directoryUri ∈ addedDirectories SampleDirectory.dirname actions ∧
          segmentsOf sampleDirectories directoryUri <+: segmentsOf sampleDirectories uri := by
  intro h
  obtain ⟨m, hm⟩ : ∃ m, run (step sampleDirectories SampleDirectory.dirname) new
      [.addDirectoryToMatch .srcSlash, .addDirectoryToMatch .src] = some m := ⟨_, rfl⟩
  have hresult : ∀ m ∈ run (step sampleDirectories SampleDirectory.dirname) new
      [.addDirectoryToMatch .srcSlash, .addDirectoryToMatch .src],
      findMatchingDirectories sampleDirectories .srcFile m = some [.src] := by
    decide +kernel
  have hslash := (h _ .srcFile m _ hm (hresult m hm) .srcSlash).mpr (by decide +kernel)
  exact absurd hslash (by decide)

end SampleDirectories

end KhulnasoftLsp.Git
