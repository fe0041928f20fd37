import KhulnasoftLsp.Git.RemoteParser

/-!
# The path of a remote

What the pattern of `parseKhulnaSoftRemote` takes out of a path whose segments are names: the
segments behind the path of the instance as the namespace, and the last one, less what the suffix of
the pattern consumes, as the slug.

`first_projectPath` is the lazy part at the end of the path, `first_projectPattern` the pattern
without the path of the instance, and `first_pathPattern` puts them together.
-/

namespace KhulnasoftLsp.Git

open JsString Pattern

/-! ## Names and paths -/

/-- `[a-zA-Z0-9_.-]` -/
def isNameChar (u : UInt16) : Bool := isUserChar u || u == 0x002e

/-- A name in the path of a group or of a project. A segment of one dot or of two is not a name: a
URL resolves it. -/
@[ext] structure Name where
  val : JsString
  nonempty : val ≠ []
  chars : ∀ u ∈ val, isNameChar u = true
  notDot : val ≠ ofString "."
  notDots : val ≠ ofString ".."
  deriving DecidableEq

section NameChar

variable {u v : UInt16} (hu : isNameChar u = true)

include hu

theorem ne_of_isNameChar (hv : isNameChar v = false) : u ≠ v := by
  rintro rfl
  rw [hu] at hv
  cases hv

theorem notSlash_of_isNameChar : notSlash u = true :=
  bne_iff_ne.mpr (ne_of_isNameChar hu rfl)

theorem dot_of_isNameChar : dot u = true := by
  have hne : ∀ v, isNameChar v = false → (u != v) = true := fun v hv =>
    bne_iff_ne.mpr (ne_of_isNameChar hu hv)
  rw [dot, hne _ rfl, hne _ rfl, hne _ rfl, hne _ rfl]
  rfl

end NameChar

/-- Each segment with the slash in front of it. -/
def slashed (segments : List Name) : JsString := segments.flatMap fun n => 0x002f :: n.val

/-- The segments with a slash between them. -/
def fullPath (segments : List Name) : JsString :=
  [0x002f].intercalate (segments.map Name.val)

theorem slashed_append (segments segments' : List Name) :
    slashed (segments ++ segments') = slashed segments ++ slashed segments' := List.flatMap_append

theorem slashed_cons (n : Name) (segments : List Name) :
    slashed (n :: segments) = 0x002f :: (n.val ++ slashed segments) := rfl

theorem fullPath_cons (n : Name) (segments : List Name) :
    fullPath (n :: segments) = n.val ++ slashed segments := by
  induction segments generalizing n with
  | nil =>
      rw [fullPath, List.map_singleton, List.intercalate_singleton]
      exact (List.append_nil n.val).symm
  | cons m segments ih =>
      calc fullPath (n :: m :: segments)
          = n.val ++ [0x002f] ++ fullPath (m :: segments) := List.intercalate_cons_cons
        _ = n.val ++ 0x002f :: (m.val ++ slashed segments) := by rw [ih, List.append_assoc]; rfl
        _ = n.val ++ slashed (m :: segments) := rfl

theorem slashed_eq {segments : List Name} (hne : segments ≠ []) :
    slashed segments = 0x002f :: fullPath segments := by
  obtain ⟨n, segments, rfl⟩ := List.exists_cons_of_ne_nil hne
  rw [fullPath_cons]
  rfl

theorem dot_of_mem_slashed {segments : List Name} : ∀ u ∈ slashed segments, dot u = true := by
  intro u hu
  obtain ⟨n, -, hu⟩ := List.mem_flatMap.mp hu
  rcases List.mem_cons.mp hu with rfl | hu
  · rfl
  · exact dot_of_isNameChar (n.chars u hu)

/-- The segments can be read off a path. -/
theorem fullPath_inj {segments segments' : List Name} (hne : segments ≠ [])
    (hne' : segments' ≠ []) : fullPath segments = fullPath segments' ↔ segments = segments' := by
  have hsplitOn : ∀ segments : List Name, segments ≠ [] →
      (fullPath segments).splitOn 0x002f = segments.map Name.val := by
    intro segments hne
    refine List.splitOn_intercalate _ ?_ (by simpa using hne)
    intro l hl hslash
    obtain ⟨n, -, rfl⟩ := List.mem_map.mp hl
    exact ne_of_isNameChar (n.chars _ hslash) rfl rfl
  constructor
  · intro h
    have hmap : segments.map Name.val = segments'.map Name.val := by
      rw [← hsplitOn _ hne, h, hsplitOn _ hne']
    exact List.map_injective_iff.mpr (fun n m => Name.ext) hmap
  · exact fun h => congrArg fullPath h

/-- What may be left out at the end of a path. -/
def trailingSlash (slash : Bool) : JsString := if slash then [0x002f] else []

theorem length_trailingSlash_le (slash : Bool) : (trailingSlash slash).length ≤ 1 := by
  cases slash <;> simp [trailingSlash]

/-- What is left of a slug: the suffix of the pattern is any character and `git`, and there is a
character in front of it. -/
def withoutSuffix (slug : JsString) : JsString :=
  if 5 ≤ slug.length ∧ ofString "git" <:+ slug then slug.take (slug.length - 4) else slug

theorem notSlash_of_mem (n : Name) : ∀ u ∈ n.val, notSlash u = true := fun u hu =>
  notSlash_of_isNameChar (n.chars u hu)

theorem notSlash_head?_trailingSlash (slash : Bool) :
    ∀ u ∈ (trailingSlash slash).head?, notSlash u = false := by
  cases slash with
  | false => simp [trailingSlash]
  | true => simp [trailingSlash, notSlash]

/-! ## The end of the path -/

/-- What the end of the pattern matches. -/
def IsPathEnd (text : JsString) : Prop :=
  ∃ slash, text = trailingSlash slash ∨
    ∃ c, dot c = true ∧ text = c :: (ofString "git" ++ trailingSlash slash)

theorem mem_trailingSlash {text : JsString} {r : Unit × JsString} :
    r ∈ (optional (literal (ofString "/")) >>= fun _ => atEnd) text ↔
      r = ((), []) ∧ ∃ slash, text = trailingSlash slash := by
  obtain ⟨u, rest⟩ := r
  simp only [mem_bind, mem_optional, mem_literal, mem_atEnd, Prod.mk.injEq]
  constructor
  · rintro ⟨w, behind, ⟨rfl, rfl⟩ | ⟨rfl, rfl⟩, rfl, rfl⟩
    · exact ⟨⟨trivial, rfl⟩, true, rfl⟩
    · exact ⟨⟨trivial, rfl⟩, false, rfl⟩
  · rintro ⟨⟨-, rfl⟩, slash, rfl⟩
    cases slash with
    | false => exact ⟨_, _, .inr ⟨rfl, rfl⟩, rfl, rfl⟩
    | true => exact ⟨_, [], .inl ⟨rfl, rfl⟩, rfl, rfl⟩

theorem mem_pathEnd {text : JsString} {r : Unit × JsString} :
    r ∈ pathEnd text ↔ r = ((), []) ∧ IsPathEnd text := by
  rw [pathEnd, mem_bind]
  constructor
  · rintro ⟨w, behind, hw, hr⟩
    obtain ⟨rfl, slash, rfl⟩ := mem_trailingSlash.mp hr
    rcases mem_optional.mp hw with hw | hw
    · simp only [mem_bind, mem_char, mem_literal, mem_pure] at hw
      obtain ⟨c, _, ⟨rfl, hc⟩, _, _, ⟨rfl, rfl⟩, -, rfl⟩ := hw
      exact ⟨rfl, slash, .inr ⟨c, hc, rfl⟩⟩
    · exact ⟨rfl, slash, .inl (Prod.mk.inj hw).2.symm⟩
  · rintro ⟨rfl, slash, rfl | ⟨c, hc, rfl⟩⟩
    · exact ⟨[], _, mem_optional.mpr (.inr rfl), mem_trailingSlash.mpr ⟨rfl, slash, rfl⟩⟩
    · refine ⟨c :: ofString "git", trailingSlash slash, mem_optional.mpr (.inl ?_),
        mem_trailingSlash.mpr ⟨rfl, slash, rfl⟩⟩
      simp only [mem_bind, mem_char, mem_literal, mem_pure]
      exact ⟨c, _, ⟨rfl, hc⟩, _, _, ⟨rfl, rfl⟩, rfl, rfl⟩

theorem first_pathEnd {text : JsString} (h : IsPathEnd text) :
    first pathEnd text = some ((), []) := by
  cases hfirst : first pathEnd text with
  | none => exact absurd (mem_pathEnd.mpr ⟨rfl, h⟩) (first_eq_none_iff.mp hfirst _)
  | some r => rw [(mem_pathEnd.mp (mem_of_first hfirst)).1]

theorem first_pathEnd_eq_none {text : JsString} (h : ¬ IsPathEnd text) :
    first pathEnd text = none :=
  first_eq_none_iff.mpr fun _ hr => h (mem_pathEnd.mp hr).2

/-- Letters are consumed only when they are four and the last three are `git`. -/
theorem eq_of_isPathEnd {v : JsString} {slash : Bool} (hne : v ≠ [])
    (hv : ∀ u ∈ v, notSlash u = true) (h : IsPathEnd (v ++ trailingSlash slash)) :
    ∃ c, v = c :: ofString "git" := by
  obtain ⟨u, v, rfl⟩ := List.exists_cons_of_ne_nil hne
  obtain ⟨slash', htext | ⟨c, -, htext⟩⟩ := h
  · cases slash' with
    | false => cases htext
    | true =>
        have hu := hv u List.mem_cons_self
        rw [(List.cons.inj htext).1] at hu
        cases hu
  · obtain ⟨rfl, hbehind⟩ := List.cons.inj htext
    have hgit : ∀ u ∈ ofString "git", notSlash u = true := List.all_eq_true.mp rfl
    obtain ⟨rfl, -⟩ := List.run_unique (List.forall_mem_cons.mp hv).2
      (notSlash_head?_trailingSlash slash) hgit (notSlash_head?_trailingSlash slash') hbehind
    exact ⟨u, rfl⟩

/-! ## The slug -/

theorem withoutSuffix_eq_self_iff {slug : JsString} :
    withoutSuffix slug = slug ↔ ¬ (5 ≤ slug.length ∧ ofString "git" <:+ slug) := by
  rw [withoutSuffix]
  split
  · rename_i h
    have hne : slug.take (slug.length - 4) ≠ slug := by
      intro heq
      have hlength := congrArg List.length heq
      rw [List.length_take] at hlength
      omega
    exact iff_of_false hne (not_not_intro h)
  · rename_i h
    exact iff_of_true rfl h

theorem withoutSuffix_append {front : JsString} (hne : front ≠ []) (c : UInt16) :
    withoutSuffix (front ++ c :: ofString "git") = front := by
  have hlength : (front ++ c :: ofString "git").length = front.length + 4 := by simp [ofString]
  have hpos := List.length_pos_iff.mpr hne
  have hsuffix : ofString "git" <:+ front ++ c :: ofString "git" := ⟨front ++ [c], by simp⟩
  rw [withoutSuffix, if_pos ⟨by omega, hsuffix⟩, hlength, Nat.add_sub_cancel, List.take_left]

theorem withoutSuffix_of_forall {slug : JsString}
    (h : ∀ front c, front ≠ [] → slug ≠ front ++ c :: ofString "git") :
    withoutSuffix slug = slug := by
  rw [withoutSuffix_eq_self_iff]
  rintro ⟨hlength, front, rfl⟩
  rcases List.eq_nil_or_concat front with rfl | ⟨front, c, rfl⟩
  · simp [ofString] at hlength
  · refine h front c ?_ (by simp)
    rintro rfl
    simp [ofString] at hlength

/-- The rest of the pattern behind the namespace. -/
def projectPathPattern (pathNamespace : JsString) : Pattern UInt16 (JsString × JsString) := do
  let projectPath ← lazy 1 notSlash
  let _ ← pathEnd
  return (pathNamespace, projectPath)

section ProjectPath

variable {slug : JsString} (hslug : ∀ u ∈ slug, notSlash u = true) (slash : Bool)

include hslug

/-- A slug that is cut shorter leaves letters behind. -/
theorem not_isPathEnd {w rest : JsString}
    (htext : w ++ rest = slug ++ trailingSlash slash) (hlt : w.length < slug.length)
    (hgit : ∀ c, slug ≠ w ++ c :: ofString "git") : ¬ IsPathEnd rest := by
  obtain ⟨v, rfl, rfl⟩ : ∃ v, slug = w ++ v ∧ rest = v ++ trailingSlash slash := by
    rcases List.append_eq_append_iff.mp htext with ⟨v, rfl, hrest⟩ | ⟨v, rfl, -⟩
    · exact ⟨v, rfl, hrest⟩
    · grind
  intro h
  have hne : v ≠ [] := by
    rintro rfl
    simp at hlt
  obtain ⟨c, rfl⟩ := eq_of_isPathEnd hne (fun u hu => hslug u (List.mem_append_right w hu)) h
  exact hgit c rfl

/-- **The pattern takes the slug less the suffix.** -/
theorem first_projectPathPattern (hne : slug ≠ []) (hdot : ∀ u ∈ slug, dot u = true)
    (pathNamespace : JsString) :
    first (projectPathPattern pathNamespace) (slug ++ trailingSlash slash) =
      some ((pathNamespace, withoutSuffix slug), []) := by
  have hgo : ∀ w rest : JsString,
      first (do let _ ← pathEnd; return (pathNamespace, w) : Pattern UInt16 (JsString × JsString))
        rest = (first pathEnd rest).map fun r => ((pathNamespace, w), r.2) :=
    fun w rest => first_bind_pure pathEnd (fun _ => (pathNamespace, w)) rest
  rw [projectPathPattern]
  by_cases hsuffix : ∃ front c, front ≠ [] ∧ slug = front ++ c :: ofString "git"
  · obtain ⟨front, c, hfront, rfl⟩ := hsuffix
    have hc : dot c = true := hdot c (by simp)
    have hslug' : ∀ u ∈ front, notSlash u = true := fun u hu =>
      hslug u (List.mem_append_left _ hu)
    rw [withoutSuffix_append hfront, List.append_assoc]
    refine first_lazy hslug' (List.length_pos_iff.mpr hfront) ?_ ?_
    · intro w rest htext _ hlt
      rw [← List.append_assoc] at htext
      rw [hgo, first_pathEnd_eq_none (not_isPathEnd hslug slash htext (by simp; omega) _)]
      · rfl
      · intro d heq
        have hlength := congrArg List.length heq
        simp at hlength
        omega
    · rw [hgo, List.cons_append, first_pathEnd ⟨slash, .inr ⟨c, hc, rfl⟩⟩]
      rfl
  · have hkept : ∀ front c, front ≠ [] → slug ≠ front ++ c :: ofString "git" :=
      fun front c hfront heq => hsuffix ⟨front, c, hfront, heq⟩
    rw [withoutSuffix_of_forall hkept]
    refine first_lazy hslug (List.length_pos_iff.mpr hne) ?_ ?_
    · intro w rest htext hpos hlt
      rw [hgo, first_pathEnd_eq_none (not_isPathEnd hslug slash htext hlt _)]
      · rfl
      · exact fun c => hkept w c (List.length_pos_iff.mp hpos)
    · rw [hgo, first_pathEnd ⟨slash, .inl rfl⟩]
      rfl

end ProjectPath

/-! ## The namespace -/

/-- The colon in front of a path that is skipped. -/
def leadingColon (colon : Bool) : JsString := if colon then [0x003a] else []

/-- The rest of the pattern behind the colon. -/
def namespacePattern : Pattern UInt16 (JsString × JsString) := do
  let pathNamespace ← greedy 1 dot
  let _ ← literal (ofString "/")
  projectPathPattern pathNamespace

/-- Behind the slug there is no slash but the one at the end. -/
theorem eq_nil_of_slash {slug : Name} {slash : Bool} {w rest : JsString}
    (htext : w ++ 0x002f :: rest = slug.val ++ trailingSlash slash) : rest = [] := by
  have htrailing : ∀ v : JsString, trailingSlash slash = v ++ 0x002f :: rest → rest = [] := by
    intro v hv
    have hlength := congrArg List.length hv
    have hle := length_trailingSlash_le slash
    rw [List.length_append, List.length_cons] at hlength
    exact List.length_eq_zero_iff.mp (by omega)
  rcases List.append_eq_append_iff.mp htext with ⟨v, hslug, hrest⟩ | ⟨v, rfl, hrest⟩
  · cases v with
    | nil => exact htrailing [] hrest.symm
    | cons u v =>
        have hu : notSlash u = true := notSlash_of_mem slug u (by simp [hslug])
        rw [← (List.cons.inj hrest).1] at hu
        cases hu
  · exact htrailing v hrest

/-- A namespace that is longer leaves no slug behind. -/
theorem eq_nil_of_longer {front : JsString} (slug : Name) (slash : Bool) {w rest : JsString}
    (htext : w ++ (ofString "/" ++ rest) = front ++ 0x002f :: (slug.val ++ trailingSlash slash))
    (hlt : front.length < w.length) : rest = [] := by
  rcases List.append_eq_append_iff.mp htext with ⟨v, rfl, -⟩ | ⟨v, rfl, hrest⟩
  · rw [List.length_append] at hlt
    omega
  · cases v with
    | nil => simp at hlt
    | cons u v => exact eq_nil_of_slash (List.cons.inj hrest).2.symm

/-- The namespace goes up to the last slash that has a slug behind it. -/
theorem first_namespacePattern {segments : List Name} (hne : segments ≠ []) (slug : Name)
    (slash : Bool) :
    first namespacePattern (fullPath segments ++ 0x002f :: (slug.val ++ trailingSlash slash)) =
      some ((fullPath segments, withoutSuffix slug.val), []) := by
  have hdot : ∀ u ∈ fullPath segments, dot u = true := by
    intro u hu
    have hmem : u ∈ slashed segments := by
      rw [slashed_eq hne]
      exact List.mem_cons_of_mem _ hu
    exact dot_of_mem_slashed u hmem
  have hlength : 1 ≤ (fullPath segments).length := by
    obtain ⟨n, segments, rfl⟩ := List.exists_cons_of_ne_nil hne
    have hpos := List.length_pos_iff.mpr n.nonempty
    rw [fullPath_cons, List.length_append]
    omega
  refine first_greedy hdot hlength ?_ ?_
  · intro w rest htext _ hlt
    rw [first_bind_eq_none]
    intro b behind hb
    obtain ⟨rfl, rfl⟩ := mem_literal.mp hb
    rw [eq_nil_of_longer slug slash htext hlt]
    rfl
  · have hslash := first_literal_bind (ofString "/") (slug.val ++ trailingSlash slash)
      fun _ => projectPathPattern (fullPath segments)
    exact hslash.trans (first_projectPathPattern (notSlash_of_mem slug) slash slug.nonempty
      (fun u hu => dot_of_isNameChar (slug.chars u hu)) _)

section OptionalWord

variable {word text : JsString} {Q : Pattern UInt16 (JsString × JsString)}

theorem first_optional_of_some {r : (JsString × JsString) × JsString}
    (h : first Q text = some r) :
    first (optional (literal word) >>= fun _ => Q) (word ++ text) = some r := by
  rw [first_optional_bind, first_literal_bind word text fun _ => Q, h]
  rfl

theorem first_optional_of_forall (h : ∀ rest, text = word ++ rest → first Q rest = none) :
    first (optional (literal word) >>= fun _ => Q) text = first Q text := by
  have hnone : first (literal word >>= fun _ => Q) text = none := by
    rw [first_bind_eq_none]
    intro b rest hb
    exact h rest (mem_literal.mp hb).2
  rw [first_optional_bind, hnone, Option.none_or]

end OptionalWord

/-- **Without the path of the instance, the namespace is all segments in front of the slug.** -/
theorem first_projectPattern {segments : List Name} (hne : segments ≠ []) (slug : Name)
    (slash colon : Bool) :
    first projectPattern
        (0x002f :: (leadingColon colon ++
          (fullPath segments ++ 0x002f :: (slug.val ++ trailingSlash slash)))) =
      some ((fullPath segments, withoutSuffix slug.val), []) := by
  have hnamespace := first_namespacePattern hne slug slash
  refine (first_literal_bind (ofString "/") _ _).trans ?_
  cases colon with
  | true => exact first_optional_of_some hnamespace
  | false =>
      refine (first_optional_of_forall ?_).trans hnamespace
      intro rest htext
      obtain ⟨n, segments, rfl⟩ := List.exists_cons_of_ne_nil hne
      obtain ⟨u, w, hw⟩ := List.exists_cons_of_ne_nil n.nonempty
      have hu : isNameChar u = true := n.chars u (by simp [hw])
      rw [fullPath_cons, hw] at htext
      exact absurd (List.cons.inj htext).1 (ne_of_isNameChar hu rfl)

/-! ## The path of the instance -/

theorem notSlash_head?_slashed (segments : List Name) (text : JsString) :
    ∀ u ∈ (slashed segments ++ 0x002f :: text).head?, notSlash u = false := by
  cases segments <;> simp [slashed, notSlash]

/-- A match has a second slash, and something behind it. -/
theorem exists_of_mem_projectPattern {text : JsString} {r : (JsString × JsString) × JsString}
    (h : r ∈ projectPattern text) :
    ∃ w u rest, text = 0x002f :: (w ++ 0x002f :: u :: rest) := by
  simp only [projectPattern, mem_bind, mem_literal, mem_optional, mem_greedy, mem_lazy] at h
  obtain ⟨_, _, ⟨rfl, rfl⟩, colon, _, hcolon, w, _, ⟨rfl, -, -⟩, _, _, ⟨rfl, rfl⟩, slug, rest,
    ⟨rfl, -, hlength⟩, -⟩ := h
  obtain ⟨u, slug, rfl⟩ := List.exists_cons_of_length_pos hlength
  rcases hcolon with ⟨rfl, rfl⟩ | hcolon
  · exact ⟨ofString ":" ++ w, u, slug ++ rest, rfl⟩
  · rw [← (Prod.mk.inj hcolon).2]
    exact ⟨w, u, slug ++ rest, rfl⟩

/-- Where such a match begins behind some segments of a path, there are more of them. -/
theorem exists_segments {custom segments : List Name} {slug : Name} {slash : Bool}
    {w rest : JsString} {u : UInt16}
    (h : slashed custom ++ 0x002f :: (w ++ 0x002f :: u :: rest) =
      slashed segments ++ 0x002f :: (slug.val ++ trailingSlash slash)) :
    ∃ behind, behind ≠ [] ∧ segments = custom ++ behind := by
  induction custom generalizing segments with
  | nil =>
      refine ⟨segments, ?_, rfl⟩
      rintro rfl
      have hnil := eq_nil_of_slash (List.cons.inj h).2
      cases hnil
  | cons n custom ih =>
      rw [slashed_cons, List.cons_append, List.append_assoc] at h
      cases segments with
      | nil =>
          have hbehind : (n.val ++ slashed custom) ++ 0x002f :: (w ++ 0x002f :: u :: rest) =
              slug.val ++ trailingSlash slash := by
            rw [List.append_assoc]
            exact (List.cons.inj h).2
          exact absurd (eq_nil_of_slash hbehind) (by simp)
      | cons m segments =>
          have htext : n.val ++ (slashed custom ++ 0x002f :: (w ++ 0x002f :: u :: rest)) =
              m.val ++ (slashed segments ++ 0x002f :: (slug.val ++ trailingSlash slash)) := by
            rw [slashed_cons, List.cons_append, List.append_assoc] at h
            exact (List.cons.inj h).2
          obtain ⟨hval, hrest⟩ := List.run_unique (notSlash_of_mem n)
            (notSlash_head?_slashed custom _) (notSlash_of_mem m)
            (notSlash_head?_slashed segments _) htext
          obtain ⟨behind, hne, rfl⟩ := ih hrest
          obtain rfl := Name.ext hval
          exact ⟨behind, hne, rfl⟩

/-- The segments behind the path of the instance, if it is in front of them. -/
def behindPath (custom segments : List Name) : List Name :=
  if custom <+: segments ∧ custom ≠ segments then segments.drop custom.length else segments

theorem behindPath_append (custom : List Name) {behind : List Name} (hne : behind ≠ []) :
    behindPath custom (custom ++ behind) = behind := by
  rw [behindPath, if_pos ⟨List.prefix_append custom behind, by simpa using hne⟩, List.drop_left]

theorem behindPath_of_forall {custom segments : List Name}
    (h : ∀ behind, behind ≠ [] → segments ≠ custom ++ behind) :
    behindPath custom segments = segments := by
  rw [behindPath, if_neg]
  rintro ⟨⟨behind, rfl⟩, hne⟩
  refine h behind ?_ rfl
  rintro rfl
  exact hne (List.append_nil custom).symm

theorem behindPath_ne_nil (custom : List Name) {segments : List Name} (hne : segments ≠ []) :
    behindPath custom segments ≠ [] := by
  rw [behindPath]
  split
  · rename_i hcustom
    obtain ⟨⟨behind, rfl⟩, hrest⟩ := hcustom
    rw [List.drop_left]
    rintro rfl
    exact hrest (List.append_nil custom).symm
  · exact hne

/-- **The namespace is the segments behind the path of the instance.** -/
theorem first_pathPattern (custom : List Name) {segments : List Name} (hne : segments ≠ [])
    (slug : Name) (slash : Bool) :
    first (pathPattern (slashed custom)) (slashed (segments ++ [slug]) ++ trailingSlash slash) =
      some ((fullPath (behindPath custom segments), withoutSuffix slug.val), []) := by
  have htext : slashed (segments ++ [slug]) ++ trailingSlash slash =
      slashed segments ++ 0x002f :: (slug.val ++ trailingSlash slash) := by
    simp [slashed]
  have hmatch : ∀ {behind : List Name}, behind ≠ [] →
      first projectPattern (slashed behind ++ 0x002f :: (slug.val ++ trailingSlash slash)) =
        some ((fullPath behind, withoutSuffix slug.val), []) := by
    intro behind hbehind
    rw [slashed_eq hbehind]
    exact first_projectPattern hbehind slug slash false
  rw [htext]
  by_cases hcustom : ∃ behind, behind ≠ [] ∧ segments = custom ++ behind
  · obtain ⟨behind, hbehind, rfl⟩ := hcustom
    rw [behindPath_append custom hbehind, slashed_append, List.append_assoc]
    exact first_optional_of_some (hmatch hbehind)
  · rw [behindPath_of_forall fun behind hbehind heq => hcustom ⟨behind, hbehind, heq⟩]
    refine (first_optional_of_forall ?_).trans (hmatch hne)
    intro rest hrest
    rw [first_eq_none_iff]
    intro r hr
    obtain ⟨w, u, rest, rfl⟩ := exists_of_mem_projectPattern hr
    exact hcustom (exists_segments hrest.symm)

/-- **A colon in front hides the path of the instance.** -/
theorem first_pathPattern_colon (custom : List Name) {segments : List Name} (hne : segments ≠ [])
    (slug : Name) (slash : Bool) :
    first (pathPattern (slashed custom))
        (0x002f :: 0x003a :: (fullPath (segments ++ [slug]) ++ trailingSlash slash)) =
      some ((fullPath segments, withoutSuffix slug.val), []) := by
  have htext : fullPath (segments ++ [slug]) ++ trailingSlash slash =
      fullPath segments ++ 0x002f :: (slug.val ++ trailingSlash slash) := by
    obtain ⟨n, segments, rfl⟩ := List.exists_cons_of_ne_nil hne
    rw [List.cons_append, fullPath_cons, fullPath_cons, slashed_append]
    simp [slashed]
  have hmatch := first_projectPattern hne slug slash true
  rw [htext]
  cases custom with
  | nil => exact first_optional_of_some hmatch
  | cons n custom =>
      refine (first_optional_of_forall ?_).trans hmatch
      intro rest hrest
      obtain ⟨u, w, hw⟩ := List.exists_cons_of_ne_nil n.nonempty
      have hu : isNameChar u = true := n.chars u (by simp [hw])
      rw [slashed_cons, hw] at hrest
      exact absurd (List.cons.inj (List.cons.inj hrest).2).1.symm (ne_of_isNameChar hu rfl)

end KhulnasoftLsp.Git
