import KhulnasoftLsp.Suggestion.Keys
import Mathlib.Data.List.DropRight

/-!
# What a request finds in the cache

The key remembers some of the non-empty lines around the cursor. `getSuggestionKey_eq_iff` says
when no other text has a say in it: `slice(-0)` remembers all the lines before the cursor. A request
that hits an entry gets those of its suggestions of which a proper part has been typed since, each
without that part (`getCachedSuggestions_spec`).
-/

namespace KhulnasoftLsp.Suggestion

open JsString SuggestionsCache

/-! ## The lines that a key remembers -/

/-- The non-empty lines before the one with the cursor. -/
def nonEmptyPrefixLines (request : SuggestionCacheContext) : List JsString :=
  request.context.prefixText.lines.dropLast.filter hasContent

/-- The non-empty lines of the text behind the cursor. -/
def nonEmptySuffixLines (request : SuggestionCacheContext) : List JsString :=
  request.context.suffix.lines.filter hasContent

/-- The white space at the beginning of the current line. -/
def indentation (request : SuggestionCacheContext) : Nat :=
  ((currentLine request.context).takeWhile isWhitespace).length

/-- Two requests agree on all that a key should remember: the place, the indentation, the last
`prefixLines` non-empty lines before the cursor and the first `suffixLines` ones behind it. -/
structure SameSurroundings (config : SuggestionsCacheOptions) (r s : SuggestionCacheContext) :
    Prop where
  uri : r.uri = s.uri
  line : r.position.line = s.position.line
  indentation : indentation r = indentation s
  before : (nonEmptyPrefixLines r).rtake config.prefixLines =
    (nonEmptyPrefixLines s).rtake config.prefixLines
  after : (nonEmptySuffixLines r).take config.suffixLines =
    (nonEmptySuffixLines s).take config.suffixLines

/-- `slice(-n)` takes the last `n`, unless `n` is zero. -/
theorem sliceLast_eq_rtake {α : Type*} {n : Nat} (hn : n ≠ 0) (l : List α) :
    sliceLast n l = l.rtake n := by
  rw [sliceLast, if_neg hn, List.rtake]

theorem sliceLast_zero {α : Type*} (l : List α) : sliceLast 0 l = l := if_pos rfl

/-- Non-empty lines can be told from the text they are joined to. -/
theorem joinLines_injective {ls ms : List JsString} (hls : ∀ l ∈ ls, l ≠ [] ∧ (0x000a : UInt16) ∉ l)
    (hms : ∀ m ∈ ms, m ≠ [] ∧ (0x000a : UInt16) ∉ m)
    (h : List.intercalate [(0x000a : UInt16)] ls = List.intercalate [0x000a] ms) : ls = ms := by
  have hsplit : ∀ ls : List JsString, (∀ l ∈ ls, l ≠ [] ∧ (0x000a : UInt16) ∉ l) → ls ≠ [] →
      (List.intercalate [(0x000a : UInt16)] ls).splitOn 0x000a = ls := by
    intro ls hls hne
    exact List.splitOn_intercalate _ (fun l hl => (hls l hl).2) hne
  have hnil : ∀ ls : List JsString, (∀ l ∈ ls, l ≠ [] ∧ (0x000a : UInt16) ∉ l) →
      List.intercalate [(0x000a : UInt16)] ls = [] → ls = [] := by
    intro ls hls hempty
    by_contra hne
    have hparts := hsplit ls hls hne
    rw [hempty, List.splitOn_nil] at hparts
    exact (hls [] (hparts ▸ List.mem_singleton_self _)).1 rfl
  by_cases hls' : ls = []
  · subst hls'
    exact (hnil ms hms h.symm).symm
  · by_cases hms' : ms = []
    · subst hms'
      exact hnil ls hls h
    · rw [← hsplit ls hls hls', h, hsplit ms hms hms']

theorem line_of_mem_filter {ls : List JsString} {s l : JsString} (hls : ∀ l ∈ ls, l ∈ s.lines)
    (hl : l ∈ ls.filter hasContent) : l ≠ [] ∧ (0x000a : UInt16) ∉ l := by
  obtain ⟨hmem, hcontent⟩ := List.mem_filter.mp hl
  constructor
  · rintro rfl
    exact absurd hcontent (by simp)
  · exact List.notMem_of_mem_splitOn (hls l hmem)

theorem nonEmptyPrefixLines_lines (request : SuggestionCacheContext) :
    ∀ l ∈ nonEmptyPrefixLines request, l ≠ [] ∧ (0x000a : UInt16) ∉ l := by
  intro l hl
  exact line_of_mem_filter (fun l hl => List.dropLast_subset _ hl) hl

theorem keyParts_eq (config : SuggestionsCacheOptions) (request : SuggestionCacheContext) :
    keyParts config request =
      { uri := ofString request.uri
        line := request.position.line
        cachedPrefixLines :=
          List.intercalate [0x000a] (sliceLast config.prefixLines (nonEmptyPrefixLines request))
        cachedSuffixLines :=
          List.intercalate [0x000a] ((nonEmptySuffixLines request).take config.suffixLines)
        indentation := indentation request } := rfl

/-- Parts that differ in the remembered lines before the cursor only have different keys. -/
theorem SuggestionKeyParts.cachedPrefixLines_eq {p q : SuggestionKeyParts} (hkey : p.key = q.key)
    (huri : p.uri = q.uri) (hline : p.line = q.line)
    (hafter : p.cachedSuffixLines = q.cachedSuffixLines)
    (hindentation : p.indentation = q.indentation) :
    p.cachedPrefixLines = q.cachedPrefixLines := by
  rw [SuggestionKeyParts.key_eq, SuggestionKeyParts.key_eq, huri, hline, hafter,
    hindentation] at hkey
  have hrest := (List.cons.inj (List.append_cancel_left hkey)).2
  exact List.append_cancel_right (List.cons.inj (List.append_cancel_left hrest)).2

/-- **When no other text has a say in a key.** The keys of two requests that agree on what it should
remember are the same, except that without `prefixLines` all their non-empty lines before the cursor
have to be. -/
theorem getSuggestionKey_eq_iff (config : SuggestionsCacheOptions) (r s : SuggestionCacheContext)
    (h : SameSurroundings config r s) :
    getSuggestionKey config r = getSuggestionKey config s ↔
      (config.prefixLines = 0 → nonEmptyPrefixLines r = nonEmptyPrefixLines s) := by
  rw [getSuggestionKey_eq, getSuggestionKey_eq]
  constructor
  · intro hkey hzero
    have hbefore := SuggestionKeyParts.cachedPrefixLines_eq hkey
      (congrArg ofString h.uri) h.line (congrArg (List.intercalate [0x000a]) h.after) h.indentation
    rw [keyParts_eq, keyParts_eq, hzero, sliceLast_zero, sliceLast_zero] at hbefore
    exact joinLines_injective (nonEmptyPrefixLines_lines r) (nonEmptyPrefixLines_lines s) hbefore
  · intro hlines
    have hslice : sliceLast config.prefixLines (nonEmptyPrefixLines r) =
        sliceLast config.prefixLines (nonEmptyPrefixLines s) := by
      by_cases hzero : config.prefixLines = 0
      · rw [hlines hzero]
      · rw [sliceLast_eq_rtake hzero, sliceLast_eq_rtake hzero, h.before]
    rw [keyParts_eq, keyParts_eq, h.uri, h.line, h.indentation, h.after, hslice]

section Sample

/-- A request with the cursor in the third line, below two non-empty ones. -/
def requestBelow (first : String) : SuggestionCacheContext :=
  sampleRequest (first ++ "\nb\n  ") "z"

/-- Only the line right before the cursor is remembered. -/
theorem getSuggestionKey_eq_of_last_line :
    getSuggestionKey sampleConfig (requestBelow "x") =
      getSuggestionKey sampleConfig (requestBelow "y") := by
  apply (getSuggestionKey_eq_iff sampleConfig _ _ _).mpr
  · intro hzero
    cases hzero
  · constructor <;> decide +kernel

/-- Without `prefixLines`, the key changes with the first line. -/
theorem getSuggestionKey_ne_of_first_line :
    ¬ ∀ (config : SuggestionsCacheOptions) (r s : SuggestionCacheContext),
      SameSurroundings config r s → getSuggestionKey config r = getSuggestionKey config s := by
  intro h
  have hsame : SameSurroundings { sampleConfig with prefixLines := 0 } (requestBelow "x")
      (requestBelow "y") := by
    constructor <;> decide +kernel
  exact absurd (h _ _ _ hsame) (by decide +kernel)

end Sample

/-! ## Suggestions that go on with what is typed -/

/-- What has been typed since behind the line `previous` is a proper part of the text, from its
beginning on. -/
def TypedProperPrefix (previous current text : JsString) : Prop :=
  ∃ typed rest, rest ≠ [] ∧ text = typed ++ rest ∧ current = previous ++ typed

/-- A suggestion goes on exactly if a proper part of it has been typed. -/
theorem continuation_eq_some_iff {current previous text rest : JsString} :
    continuation current previous text = some rest ↔
      rest ≠ [] ∧ ∃ typed, text = typed ++ rest ∧ current = previous ++ typed := by
  unfold continuation
  dsimp only
  constructor
  · intro h
    split at h
    · cases h
    next hlonger =>
      split at h
      · cases h
      next hleft =>
        split at h
        · cases h
        next hsame =>
          cases h
          rw [not_or, not_not, not_not] at hsame
          refine ⟨?_, text.take (current.length - previous.length), ?_, ?_⟩
          · rw [Ne, List.drop_eq_nil_iff]
            exact hleft
          · exact (List.take_append_drop _ text).symm
          · rw [hsame.2, ← hsame.1, List.length_take, Nat.min_eq_left (by omega)]
            exact (List.take_append_drop _ current).symm
  · rintro ⟨hrest, typed, rfl, rfl⟩
    have hpos : 0 < rest.length := List.length_pos_iff.mpr hrest
    simp
    omega

theorem typedProperPrefix_iff {previous current text : JsString} :
    TypedProperPrefix previous current text ↔ (continuation current previous text).isSome := by
  rw [Option.isSome_iff_exists]
  constructor
  · rintro ⟨typed, rest, hrest, htext, hcurrent⟩
    exact ⟨rest, continuation_eq_some_iff.mpr ⟨hrest, typed, htext, hcurrent⟩⟩
  · rintro ⟨rest, h⟩
    obtain ⟨hrest, typed, htext, hcurrent⟩ := continuation_eq_some_iff.mp h
    exact ⟨typed, rest, hrest, htext, hcurrent⟩

instance (previous current text : JsString) :
    Decidable (TypedProperPrefix previous current text) :=
  decidable_of_iff _ typedProperPrefix_iff.symm

/-- A returned option is the suggestion without what has been typed of it: behind the current line,
its text completes the line to what the suggestion makes of the cached one. -/
structure Completes (previous current : JsString) (s option : SuggestionOption) : Prop where
  nonEmpty : option.text ≠ []
  completes : current ++ option.text = previous ++ s.text
  index : option.index = s.index
  model : option.model = s.model

/-- The options that go on are those of the suggestions of which a proper part has been typed. -/
theorem continued_completes (context : IDocContext) (candidate : SuggestionCacheEntry) :
    List.Forall₂ (Completes candidate.currentLine (currentLine context))
      (candidate.suggestions.filter fun s =>
        TypedProperPrefix candidate.currentLine (currentLine context) s.text)
      (continued context candidate) := by
  unfold continued
  induction candidate.suggestions with
  | nil => exact .nil
  | cons s suggestions ih =>
      cases hs : continuation (currentLine context) candidate.currentLine s.text with
      | none =>
          rw [List.filter_cons_of_neg (by simp [typedProperPrefix_iff, hs]),
            List.filterMap_cons_none (by rw [hs]; rfl)]
          exact ih
      | some rest =>
          obtain ⟨hrest, typed, htext, hcurrent⟩ := continuation_eq_some_iff.mp hs
          rw [List.filter_cons_of_pos (by simp [typedProperPrefix_iff, hs]),
            List.filterMap_cons_some (by rw [hs]; rfl)]
          refine .cons ⟨hrest, ?_, rfl, rfl⟩ ih
          show currentLine context ++ rest = candidate.currentLine ++ s.text
          rw [hcurrent, htext, List.append_assoc]

/-- A relation that does not look at what is changed by position. -/
theorem forall₂_mapIdx {α β : Type*} {R : α → β → Prop} {as : List α} {bs : List β}
    (h : List.Forall₂ R as bs) :
    ∀ f : Nat → β → β, (∀ i a b, R a b → R a (f i b)) → List.Forall₂ R as (bs.mapIdx f) := by
  induction h with
  | nil =>
      intro f _
      exact .nil
  | cons hab _ ih =>
      intro f hf
      rw [List.mapIdx_cons]
      exact .cons (hf 0 _ _ hab) (ih _ fun i a b => hf (i + 1) a b)

/-- **What a hit returns.** In the original order, an option for each suggestion of which a proper
part has been typed, and none for the others. -/
theorem getCachedSuggestions_spec (config : SuggestionsCacheOptions) (ids : Nat → String)
    (request : SuggestionCacheContext) (cache : SuggestionsCache) (candidate : SuggestionCacheEntry)
    (h : Hits config request cache candidate) :
    ∃ options, (getCachedSuggestions config ids request cache).2 =
        some { options, additionalContexts := candidate.additionalContexts } ∧
      List.Forall₂ (Completes candidate.currentLine (currentLine request.context))
        (candidate.suggestions.filter fun s =>
          TypedProperPrefix candidate.currentLine (currentLine request.context) s.text)
        options := by
  refine ⟨(continued request.context candidate).mapIdx fun i s =>
    { s with uniqueTrackingId := ids i }, ?_, ?_⟩
  · rw [getCachedSuggestions_of_hits h]
  · apply forall₂_mapIdx (continued_completes request.context candidate)
    intro i a b hab
    exact ⟨hab.nonEmpty, hab.completes, hab.index, hab.model⟩

/-- An entry for an empty line, of which one suggestion goes on with what is typed and one does
not. -/
def sampleEntry : SuggestionCacheEntry where
  character := 0
  suggestions := [sampleOption, { sampleOption with text := ofString "two" }]
  additionalContexts := none
  currentLine := []
  timesRetrievedByPosition := .empty

/-- `do` has been typed of `done`. -/
theorem getCachedSuggestions_spec_of_typed :
    ∃ options, (getCachedSuggestions sampleConfig (fun _ => "id-1") (sampleRequest "x\ndo" "z")
        (OrderedMap.empty.set (getSuggestionKey sampleConfig (sampleRequest "x\ndo" "z"))
          sampleEntry)).2 = some { options, additionalContexts := none } ∧
      List.Forall₂ (Completes [] (ofString "do")) [sampleOption] options := by
  have hhits : Hits sampleConfig (sampleRequest "x\ndo" "z")
      (OrderedMap.empty.set (getSuggestionKey sampleConfig (sampleRequest "x\ndo" "z"))
        sampleEntry) sampleEntry := by
    refine ⟨rfl, ?_, rfl⟩
    rw [OrderedMap.get_set, if_pos rfl]
  obtain ⟨options, hreturned, hoptions⟩ :=
    getCachedSuggestions_spec sampleConfig (fun _ => "id-1") _ _ sampleEntry hhits
  refine ⟨options, hreturned, ?_⟩
  have hline : currentLine (sampleRequest "x\ndo" "z").context = ofString "do" := by
    decide +kernel
  have htyped : (sampleEntry.suggestions.filter fun s =>
      TypedProperPrefix sampleEntry.currentLine (ofString "do") s.text) = [sampleOption] := by
    decide +kernel
  rw [hline, htyped] at hoptions
  exact hoptions

end KhulnasoftLsp.Suggestion
