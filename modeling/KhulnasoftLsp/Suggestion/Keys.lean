import KhulnasoftLsp.Buffers
import KhulnasoftLsp.Suggestion.Cache

/-!
# The keys of the suggestions cache

The key of a request joins five parts with colons, and the text around the cursor may have colons
of its own. `key_injective_at_iff` says which requests share their key with no other one, and
`served_own_entries` that a lookup for such a request is only ever answered with what has been added
for the same parts.
-/

namespace KhulnasoftLsp.Suggestion

open JsString Transition

/-- What `#getSuggestionKey` joins. -/
structure SuggestionKeyParts where
  uri : JsString
  line : Nat
  cachedPrefixLines : JsString
  cachedSuffixLines : JsString
  indentation : Nat
  deriving DecidableEq, Repr

/-- `:` -/
def colon : UInt16 := 0x003a

/-- A number as it stands in a template or in `join`. -/
def numeral (n : Nat) : JsString := ofString (toString n)

namespace SuggestionKeyParts

/-- `[...].join(':')` -/
def key (p : SuggestionKeyParts) : JsString :=
  List.intercalate [colon]
    [p.uri, numeral p.line, p.cachedPrefixLines, p.cachedSuffixLines, numeral p.indentation]

/-- No other parts have the same key: the remembered lines have no colon, and no part of the uri
between two colons, or after the last one, could be taken for the line. -/
def Unambiguous (p : SuggestionKeyParts) : Prop :=
  colon ∉ p.cachedPrefixLines ∧ colon ∉ p.cachedSuffixLines ∧
    ∀ n, numeral n ∉ (p.uri.splitOn colon).tail

end SuggestionKeyParts

/-- The parts for a request under the current configuration. -/
def keyParts (config : SuggestionsCacheOptions) (ctx : SuggestionCacheContext) :
    SuggestionKeyParts where
  uri := ofString ctx.uri
  line := ctx.position.line
  cachedPrefixLines := List.intercalate [0x000a] (sliceLast config.prefixLines
    (ctx.context.prefixText.lines.dropLast.filter JsString.hasContent))
  cachedSuffixLines := List.intercalate [0x000a]
    ((ctx.context.suffix.lines.filter JsString.hasContent).take config.suffixLines)
  indentation := ((currentLine ctx.context).takeWhile JsString.isWhitespace).length

theorem getSuggestionKey_eq (config : SuggestionsCacheOptions) (ctx : SuggestionCacheContext) :
    SuggestionsCache.getSuggestionKey config ctx = (keyParts config ctx).key := rfl

/-! ## Numerals -/

theorem toNat_of_colon_mem_units {c : Char} (h : colon ∈ units c) : c.toNat = 0x3a := by
  have hlt := Utf8.Decoder.toNat_lt c
  rw [units] at h
  split at h
  · next hone =>
    have hunit := congrArg UInt16.toNat (List.mem_singleton.mp h)
    rw [toNat_ofNat_of_lt hone] at hunit
    exact hunit.symm
  · next htwo =>
    exfalso
    obtain hunit | hmem := List.mem_cons.mp h
    · have hunit := congrArg UInt16.toNat hunit
      rw [toNat_ofNat_of_lt (by omega), show colon.toNat = 0x3a from rfl] at hunit
      omega
    · have hunit := congrArg UInt16.toNat (List.mem_singleton.mp hmem)
      rw [toNat_ofNat_of_lt (by omega), show colon.toNat = 0x3a from rfl] at hunit
      omega

theorem numeral_eq (n : Nat) : numeral n = ofChars (Nat.toDigits 10 n) := by
  rw [numeral, ofString_eq, Nat.toString_eq_ofList_toDigits, String.toList_ofList]

theorem colon_notMem_numeral (n : Nat) : colon ∉ numeral n := by
  rw [numeral_eq, ofChars, List.mem_flatMap]
  intro hmem
  obtain ⟨c, hc, hcolon⟩ := hmem
  have hdigit : c.isDigit = true := Nat.isDigit_of_mem_toDigits (by omega) (by omega) hc
  obtain rfl : c = ':' := Char.toNat_inj.mp (toNat_of_colon_mem_units hcolon)
  exact absurd hdigit (by decide)

theorem numeral_injective : Function.Injective numeral := by
  intro m n h
  rw [numeral_eq, numeral_eq] at h
  have hdigits := congrArg (Nat.ofDigitChars 10 · 0) (ofChars_injective h)
  simpa using hdigits

/-! ## What a key is split into -/

namespace SuggestionKeyParts

theorem key_eq (p : SuggestionKeyParts) :
    p.key = p.uri ++ colon :: (numeral p.line ++ colon :: (p.cachedPrefixLines ++
      colon :: (p.cachedSuffixLines ++ colon :: numeral p.indentation))) := by
  simp [key, List.intercalate_cons_cons]

theorem splitOn_key (p : SuggestionKeyParts) :
    p.key.splitOn colon = p.uri.splitOn colon ++ numeral p.line ::
      (p.cachedPrefixLines.splitOn colon ++ (p.cachedSuffixLines.splitOn colon ++
        [numeral p.indentation])) := by
  rw [key_eq, List.splitOn_append_cons_self,
    List.splitOn_append_cons_self_of_not_mem (colon_notMem_numeral _),
    List.splitOn_append_cons_self, List.splitOn_append_cons_self,
    List.splitOn_eq_singleton (colon_notMem_numeral _)]

theorem eq_of_splitOn_eq {s t : JsString} (h : s.splitOn colon = t.splitOn colon) : s = t := by
  calc s = [colon].intercalate (s.splitOn colon) := (List.intercalate_splitOn colon).symm
    _ = [colon].intercalate (t.splitOn colon) := by rw [h]
    _ = t := List.intercalate_splitOn colon

/-- Where the parts between the colons of one key are read as the parts of another request, the
line of that request is one of them. -/
theorem eq_or_numeral_mem {us vs ps qs : List JsString} {l m a b i j : JsString}
    (hvs : vs ≠ []) (hps : ps ≠ []) (hqs : qs ≠ [])
    (h : us ++ l :: ([a] ++ ([b] ++ [i])) = vs ++ m :: (ps ++ (qs ++ [j]))) :
    (us = vs ∧ l = m ∧ [a] = ps ∧ [b] = qs ∧ i = j) ∨ m ∈ us.tail := by
  have hlength := congrArg List.length h
  simp only [List.length_append, List.length_cons, List.length_nil] at hlength
  have hvs' := List.length_pos_iff.mpr hvs
  have hps' := List.length_pos_iff.mpr hps
  have hqs' := List.length_pos_iff.mpr hqs
  by_cases hshort : vs.length = us.length
  · left
    obtain ⟨huri, hrest⟩ := List.append_inj h hshort.symm
    obtain ⟨hline, hlines⟩ := List.cons_eq_cons.mp hrest
    obtain ⟨hbefore, hlast⟩ := List.append_inj hlines (by rw [List.length_singleton]; omega)
    obtain ⟨hafter, hindentation⟩ := List.append_inj hlast (by rw [List.length_singleton]; omega)
    exact ⟨huri, hline, hbefore, hafter, List.singleton_inj.mp hindentation⟩
  · right
    have hlt : vs.length < us.length := by omega
    have hget := congrArg (fun l => l[vs.length]?) h
    simp only [List.getElem?_append_left hlt, List.getElem?_append_right le_rfl, Nat.sub_self,
      List.getElem?_cons_zero] at hget
    cases us with
    | nil => simp at hlt
    | cons u us =>
      rw [show vs.length = vs.length - 1 + 1 by omega, List.getElem?_cons_succ] at hget
      exact List.mem_of_getElem? hget

theorem eq_of_key_eq {p q : SuggestionKeyParts} (hp : p.Unambiguous) (h : q.key = p.key) :
    q = p := by
  obtain ⟨hbefore, hafter, hline⟩ := hp
  have hparts := congrArg (List.splitOn colon) h.symm
  rw [splitOn_key, splitOn_key, List.splitOn_eq_singleton hbefore,
    List.splitOn_eq_singleton hafter] at hparts
  obtain ⟨huri, hl, hbefores, hafters, hi⟩ | hmem := eq_or_numeral_mem
    (List.splitOn_ne_nil _ _) (List.splitOn_ne_nil _ _) (List.splitOn_ne_nil _ _) hparts
  · rw [← List.splitOn_eq_singleton hbefore] at hbefores
    rw [← List.splitOn_eq_singleton hafter] at hafters
    cases p
    cases q
    rw [SuggestionKeyParts.mk.injEq]
    refine ⟨?_, ?_, ?_, ?_, ?_⟩
    · exact (eq_of_splitOn_eq huri).symm
    · exact (numeral_injective hl).symm
    · exact (eq_of_splitOn_eq hbefores).symm
    · exact (eq_of_splitOn_eq hafters).symm
    · exact (numeral_injective hi).symm
  · exact absurd hmem (hline _)

theorem intercalate_append (us vs : List JsString) (hus : us ≠ []) (hvs : vs ≠ []) :
    List.intercalate [colon] (us ++ vs) =
      List.intercalate [colon] us ++ colon :: List.intercalate [colon] vs := by
  induction us with
  | nil => exact absurd rfl hus
  | cons u us ih =>
    cases us with
    | nil => simp [List.intercalate_cons_of_ne_nil hvs]
    | cons u' us =>
      rw [List.cons_append, List.intercalate_cons_of_ne_nil (by simp), ih (by simp),
        List.intercalate_cons_cons]
      simp

theorem intercalate_cons_append (u : JsString) (us : List JsString) (v : JsString) :
    List.intercalate [colon] (u :: us) ++ colon :: v =
      u ++ colon :: List.intercalate [colon] (us ++ [v]) := by
  have hlast := intercalate_append (u :: us) [v] (by simp) (by simp)
  have hfirst := intercalate_append [u] (us ++ [v]) (by simp) (by simp)
  rw [List.intercalate_singleton] at hlast hfirst
  rw [← hlast, ← hfirst, List.singleton_append, List.cons_append]

/-- Parts that have a colon in the wrong place have the key of other parts. -/
theorem exists_key_eq_of_not_unambiguous {p : SuggestionKeyParts} (hp : ¬ p.Unambiguous) :
    ∃ q : SuggestionKeyParts, q.key = p.key ∧ q ≠ p := by
  by_cases hbefore : colon ∈ p.cachedPrefixLines
  · obtain ⟨s, t, hst⟩ := List.append_of_mem hbefore
    refine ⟨{ p with
      cachedPrefixLines := s
      cachedSuffixLines := t ++ colon :: p.cachedSuffixLines }, ?_, ?_⟩
    · simp [key_eq, hst]
    · intro heq
      have hlength := congrArg (fun p => p.cachedPrefixLines.length) heq
      simp [hst] at hlength
  by_cases hafter : colon ∈ p.cachedSuffixLines
  · obtain ⟨s, t, hst⟩ := List.append_of_mem hafter
    refine ⟨{ p with
      cachedPrefixLines := p.cachedPrefixLines ++ colon :: s
      cachedSuffixLines := t }, ?_, ?_⟩
    · simp [key_eq, hst]
    · intro heq
      have hlength := congrArg (fun p => p.cachedPrefixLines.length) heq
      simp at hlength
  -- a part of the uri becomes the line, and what follows it the prefix lines
  obtain ⟨n, hn⟩ : ∃ n, numeral n ∈ (p.uri.splitOn colon).tail := by
    by_contra hnone
    exact hp ⟨hbefore, hafter, not_exists.mp hnone⟩
  obtain ⟨s, t, hst⟩ := List.append_of_mem hn
  obtain ⟨u, us, hus⟩ := List.exists_cons_of_ne_nil (List.splitOn_ne_nil colon p.uri)
  rw [hus, List.tail_cons] at hst
  have huri : p.uri = List.intercalate [colon] (u :: s) ++
      colon :: List.intercalate [colon] (numeral n :: t) := by
    rw [← intercalate_append _ _ (by simp) (by simp), List.cons_append, ← hst, ← hus,
      List.intercalate_splitOn]
  refine ⟨{ p with
    uri := List.intercalate [colon] (u :: s)
    line := n
    cachedPrefixLines := List.intercalate [colon] (t ++ [numeral p.line])
    cachedSuffixLines := p.cachedPrefixLines ++ colon :: p.cachedSuffixLines }, ?_, ?_⟩
  · have hline := intercalate_cons_append (numeral n) t (numeral p.line)
    have hjoin : ∀ rest, List.intercalate [colon] (numeral n :: t) ++
        colon :: (numeral p.line ++ rest) =
          numeral n ++ colon :: (List.intercalate [colon] (t ++ [numeral p.line]) ++ rest) := by
      intro rest
      simpa using congrArg (· ++ rest) hline
    simp [key_eq, huri, hjoin]
  · intro heq
    have hlength := congrArg (fun p => p.uri.length) heq
    simp only [huri, List.length_append, List.length_cons] at hlength
    omega

/-- The key is injective at exactly the unambiguous parts. -/
theorem key_injective_at_iff (p : SuggestionKeyParts) :
    (∀ q : SuggestionKeyParts, q.key = p.key → q = p) ↔ p.Unambiguous := by
  constructor
  · intro hinjective
    by_contra hp
    obtain ⟨q, hkey, hne⟩ := exists_key_eq_of_not_unambiguous hp
    exact hne (hinjective q hkey)
  · intro hp q hkey
    exact eq_of_key_eq hp hkey

end SuggestionKeyParts

/-! ## Runs of the cache -/

/-- A lookup adds no entry. -/
theorem exists_get_of_getCachedSuggestions {config : SuggestionsCacheOptions} {ids : Nat → String}
    {request : SuggestionCacheContext} {cache : SuggestionsCache} {key : JsString}
    {entry : SuggestionCacheEntry}
    (h : (SuggestionsCache.getCachedSuggestions config ids request cache).1.get key = some entry) :
    ∃ entry, cache.get key = some entry := by
  rcases getCachedSuggestions_cases config ids request cache with
    hkept | hdeleted | ⟨candidate, hhits⟩
  · rw [hkept] at h
    exact ⟨entry, h⟩
  · rw [hdeleted, OrderedMap.get_delete] at h
    split at h
    · cases h
    · exact ⟨entry, h⟩
  · rw [getCachedSuggestions_of_hits hhits, OrderedMap.get_set] at h
    split at h
    · next hkey =>
      rw [hkey]
      exact ⟨candidate, hhits.found⟩
    · exact ⟨entry, h⟩

theorem exists_get_of_returned {config : SuggestionsCacheOptions} {ids : Nat → String}
    {request : SuggestionCacheContext} {cache : SuggestionsCache} {p : SuggestionCache → Bool}
    (h : (SuggestionsCache.getCachedSuggestions config ids request cache).2.any p = true) :
    ∃ entry, cache.get (keyParts config request).key = some entry := by
  cases hreturned : (SuggestionsCache.getCachedSuggestions config ids request cache).2 with
  | none =>
    rw [hreturned] at h
    cases h
  | some returned =>
    obtain ⟨candidate, hhits⟩ := exists_hits_of_returned hreturned
    exact ⟨candidate, hhits.found⟩

/-- The cache, with what a reader of its log would know: for which parts the entry of each key has
been added last, and of each lookup that was answered with options what had been asked for and what
the entry had been added for. -/
structure CacheRun where
  cache : SuggestionsCache
  addedFor : JsString → Option SuggestionKeyParts
  served : List (SuggestionKeyParts × Option SuggestionKeyParts)

inductive CacheAction where
  | addToSuggestionCache (config : SuggestionsCacheOptions) (request : SuggestionCacheContext)
      (suggestions : List SuggestionOption)
  | getCachedSuggestions (config : SuggestionsCacheOptions) (ids : Nat → String)
      (request : SuggestionCacheContext)
  -- an entry is too old, or there is no room for it
  | evict (key : JsString)

namespace CacheRun

def init : CacheRun := ⟨OrderedMap.empty, fun _ => none, []⟩

def step (s : CacheRun) : CacheAction → Option CacheRun
  | .addToSuggestionCache config request suggestions =>
    some { s with
      cache := SuggestionsCache.addToSuggestionCache config request suggestions s.cache
      addedFor :=
        if config.enabled then
          Function.update s.addedFor (keyParts config request).key
            (some (keyParts config request))
        else s.addedFor }
  | .getCachedSuggestions config ids request =>
    let returned := SuggestionsCache.getCachedSuggestions config ids request s.cache
    some { s with
      cache := returned.1
      served :=
        if returned.2.any fun r => !r.options.isEmpty then
          s.served ++ [(keyParts config request, s.addedFor (keyParts config request).key)]
        else s.served }
  | .evict key => some { s with cache := s.cache.delete key }

/-- Every lookup that was answered with options was answered with those of an entry for the same
parts. -/
def ServesOwn (s : CacheRun) : Prop := ∀ e ∈ s.served, e.2 = some e.1

/-- A lookup is for unambiguous parts. -/
def AsksUnambiguously : CacheRun → CacheAction → Prop
  | _, .getCachedSuggestions config _ request => (keyParts config request).Unambiguous
  | _, _ => True

/-- Every entry has been added for parts that have its key. -/
def Known (s : CacheRun) : Prop :=
  ∀ key entry, s.cache.get key = some entry → ∃ p, s.addedFor key = some p ∧ p.key = key

theorem known_add {s : CacheRun} (hs : s.Known) (config : SuggestionsCacheOptions)
    (request : SuggestionCacheContext) (suggestions : List SuggestionOption) {t : CacheRun}
    (h : s.step (.addToSuggestionCache config request suggestions) = some t) : t.Known := by
  cases h
  intro key entry hget
  dsimp only at hget ⊢
  rw [SuggestionsCache.addToSuggestionCache] at hget
  split at hget
  · next henabled =>
    rw [if_pos henabled]
    rw [OrderedMap.get_set, getSuggestionKey_eq] at hget
    by_cases hkey : key = (keyParts config request).key
    · subst hkey
      exact ⟨_, Function.update_self _ _ _, rfl⟩
    · rw [if_neg hkey] at hget
      rw [Function.update_of_ne hkey]
      exact hs key entry hget
  · next hdisabled =>
    rw [if_neg hdisabled]
    exact hs key entry hget

/-- What goes from the cache takes nothing with it that is known of the others. -/
theorem known_of_get {s t : CacheRun} (hs : s.Known) (haddedFor : t.addedFor = s.addedFor)
    (hget : ∀ key entry, t.cache.get key = some entry →
      ∃ before, s.cache.get key = some before) : t.Known := by
  intro key entry hentry
  obtain ⟨before, hbefore⟩ := hget key entry hentry
  rw [haddedFor]
  exact hs key before hbefore

theorem known_step {s t : CacheRun} {a : CacheAction} (hs : s.Known) (h : s.step a = some t) :
    t.Known := by
  cases a with
  | addToSuggestionCache config request suggestions =>
    exact known_add hs config request suggestions h
  | getCachedSuggestions config ids request =>
    cases h
    refine known_of_get hs ?_ ?_
    · rfl
    · intro key entry hentry
      exact exists_get_of_getCachedSuggestions hentry
  | evict key =>
    cases h
    refine known_of_get hs ?_ ?_
    · rfl
    · intro key' entry hentry
      have hkept : (if key' = key then none else s.cache.get key') = some entry := by
        rw [← OrderedMap.get_delete]
        exact hentry
      by_cases hkey : key' = key
      · rw [if_pos hkey] at hkept
        cases hkept
      · rw [if_neg hkey] at hkept
        exact ⟨entry, hkept⟩

theorem servesOwn_step {s t : CacheRun} {a : CacheAction} (hknown : s.Known) (hs : s.ServesOwn)
    (hasks : s.AsksUnambiguously a) (h : s.step a = some t) : t.ServesOwn := by
  cases a with
  | addToSuggestionCache config request suggestions =>
    cases h
    exact hs
  | getCachedSuggestions config ids request =>
    cases h
    intro e hmem
    dsimp only at hmem
    split at hmem
    · next hreturned =>
      obtain hold | hnew := List.mem_append.mp hmem
      · exact hs e hold
      · obtain rfl := List.mem_singleton.mp hnew
        obtain ⟨entry, hget⟩ := exists_get_of_returned hreturned
        obtain ⟨p, hadded, hkey⟩ := hknown _ entry hget
        obtain rfl := SuggestionKeyParts.eq_of_key_eq hasks hkey
        exact hadded
    · exact hs e hmem
  | evict key =>
    cases h
    exact hs

theorem served_own {actions : List CacheAction} {s : CacheRun}
    (h : run step init actions = some s) (hasks : Guarded step AsksUnambiguously init actions) :
    s.ServesOwn := by
  have hboth : s.Known ∧ s.ServesOwn := by
    apply guarded_invariant (I := fun s => s.Known ∧ s.ServesOwn) _ _ hasks h
    · intro s a t hI hok hstep
      exact ⟨known_step hI.1 hstep, servesOwn_step hI.1 hI.2 hok hstep⟩
    · constructor
      · intro key entry hget
        cases hget
      · intro e hmem
        cases hmem
  exact hboth.2

end CacheRun

/-- The key is injective at exactly the unambiguous parts, and in every run whose lookups are for
such parts, options come only from an entry that was added for the same parts. -/
theorem keyed_apart (actions : List CacheAction) (s : CacheRun)
    (h : run CacheRun.step CacheRun.init actions = some s) :
    (∀ p : SuggestionKeyParts,
        (∀ q : SuggestionKeyParts, q.key = p.key → q = p) ↔ p.Unambiguous) ∧
      (Guarded CacheRun.step CacheRun.AsksUnambiguously CacheRun.init actions → s.ServesOwn) :=
  ⟨SuggestionKeyParts.key_injective_at_iff, CacheRun.served_own h⟩

/-! ## A colon that moves -/

section Sample

def sampleConfig : SuggestionsCacheOptions where
  enabled := true
  prefixLines := 1
  suffixLines := 1

def sampleRequest (prefixText suffix : String) : SuggestionCacheContext where
  uri := "file:///notes.txt"
  position := { line := 1, character := 0 }
  context :=
    { prefixText := ofString prefixText
      suffix := ofString suffix
      fileRelativePath := "notes.txt"
      position := { line := 1, character := 0 }
      uri := "file:///notes.txt"
      languageId := "plaintext"
      workspaceFolder := none }
  additionalContexts := none

def sampleOption : SuggestionOption where
  index := some 0
  text := ofString "done"
  uniqueTrackingId := "id-0"
  model := none

/-- What is added below the line `x:y` and above `z` is looked up below `x` and above `y:z`. -/
def movedColon : List CacheAction :=
  [.addToSuggestionCache sampleConfig (sampleRequest "x:y\n" "z") [sampleOption],
    .getCachedSuggestions sampleConfig (fun _ => "id-1") (sampleRequest "x\n" "y:z")]

theorem not_keyed_apart :
    (¬ ∀ p q : SuggestionKeyParts, q.key = p.key → q = p) ∧
      ¬ ∀ (actions : List CacheAction) (s : CacheRun),
        run CacheRun.step CacheRun.init actions = some s → s.ServesOwn := by
  constructor
  · intro h
    have hsame := h (keyParts sampleConfig (sampleRequest "x:y\n" "z"))
      (keyParts sampleConfig (sampleRequest "x\n" "y:z")) (by decide +kernel)
    exact absurd hsame (by decide +kernel)
  · intro h
    obtain ⟨s, hs⟩ : ∃ s, run CacheRun.step CacheRun.init movedColon = some s := ⟨_, rfl⟩
    have hserved : ∀ s ∈ run CacheRun.step CacheRun.init movedColon,
        ¬ ∀ e ∈ s.served, e.2 = some e.1 := by decide +kernel
    exact hserved s hs (h movedColon s hs)

/-- What is added between `x` and `z` is looked up there. -/
def samePlace : List CacheAction :=
  [.addToSuggestionCache sampleConfig (sampleRequest "x\n" "z") [sampleOption],
    .getCachedSuggestions sampleConfig (fun _ => "id-1") (sampleRequest "x\n" "z")]

theorem sampleRequest_unambiguous :
    (keyParts sampleConfig (sampleRequest "x\n" "z")).Unambiguous := by
  have htail : ((keyParts sampleConfig (sampleRequest "x\n" "z")).uri.splitOn colon).tail =
      [ofString "///notes.txt"] := by decide +kernel
  refine ⟨by decide +kernel, by decide +kernel, ?_⟩
  intro n hmem
  rw [htail, List.mem_singleton, numeral_eq, ofString_eq] at hmem
  have hdigits := ofChars_injective hmem
  have hslash : '/' ∈ Nat.toDigits 10 n := by
    rw [hdigits]
    decide
  have hdigit : '/'.isDigit = true := Nat.isDigit_of_mem_toDigits (by omega) (by omega) hslash
  exact absurd hdigit (by decide)

theorem keyed_apart_samePlace :
    ∃ s, run CacheRun.step CacheRun.init samePlace = some s ∧ s.served.length = 1 ∧
      s.ServesOwn := by
  obtain ⟨s, hs⟩ : ∃ s, run CacheRun.step CacheRun.init samePlace = some s := ⟨_, rfl⟩
  have hserved : ∀ s ∈ run CacheRun.step CacheRun.init samePlace, s.served.length = 1 := by
    decide +kernel
  refine ⟨s, hs, hserved s hs, (keyed_apart samePlace s hs).2 ?_⟩
  exact ⟨trivial, sampleRequest_unambiguous, trivial⟩

end Sample

end KhulnasoftLsp.Suggestion
