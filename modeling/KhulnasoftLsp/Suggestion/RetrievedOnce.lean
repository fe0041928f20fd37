import KhulnasoftLsp.Suggestion.Keys

/-!
# An entry is retrieved once at each position

A lookup counts in the entry that it has been retrieved at the character of the cursor, and a second
one there deletes the entry. `retrieved_once` says what this comes to between two calls that add an
entry under the same key, whatever else is added, looked up or evicted: keys may be shared by
different requests, and the configuration may change in between. An entry that gets too old while a
lookup counts is one that is evicted right after the lookup.
-/

namespace KhulnasoftLsp.Suggestion

open Transition SuggestionsCache

/-! ## Lookups -/

/-- An entry is added under the key. -/
def AddsTo (key : JsString) : CacheAction → Prop
  | .addToSuggestionCache config request _ =>
    config.enabled = true ∧ getSuggestionKey config request = key
  | _ => False

/-- The key is looked up for a cursor at the character. A cache that is not enabled is not looked
into. -/
def LooksUp (key : JsString) (character : Nat) : CacheAction → Prop
  | .getCachedSuggestions config _ request =>
    config.enabled = true ∧ getSuggestionKey config request = key ∧
      request.position.character = character
  | _ => False

/-- The action is a call for the key and the character, and returns a defined result. -/
def Serves (key : JsString) (character : Nat) (s : CacheRun) : CacheAction → Prop
  | .getCachedSuggestions config ids request =>
    getSuggestionKey config request = key ∧ request.position.character = character ∧
      (getCachedSuggestions config ids request s.cache).2.isSome = true
  | _ => False

instance (key : JsString) : DecidablePred (AddsTo key)
  | .addToSuggestionCache _ _ _ => inferInstanceAs (Decidable (_ ∧ _))
  | .getCachedSuggestions _ _ _ => inferInstanceAs (Decidable False)
  | .evict _ => inferInstanceAs (Decidable False)

instance (key : JsString) (character : Nat) (s : CacheRun) : DecidablePred (Serves key character s)
  | .getCachedSuggestions _ _ _ => inferInstanceAs (Decidable (_ ∧ _ ∧ _))
  | .addToSuggestionCache _ _ _ => inferInstanceAs (Decidable False)
  | .evict _ => inferInstanceAs (Decidable False)

/-- How often the actions return a defined result for the key and the character. -/
def timesServed (key : JsString) (character : Nat) : CacheRun → List CacheAction → Nat
  | _, [] => 0
  | s, a :: actions =>
    (if Serves key character s a then 1 else 0) +
      ((s.step a).map fun t => timesServed key character t actions).getD 0

/-- Every entry under the key has been retrieved at the character. -/
def Spent (key : JsString) (character : Nat) (s : CacheRun) : Prop :=
  ∀ entry, s.cache.get key = some entry → 0 < timesRetrieved entry character

/-! ## What a lookup does to the entries -/

variable {config : SuggestionsCacheOptions} {request : SuggestionCacheContext}
  {cache : SuggestionsCache}

theorem timesRetrieved_set (entry : SuggestionCacheEntry) (character character' n : Nat) :
    timesRetrieved { entry with
        timesRetrievedByPosition := entry.timesRetrievedByPosition.set character n } character' =
      if character' = character then n else timesRetrieved entry character' := by
  unfold timesRetrieved
  rw [OrderedMap.get_set]
  split <;> rfl

/-- **What a lookup leaves**: entries that were there, which have been retrieved at least as often
at each character; and the one under its own key, if it is left, has been retrieved at its own. -/
theorem get_getCachedSuggestions (henabled : config.enabled = true) (ids : Nat → String)
    {key : JsString} {entry : SuggestionCacheEntry}
    (h : (getCachedSuggestions config ids request cache).1.get key = some entry) :
    ∃ before, cache.get key = some before ∧
      (key = getSuggestionKey config request →
        0 < timesRetrieved entry request.position.character) ∧
      ∀ character, timesRetrieved before character ≤ timesRetrieved entry character := by
  cases hget : cache.get (getSuggestionKey config request) with
  | none =>
      rw [getCachedSuggestions_of_missing hget] at h
      refine ⟨entry, h, ?_, fun _ => le_rfl⟩
      rintro rfl
      rw [hget] at h
      cases h
  | some before =>
      by_cases htimes : 0 < timesRetrieved before request.position.character
      · rw [getCachedSuggestions_of_retrieved henabled hget htimes] at h
        dsimp only at h
        rw [OrderedMap.get_delete] at h
        split at h
        · cases h
        · next hkey => exact ⟨entry, h, fun hsame => absurd hsame hkey, fun _ => le_rfl⟩
      · have hhits : Hits config request cache before :=
          ⟨henabled, hget, Nat.eq_zero_of_not_pos htimes⟩
        rw [getCachedSuggestions_of_hits hhits, OrderedMap.get_set] at h
        split at h
        · next hkey =>
          cases h
          subst hkey
          refine ⟨before, hget, fun _ => ?_, fun character => ?_⟩
          · rw [timesRetrieved_set, if_pos rfl]
            omega
          · rw [timesRetrieved_set]
            split
            · next hcharacter =>
              rw [hcharacter]
              omega
            · exact le_rfl
        · next hkey => exact ⟨entry, h, fun hsame => absurd hsame hkey, fun _ => le_rfl⟩

/-! ## Between two additions under a key -/

variable {key : JsString} {character : Nat} {s t : CacheRun} {a : CacheAction}

/-- An entry that is there after a step that adds none has been there before. -/
theorem get_of_step (ha : ¬ AddsTo key a) (hstep : s.step a = some t)
    {entry : SuggestionCacheEntry} (h : t.cache.get key = some entry) :
    ∃ before, s.cache.get key = some before ∧
      ∀ character, timesRetrieved before character ≤ timesRetrieved entry character := by
  cases a with
  | addToSuggestionCache config request suggestions =>
      cases hstep
      dsimp only at h
      rw [addToSuggestionCache] at h
      split at h
      · next henabled =>
        rw [OrderedMap.get_set] at h
        split at h
        · next hkey => exact absurd ⟨henabled, hkey.symm⟩ ha
        · exact ⟨entry, h, fun _ => le_rfl⟩
      · exact ⟨entry, h, fun _ => le_rfl⟩
  | getCachedSuggestions config ids request =>
      cases hstep
      dsimp only at h
      by_cases henabled : config.enabled = true
      · obtain ⟨before, hbefore, -, hle⟩ := get_getCachedSuggestions henabled ids h
        exact ⟨before, hbefore, hle⟩
      · rw [getCachedSuggestions_of_disabled henabled] at h
        exact ⟨entry, h, fun _ => le_rfl⟩
  | evict key' =>
      cases hstep
      dsimp only at h
      rw [OrderedMap.get_delete] at h
      split at h
      · cases h
      · exact ⟨entry, h, fun _ => le_rfl⟩

theorem spent_step (hs : Spent key character s) (ha : ¬ AddsTo key a)
    (hstep : s.step a = some t) : Spent key character t := by
  intro entry h
  obtain ⟨before, hbefore, hle⟩ := get_of_step ha hstep h
  exact (hs before hbefore).trans_le (hle character)

theorem spent_of_missing (hs : s.cache.get key = none) (character : Nat) :
    Spent key character s := by
  intro entry h
  rw [hs] at h
  cases h

theorem exists_of_looksUp (ha : LooksUp key character a) :
    ∃ config ids request, a = .getCachedSuggestions config ids request ∧ config.enabled = true ∧
      getSuggestionKey config request = key ∧ request.position.character = character := by
  cases a with
  | getCachedSuggestions config ids request => exact ⟨config, ids, request, rfl, ha⟩
  | addToSuggestionCache config request suggestions => exact ha.elim
  | evict key' => exact ha.elim

/-- After a lookup, an entry that is left has been retrieved at the character. -/
theorem spent_of_looksUp (ha : LooksUp key character a) (hstep : s.step a = some t) :
    Spent key character t := by
  obtain ⟨config, ids, request, rfl, henabled, rfl, rfl⟩ := exists_of_looksUp ha
  cases hstep
  intro entry h
  obtain ⟨before, -, hown, -⟩ := get_getCachedSuggestions henabled ids h
  exact hown rfl

/-- A lookup at a character at which the entry has been retrieved returns nothing, and the entry is
gone. -/
theorem getCachedSuggestions_of_spent (hs : Spent key request.position.character s)
    (henabled : config.enabled = true) (hkey : getSuggestionKey config request = key)
    (ids : Nat → String) :
    (getCachedSuggestions config ids request s.cache).1.get key = none ∧
      (getCachedSuggestions config ids request s.cache).2 = none := by
  subst hkey
  cases hget : s.cache.get (getSuggestionKey config request) with
  | none =>
      rw [getCachedSuggestions_of_missing hget]
      exact ⟨hget, rfl⟩
  | some entry =>
      rw [getCachedSuggestions_of_retrieved henabled hget (hs entry hget)]
      refine ⟨?_, rfl⟩
      dsimp only
      rw [OrderedMap.get_delete, if_pos rfl]

theorem missing_of_looksUp (hs : Spent key character s) (ha : LooksUp key character a)
    (hstep : s.step a = some t) : t.cache.get key = none := by
  obtain ⟨config, ids, request, rfl, henabled, hkey, rfl⟩ := exists_of_looksUp ha
  cases hstep
  exact (getCachedSuggestions_of_spent hs henabled hkey ids).1

theorem looksUp_of_serves (h : Serves key character s a) : LooksUp key character a := by
  cases a with
  | getCachedSuggestions config ids request =>
      obtain ⟨hkey, hcharacter, hsome⟩ := h
      refine ⟨?_, hkey, hcharacter⟩
      by_contra hdisabled
      rw [getCachedSuggestions_of_disabled hdisabled] at hsome
      cases hsome
  | addToSuggestionCache config request suggestions => exact h.elim
  | evict key' => exact h.elim

theorem not_serves_of_spent (hs : Spent key character s) : ¬ Serves key character s a := by
  intro h
  obtain ⟨config, ids, request, rfl, henabled, hkey, rfl⟩ :=
    exists_of_looksUp (looksUp_of_serves h)
  have hsome := h.2.2
  rw [(getCachedSuggestions_of_spent hs henabled hkey ids).2] at hsome
  cases hsome

theorem CacheRun.exists_step (s : CacheRun) (a : CacheAction) : ∃ t, s.step a = some t := by
  cases a <;> exact ⟨_, rfl⟩

theorem timesServed_cons (hstep : s.step a = some t) (actions : List CacheAction) :
    timesServed key character s (a :: actions) =
      (if Serves key character s a then 1 else 0) + timesServed key character t actions := by
  rw [timesServed, hstep]
  rfl

/-- Once the entry has been retrieved at the character, it is not returned for it again. -/
theorem timesServed_eq_zero (hs : Spent key character s) {actions : List CacheAction}
    (hactions : ∀ a ∈ actions, ¬ AddsTo key a) : timesServed key character s actions = 0 := by
  induction actions generalizing s with
  | nil => rfl
  | cons a actions ih =>
      obtain ⟨t, hstep⟩ := s.exists_step a
      have ht : Spent key character t := spent_step hs (hactions a List.mem_cons_self) hstep
      rw [timesServed_cons hstep, if_neg (not_serves_of_spent hs),
        ih ht fun b hb => hactions b (List.mem_cons_of_mem a hb)]

theorem timesServed_le_one {actions : List CacheAction}
    (hactions : ∀ a ∈ actions, ¬ AddsTo key a) : timesServed key character s actions ≤ 1 := by
  induction actions generalizing s with
  | nil => exact Nat.zero_le 1
  | cons a actions ih =>
      obtain ⟨t, hstep⟩ := s.exists_step a
      have hrest : ∀ b ∈ actions, ¬ AddsTo key b := fun b hb =>
        hactions b (List.mem_cons_of_mem a hb)
      rw [timesServed_cons hstep]
      split
      · next hserves =>
        rw [timesServed_eq_zero (spent_of_looksUp (looksUp_of_serves hserves) hstep) hrest]
      · rw [Nat.zero_add]
        exact ih hrest

theorem CacheRun.exists_run (s : CacheRun) (actions : List CacheAction) :
    ∃ t, run CacheRun.step s actions = some t := by
  obtain ⟨t, hrun, -⟩ := Transition.exists_run (I := fun _ _ => True) (s := s) trivial
    (fun _ s a _ => (s.exists_step a).imp fun _ h => ⟨h, trivial⟩) actions
  exact ⟨t, hrun⟩

theorem spent_run (hs : Spent key character s) {actions : List CacheAction}
    (hactions : ∀ a ∈ actions, ¬ AddsTo key a) (h : run CacheRun.step s actions = some t) :
    Spent key character t := by
  have hguarded : Guarded CacheRun.step (fun _ a => ¬ AddsTo key a) s actions := by
    rw [guarded_iff_forall]
    intro before a after t hsplit _
    apply hactions
    rw [hsplit]
    simp
  apply guarded_invariant (I := Spent key character) _ hs hguarded h
  intro s a t hs ha hstep
  exact spent_step hs ha hstep

/-- **Once at each position.** After any calls, and for as long as no entry is added under the key,
a character gets a defined result at most once. With a second lookup there, the entry is gone, and
nothing is returned for the key at any character any more. -/
theorem retrieved_once (key : JsString) (character : Nat) (start segment : List CacheAction)
    (hsegment : ∀ a ∈ segment, ¬ AddsTo key a) :
    ∃ s, run CacheRun.step CacheRun.init start = some s ∧
      timesServed key character s segment ≤ 1 ∧
      ∀ before first between second after,
        segment = before ++ first :: (between ++ second :: after) →
        LooksUp key character first → LooksUp key character second →
        ∃ t, run CacheRun.step s (before ++ first :: (between ++ [second])) = some t ∧
          t.cache.get key = none ∧
          ∀ character', timesServed key character' t after = 0 := by
  obtain ⟨s, hs⟩ := CacheRun.init.exists_run start
  refine ⟨s, hs, timesServed_le_one hsegment, ?_⟩
  rintro before first between second after rfl hfirst hsecond
  have hbetween : ∀ a ∈ between, ¬ AddsTo key a := fun a ha => hsegment a (by simp [ha])
  have hafter : ∀ a ∈ after, ¬ AddsTo key a := fun a ha => hsegment a (by simp [ha])
  obtain ⟨s₁, hs₁⟩ := s.exists_run before
  obtain ⟨s₂, hs₂⟩ := s₁.exists_step first
  obtain ⟨s₃, hs₃⟩ := s₂.exists_run between
  obtain ⟨t, ht⟩ := s₃.exists_step second
  have hspent : Spent key character s₃ :=
    spent_run (spent_of_looksUp hfirst hs₂) hbetween hs₃
  have hmissing : t.cache.get key = none := missing_of_looksUp hspent hsecond ht
  refine ⟨t, ?_, hmissing, fun character' => ?_⟩
  · rw [run_append_eq_some]
    refine ⟨s₁, hs₁, ?_⟩
    rw [run_cons, hs₂]
    exact run_append_eq_some.mpr ⟨s₃, hs₃, by rw [run_cons, ht]; rfl⟩
  · exact timesServed_eq_zero (spent_of_missing hmissing character') hafter

/-! ## A cursor that comes back -/

section Cursor

def cursorRequest (character : Nat) : SuggestionCacheContext :=
  { sampleRequest "" "z" with position := { line := 1, character } }

def lookupAt (character : Nat) : CacheAction :=
  .getCachedSuggestions sampleConfig (fun _ => "id-1") (cursorRequest character)

/-- The cursor goes on by one character, comes back, and goes on again. -/
def cursorMoves : List CacheAction := [lookupAt 0, lookupAt 1, lookupAt 0, lookupAt 1]

/-- Where the cursor has been twice, there has been one result, and the entry is gone. -/
theorem retrieved_once_of_cursorMoves :
    ∃ s, run CacheRun.step CacheRun.init
        [.addToSuggestionCache sampleConfig (cursorRequest 0) [sampleOption]] = some s ∧
      timesServed (getSuggestionKey sampleConfig (cursorRequest 0)) 0 s cursorMoves = 1 ∧
      ∃ t, run CacheRun.step s [lookupAt 0, lookupAt 1, lookupAt 0] = some t ∧
        t.cache.get (getSuggestionKey sampleConfig (cursorRequest 0)) = none := by
  obtain ⟨s, hs, hle, hgone⟩ := retrieved_once
    (getSuggestionKey sampleConfig (cursorRequest 0)) 0
    [.addToSuggestionCache sampleConfig (cursorRequest 0) [sampleOption]] cursorMoves
    (by decide +kernel)
  have hserved : ∀ s ∈ run CacheRun.step CacheRun.init
      [.addToSuggestionCache sampleConfig (cursorRequest 0) [sampleOption]],
      0 < timesServed (getSuggestionKey sampleConfig (cursorRequest 0)) 0 s cursorMoves := by
    decide +kernel
  obtain ⟨t, ht, hmissing, -⟩ := hgone [] (lookupAt 0) [lookupAt 1] (lookupAt 0) [lookupAt 1] rfl
    ⟨rfl, rfl, rfl⟩ ⟨rfl, rfl, rfl⟩
  have hpos := hserved s hs
  exact ⟨s, hs, by omega, t, ht, hmissing⟩

end Cursor

end KhulnasoftLsp.Suggestion
