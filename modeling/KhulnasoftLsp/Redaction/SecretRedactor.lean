import KhulnasoftLsp.DocContext
import KhulnasoftLsp.Masking

/-!
# The redaction of secrets

Before a document context leaves the machine, the secrets in it are written over with stars. Each
rule has a regular expression that finds its secrets, and the rules are applied one after the
other, each to what the rules before it have left.

A rule does not write over the range that its expression has captured. It looks for the captured
text again, and writes over its first occurrence in the text. `masks_iff_inPlace` says when that
redacts all the captured ranges, and `not_masks_of_earlier_occurrence` is a text in which a secret
stays: it occurs once more before the place where the expression finds it.
-/

namespace KhulnasoftLsp.Redaction

open Masking

/-- `'*'` -/
def star : UInt16 := 0x2a

/-! ## Rules -/

/-- A match of a regular expression: where it lies in the text, and where each of the capturing
groups does that take part in it. -/
structure RegExpMatch where
  range : PosRange
  groups : Nat → Option PosRange

namespace RegExpMatch

/-- Where the group lies in the text; the group `0` is the match itself. -/
def rangeOf (m : RegExpMatch) : Nat → Option PosRange
  | 0 => some m.range
  | group + 1 => m.groups (group + 1)

/-- `match[group]`, which is `undefined` for a group that takes no part in the match. -/
def get (m : RegExpMatch) (str : JsString) (group : Nat) : Option JsString :=
  (m.rangeOf group).map fun r => slice r str

end RegExpMatch

/-- A global regular expression, given by its matches in each text. -/
structure RegExp where
  matchAll : JsString → List RegExpMatch
  /-- The matches lie in the text, and do not overlap. -/
  ordered : ∀ str, Ordered str.length ((matchAll str).map (·.range))
  /-- A group lies in its match. -/
  nested : ∀ str, ∀ m ∈ matchAll str, ∀ group r, m.groups group = some r →
    m.range.start ≤ r.start ∧ r.start ≤ r.stop ∧ r.stop ≤ m.range.stop

structure IGitleaksRule where
  id : String
  secretGroup : Option Nat
  keywords : Option (List JsString)
  compiledRegex : Option RegExp

/-- The group that captures the secret: `rule.secretGroup ?? 0`. -/
def IGitleaksRule.group (rule : IGitleaksRule) : Nat := rule.secretGroup.getD 0

/-- `s.includes(t)` -/
def includes (s t : JsString) : Bool := (indexOf t s).isSome

/-! ## The redactor -/

section

variable (toLowerCase : JsString → JsString)

/-- `#keywordHit` -/
def keywordHit (rule : IGitleaksRule) (raw : JsString) : Bool :=
  match rule.keywords with
  | none | some [] => true
  | some keywords => keywords.any fun keyword => includes (toLowerCase raw) keyword

/-- `#redactRuleSecret`. It throws, here `none`, if the group of the secret takes no part in a
match, since `undefined` has no length. -/
def redactRuleSecret (str : JsString) (rule : IGitleaksRule) : Option JsString :=
  match rule.compiledRegex with
  | none => some str
  | some compiledRegex =>
    if !keywordHit toLowerCase rule str then some str
    else
      (compiledRegex.matchAll str).foldlM (fun redacted m =>
        -- the secret is read from `str`, but its first occurrence is sought in `redacted`
        (m.get str rule.group).map fun secret =>
          replaceFirst secret (List.replicate secret.length star) redacted) str

def redactSecrets (rules : List IGitleaksRule) (raw : JsString) : Option JsString :=
  rules.foldlM (redactRuleSecret toLowerCase) raw

/-- `transform`, given the setting `client.codeCompletion.enableSecretRedaction`. -/
def transform (rules : List IGitleaksRule) (enableSecretRedaction : Bool) (context : IDocContext) :
    Option IDocContext :=
  if !enableSecretRedaction then some context
  else do
    let prefixText ← redactSecrets toLowerCase rules context.prefixText
    let suffix ← redactSecrets toLowerCase rules context.suffix
    return { prefixText, suffix, fileRelativePath := context.fileRelativePath
             position := context.position, uri := context.uri
             languageId := context.languageId, workspaceFolder := context.workspaceFolder }

/-! ## What a rule captures -/

/-- The matches whose secrets the rule redacts. -/
def matchesOf (rule : IGitleaksRule) (str : JsString) : List RegExpMatch :=
  match rule.compiledRegex with
  | none => []
  | some compiledRegex =>
    if keywordHit toLowerCase rule str then compiledRegex.matchAll str else []

/-- The ranges that the rule captures as its secrets. -/
def secretRanges (rule : IGitleaksRule) (str : JsString) : List PosRange :=
  (matchesOf toLowerCase rule str).filterMap (·.rangeOf rule.group)

/-- The ranges that the rules capture as their secrets, each in the text it is applied to. -/
def captured : List IGitleaksRule → JsString → List PosRange
  | [], _ => []
  | rule :: rules, str =>
    secretRanges toLowerCase rule str ++
      ((redactRuleSecret toLowerCase str rule).map (captured rules)).getD []

/-- There is a result, and it shows nothing but stars where a rule has captured a secret. -/
def Masks (rules : List IGitleaksRule) (raw : JsString) : Prop :=
  ∃ redacted, redactSecrets toLowerCase rules raw = some redacted ∧
    ∀ r ∈ captured toLowerCase rules raw, Hidden star r redacted

/-- For each rule, applied to the text in which the secrets of the rules before it are masked where
they were captured: its secrets take part in their matches, and each of them is all stars or does
not occur before the place where it was captured. -/
def SecretsInPlace : List IGitleaksRule → JsString → Prop
  | [], _ => True
  | rule :: rules, str =>
    (∀ m ∈ matchesOf toLowerCase rule str, (m.rangeOf rule.group).isSome = true) ∧
      InPlace star (secretRanges toLowerCase rule str) str ∧
      SecretsInPlace rules (maskAll star (secretRanges toLowerCase rule str) str)

variable {toLowerCase}

theorem ordered_secretRanges (rule : IGitleaksRule) (str : JsString) :
    Ordered str.length (secretRanges toLowerCase rule str) := by
  unfold secretRanges matchesOf
  cases rule.compiledRegex with
  | none => exact ⟨by simp, by simp⟩
  | some regex =>
      by_cases hhit : keywordHit toLowerCase rule str = true
      · have hordered := regex.ordered str
        -- the group of a match lies in it, be it the match itself
        have hnested : ∀ m ∈ regex.matchAll str, ∀ r, m.rangeOf rule.group = some r →
            m.range.start ≤ r.start ∧ r.start ≤ r.stop ∧ r.stop ≤ m.range.stop := by
          intro m hm r hr
          unfold RegExpMatch.rangeOf at hr
          split at hr
          · cases hr
            have hbounds := hordered.bounds m.range (List.mem_map_of_mem hm)
            omega
          · exact regex.nested str m hm _ r hr
        simp only [hhit, if_true]
        constructor
        · intro r hr
          obtain ⟨m, hm, hmr⟩ := List.mem_filterMap.mp hr
          have hin := hnested m hm r hmr
          have hbounds := hordered.bounds m.range (List.mem_map_of_mem hm)
          omega
        · rw [List.pairwise_filterMap]
          apply (List.pairwise_map.mp hordered.pairwise).imp_of_mem
          intro m m' hm hm' hle r hr r' hr'
          have hin := hnested m hm r hr
          have hin' := hnested m' hm' r' hr'
          omega
      · simp only [hhit]
        exact ⟨by simp, by simp⟩

/-- The fold over the matches succeeds if all secrets take part, and only then. -/
theorem foldlM_matches (ms : List RegExpMatch) (str : JsString) (group : Nat) (t : JsString) :
    ms.foldlM (fun redacted m => (m.get str group).map fun secret =>
        replaceFirst secret (List.replicate secret.length star) redacted) t =
      if ∀ m ∈ ms, (m.rangeOf group).isSome = true then
        some (redact star ((ms.filterMap (·.rangeOf group)).map fun r => slice r str) t)
      else none := by
  induction ms generalizing t with
  | nil => rfl
  | cons m ms ih =>
      rw [List.foldlM_cons]
      cases hm : m.rangeOf group with
      | none => simp [RegExpMatch.get, hm]
      | some r =>
          have hget : m.get str group = some (slice r str) := by simp [RegExpMatch.get, hm]
          rw [hget]
          show List.foldlM _ (replaceFirst (slice r str) _ t) ms = _
          rw [ih]
          simp [hm, redact]

variable (toLowerCase) in
/-- **What a rule does**: it writes over the first occurrences of the texts of its ranges. -/
theorem redactRuleSecret_eq (rule : IGitleaksRule) (str : JsString) :
    redactRuleSecret toLowerCase str rule =
      if ∀ m ∈ matchesOf toLowerCase rule str, (m.rangeOf rule.group).isSome = true then
        some (redact star ((secretRanges toLowerCase rule str).map fun r => slice r str) str)
      else none := by
  unfold redactRuleSecret secretRanges matchesOf
  cases rule.compiledRegex with
  | none => simp [redact]
  | some regex =>
      cases keywordHit toLowerCase rule str with
      | false => simp [redact]
      | true => simpa using foldlM_matches (regex.matchAll str) str rule.group str

/-- A result only has more stars than the text. -/
theorem masked_redactSecrets {rules : List IGitleaksRule} {raw redacted : JsString}
    (h : redactSecrets toLowerCase rules raw = some redacted) : Masked star raw redacted := by
  induction rules generalizing raw with
  | nil =>
      cases h
      exact Masked.refl _
  | cons rule rules ih =>
      rw [redactSecrets, List.foldlM_cons] at h
      obtain ⟨str, hstr, hrest⟩ := Option.bind_eq_some_iff.mp h
      rw [redactRuleSecret_eq] at hstr
      split_ifs at hstr with hpart
      cases hstr
      exact (masked_redact _ _).trans (ih hrest)

/-! ## When the captured ranges are masked -/

theorem masks_nil (raw : JsString) : Masks toLowerCase [] raw :=
  ⟨raw, rfl, by simp [captured]⟩

/-- A list of rules masks its ranges if its first rule masks its own, and the other rules mask
theirs in what it leaves. -/
theorem masks_cons {rule : IGitleaksRule} {rules : List IGitleaksRule} {raw str : JsString}
    (hstr : redactRuleSecret toLowerCase raw rule = some str)
    (hhidden : ∀ r ∈ secretRanges toLowerCase rule raw, Hidden star r str)
    (hrules : Masks toLowerCase rules str) : Masks toLowerCase (rule :: rules) raw := by
  obtain ⟨redacted, hredacted, hrest⟩ := hrules
  refine ⟨redacted, ?_, ?_⟩
  · rw [redactSecrets, List.foldlM_cons, hstr]
    exact hredacted
  · intro r hr
    simp only [captured, hstr, Option.map_some, Option.getD_some, List.mem_append] at hr
    rcases hr with hr | hr
    · exact (hhidden r hr).of_masked (masked_redactSecrets hredacted)
    · exact hrest r hr

/-- The first of the rules that mask their ranges leaves a text in which the others mask theirs. -/
theorem masks_of_masks_cons {rule : IGitleaksRule} {rules : List IGitleaksRule} {raw : JsString}
    (h : Masks toLowerCase (rule :: rules) raw) :
    ∃ str, redactRuleSecret toLowerCase raw rule = some str ∧ Masks toLowerCase rules str := by
  obtain ⟨redacted, hredacted, hhidden⟩ := h
  rw [redactSecrets, List.foldlM_cons] at hredacted
  obtain ⟨str, hstr, hrest⟩ := Option.bind_eq_some_iff.mp hredacted
  refine ⟨str, hstr, redacted, hrest, ?_⟩
  intro r hr
  apply hhidden
  simp [captured, hstr, hr]

/-- A rule alone masks its ranges exactly when its secrets are in place. -/
theorem masks_singleton_iff (rule : IGitleaksRule) (raw : JsString) :
    Masks toLowerCase [rule] raw ↔
      (∀ m ∈ matchesOf toLowerCase rule raw, (m.rangeOf rule.group).isSome = true) ∧
        InPlace star (secretRanges toLowerCase rule raw) raw := by
  have hrule := redactRuleSecret_eq toLowerCase rule raw
  rw [← hidden_iff_inPlace (ordered_secretRanges rule raw)]
  constructor
  · rintro ⟨redacted, hredacted, hhidden⟩
    rw [redactSecrets, List.foldlM_cons, hrule] at hredacted
    split_ifs at hredacted with hpart
    · cases hredacted
      refine ⟨hpart, ?_⟩
      intro r hr
      exact hhidden r (by simp [captured, hr])
    · simp at hredacted
  · rintro ⟨hpart, hhidden⟩
    rw [if_pos hpart] at hrule
    exact masks_cons hrule hhidden (masks_nil _)

variable (toLowerCase)

/-- **When secrets are redacted.** For all rules and texts: every range that a rule captures is all
stars after the rules, and after the first so many of them, if and only if each secret, unless it
is all stars, does not occur before the place where it is captured, in the text with the secrets
before it masked in place. -/
theorem masks_iff_inPlace (rules : List IGitleaksRule) (raw : JsString) :
    (∀ rules', rules' <+: rules → Masks toLowerCase rules' raw) ↔
      SecretsInPlace toLowerCase rules raw := by
  induction rules generalizing raw with
  | nil =>
      constructor
      · exact fun _ => trivial
      · intro _ rules' hpre
        rw [List.prefix_nil.mp hpre]
        exact masks_nil raw
  | cons rule rules ih =>
      constructor
      · intro h
        obtain ⟨hpart, hplace⟩ := (masks_singleton_iff rule raw).mp
          (h [rule] (List.prefix_iff_eq_take.mpr rfl))
        refine ⟨hpart, hplace, (ih _).mp ?_⟩
        intro rules' hpre
        obtain ⟨str, hstr, hmasks⟩ :=
          masks_of_masks_cons (h (rule :: rules') ((List.prefix_cons_inj rule).mpr hpre))
        rw [redactRuleSecret_eq, if_pos hpart,
          redact_of_inPlace (ordered_secretRanges rule raw) hplace] at hstr
        cases hstr
        exact hmasks
      · rintro ⟨hpart, hplace, hrest⟩ rules' hpre
        have hrule := redactRuleSecret_eq toLowerCase rule raw
        rw [if_pos hpart, redact_of_inPlace (ordered_secretRanges rule raw) hplace] at hrule
        rcases List.prefix_cons_iff.mp hpre with rfl | ⟨tail, rfl, htail⟩
        · exact masks_nil raw
        · exact masks_cons hrule (hidden_maskAll (ordered_secretRanges rule raw)).2
            ((ih _).mpr hrest tail htail)

end

/-! ## A secret that stays -/

/-- `toLowerCase`, for ASCII. -/
def asciiToLowerCase (s : JsString) : JsString :=
  s.map fun u => if 0x41 ≤ u && u ≤ 0x5a then u + 0x20 else u

def ofChars (cs : List Char) : JsString := cs.map fun c => c.val.toUInt16

def airtableKey : JsString :=
  ofChars ['a', '1', 'b', '2', 'c', '3', 'd', '4', 'e', '5', 'f', '6', 'g', '7', 'h', '8', 'i']

def airtable : JsString := ofChars ['a', 'i', 'r', 't', 'a', 'b', 'l', 'e']

/-- The key on a line of its own, and once more after `airtable=`. -/
def airtableText : JsString :=
  airtableKey ++ ofChars ['\n'] ++ airtable ++ ofChars ['='] ++ airtableKey

/-- What the expression of the rule `airtable-api-key` finds in that text. -/
def airtableRegExp : RegExp where
  matchAll str :=
    if str = airtableText then
      [{ range := ⟨18, 44⟩, groups := fun group => if group = 1 then some ⟨27, 44⟩ else none }]
    else []
  ordered str := by
    split_ifs with h
    · subst h
      exact ⟨by decide, by simp⟩
    · exact ⟨by simp, by simp⟩
  nested str m hm group r hr := by
    split_ifs at hm with h
    · obtain rfl := List.mem_singleton.mp hm
      by_cases hg : group = 1
      · simp only [hg, if_true] at hr
        cases hr
        decide
      · simp [hg] at hr
    · cases hm

def airtableRule : IGitleaksRule where
  id := "airtable-api-key"
  secretGroup := some 1
  keywords := some [airtable]
  compiledRegex := some airtableRegExp

/-- The line with the key alone is redacted, and the key after `airtable=` is not. -/
theorem not_masks_of_earlier_occurrence :
    ¬ Masks asciiToLowerCase [airtableRule] airtableText := by
  rintro ⟨redacted, hredacted, hhidden⟩
  have hresult : redactSecrets asciiToLowerCase [airtableRule] airtableText =
      some (List.replicate 17 star ++ airtableText.drop 17) := by decide
  rw [hresult] at hredacted
  cases hredacted
  have hkey := hhidden ⟨27, 44⟩ (by decide) 27 (by decide) (by decide)
  exact absurd hkey (by decide)

end KhulnasoftLsp.Redaction
