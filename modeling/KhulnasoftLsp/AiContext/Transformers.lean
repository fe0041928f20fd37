import KhulnasoftLsp.AiContext.Manager
import KhulnasoftLsp.Redaction.SecretRedactor

/-!
# What leaves the context manager

Before the content of a context item is sent to the model it goes through the contributed
transformers: one redacts the secrets in it, the other empties an item that is binary. They are
collected by the container, in whichever order it creates them, and each gets what the one before
has made of the item. The redactor can throw; the manager then drops the content.

The check for binary content looks for control characters, which the redactor may have written
over, and it accepts any text that has a byte order mark in front. `released_of_retrieve` says what
an item can have become in the end, for every list of transformers.
-/

namespace KhulnasoftLsp.AiContext

open Masking Redaction

/-! ## Binary content -/

def BINARY_CHECK_BYTES : Nat := 8192

def startsWith (searchString content : JsString) : Bool := searchString.isPrefixOf content

/-- `'%PDF-'` -/
def pdfHeader : JsString := [0x25, 0x50, 0x44, 0x46, 0x2d]

/-- `CONTROL_CHARS_REGEX` -/
def isControlChar (u : UInt16) : Bool :=
  u ≤ 0x08 || u == 0x0b || u == 0x0c || (0x0e ≤ u && u ≤ 0x1f)

/-- The marks that `isBinaryContent` looks for first. -/
def hasByteOrderMark (content : JsString) : Bool :=
  startsWith [0xfeff] content || startsWith [0xfffe] content || startsWith [0xfeff] content

def isBinaryContent (content : JsString) : Bool :=
  if hasByteOrderMark content then false
  else if startsWith pdfHeader content then true
  else
    (content.take BINARY_CHECK_BYTES).any (· == 0) ||
      (content.take BINARY_CHECK_BYTES).any isControlChar

/-! ## The transformers -/

/-- The fields of an `AIContextItemMetadata` that are read on the way out of the manager. -/
structure ItemMetadata where
  enabled : Bool
  disabledReasons : Option (List String)
  subType : AIContextProviderType
  deriving DecidableEq, Repr

/-- An `AIContextItem` as the providers return it on retrieval. -/
structure ItemWithContent where
  id : String
  content : Option JsString
  metadata : ItemMetadata
  deriving DecidableEq, Repr

/-- `transform` of a transformer, with `none` if its promise rejects. -/
abbrev AiContextTransformer := ItemWithContent → Option ItemWithContent

def BINARY_FILE_DISABLED_REASON : String := "Binary files are unsupported"

/-- What the transformer makes of a binary item. -/
def ItemWithContent.disabled (context : ItemWithContent) : ItemWithContent :=
  { context with
    content := some []
    metadata := { context.metadata with
      enabled := false
      disabledReasons := some
        (context.metadata.disabledReasons.getD [] ++ [BINARY_FILE_DISABLED_REASON]) } }

def DefaultBinaryFileTransformer.transform : AiContextTransformer := fun context =>
  match context.content with
  | none | some [] => some context
  | some content => if isBinaryContent content then some context.disabled else some context

section

variable (redact : JsString → Option JsString) (enableSecretRedaction : Bool)

/-- `redact` is `redactSecrets` of the redactor, which throws on some texts. -/
def DefaultSecretContextTransformer.transform : AiContextTransformer := fun context =>
  match context.content with
  | none | some [] => some context
  | some content =>
    if !enableSecretRedaction then some context
    else
      (redact content).map fun redactedContent => { context with content := some redactedContent }

def DefaultAiContextTransformerService.transform (transformers : List AiContextTransformer) :
    AiContextTransformer := fun contextItem =>
  transformers.foldlM (fun transformedItem transformer => transformer transformedItem) contextItem

/-- The transformers of `aiContextManagementContributions`. -/
inductive Contribution where
  | secretContextTransformer
  | binaryFileTransformer
  deriving DecidableEq, Repr

def Contribution.transform : Contribution → AiContextTransformer
  | .secretContextTransformer => DefaultSecretContextTransformer.transform redact
      enableSecretRedaction
  | .binaryFileTransformer => DefaultBinaryFileTransformer.transform

/-- `#transformItemContent` -/
def transformItemContent (transformers : List AiContextTransformer) (item : ItemWithContent) :
    ItemWithContent :=
  match DefaultAiContextTransformerService.transform transformers item with
  | some transformedItem => transformedItem
  | none => { item with content := none }

/-- `retrieveContextItemsWithContent`, given what each of the available providers returns, with
`none` if its promise rejects. -/
def retrieveContextItemsWithContent (featureType : AIRequestFeatureType)
    (transformers : List AiContextTransformer)
    (providersWithContext : List (Option (List (Option ItemWithContent)))) :
    Option (List ItemWithContent) :=
  if featureType = .codeSuggestions then none
  else do
    let providersWithContext ← providersWithContext.mapM id
    let contextItems := providersWithContext.flatten.reduceOption
    return contextItems.map (transformItemContent transformers)

/-- `getItemWithContent`, given the available providers with theirs. -/
def getItemWithContent (transformers : List AiContextTransformer)
    (availableProviders : List (AIContextProviderType × AiContextTransformer))
    (item : ItemWithContent) : Option ItemWithContent := do
  let provider ← availableProviders.find? fun p => decide (p.1 = item.metadata.subType)
  let itemWithContent ← provider.2 item
  return transformItemContent transformers itemWithContent

/-! ## What an item has become -/

/-- The text after it went through the redactor a number of times. -/
def redactTimes : Nat → JsString → Option JsString
  | 0, content => some content
  | n + 1, content => (redact content).bind (redactTimes n)

/-- How often the transformers send a text through the redactor. -/
def redactions (contributions : List Contribution) : Nat :=
  if enableSecretRedaction then contributions.count .secretContextTransformer else 0

/-- What the manager may return for an item. -/
inductive Released (contributions : List Contribution) (item : ItemWithContent) :
    ItemWithContent → Prop
  /-- There is nothing to send. -/
  | empty (h : item.content = none ∨ item.content = some []) :
    Released contributions item item
  /-- The redactor threw. -/
  | excluded {content : JsString} {n : Nat} (h : item.content = some content)
    (hn : n ≤ redactions enableSecretRedaction contributions)
    (hthrows : redactTimes redact n content = none) :
    Released contributions item { item with content := none }
  /-- The text was binary when it came to the transformer that looks for that. -/
  | disabled {content redacted : JsString} {n : Nat} (h : item.content = some content)
    (hcontributed : .binaryFileTransformer ∈ contributions)
    (hn : n ≤ redactions enableSecretRedaction contributions)
    (hredacted : redactTimes redact n content = some redacted)
    (hbinary : isBinaryContent redacted = true) :
    Released contributions item item.disabled
  /-- The text is sent as the redactor has left it. -/
  | redacted {content released : JsString} (h : item.content = some content)
    (hreleased : redactTimes redact (redactions enableSecretRedaction contributions) content =
      some released)
    (hmasked : Masked star content released)
    (hbinary : .binaryFileTransformer ∈ contributions → hasByteOrderMark content = false →
      isBinaryContent released = false) :
    Released contributions item { item with content := some released }

end

/-! ## Masks and binary content -/

section

variable {content masked : JsString}

theorem Masked.cons_of_ne_star {u : UInt16} (h : Masked star content (u :: masked))
    (hu : u ≠ star) : ∃ rest, content = u :: rest ∧ Masked star rest masked := by
  obtain ⟨x, rest, hx, hrest, rfl⟩ := List.forall₂_cons_right_iff.mp h
  rcases hx with rfl | hx
  · exact ⟨rest, rfl, hrest⟩
  · exact absurd hx hu

/-- What a masked text starts with, if there is no star in it, was not masked. -/
theorem Masked.startsWith {w : JsString} (h : Masked star content masked) (hw : star ∉ w)
    (hstarts : startsWith w masked = true) : AiContext.startsWith w content = true := by
  induction w generalizing content masked with
  | nil => rfl
  | cons u w ih =>
    cases masked with
    | nil => cases hstarts
    | cons v masked =>
      rw [AiContext.startsWith, List.isPrefixOf_cons_cons, Bool.and_eq_true, beq_iff_eq] at hstarts
      obtain ⟨rfl, hstarts⟩ := hstarts
      rw [List.mem_cons, not_or] at hw
      obtain ⟨rest, rfl, hrest⟩ := Masked.cons_of_ne_star h (Ne.symm hw.1)
      rw [AiContext.startsWith, List.isPrefixOf_cons_cons, Bool.and_eq_true]
      exact ⟨beq_self_eq_true u, ih hrest hw.2 hstarts⟩

/-- What is found in a masked text, if it is not a star, was there. -/
theorem Masked.any {p : UInt16 → Bool} (h : Masked star content masked) (hp : p star = false)
    (hany : masked.any p = true) : content.any p = true := by
  induction h with
  | nil => exact hany
  | cons hu _ ih =>
    rw [List.any_cons, Bool.or_eq_true] at hany ⊢
    rcases hany with hany | hany
    · rcases hu with rfl | rfl
      · exact .inl hany
      · rw [hp] at hany
        cases hany
    · exact .inr (ih hany)

/-- **Masking makes no text binary**, unless the text had a byte order mark that is masked. -/
theorem isBinaryContent_of_masked (h : Masked star content masked)
    (hbinary : isBinaryContent masked = true) (hmark : hasByteOrderMark content = false) :
    isBinaryContent content = true := by
  have htake := List.forall₂_take BINARY_CHECK_BYTES h
  rw [isBinaryContent] at hbinary
  rw [isBinaryContent, hmark]
  split_ifs at hbinary with hmasked hpdf
  · have hpdf : startsWith pdfHeader content = true := Masked.startsWith h (by decide) hpdf
    simp [hpdf]
  · rw [Bool.or_eq_true] at hbinary
    have hcontrol : ((content.take BINARY_CHECK_BYTES).any (· == 0) ||
        (content.take BINARY_CHECK_BYTES).any isControlChar) = true := by
      rw [Bool.or_eq_true]
      rcases hbinary with hzero | hcontrol
      · exact .inl (Masked.any htake (by decide) hzero)
      · exact .inr (Masked.any htake (by decide) hcontrol)
    simp [hcontrol]

end

/-! ## One item -/

section

variable {redact : JsString → Option JsString} {enableSecretRedaction : Bool}

/-- What a transformer does to an item with content. -/
theorem transform_binaryFile {item : ItemWithContent} {content : JsString}
    (h : item.content = some content) (hne : content ≠ []) :
    DefaultBinaryFileTransformer.transform item =
      if isBinaryContent content then some item.disabled else some item := by
  cases content with
  | nil => exact absurd rfl hne
  | cons u content => rw [DefaultBinaryFileTransformer.transform, h]

theorem transform_secret {item : ItemWithContent} {content : JsString}
    (h : item.content = some content) (hne : content ≠ []) :
    DefaultSecretContextTransformer.transform redact enableSecretRedaction item =
      if enableSecretRedaction then
        (redact content).map fun redactedContent => { item with content := some redactedContent }
      else some item := by
  cases content with
  | nil => exact absurd rfl hne
  | cons u content =>
    rw [DefaultSecretContextTransformer.transform, h]
    cases enableSecretRedaction <;> rfl

/-- An item without content goes through unchanged. -/
theorem transform_empty {item : ItemWithContent}
    (h : item.content = none ∨ item.content = some []) (contributions : List Contribution) :
    DefaultAiContextTransformerService.transform
      (contributions.map (·.transform redact enableSecretRedaction)) item = some item := by
  induction contributions with
  | nil => rfl
  | cons contribution contributions ih =>
    have hsame : contribution.transform redact enableSecretRedaction item = some item := by
      cases contribution with
      | secretContextTransformer =>
        show DefaultSecretContextTransformer.transform redact enableSecretRedaction item = _
        rw [DefaultSecretContextTransformer.transform]
        rcases h with h | h <;> rw [h]
      | binaryFileTransformer =>
        show DefaultBinaryFileTransformer.transform item = _
        rw [DefaultBinaryFileTransformer.transform]
        rcases h with h | h <;> rw [h]
    rw [DefaultAiContextTransformerService.transform, List.map_cons, List.foldlM_cons, hsame]
    exact ih

/-- A transformer that lets the item through leaves the rest to the others. -/
theorem transformItemContent_cons {transformer : AiContextTransformer}
    {transformers : List AiContextTransformer} {item : ItemWithContent} {content : JsString}
    (h : transformer item = some { item with content := some content }) :
    transformItemContent (transformer :: transformers) item =
      transformItemContent transformers { item with content := some content } := by
  rw [transformItemContent, transformItemContent, DefaultAiContextTransformerService.transform,
    List.foldlM_cons, h]
  rfl

theorem transformItemContent_of_throws {transformer : AiContextTransformer}
    {transformers : List AiContextTransformer} {item : ItemWithContent}
    (h : transformer item = none) :
    transformItemContent (transformer :: transformers) item = { item with content := none } := by
  rw [transformItemContent, DefaultAiContextTransformerService.transform, List.foldlM_cons, h]
  rfl

theorem transformItemContent_empty {item : ItemWithContent}
    (h : item.content = none ∨ item.content = some []) (contributions : List Contribution) :
    transformItemContent (contributions.map (·.transform redact enableSecretRedaction)) item =
      item := by
  rw [transformItemContent, transform_empty h]

/-- What is disabled has no content that another transformer looks at. -/
theorem transformItemContent_disabled {transformer : AiContextTransformer} {item : ItemWithContent}
    (h : transformer item = some item.disabled) (contributions : List Contribution) :
    transformItemContent (transformer ::
      contributions.map (·.transform redact enableSecretRedaction)) item = item.disabled := by
  rw [transformItemContent, DefaultAiContextTransformerService.transform, List.foldlM_cons, h]
  show (match DefaultAiContextTransformerService.transform
      (contributions.map (·.transform redact enableSecretRedaction)) item.disabled with
    | some transformedItem => transformedItem
    | none => { item with content := none }) = item.disabled
  rw [transform_empty (.inr rfl)]

theorem hasByteOrderMark_of_masked {content masked : JsString} (h : Masked star content masked)
    (hmark : hasByteOrderMark content = false) : hasByteOrderMark masked = false := by
  simp only [hasByteOrderMark, Bool.or_eq_false_iff] at hmark ⊢
  have hfeff : startsWith [0xfeff] masked = false := by
    rw [Bool.eq_false_iff]
    intro hstarts
    rw [Masked.startsWith h (by decide) hstarts] at hmark
    exact absurd hmark.2 nofun
  have hfffe : startsWith [0xfffe] masked = false := by
    rw [Bool.eq_false_iff]
    intro hstarts
    rw [Masked.startsWith h (by decide) hstarts] at hmark
    exact absurd hmark.1.2 nofun
  exact ⟨⟨hfeff, hfffe⟩, hfeff⟩

/-- One more transformer that has let the item through, since it is not binary. -/
theorem Released.cons_binaryFile {contributions : List Contribution}
    {item released : ItemWithContent} {content : JsString} (hcontent : item.content = some content)
    (hbinary : isBinaryContent content = false)
    (h : Released redact enableSecretRedaction contributions item released) :
    Released redact enableSecretRedaction (.binaryFileTransformer :: contributions) item
      released := by
  have hcount : redactions enableSecretRedaction (.binaryFileTransformer :: contributions) =
      redactions enableSecretRedaction contributions := by
    rw [redactions, redactions, List.count_cons_of_ne (by decide)]
  cases h with
  | empty h => exact .empty h
  | excluded h hn hthrows => exact .excluded h (hcount ▸ hn) hthrows
  | disabled h _ hn hredacted hbinary =>
    exact .disabled h List.mem_cons_self (hcount ▸ hn) hredacted hbinary
  | @redacted content' text h hreleased hmasked _ =>
    rw [hcontent, Option.some.injEq] at h
    subst h
    refine .redacted hcontent (hcount ▸ hreleased) hmasked ?_
    intro _ hmark
    rw [Bool.eq_false_iff]
    intro htext
    rw [isBinaryContent_of_masked hmasked htext hmark] at hbinary
    cases hbinary

/-- The setting lets the item through. -/
theorem Released.cons_secret_disabled {contributions : List Contribution}
    {item released : ItemWithContent} (h : Released redact false contributions item released) :
    Released redact false (.secretContextTransformer :: contributions) item released := by
  cases h with
  | empty h => exact .empty h
  | excluded h hn hthrows => exact .excluded h hn hthrows
  | disabled h hcontributed hn hredacted hbinary =>
    exact .disabled h (List.mem_cons_of_mem _ hcontributed) hn hredacted hbinary
  | redacted h hreleased hmasked hbinary =>
    refine .redacted h hreleased hmasked ?_
    intro hcontributed
    apply hbinary
    simpa using hcontributed

/-- One more pass through the redactor. -/
theorem Released.cons_secret {contributions : List Contribution}
    {item released : ItemWithContent} {content once : JsString}
    (hcontent : item.content = some content) (hne : once ≠ []) (honce : redact content = some once)
    (hmasked : Masked star content once)
    (h : Released redact true contributions { item with content := some once } released) :
    Released redact true (.secretContextTransformer :: contributions) item released := by
  have hcount : redactions true (.secretContextTransformer :: contributions) =
      redactions true contributions + 1 := by
    show List.count _ _ = List.count _ _ + 1
    rw [List.count_cons_self]
  have htimes : ∀ n, redactTimes redact (n + 1) content = redactTimes redact n once := by
    intro n
    rw [redactTimes, honce, Option.bind_some]
  cases h with
  | empty h =>
    rcases h with h | h
    · cases h
    · exact absurd (Option.some.inj h) hne
  | @excluded content' n h hn hthrows =>
    cases h
    refine .excluded (n := n + 1) hcontent ?_ ?_
    · rw [hcount]
      exact Nat.succ_le_succ hn
    · rw [htimes, hthrows]
  | @disabled content' text n h hcontributed hn hredacted hbinary =>
    cases h
    refine .disabled (n := n + 1) hcontent (List.mem_cons_of_mem _ hcontributed) ?_ ?_ hbinary
    · rw [hcount]
      exact Nat.succ_le_succ hn
    · rw [htimes, hredacted]
  | @redacted content' text h hreleased htext hbinary =>
    cases h
    refine .redacted hcontent ?_ (hmasked.trans htext) ?_
    · rw [hcount, htimes, hreleased]
    · intro hcontributed hmark
      apply hbinary
      · simpa using hcontributed
      · exact hasByteOrderMark_of_masked hmasked hmark

/-- The induction over the transformers, with what is left of them and of the item. -/
theorem released_of_content
    (hredact : ∀ raw redacted, redact raw = some redacted → Masked star raw redacted)
    (contributions : List Contribution) {item : ItemWithContent} {content : JsString}
    (h : item.content = some content) (hne : content ≠ []) :
    Released redact enableSecretRedaction contributions item
      (transformItemContent (contributions.map (·.transform redact enableSecretRedaction))
        item) := by
  induction contributions generalizing item content with
  | nil =>
    have hsame : transformItemContent [] item = { item with content := some content } := by
      show item = _
      rw [← h]
    rw [List.map_nil, hsame]
    refine .redacted h ?_ (Masked.refl content) nofun
    cases enableSecretRedaction <;> rfl
  | cons contribution contributions ih =>
    have hsame : some item = some { item with content := some content } := by rw [← h]
    cases contribution with
    | binaryFileTransformer =>
      by_cases hbinary : isBinaryContent content = true
      · have hdisabled : DefaultBinaryFileTransformer.transform item = some item.disabled := by
          rw [transform_binaryFile h hne, if_pos hbinary]
        rw [List.map_cons, Contribution.transform, transformItemContent_disabled hdisabled]
        exact .disabled h List.mem_cons_self (Nat.zero_le _) rfl hbinary
      · rw [Bool.not_eq_true] at hbinary
        have hthrough : DefaultBinaryFileTransformer.transform item =
            some { item with content := some content } := by
          rw [transform_binaryFile h hne, if_neg (by simp [hbinary]), hsame]
        rw [List.map_cons, Contribution.transform, transformItemContent_cons hthrough,
          ← Option.some.inj hsame]
        exact (ih h hne).cons_binaryFile h hbinary
    | secretContextTransformer =>
      rw [List.map_cons, Contribution.transform]
      cases enableSecretRedaction with
      | false =>
        have hthrough : DefaultSecretContextTransformer.transform redact false item =
            some { item with content := some content } := by
          rw [transform_secret h hne, hsame]
          rfl
        rw [transformItemContent_cons hthrough, ← Option.some.inj hsame]
        exact (ih h hne).cons_secret_disabled
      | true =>
        have htransform : DefaultSecretContextTransformer.transform redact true item =
            (redact content).map fun redactedContent =>
              { item with content := some redactedContent } := transform_secret h hne
        cases honce : redact content with
        | none =>
          rw [honce] at htransform
          rw [transformItemContent_of_throws htransform]
          refine .excluded (n := 1) h ?_ ?_
          · show 1 ≤ List.count _ _
            rw [List.count_cons_self]
            exact Nat.succ_le_succ (Nat.zero_le _)
          · rw [redactTimes, honce, Option.bind_none]
        | some once =>
          have hmasked := hredact content once honce
          have honce_ne : once ≠ [] := by
            intro hempty
            subst hempty
            exact hne (List.forall₂_nil_right_iff.mp hmasked)
          rw [honce] at htransform
          rw [transformItemContent_cons htransform]
          exact (ih rfl honce_ne).cons_secret h honce_ne honce hmasked

theorem released_transformItemContent
    (hredact : ∀ raw redacted, redact raw = some redacted → Masked star raw redacted)
    (contributions : List Contribution) (item : ItemWithContent) :
    Released redact enableSecretRedaction contributions item
      (transformItemContent (contributions.map (·.transform redact enableSecretRedaction))
        item) := by
  cases h : item.content with
  | none =>
    rw [transformItemContent_empty (.inl h)]
    exact .empty (.inl h)
  | some content =>
    by_cases hne : content = []
    · subst hne
      rw [transformItemContent_empty (.inr h)]
      exact .empty (.inr h)
    · exact released_of_content hredact contributions h hne

end

/-! ## All items -/

section

variable (toLowerCase : JsString → JsString) (rules : List IGitleaksRule)
  (enableSecretRedaction : Bool)

/-- The contributed transformers, with the rules of the redactor. -/
def transformersOf (contributions : List Contribution) : List AiContextTransformer :=
  contributions.map (·.transform (redactSecrets toLowerCase rules) enableSecretRedaction)

theorem mapM_id_eq_some {α : Type} {l : List (Option α)} {l' : List α} (h : l.mapM id = some l') :
    l = l'.map some := by
  induction l generalizing l' with
  | nil =>
    cases h
    rfl
  | cons a l ih =>
    rw [List.mapM_cons] at h
    obtain ⟨x, rfl, hrest⟩ := Option.bind_eq_some_iff.mp h
    obtain ⟨rest, hl, hx⟩ := Option.bind_eq_some_iff.mp hrest
    cases hx
    rw [List.map_cons, ih hl]

/-- **What leaves the manager** for a chat request: each item that the providers return, in their
order. Whatever the transformers are and in whichever order they were created, its content is left
out if the redactor threw, is emptied if it was binary, and otherwise has gone through the redactor
as often as that is among them. -/
theorem released_of_retrieve {featureType : AIRequestFeatureType}
    {contributions : List Contribution}
    {providersWithContext : List (Option (List (Option ItemWithContent)))}
    {items : List ItemWithContent}
    (h : retrieveContextItemsWithContent featureType
      (transformersOf toLowerCase rules enableSecretRedaction contributions)
      providersWithContext = some items) :
    ∃ retrieved : List (List (Option ItemWithContent)),
      providersWithContext = retrieved.map some ∧
      List.Forall₂
        (Released (redactSecrets toLowerCase rules) enableSecretRedaction contributions)
        retrieved.flatten.reduceOption items := by
  rw [retrieveContextItemsWithContent, Option.ite_none_left_eq_some] at h
  obtain ⟨-, h⟩ := h
  obtain ⟨retrieved, hretrieved, h⟩ := Option.bind_eq_some_iff.mp h
  cases h
  refine ⟨retrieved, mapM_id_eq_some hretrieved, ?_⟩
  rw [List.forall₂_map_right_iff, List.forall₂_same]
  intro item _
  exact released_transformItemContent (fun _ _ => masked_redactSecrets) contributions item

/-- The content of one item, for its preview. -/
theorem released_of_getItemWithContent {contributions : List Contribution}
    {availableProviders : List (AIContextProviderType × AiContextTransformer)}
    {item released : ItemWithContent}
    (h : getItemWithContent (transformersOf toLowerCase rules enableSecretRedaction contributions)
      availableProviders item = some released) :
    ∃ provider ∈ availableProviders, ∃ itemWithContent,
      provider.1 = item.metadata.subType ∧ provider.2 item = some itemWithContent ∧
        Released (redactSecrets toLowerCase rules) enableSecretRedaction contributions
          itemWithContent released := by
  obtain ⟨provider, hprovider, h⟩ := Option.bind_eq_some_iff.mp h
  obtain ⟨itemWithContent, hitem, h⟩ := Option.bind_eq_some_iff.mp h
  cases h
  have hsubType := List.find?_some hprovider
  rw [decide_eq_true_eq] at hsubType
  exact ⟨provider, List.mem_of_find?_eq_some hprovider, itemWithContent, hsubType, hitem,
    released_transformItemContent (fun _ _ => masked_redactSecrets) contributions itemWithContent⟩

end

section

variable {redact : JsString → Option JsString} {enableSecretRedaction : Bool}
  {contributions : List Contribution} {item released : ItemWithContent}

/-- No item turns into another. -/
theorem Released.id_eq (h : Released redact enableSecretRedaction contributions item released) :
    released.id = item.id := by
  cases h <;> rfl

/-- **Nothing leaves unredacted**: with the redactor contributed once and its setting on, text that
is sent is the redaction of the text that the provider had returned. -/
theorem Released.redact_eq (h : Released redact true contributions item released)
    (honce : contributions.count .secretContextTransformer = 1) {u : UInt16} {text : JsString}
    (htext : released.content = some (u :: text)) :
    ∃ content, item.content = some content ∧ redact content = some (u :: text) := by
  cases h with
  | empty h => rcases h with h | h <;> · rw [h] at htext; cases htext
  | excluded => cases htext
  | disabled => cases htext
  | @redacted content _ hcontent hreleased _ _ =>
    cases htext
    refine ⟨content, hcontent, ?_⟩
    rw [redactions, if_pos rfl, honce] at hreleased
    obtain ⟨once, hredact, hsame⟩ := Option.bind_eq_some_iff.mp hreleased
    cases hsame
    exact hredact

/-- **No binary text leaves**, unless the provider had returned it with a byte order mark. -/
theorem Released.not_binary
    (h : Released redact enableSecretRedaction contributions item released)
    (hcontributed : .binaryFileTransformer ∈ contributions) {content text : JsString}
    (hcontent : item.content = some content) (hmark : hasByteOrderMark content = false)
    (htext : released.content = some text) : isBinaryContent text = false := by
  cases h with
  | empty h =>
    rcases h with h | h
    · rw [h] at htext
      cases htext
    · rw [h] at htext
      cases htext
      rfl
  | excluded => cases htext
  | disabled =>
    cases htext
    rfl
  | redacted h _ _ hbinary =>
    cases htext
    rw [h] at hcontent
    cases hcontent
    exact hbinary hcontributed hmark

end

/-- An open tab with a key in it, next to an item that is `undefined`. -/
theorem released_of_airtable : ∃ items,
    retrieveContextItemsWithContent .duoChat
        (transformersOf asciiToLowerCase [airtableRule] true
          [.secretContextTransformer, .binaryFileTransformer])
        [some [some ⟨"a", some airtableText, ⟨true, none, .openTab⟩⟩, none]] = some items ∧
      ∃ retrieved : List (List (Option ItemWithContent)),
        [some [some ⟨"a", some airtableText, ⟨true, none, .openTab⟩⟩, none]] = retrieved.map some ∧
        List.Forall₂
          (Released (redactSecrets asciiToLowerCase [airtableRule]) true
            [.secretContextTransformer, .binaryFileTransformer])
          retrieved.flatten.reduceOption items := by
  refine ⟨_, rfl, ?_⟩
  exact released_of_retrieve asciiToLowerCase [airtableRule] true
    (rfl : retrieveContextItemsWithContent .duoChat _ _ = some _)

end KhulnasoftLsp.AiContext
