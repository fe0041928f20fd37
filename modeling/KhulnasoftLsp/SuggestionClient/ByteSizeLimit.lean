import KhulnasoftLsp.Buffers
import KhulnasoftLsp.DocContext

/-!
# The byte size limit of a request

Before a request is sent, the document and the context items are cut down to a number of bytes. The
pre-processor pipeline does it with `ByteSizeLimitPreProcessor`, the advanced context with
`byteSizeLimitFilter`. Both keep items from the first one on, and trim the one that goes beyond the
limit.
-/

namespace KhulnasoftLsp.SuggestionClient

open JsString

/-- The other fields of an item are passed on as they are. -/
structure AIContextItem where
  id : String
  content : Option JsString
  deriving DecidableEq, Repr

/-- `resolution.content ?? ''` -/
def AIContextItem.text (resolution : AIContextItem) : JsString := resolution.content.getD []

structure PreProcessorItems where
  documentContext : IDocContext
  aiContextItems : List AIContextItem
  deriving DecidableEq, Repr

namespace ByteSizeLimit

/-- `CODE_SUGGESTIONS_REQUEST_BYTE_SIZE_LIMIT` -/
def codeSuggestionsRequestByteSizeLimit : Int := 50000

/-- `buffer.slice(0, end)` -/
def slice (buffer : List UInt8) (stop : Int) : List UInt8 :=
  if stop < 0 then buffer.take (buffer.length + stop).toNat else buffer.take stop.toNat

/-- Where the matches of `/\s+/g` start. -/
def separatorMatches (inMatch : Bool) (i : Nat) : JsString → List Nat
  | [] => []
  | u :: s =>
    if isWhitespace u && !inMatch then i :: separatorMatches true (i + 1) s
    else separatorMatches (isWhitespace u) (i + 1) s

/-- `[...s.matchAll(/\s+/g)].pop()?.index` -/
def lastSeparatorMatch (s : JsString) : Option Nat := (separatorMatches false 0 s).getLast?

def truncateToByteLimit (str : JsString) (byteLimit : Int) : JsString :=
  if byteSize str ≤ byteLimit then str
  else
    let truncated := ofBuffer (slice (toBuffer str) byteLimit)
    match lastSeparatorMatch truncated with
    | some i => truncated.take i
    | none => truncated

/-- What is kept of an item that has been trimmed. -/
def keepTrimmed (resolution : AIContextItem) (trimmedContent : JsString) : List AIContextItem :=
  if trimmedContent.length ≠ 0 then [{ resolution with content := some trimmedContent }] else []

/-- The loop of `process` over the items. -/
def fitResolutions (byteSizeLimit : Int) (currentTotalSize : Nat) :
    List AIContextItem → List AIContextItem
  | [] => []
  | resolution :: rest =>
    let resolutionBuffer := toBuffer resolution.text
    if (currentTotalSize + resolutionBuffer.length : Nat) > byteSizeLimit then
      let remainingSpace := byteSizeLimit - currentTotalSize
      if remainingSpace ≤ 0 then []
      else keepTrimmed resolution (ofBuffer (slice resolutionBuffer remainingSpace))
    else resolution ::
      fitResolutions byteSizeLimit (currentTotalSize + resolutionBuffer.length) rest

/-- `ByteSizeLimitPreProcessor.process` -/
def process (byteSizeLimit : Int) (items : PreProcessorItems) : PreProcessorItems :=
  let documentSize := byteSize (items.documentContext.prefixText ++ items.documentContext.suffix)
  if documentSize > byteSizeLimit then
    let trimmedDocument := truncateToByteLimit items.documentContext.suffix
      (byteSizeLimit - documentSize)
    { documentContext := { items.documentContext with suffix := trimmedDocument }
      aiContextItems := [] }
  else
    { items with aiContextItems := fitResolutions byteSizeLimit documentSize items.aiContextItems }

/-- The loop of `byteSizeLimitFilter`. -/
def filterResolutions (byteSizeLimit : Int) (currentTotalSize : Nat) :
    List AIContextItem → List AIContextItem
  | [] => []
  | resolution :: rest =>
    let currentTotalSize := currentTotalSize + byteSize resolution.text
    if currentTotalSize > byteSizeLimit then
      keepTrimmed resolution
        (ofBuffer (slice (toBuffer resolution.text) (byteSizeLimit - currentTotalSize)))
    else resolution :: filterResolutions byteSizeLimit currentTotalSize rest

def byteSizeLimitFilter (byteSizeLimit : Int) (documentContext : IDocContext)
    (contextResolutions : List AIContextItem) : List AIContextItem :=
  filterResolutions byteSizeLimit (byteSize (documentContext.prefixText ++ documentContext.suffix))
    contextResolutions

/-! ## The two ways to trim an item -/

/-- Cutting off what goes beyond the limit leaves what there is room for. -/
theorem slice_overshoot (buffer : List UInt8) {room : Int} (h : room < buffer.length) :
    slice buffer (room - buffer.length) = buffer.take room.toNat := by
  rw [slice, if_pos (by omega)]
  congr 2
  omega

theorem slice_of_nonneg (buffer : List UInt8) {room : Int} (h : 0 ≤ room) :
    slice buffer room = buffer.take room.toNat := if_neg (by omega)

theorem fitResolutions_cons (byteSizeLimit : Int) (currentTotalSize : Nat)
    (resolution : AIContextItem) (rest : List AIContextItem) :
    fitResolutions byteSizeLimit currentTotalSize (resolution :: rest) =
      if currentTotalSize + byteSize resolution.text > byteSizeLimit then
        keepTrimmed resolution
          (ofBuffer ((toBuffer resolution.text).take (byteSizeLimit - currentTotalSize).toNat))
      else resolution ::
        fitResolutions byteSizeLimit (currentTotalSize + byteSize resolution.text) rest := by
  rw [fitResolutions]
  show (if ((currentTotalSize + byteSize resolution.text : Nat) : Int) > _ then
    if byteSizeLimit - currentTotalSize ≤ 0 then [] else _ else _) = _
  rw [Int.natCast_add]
  congr 1
  split
  · next hfull =>
    rw [Int.toNat_of_nonpos hfull, List.take_zero]
    rfl
  · next hroom => rw [slice_of_nonneg _ (by omega)]

theorem filterResolutions_cons (byteSizeLimit : Int) (currentTotalSize : Nat)
    (resolution : AIContextItem) (rest : List AIContextItem) :
    filterResolutions byteSizeLimit currentTotalSize (resolution :: rest) =
      if currentTotalSize + byteSize resolution.text > byteSizeLimit then
        keepTrimmed resolution
          (ofBuffer ((toBuffer resolution.text).take (byteSizeLimit - currentTotalSize).toNat))
      else resolution ::
        filterResolutions byteSizeLimit (currentTotalSize + byteSize resolution.text) rest := by
  rw [filterResolutions, Int.natCast_add]
  split
  · next hexceeds =>
    have hroom : byteSizeLimit - currentTotalSize < (toBuffer resolution.text).length := by
      rw [byteSize] at hexceeds
      omega
    rw [← Int.sub_sub, byteSize, slice_overshoot _ hroom]
  · rfl

theorem filterResolutions_of_full {byteSizeLimit : Int} {currentTotalSize : Nat}
    (h : byteSizeLimit < currentTotalSize) (resolutions : List AIContextItem) :
    filterResolutions byteSizeLimit currentTotalSize resolutions = [] := by
  cases resolutions with
  | nil => rfl
  | cons resolution rest =>
    rw [filterResolutions_cons, if_pos (by omega), Int.toNat_of_nonpos (by omega),
      List.take_zero]
    rfl

theorem filterResolutions_eq_fitResolutions (byteSizeLimit : Int) (currentTotalSize : Nat)
    (resolutions : List AIContextItem) :
    filterResolutions byteSizeLimit currentTotalSize resolutions =
      fitResolutions byteSizeLimit currentTotalSize resolutions := by
  induction resolutions generalizing currentTotalSize with
  | nil => rfl
  | cons resolution rest ih => rw [filterResolutions_cons, fitResolutions_cons, ih]

/-- Whether the items are cut down by the pre-processor or by the filter of the advanced context
makes no difference. -/
theorem byteSizeLimitFilter_eq_process (byteSizeLimit : Int) (documentContext : IDocContext)
    (contextResolutions : List AIContextItem) :
    byteSizeLimitFilter byteSizeLimit documentContext contextResolutions =
      (process byteSizeLimit
        { documentContext, aiContextItems := contextResolutions }).aiContextItems := by
  rw [byteSizeLimitFilter, process]
  dsimp only
  split
  · next hdocument => exact filterResolutions_of_full hdocument _
  · next hdocument => exact filterResolutions_eq_fitResolutions _ _ _

/-! ## The size of what is left -/

def resolutionsSize : List AIContextItem → Nat
  | [] => 0
  | resolution :: rest => byteSize resolution.text + resolutionsSize rest

/-- The bytes of the document and of all contents. -/
def totalSize (items : PreProcessorItems) : Nat :=
  byteSize (items.documentContext.prefixText ++ items.documentContext.suffix) +
    resolutionsSize items.aiContextItems

/-- A string that is cut after so many bytes does not grow: not just one or two bytes of a
character are left of it, which would be replaced by a character of three. -/
def CutsCleanly (room : Nat) (str : JsString) : Prop :=
  Utf8.leftOver room str.toChars = 0 ∨ Utf8.leftOver room str.toChars = 3

instance (room : Nat) (str : JsString) : Decidable (CutsCleanly room str) :=
  inferInstanceAs (Decidable (_ ∨ _))

/-- The limit does not fall into the first two bytes of a character of more bytes. -/
def ResolutionsCutCleanly (byteSizeLimit : Int) (currentTotalSize : Nat) :
    List AIContextItem → Prop
  | [] => True
  | resolution :: rest =>
    if currentTotalSize + byteSize resolution.text ≤ byteSizeLimit then
      ResolutionsCutCleanly byteSizeLimit (currentTotalSize + byteSize resolution.text) rest
    else CutsCleanly (byteSizeLimit - currentTotalSize).toNat resolution.text

theorem byteSize_ofBuffer_take (room : Nat) (str : JsString) :
    byteSize (ofBuffer ((toBuffer str).take room)) =
      byteSize (ofChars (Utf8.wholeChars room str.toChars)) +
        if Utf8.leftOver room str.toChars = 0 then 0 else 3 := by
  have hreplacement : (Utf8.encode [Utf8.replacement]).length = 3 := by decide
  rw [ofBuffer, byteSize_ofChars, byteSize_ofChars, toBuffer, Utf8.decode_take_encode,
    Utf8.encode_append, List.length_append]
  split
  · rfl
  · rw [hreplacement]

theorem byteSize_whole_add_leftOver {room : Nat} {str : JsString} (h : room ≤ byteSize str) :
    byteSize (ofChars (Utf8.wholeChars room str.toChars)) +
      Utf8.leftOver room str.toChars = room := by
  rw [byteSize_ofChars, Utf8.length_wholeChars_add_leftOver]
  exact min_eq_left h

theorem byteSize_ofBuffer_take_le_iff {room : Nat} {str : JsString} (h : room ≤ byteSize str) :
    byteSize (ofBuffer ((toBuffer str).take room)) ≤ room ↔ CutsCleanly room str := by
  have hsize := byteSize_whole_add_leftOver h
  have hlt := Utf8.leftOver_lt room str.toChars
  rw [byteSize_ofBuffer_take, CutsCleanly]
  split <;> omega

theorem resolutionsSize_keepTrimmed (resolution : AIContextItem) (trimmedContent : JsString) :
    resolutionsSize (keepTrimmed resolution trimmedContent) = byteSize trimmedContent := by
  rw [keepTrimmed]
  split
  · rfl
  · next hempty =>
    obtain rfl : trimmedContent = [] := by simpa using hempty
    rfl

theorem fitResolutions_size_le_iff {byteSizeLimit : Int} {currentTotalSize : Nat}
    (h : currentTotalSize ≤ byteSizeLimit) (resolutions : List AIContextItem) :
    currentTotalSize + resolutionsSize (fitResolutions byteSizeLimit currentTotalSize resolutions)
        ≤ byteSizeLimit ↔
      ResolutionsCutCleanly byteSizeLimit currentTotalSize resolutions := by
  induction resolutions generalizing currentTotalSize with
  | nil => simp [fitResolutions, resolutionsSize, ResolutionsCutCleanly, h]
  | cons resolution rest ih =>
    rw [fitResolutions_cons, ResolutionsCutCleanly]
    by_cases hfits : currentTotalSize + byteSize resolution.text ≤ byteSizeLimit
    · rw [if_neg (by omega), if_pos hfits, ← ih hfits, resolutionsSize]
      omega
    · rw [if_pos (by omega), if_neg hfits, resolutionsSize_keepTrimmed,
        ← byteSize_ofBuffer_take_le_iff (by omega)]
      omega

/-! ## The document -/

/-- The document is too large, and what is cut off it is enough. `room` bytes are left for the
suffix, `kept` holds the characters that have room as a whole. If it has white space, what follows
the last of it is dropped too. -/
def DocumentCutsCleanly (byteSizeLimit : Int) (documentContext : IDocContext) : Prop :=
  let prefixText := documentContext.prefixText
  let suffix := documentContext.suffix
  let room := (byteSize suffix + byteSizeLimit - byteSize (prefixText ++ suffix)).toNat
  let kept := ofChars (Utf8.wholeChars room suffix.toChars)
  byteSize prefixText ≤ byteSizeLimit ∧
    match lastSeparatorMatch kept with
    | none => ¬ SplitsPair prefixText suffix ∧ CutsCleanly room suffix
    -- the halves of a pair count two bytes more than the pair, and these must be dropped
    | some i => SplitsPair prefixText suffix →
        2 ≤ byteSize (kept.drop i) + Utf8.leftOver room suffix.toChars

/-- What the limit asks of its input. -/
def CutsToLimit (byteSizeLimit : Int) (items : PreProcessorItems) : Prop :=
  let documentSize := byteSize (items.documentContext.prefixText ++ items.documentContext.suffix)
  if documentSize > byteSizeLimit then DocumentCutsCleanly byteSizeLimit items.documentContext
  else ResolutionsCutCleanly byteSizeLimit documentSize items.aiContextItems

theorem separatorMatches_append_of_not_whitespace {u : UInt16} (hu : isWhitespace u = false)
    (inMatch : Bool) (i : Nat) (s : JsString) :
    separatorMatches inMatch i (s ++ [u]) = separatorMatches inMatch i s := by
  induction s generalizing inMatch i with
  | nil => simp [separatorMatches, hu]
  | cons v s ih =>
    rw [List.cons_append, separatorMatches, separatorMatches]
    split
    · rw [ih]
    · exact ih _ _

theorem whitespace_of_mem_separatorMatches {inMatch : Bool} {i k : Nat} {s : JsString}
    (h : k ∈ separatorMatches inMatch i s) :
    i ≤ k ∧ ∃ u, s[k - i]? = some u ∧ isWhitespace u = true := by
  induction s generalizing inMatch i with
  | nil => simp [separatorMatches] at h
  | cons v s ih =>
    have hrest : ∀ {inMatch}, k ∈ separatorMatches inMatch (i + 1) s →
        i ≤ k ∧ ∃ u, (v :: s)[k - i]? = some u ∧ isWhitespace u = true := by
      intro inMatch hmem
      obtain ⟨hle, u, hu, hwhitespace⟩ := ih hmem
      refine ⟨by omega, u, ?_, hwhitespace⟩
      rw [show k - i = k - (i + 1) + 1 by omega, List.getElem?_cons_succ]
      exact hu
    rw [separatorMatches] at h
    split at h
    · next hv =>
      obtain rfl | hmem := List.mem_cons.mp h
      · refine ⟨le_rfl, v, by simp, ?_⟩
        simp only [Bool.and_eq_true] at hv
        exact hv.1
      · exact hrest hmem
    · exact hrest h

theorem isLowSurrogate_of_whitespace {u : UInt16} (h : isWhitespace u = true) :
    isLowSurrogate u = false := by
  simp [isWhitespace, isLowSurrogate, UInt16.le_iff_toNat_le, ← UInt16.toNat_inj] at h ⊢
  omega

/-- What is left of the suffix before white space is looked for. -/
theorem ofBuffer_take_eq (room : Nat) (str : JsString) :
    ofBuffer ((toBuffer str).take room) =
      ofChars (Utf8.wholeChars room str.toChars) ++
        if Utf8.leftOver room str.toChars = 0 then [] else [0xfffd] := by
  have hreplacement : ofChars [Utf8.replacement] = [0xfffd] := by decide
  rw [ofBuffer, toBuffer, Utf8.decode_take_encode, ofChars_append]
  split
  · rfl
  · rw [hreplacement]

theorem lastSeparatorMatch_ofBuffer_take (room : Nat) (str : JsString) :
    lastSeparatorMatch (ofBuffer ((toBuffer str).take room)) =
      lastSeparatorMatch (ofChars (Utf8.wholeChars room str.toChars)) := by
  rw [ofBuffer_take_eq]
  split
  · rw [List.append_nil]
  · rw [lastSeparatorMatch, separatorMatches_append_of_not_whitespace (by decide)]
    rfl

/-- The text before a match and the one from it on do not share a character. -/
theorem byteSize_take_add_drop {s : JsString} {i : Nat} (h : lastSeparatorMatch s = some i) :
    i < s.length ∧ byteSize (s.take i) + byteSize (s.drop i) = byteSize s := by
  obtain ⟨hle, u, hu, hwhitespace⟩ :=
    whitespace_of_mem_separatorMatches (List.mem_of_getLast? h)
  obtain ⟨hlt, -⟩ := List.getElem?_eq_some_iff.mp hu
  have hcut : ¬ SplitsPair (s.take i) (s.drop i) := by
    apply not_splitsPair_of_head?
    intro v hv
    rw [List.head?_drop] at hv
    obtain rfl : u = v := by
      rw [Nat.sub_zero, hv] at hu
      exact (Option.some.inj hu).symm
    exact isLowSurrogate_of_whitespace hwhitespace
  refine ⟨by omega, ?_⟩
  rw [← byteSize_append hcut, List.take_append_drop]

section Document

variable {byteSizeLimit : Int} {documentContext : IDocContext}

theorem truncateToByteLimit_of_neg {str : JsString} {overshoot : Int} (h : overshoot < 0) :
    truncateToByteLimit str overshoot =
      let truncated := ofBuffer ((toBuffer str).take (byteSize str + overshoot).toNat)
      match lastSeparatorMatch truncated with
      | some i => truncated.take i
      | none => truncated := by
  rw [truncateToByteLimit, if_neg (by omega), slice, if_pos h]
  rfl

theorem byteSize_document_append (prefixText : JsString) {suffix : JsString} {text : List Char}
    (i : Nat) (h : suffix = (ofChars text).take i) :
    byteSize (prefixText ++ suffix) = byteSize prefixText + byteSize suffix := by
  apply byteSize_append
  apply not_splitsPair_of_head?
  intro u hu
  rw [h, List.head?_take] at hu
  split at hu
  · simp at hu
  · exact head?_ofChars_not_low hu

theorem documentSize_eq (prefixText suffix : JsString) :
    byteSize (prefixText ++ suffix) + (if SplitsPair prefixText suffix then 2 else 0) =
      byteSize prefixText + byteSize suffix := by
  split
  · next hsplits => exact byteSize_append_of_splitsPair hsplits
  · next hsplits => exact byteSize_append hsplits

theorem truncated_size_le_iff
    (h : byteSizeLimit < byteSize (documentContext.prefixText ++ documentContext.suffix)) :
    byteSize (documentContext.prefixText ++ truncateToByteLimit documentContext.suffix
        (byteSizeLimit - byteSize (documentContext.prefixText ++ documentContext.suffix))) ≤
          byteSizeLimit ↔
      DocumentCutsCleanly byteSizeLimit documentContext := by
  have hdocument := documentSize_eq documentContext.prefixText documentContext.suffix
  rw [DocumentCutsCleanly, truncateToByteLimit_of_neg (by omega), ← Int.add_sub_assoc]
  dsimp only
  generalize hroom : (byteSize documentContext.suffix + byteSizeLimit -
    byteSize (documentContext.prefixText ++ documentContext.suffix) : Int).toNat = room
  have hsize := byteSize_whole_add_leftOver
    (show room ≤ byteSize documentContext.suffix by omega)
  have hlt := Utf8.leftOver_lt room documentContext.suffix.toChars
  rw [lastSeparatorMatch_ofBuffer_take]
  cases hmatch : lastSeparatorMatch
      (ofChars (Utf8.wholeChars room documentContext.suffix.toChars)) with
  | none =>
    have htruncated := byteSize_document_append documentContext.prefixText _
      (List.take_length (l := ofBuffer ((toBuffer documentContext.suffix).take room))).symm
    show ((byteSize (_ ++ ofBuffer _) : Nat) : Int) ≤ _ ↔ _
    rw [htruncated, byteSize_ofBuffer_take, CutsCleanly]
    by_cases hsplits : SplitsPair documentContext.prefixText documentContext.suffix
    · rw [if_pos hsplits] at hdocument
      simp only [hsplits, not_true_eq_false, false_and, and_false, iff_false, not_le]
      split <;> omega
    · rw [if_neg hsplits] at hdocument
      simp only [hsplits, not_false_eq_true, true_and]
      split <;> omega
  | some i =>
    obtain ⟨hi, hparts⟩ := byteSize_take_add_drop hmatch
    have htake : (ofBuffer ((toBuffer documentContext.suffix).take room)).take i =
        (ofChars (Utf8.wholeChars room documentContext.suffix.toChars)).take i := by
      rw [ofBuffer_take_eq, List.take_append_of_le_length hi.le]
    show ((byteSize (_ ++ (ofBuffer _).take i) : Nat) : Int) ≤ _ ↔ _
    rw [htake, byteSize_document_append _ i rfl]
    by_cases hsplits : SplitsPair documentContext.prefixText documentContext.suffix
    · rw [if_pos hsplits] at hdocument
      simp only [hsplits, true_imp_iff]
      omega
    · rw [if_neg hsplits] at hdocument
      simp only [hsplits, false_imp_iff, and_true]
      omega

end Document

/-- What `process` keeps is within the limit exactly when the limit cuts cleanly: a prefix is never
cut, and a character that is cut after one or two bytes is replaced by three. -/
theorem totalSize_process_le_iff (byteSizeLimit : Int) (items : PreProcessorItems) :
    totalSize (process byteSizeLimit items) ≤ byteSizeLimit ↔ CutsToLimit byteSizeLimit items := by
  rw [process, CutsToLimit]
  dsimp only
  split
  · next hdocument =>
    rw [← truncated_size_le_iff hdocument]
    rfl
  · next hdocument => exact fitResolutions_size_le_iff (not_lt.mp hdocument) items.aiContextItems

theorem byteSize_replicate (n : Nat) : byteSize (List.replicate n 0x61) = n := by
  have hchars : toChars (List.replicate n 0x61) = List.replicate n 'a' := by
    induction n with
    | zero => rfl
    | succ n ih =>
      rw [List.replicate_succ, toChars_cons_of_not_high (by decide), ih]
      rfl
  rw [byteSize, toBuffer, hchars]
  clear hchars
  induction n with
  | zero => rfl
  | succ n ih =>
    rw [List.replicate_succ, Utf8.length_encode_cons, ih]
    exact Nat.add_comm 1 n

theorem byteSize_prefix_le {byteSizeLimit : Int} (items : PreProcessorItems)
    (hdocument : byteSizeLimit <
      byteSize (items.documentContext.prefixText ++ items.documentContext.suffix))
    (h : totalSize (process byteSizeLimit items) ≤ byteSizeLimit) :
    byteSize items.documentContext.prefixText ≤ byteSizeLimit := by
  rw [process, if_pos hdocument] at h
  exact ((truncated_size_le_iff hdocument).mp h).1

def longPrefix : IDocContext where
  prefixText := List.replicate 50001 0x61
  suffix := []
  fileRelativePath := "notes.txt"
  position := { line := 0, character := 50001 }
  uri := "file:///notes.txt"
  languageId := "plaintext"
  workspaceFolder := none

/-- A document whose prefix alone is larger than the limit is sent as it is. -/
theorem process_exceeds_limit :
    ¬ ∀ items : PreProcessorItems,
      totalSize (process codeSuggestionsRequestByteSizeLimit items) ≤
        codeSuggestionsRequestByteSizeLimit := by
  intro h
  have hsize : byteSize longPrefix.prefixText = 50001 := byteSize_replicate 50001
  have hdocument : codeSuggestionsRequestByteSizeLimit <
      byteSize (longPrefix.prefixText ++ longPrefix.suffix) := by
    rw [show longPrefix.suffix = [] from rfl, List.append_nil, hsize]
    decide
  have hbefore := byteSize_prefix_le ⟨longPrefix, []⟩ hdocument (h _)
  rw [hsize] at hbefore
  exact absurd hbefore (by decide)

end ByteSizeLimit
end KhulnasoftLsp.SuggestionClient
