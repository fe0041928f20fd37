import KhulnasoftLsp.AiContext.MergeRequestDiff
import KhulnasoftLsp.ByteSize
import Mathlib.Algebra.Order.BigOperators.Group.List

/-!
# The contents of the selected merge requests

The content of a merge request is a header with its title and its description, its diffs and its
notes. The content limit is split between the selected merge requests, and for each of them between
the diffs and the notes, which are truncated; the header is not.

`size_formatMergeRequestContent_le` is the account for one merge request: two bytes over the limit
for each truncation, the text of the template, and the bytes of the header's own data.
-/

namespace KhulnasoftLsp

open JsString ByteSize MergeRequestDiff

structure IssuableDiscussionNote where
  body : JsString
  createdAt : JsString
  deriving DecidableEq, Repr

structure IssuableDiscussion where
  notes : List IssuableDiscussionNote
  deriving DecidableEq, Repr

structure IssuableDetails where
  title : JsString
  description : Option JsString
  state : JsString
  webUrl : JsString
  discussions : List IssuableDiscussion
  deriving DecidableEq, Repr

structure MergeRequestCommit where
  diffs : List MergeRequestDiffDetails
  deriving DecidableEq, Repr

structure MergeRequestDetails extends IssuableDetails where
  commits : List MergeRequestCommit
  deriving DecidableEq, Repr

structure MergeRequestAIContextItem where
  id : JsString
  content : Option JsString
  deriving DecidableEq, Repr

namespace MergeRequestContext

/-- `item.metadata.subTypeLabel`, of which the type has this value only. -/
def subTypeLabel : JsString := ofString "Merge request"

/-- The content is not empty. -/
def hasContent (item : MergeRequestAIContextItem) : Bool :=
  item.content.any fun content => !content.isEmpty

/-- The factors `0.8` and `0.6` are fractions of ten. -/
def getAdvancedContextContentLimit (splitContentBetweenNumItems : Nat) : Nat :=
  let bytesPerToken := 3
  let totalModelTokenLimit := 100000
  let inputTokenLimit := totalModelTokenLimit * 8 / 10
  let maxBytes := inputTokenLimit * bytesPerToken
  let contentSize := maxBytes * 6 / 10
  contentSize / splitContentBetweenNumItems

def formatDescription (description : Option JsString) : JsString :=
  match description with
  | none => []
  | some description =>
    if description.isEmpty then []
    else [ofString "Description: ", description, ofString "\n"].flatten

def formatIssuableHeader (issuable : IssuableDetails) (typeLabel : JsString) : JsString :=
  [ofString "Please use this information about identified ", typeLabel, ofString ":\nTitle: ",
    issuable.title, ofString "\nState: ", issuable.state, ofString "\n",
    formatDescription issuable.description, ofString "\nWeb URL: ", issuable.webUrl].flatten

-- what `new Date(createdAt).getTime()` is
variable (getTime : JsString → Int)

def formatIssuableNotes (notes : List IssuableDiscussionNote) (byteLimit : Nat) : JsString :=
  let sortedNotes := notes.mergeSort fun a b => getTime a.createdAt ≤ getTime b.createdAt
  let formattedText := (ofString "\n\n").intercalate (sortedNotes.map (·.body))
  truncateToByteLimit formattedText byteLimit whitespace

def formatDiffs (diffs : List MergeRequestDiffDetails) (byteLimit : Nat) : JsString :=
  truncateToByteLimit (diffs.map formatDiff).flatten byteLimit whitespace

def formatMergeRequestContent (mergeRequest : MergeRequestDetails) (splitLimitBetweenMRs : Nat) :
    JsString :=
  let contentLimit := getAdvancedContextContentLimit splitLimitBetweenMRs
  let diffByteLimit := contentLimit / 2
  let notesByteLimit := contentLimit / 2
  let header := formatIssuableHeader mergeRequest.toIssuableDetails subTypeLabel
  let formattedDiffs :=
    formatDiffs ((mergeRequest.commits.head?.map (·.diffs)).getD []) diffByteLimit
  let formattedNotes :=
    formatIssuableNotes getTime (mergeRequest.discussions.flatMap (·.notes)) notesByteLimit
  [header, ofString "\n\nChanges:\n", formattedDiffs, ofString "\n\nComments:\n",
    formattedNotes].flatten

/-- How the request for the details of a merge request ends: with the details, or with an error.
The number of the selected items is read when it has ended. -/
structure DetailsResponse where
  details : Option MergeRequestDetails
  selectedItemsLength : Nat
  deriving DecidableEq, Repr

def getItemWithContent (item : MergeRequestAIContextItem) (response : DetailsResponse) :
    MergeRequestAIContextItem :=
  if hasContent item then item
  else
    match response.details with
    | some mergeRequest =>
      let splitLimitBetweenMRs :=
        if response.selectedItemsLength = 0 then 1 else response.selectedItemsLength
      { item with
        content := some (formatMergeRequestContent getTime mergeRequest splitLimitBetweenMRs) }
    | none => item

/-- A selected item, with the response for it. -/
structure SelectedMergeRequest where
  item : MergeRequestAIContextItem
  response : DetailsResponse
  deriving DecidableEq, Repr

def retrieveSelectedContextItemsWithContent (selectedItems : List SelectedMergeRequest) :
    List MergeRequestAIContextItem :=
  selectedItems.map fun s => getItemWithContent getTime s.item s.response

/-! ## Sizes -/

theorem getByteSize_eq (s : JsString) : getByteSize s = byteSize s := rfl

def contentSize (item : MergeRequestAIContextItem) : Nat := getByteSize (item.content.getD [])

def totalSize (items : List MergeRequestAIContextItem) : Nat := (items.map contentSize).sum

/-- The bytes of the header's data, for which there is no limit. -/
def headerDataSize (issuable : IssuableDetails) : Nat :=
  getByteSize issuable.title + getByteSize issuable.state +
    getByteSize (issuable.description.getD []) + getByteSize issuable.webUrl

/-- The bytes that are not truncated: of the content that an item already has, or of the header. -/
def SelectedMergeRequest.untruncatedSize (s : SelectedMergeRequest) : Nat :=
  if hasContent s.item then contentSize s.item
  else s.response.details.elim 0 fun mergeRequest => headerDataSize mergeRequest.toIssuableDetails

/-- The bytes of the template, and two for each truncation. -/
def fixedOverhead : Nat := 127

theorem getAdvancedContextContentLimit_eq (n : Nat) :
    getAdvancedContextContentLimit n = 144000 / n := rfl

/-- The more merge requests are selected, the less each of them gets. -/
theorem getAdvancedContextContentLimit_anti {m n : Nat} (hm : 0 < m) (h : m ≤ n) :
    getAdvancedContextContentLimit n ≤ getAdvancedContextContentLimit m := by
  rw [getAdvancedContextContentLimit_eq, getAdvancedContextContentLimit_eq]
  exact Nat.div_le_div_left h hm

theorem length_mul_getAdvancedContextContentLimit_le (n : Nat) :
    n * getAdvancedContextContentLimit n ≤ getAdvancedContextContentLimit 1 := by
  rw [getAdvancedContextContentLimit_eq, getAdvancedContextContentLimit_eq, Nat.div_one]
  exact Nat.mul_div_le 144000 n

theorem size_formatDescription_le (description : Option JsString) :
    byteSize (formatDescription description) ≤ byteSize (description.getD []) + 14 := by
  have hlabel : byteSize (ofString "Description: ") = 13 := by decide +kernel
  have hnewline : byteSize (ofString "\n") = 1 := by decide +kernel
  cases description with
  | none => exact Nat.zero_le _
  | some description =>
      rw [formatDescription, Option.getD_some]
      split
      · exact Nat.zero_le _
      · have h := byteSize_flatten_le [ofString "Description: ", description, ofString "\n"]
        simp only [List.map_cons, List.map_nil, List.sum_cons, List.sum_nil, hlabel,
          hnewline] at h
        omega

theorem size_formatIssuableHeader_le (issuable : IssuableDetails) :
    byteSize (formatIssuableHeader issuable subTypeLabel) ≤ headerDataSize issuable + 100 := by
  have hdescription := size_formatDescription_le issuable.description
  have hintro : byteSize (ofString "Please use this information about identified ") = 45 := by
    decide +kernel
  have hlabel : byteSize subTypeLabel = 13 := by decide +kernel
  have htitle : byteSize (ofString ":\nTitle: ") = 9 := by decide +kernel
  have hstate : byteSize (ofString "\nState: ") = 8 := by decide +kernel
  have hnewline : byteSize (ofString "\n") = 1 := by decide +kernel
  have hurl : byteSize (ofString "\nWeb URL: ") = 10 := by decide +kernel
  have h := byteSize_flatten_le [ofString "Please use this information about identified ",
    subTypeLabel, ofString ":\nTitle: ", issuable.title, ofString "\nState: ", issuable.state,
    ofString "\n", formatDescription issuable.description, ofString "\nWeb URL: ",
    issuable.webUrl]
  simp only [List.map_cons, List.map_nil, List.sum_cons, List.sum_nil, hintro, hlabel, htitle,
    hstate, hnewline, hurl] at h
  rw [formatIssuableHeader, headerDataSize]
  simp only [getByteSize_eq]
  omega

theorem size_formatMergeRequestContent_le (mergeRequest : MergeRequestDetails) (n : Nat) :
    byteSize (formatMergeRequestContent getTime mergeRequest n) ≤
      fixedOverhead + headerDataSize mergeRequest.toIssuableDetails +
        getAdvancedContextContentLimit n := by
  have hheader := size_formatIssuableHeader_le mergeRequest.toIssuableDetails
  have hdiffs : byteSize (formatDiffs ((mergeRequest.commits.head?.map (·.diffs)).getD [])
      (getAdvancedContextContentLimit n / 2)) ≤ getAdvancedContextContentLimit n / 2 + 2 :=
    getByteSize_truncateToByteLimit_le _ _ _
  have hnotes : byteSize (formatIssuableNotes getTime
      (mergeRequest.discussions.flatMap (·.notes)) (getAdvancedContextContentLimit n / 2)) ≤
      getAdvancedContextContentLimit n / 2 + 2 := getByteSize_truncateToByteLimit_le _ _ _
  have hchanges : byteSize (ofString "\n\nChanges:\n") = 11 := by decide +kernel
  have hcomments : byteSize (ofString "\n\nComments:\n") = 12 := by decide +kernel
  have h := byteSize_flatten_le
    [formatIssuableHeader mergeRequest.toIssuableDetails subTypeLabel, ofString "\n\nChanges:\n",
      formatDiffs ((mergeRequest.commits.head?.map (·.diffs)).getD [])
        (getAdvancedContextContentLimit n / 2), ofString "\n\nComments:\n",
      formatIssuableNotes getTime (mergeRequest.discussions.flatMap (·.notes))
        (getAdvancedContextContentLimit n / 2)]
  simp only [List.map_cons, List.map_nil, List.sum_cons, List.sum_nil, hchanges,
    hcomments] at h
  rw [formatMergeRequestContent, fixedOverhead]
  omega

/-- An item with its content, given that at least `n` items are selected by then. -/
theorem contentSize_getItemWithContent_le (s : SelectedMergeRequest) {n : Nat} (hn : 0 < n)
    (h : n ≤ s.response.selectedItemsLength ∨ n = 1) :
    contentSize (getItemWithContent getTime s.item s.response) ≤
      fixedOverhead + s.untruncatedSize + getAdvancedContextContentLimit n := by
  rw [getItemWithContent, SelectedMergeRequest.untruncatedSize]
  split
  · omega
  · rename_i hcontent
    have hempty : contentSize s.item = 0 := by
      cases hc : s.item.content with
      | none => simp [contentSize, hc, getByteSize_eq, byteSize, toBuffer, toChars]
      | some content =>
          cases content with
          | nil => simp [contentSize, hc, getByteSize_eq, byteSize, toBuffer, toChars]
          | cons u us => simp [hasContent, hc] at hcontent
    cases s.response.details with
    | none =>
        dsimp only
        omega
    | some mergeRequest =>
        have hsplit : n ≤ if s.response.selectedItemsLength = 0 then 1
            else s.response.selectedItemsLength := by
          split <;> omega
        have hsize := size_formatMergeRequestContent_le getTime mergeRequest
          (if s.response.selectedItemsLength = 0 then 1 else s.response.selectedItemsLength)
        have hlimit := getAdvancedContextContentLimit_anti hn hsplit
        show byteSize (formatMergeRequestContent getTime mergeRequest _) ≤ _
        rw [Option.elim_some]
        omega

theorem totalSize_le_sum (selectedItems : List SelectedMergeRequest)
    (bound : SelectedMergeRequest → Nat) (h : ∀ s ∈ selectedItems,
      contentSize (getItemWithContent getTime s.item s.response) ≤ bound s) :
    totalSize (retrieveSelectedContextItemsWithContent getTime selectedItems) ≤
      (selectedItems.map bound).sum := by
  rw [totalSize, retrieveSelectedContextItemsWithContent, List.map_map]
  exact List.sum_le_sum h

/-- **The contents take no more than the limit for one item, and for each item a fixed overhead and
the data that is not truncated.** If items are removed before the details of others have arrived,
each of these may have the whole limit to itself. -/
theorem totalSize_retrieved_le (selectedItems : List SelectedMergeRequest) :
    totalSize (retrieveSelectedContextItemsWithContent getTime selectedItems) ≤
        getAdvancedContextContentLimit 1 + (selectedItems.map fun s =>
          (fixedOverhead + getAdvancedContextContentLimit 1) + s.untruncatedSize).sum ∧
      ((∀ s ∈ selectedItems, selectedItems.length ≤ s.response.selectedItemsLength) →
        totalSize (retrieveSelectedContextItemsWithContent getTime selectedItems) ≤
          getAdvancedContextContentLimit 1 +
            (selectedItems.map fun s => fixedOverhead + s.untruncatedSize).sum) := by
  constructor
  · refine (totalSize_le_sum getTime selectedItems _ ?_).trans (Nat.le_add_left _ _)
    intro s _
    have h := contentSize_getItemWithContent_le getTime s Nat.one_pos (.inr rfl)
    omega
  · intro hselected
    have h := totalSize_le_sum getTime selectedItems
      (fun s => (fixedOverhead + s.untruncatedSize) +
        getAdvancedContextContentLimit selectedItems.length)
      fun s hs => contentSize_getItemWithContent_le getTime s
        (List.length_pos_of_mem hs) (.inl (hselected s hs))
    have hlimit := length_mul_getAdvancedContextContentLimit_le selectedItems.length
    rw [List.sum_map_add, List.map_const', List.sum_replicate_nat] at h
    omega

/-- The title is in the content as it is. -/
theorem size_title_le (mergeRequest : MergeRequestDetails) (n : Nat)
    (h : ∀ u ∈ mergeRequest.title.head?, isLowSurrogate u = false) :
    byteSize mergeRequest.title ≤
      byteSize (formatMergeRequestContent getTime mergeRequest n) := by
  have hheader : ∃ front rest, formatIssuableHeader mergeRequest.toIssuableDetails subTypeLabel =
      (front ++ mergeRequest.title) ++ rest :=
    ⟨[ofString "Please use this information about identified ", subTypeLabel,
        ofString ":\nTitle: "].flatten,
      [ofString "\nState: ", mergeRequest.state, ofString "\n",
        formatDescription mergeRequest.description, ofString "\nWeb URL: ",
        mergeRequest.webUrl].flatten, by simp [formatIssuableHeader]⟩
  obtain ⟨front, rest, hheader⟩ := hheader
  have hcontent : ∃ rest, formatMergeRequestContent getTime mergeRequest n =
      (front ++ mergeRequest.title) ++ rest := by
    rw [formatMergeRequestContent, hheader, List.flatten_cons, List.append_assoc]
    exact ⟨_, rfl⟩
  obtain ⟨rest, hcontent⟩ := hcontent
  have htake := byteSize_take_le ((front ++ mergeRequest.title) ++ rest)
    (front ++ mergeRequest.title).length
  rw [List.take_left, byteSize_append (not_splitsPair_of_head? h)] at htake
  rw [hcontent]
  omega

theorem exists_text_of_size (m : Nat) :
    ∃ text, byteSize text = m ∧ ∀ u ∈ text.head?, isLowSurrogate u = false := by
  refine ⟨_, SuggestionClient.ByteSizeLimit.byteSize_replicate m, ?_⟩
  intro u hu
  rw [List.eq_of_mem_replicate (List.mem_of_head? hu)]
  rfl

section Sample

def sampleTime (_ : JsString) : Int := 0

/-- A merge request of which only the title has any length. -/
def titledMergeRequest (title : JsString) : MergeRequestDetails where
  title := title
  description := none
  state := []
  webUrl := []
  discussions := []
  commits := []

def titledItem (title : JsString) : SelectedMergeRequest where
  item := ⟨ofString "1", none⟩
  response := ⟨some (titledMergeRequest title), 1⟩

theorem totalSize_titledItem (title : JsString) :
    totalSize (retrieveSelectedContextItemsWithContent sampleTime [titledItem title]) =
      byteSize (formatMergeRequestContent sampleTime (titledMergeRequest title) 1) := by
  rw [retrieveSelectedContextItemsWithContent, totalSize, List.map_singleton, List.map_singleton,
    List.sum_singleton]
  simp [getItemWithContent, titledItem, hasContent, contentSize, getByteSize_eq]

/-- A note that is longer than the limit for the notes of a merge request. -/
def longNote : JsString := List.replicate 100000 0x0061

/-- A merge request with a diff, and with a discussion of two notes. -/
def discussedMergeRequest (title : JsString) : MergeRequestDetails where
  title := title
  description := some (ofString "Adds the option")
  state := ofString "opened"
  webUrl := ofString "https://gitlab.com/g/p/-/merge_requests/1"
  discussions := [⟨[⟨longNote, ofString "2024-02-01"⟩, ⟨ofString "Why?", ofString "2024-01-01"⟩]⟩]
  commits := [⟨[sampleDiff, sampleDiff]⟩]

/-- Two merge requests are selected. When the details of the second one arrive, there are so many
items: one, if the first has been removed. -/
def discussedItems (selectedItemsLength : Nat) : List SelectedMergeRequest :=
  [⟨⟨ofString "1", none⟩, some (discussedMergeRequest (ofString "Add an option")), 2⟩,
    ⟨⟨ofString "2", none⟩, some (discussedMergeRequest (ofString "Fix it")), selectedItemsLength⟩]

theorem byteSize_longNote : byteSize longNote = 100000 :=
  SuggestionClient.ByteSizeLimit.byteSize_replicate 100000

/-- The two long notes alone are over the limit. -/
theorem totalSize_retrieved_le_of_two_items :
    getAdvancedContextContentLimit 1 < byteSize longNote + byteSize longNote ∧
      totalSize (retrieveSelectedContextItemsWithContent sampleTime (discussedItems 2)) ≤
        144000 + (127 + 75) + (127 + 68) ∧
      totalSize (retrieveSelectedContextItemsWithContent sampleTime (discussedItems 1)) ≤
        144000 + (127 + 144000 + 75) + (127 + 144000 + 68) := by
  have hall := (totalSize_retrieved_le sampleTime (discussedItems 2)).2
  have hremoved := (totalSize_retrieved_le sampleTime (discussedItems 1)).1
  have hsum : ((discussedItems 2).map fun s => fixedOverhead + s.untruncatedSize).sum =
      (127 + 75) + (127 + 68) := by decide +kernel
  have hsum' : ((discussedItems 1).map fun s =>
      (fixedOverhead + getAdvancedContextContentLimit 1) + s.untruncatedSize).sum =
      (127 + 144000 + 75) + (127 + 144000 + 68) := by decide +kernel
  rw [getAdvancedContextContentLimit_eq] at hall hremoved
  refine ⟨?_, ?_, ?_⟩
  · rw [byteSize_longNote, getAdvancedContextContentLimit_eq]
    omega
  · have hle := hall (by simp [discussedItems])
    rw [hsum] at hle
    omega
  · rw [getAdvancedContextContentLimit_eq] at hsum'
    rw [hsum'] at hremoved
    omega

/-- The title is not truncated, so no fixed overhead is enough. -/
theorem not_totalSize_le_of_fixed_overhead :
    ¬ ∃ overhead, ∀ (getTime : JsString → Int) (selectedItems : List SelectedMergeRequest),
      selectedItems ≠ [] →
      (∀ s ∈ selectedItems, s.item.content = none ∧
        s.response.selectedItemsLength = selectedItems.length) →
      totalSize (retrieveSelectedContextItemsWithContent getTime selectedItems) ≤
        getAdvancedContextContentLimit 1 + selectedItems.length * overhead := by
  rintro ⟨overhead, h⟩
  obtain ⟨title, hlong, hhead⟩ :=
    exists_text_of_size (getAdvancedContextContentLimit 1 + overhead + 1)
  have hsize := h sampleTime [titledItem title] (List.cons_ne_nil _ _) (by simp [titledItem])
  rw [List.length_singleton, Nat.one_mul] at hsize
  rw [totalSize_titledItem] at hsize
  have hle := size_title_le sampleTime (titledMergeRequest title) 1 hhead
  have htitle : (titledMergeRequest title).title = title := rfl
  rw [htitle, hlong] at hle
  omega

end Sample

end MergeRequestContext

end KhulnasoftLsp
