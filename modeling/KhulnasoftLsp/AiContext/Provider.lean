import KhulnasoftLsp.Transition

/-!
# The selected items of a context provider

A context provider keeps the items that the user selected as context for AI requests. Before an
item is added, the provider awaits what its policies answer for it, and adds, removals and clears
go on in the meantime. So a run is an interleaving of calls and of answers to adds that were
called before.

The check after the `await` asks whether there is an answer, not whether the answer allows the
item: `selectsOnlyAllowed_iff` says exactly in which runs no item is selected that the policies
refused, and `not_selectsOnlyAllowed_of_refused` is a run in which one is.
-/

namespace KhulnasoftLsp.AiContext

open Transition

inductive AIContextProviderType where
  | openTab
  | localFileSearch
  | issue
  | mergeRequest
  | snippet
  | dependency
  | localGit
  deriving DecidableEq, Repr

structure AIContextItemMetadata where
  subType : AIContextProviderType
  deriving DecidableEq, Repr

structure AIContextItem where
  id : String
  content : Option String
  metadata : AIContextItemMetadata
  deriving DecidableEq, Repr

/-- What the policies answer for an item. -/
structure AIContextPolicyResponse where
  enabled : Bool
  disabledReasons : List String
  deriving DecidableEq, Repr

/-- Whether an answer passes for `true` in a condition. It is an object, and so it does, whatever
its fields are. -/
def AIContextPolicyResponse.isTruthy (_ : AIContextPolicyResponse) : Bool := true

/-- A selected item. What the policies had answered for it is for the record only: the provider
does not keep it, and no function reads it. -/
structure SelectedItem where
  item : AIContextItem
  answer : AIContextPolicyResponse
  deriving DecidableEq, Repr

/-- The calls of the hooks that a subclass can set. -/
inductive HookCall where
  | onContextItemAdded (contextItem : AIContextItem)
  | onBeforeContextItemRemoved (contextItem : AIContextItem)
  | onBeforeAllContextItemsRemoved
  deriving DecidableEq, Repr

/-- A provider, with the adds that await the answer for their item. -/
structure AIContextProvider where
  type : AIContextProviderType
  /-- Whether the subclass sets `canItemBeAdded`. -/
  canItemBeAdded : Bool
  selectedContextItems : List SelectedItem
  awaiting : List AIContextItem
  hookCalls : List HookCall
  deriving DecidableEq, Repr

/-- What can happen to a provider. An add that awaits its answer is named by its place among the
adds that do. -/
inductive Action where
  /-- `addSelectedContextItem` is called. -/
  | addSelectedContextItem (contextItem : AIContextItem)
  /-- The answer for the item of an add arrives. -/
  | policyAnswers (call : Nat) (answer : AIContextPolicyResponse)
  /-- The promise of `canItemBeAdded` rejects, and with it that of the add. -/
  | policyRejects (call : Nat)
  | removeSelectedContextItem (id : String)
  | clearSelectedContextItems
  deriving DecidableEq, Repr

namespace AIContextProvider

def new (type : AIContextProviderType) (canItemBeAdded : Bool) : AIContextProvider where
  type := type
  canItemBeAdded := canItemBeAdded
  selectedContextItems := []
  awaiting := []
  hookCalls := []

def notify (call : HookCall) (s : AIContextProvider) : AIContextProvider :=
  { s with hookCalls := s.hookCalls ++ [call] }

def notifyContextItemAdded (contextItem : AIContextItem) : AIContextProvider → AIContextProvider :=
  notify (.onContextItemAdded contextItem)

def notifyContextItemToBeRemoved (contextItem : AIContextItem) :
    AIContextProvider → AIContextProvider :=
  notify (.onBeforeContextItemRemoved contextItem)

def notifyAllContextItemsToBeRemoved : AIContextProvider → AIContextProvider :=
  notify .onBeforeAllContextItemsRemoved

/-- `itemAllowedByPolicies`, given what `canItemBeAdded` answers if the subclass sets it. -/
def itemAllowedByPolicies (answer : AIContextPolicyResponse) (s : AIContextProvider) :
    AIContextPolicyResponse :=
  if s.canItemBeAdded then answer else { enabled := true, disabledReasons := [] }

/-- `#findItemWithId` -/
def findItemWithId (id : String) (s : AIContextProvider) : Option SelectedItem :=
  s.selectedContextItems.find? (·.item.id == id)

/-- `#findItemIndex`, which throws if there is no such item. -/
def findItemIndex (id : String) (s : AIContextProvider) : Except String Nat :=
  match s.selectedContextItems.findIdx? (·.item.id == id) with
  | some index => .ok index
  | none => .error ("Item with id " ++ id ++ " not found in context items.")

/-- `addSelectedContextItem`, after its `await`. -/
def addAllowedContextItem (contextItem : AIContextItem) (canBeAdded : AIContextPolicyResponse)
    (s : AIContextProvider) : AIContextProvider :=
  -- `if (!canBeAdded)`: the answer itself is tested, not its field `enabled`
  if !canBeAdded.isTruthy then s
  else if contextItem.metadata.subType ≠ s.type then s
  else if (s.findItemWithId contextItem.id).isSome then s
  else
    notifyContextItemAdded contextItem
      { s with selectedContextItems := s.selectedContextItems ++ [⟨contextItem, canBeAdded⟩] }

def removeSelectedContextItem (id : String) (s : AIContextProvider) :
    Except String AIContextProvider := do
  let index ← s.findItemIndex id
  let s := (s.selectedContextItems[index]?).elim s fun e => s.notifyContextItemToBeRemoved e.item
  return { s with selectedContextItems := s.selectedContextItems.eraseIdx index }

def clearSelectedContextItems (s : AIContextProvider) : AIContextProvider :=
  if s.selectedContextItems.length ≠ 0 then
    { s.notifyAllContextItemsToBeRemoved with selectedContextItems := [] }
  else s

def getSelectedContextItems (s : AIContextProvider) : List AIContextItem :=
  s.selectedContextItems.map (·.item)

/-- `retrieveSelectedContextItemsWithContent`, given what `getItemWithContent` returns. -/
def retrieveSelectedContextItemsWithContent (getItemWithContent : AIContextItem → AIContextItem)
    (s : AIContextProvider) : List AIContextItem :=
  s.getSelectedContextItems.map getItemWithContent

/-- One step. A call of `removeSelectedContextItem` that throws leaves the provider as it is. -/
def step (s : AIContextProvider) : Action → Option AIContextProvider
  | .addSelectedContextItem contextItem => some { s with awaiting := s.awaiting ++ [contextItem] }
  | .policyAnswers call answer =>
    match s.awaiting[call]? with
    | none => none
    | some contextItem =>
      addAllowedContextItem contextItem (s.itemAllowedByPolicies answer)
        { s with awaiting := s.awaiting.eraseIdx call }
  | .policyRejects call =>
    if call < s.awaiting.length then some { s with awaiting := s.awaiting.eraseIdx call } else none
  | .removeSelectedContextItem id =>
    match s.removeSelectedContextItem id with
    | .ok s' => some s'
    | .error _ => some s
  | .clearSelectedContextItems => some s.clearSelectedContextItems

/-! ## What a step does to the selection -/

/-- The item would be selected if it were added now. -/
def Addable (contextItem : AIContextItem) (s : AIContextProvider) : Prop :=
  contextItem.metadata.subType = s.type ∧
    contextItem.id ∉ s.selectedContextItems.map (·.item.id)

instance (contextItem : AIContextItem) (s : AIContextProvider) :
    Decidable (Addable contextItem s) := inferInstanceAs (Decidable (_ ∧ _))

theorem isSome_findItemWithId {id : String} {s : AIContextProvider} :
    (s.findItemWithId id).isSome = true ↔ id ∈ s.selectedContextItems.map (·.item.id) := by
  simp [findItemWithId, List.find?_isSome]

/-- **An add selects exactly the addable items**, whatever the policies answered. -/
theorem selectedContextItems_add (contextItem : AIContextItem)
    (canBeAdded : AIContextPolicyResponse) (s : AIContextProvider) :
    (s.addAllowedContextItem contextItem canBeAdded).selectedContextItems =
      if Addable contextItem s then s.selectedContextItems ++ [⟨contextItem, canBeAdded⟩]
      else s.selectedContextItems := by
  unfold addAllowedContextItem Addable
  by_cases htype : contextItem.metadata.subType = s.type
  · by_cases hmem : contextItem.id ∈ s.selectedContextItems.map (·.item.id)
    · have hfound := isSome_findItemWithId.mpr hmem
      simp [AIContextPolicyResponse.isTruthy, htype, hfound, hmem]
    · have hfound : (s.findItemWithId contextItem.id).isSome = false := by
        rw [← Bool.not_eq_true, isSome_findItemWithId]
        exact hmem
      simp [AIContextPolicyResponse.isTruthy, htype, hfound, hmem]
      rfl
  · simp [AIContextPolicyResponse.isTruthy, htype]

@[simp] theorem type_add (contextItem : AIContextItem) (canBeAdded : AIContextPolicyResponse)
    (s : AIContextProvider) : (s.addAllowedContextItem contextItem canBeAdded).type = s.type := by
  unfold addAllowedContextItem
  split_ifs <;> rfl

/-- **A removal removes the item with the id**, or fails because there is none. -/
theorem removeSelectedContextItem_cases (id : String) (s : AIContextProvider) :
    (∃ index e s', s.selectedContextItems[index]? = some e ∧ e.item.id = id ∧
      s.removeSelectedContextItem id = .ok s' ∧ s'.type = s.type ∧
      s'.selectedContextItems = s.selectedContextItems.eraseIdx index) ∨
    (id ∉ s.selectedContextItems.map (·.item.id) ∧
      s.removeSelectedContextItem id =
        .error ("Item with id " ++ id ++ " not found in context items.")) := by
  cases hidx : s.selectedContextItems.findIdx? (·.item.id == id) with
  | none =>
      right
      constructor
      · simpa using hidx
      · simp only [removeSelectedContextItem, findItemIndex, hidx]
        rfl
  | some index =>
      left
      obtain ⟨hlt, hid, -⟩ := List.findIdx?_eq_some_iff_getElem.mp hidx
      let e := s.selectedContextItems[index]
      have hget : s.selectedContextItems[index]? = some e := List.getElem?_eq_getElem hlt
      have hremove : s.removeSelectedContextItem id =
          .ok { s.notifyContextItemToBeRemoved e.item with
                selectedContextItems := s.selectedContextItems.eraseIdx index } := by
        simp only [removeSelectedContextItem, findItemIndex, hidx, bind, Except.bind, hget]
        rfl
      exact ⟨index, e, _, hget, by simpa using hid, hremove, rfl, rfl⟩

@[simp] theorem selectedContextItems_clear (s : AIContextProvider) :
    s.clearSelectedContextItems.selectedContextItems = [] := by
  unfold clearSelectedContextItems
  split_ifs with h
  · rfl
  · simpa using h

/-- The entries that a step selects. -/
def selects (s : AIContextProvider) : Action → List SelectedItem
  | .policyAnswers call answer =>
    match s.awaiting[call]? with
    | none => []
    | some contextItem =>
      if Addable contextItem s then [⟨contextItem, s.itemAllowedByPolicies answer⟩] else []
  | _ => []

/-- An add that goes on keeps all items that are selected. -/
theorem selectedContextItems_policyAnswers {s s' : AIContextProvider} {call : Nat}
    {answer : AIContextPolicyResponse} (hs : s.step (.policyAnswers call answer) = some s') :
    s'.selectedContextItems = s.selectedContextItems ++ s.selects (.policyAnswers call answer) := by
  simp only [step] at hs
  split at hs
  · cases hs
  · rename_i contextItem hcall
    cases hs
    rw [selectedContextItems_add]
    simp only [selects, hcall]
    -- awaiting is all that the answer has changed before the add goes on
    by_cases hadd : Addable contextItem s
    · rw [if_pos hadd]
      exact if_pos hadd
    · rw [if_neg hadd, List.append_nil]
      exact if_neg hadd

/-- A removal takes out the item whose place it has found, and no other. -/
theorem selectedContextItems_remove {s s' : AIContextProvider} {id : String}
    (hs : s.step (.removeSelectedContextItem id) = some s') :
    (∃ index, s.findItemIndex id = .ok index ∧
      s'.selectedContextItems = s.selectedContextItems.eraseIdx index) ∨
    (∃ error, s.findItemIndex id = .error error ∧
      s'.selectedContextItems = s.selectedContextItems) := by
  simp only [step, removeSelectedContextItem] at hs
  cases hindex : s.findItemIndex id with
  | error e =>
      rw [hindex] at hs
      cases hs
      exact .inr ⟨e, rfl, rfl⟩
  | ok index =>
      rw [hindex] at hs
      cases hs
      refine .inl ⟨index, rfl, ?_⟩
      cases s.selectedContextItems[index]? <;> rfl

/-- **A step keeps some of the selected items, in their order, and appends what it selects.** -/
theorem selectedContextItems_step {s s' : AIContextProvider} {a : Action}
    (hs : s.step a = some s') :
    s'.type = s.type ∧ ∃ kept, kept.Sublist s.selectedContextItems ∧
      s'.selectedContextItems = kept ++ s.selects a := by
  cases a with
  | addSelectedContextItem contextItem =>
      cases hs
      exact ⟨rfl, s.selectedContextItems, List.Sublist.refl _, by simp [selects]⟩
  | policyAnswers call answer =>
      refine ⟨?_, s.selectedContextItems, List.Sublist.refl _,
        selectedContextItems_policyAnswers hs⟩
      simp only [step] at hs
      split at hs
      · cases hs
      · cases hs
        exact type_add _ _ _
  | policyRejects call =>
      simp only [step] at hs
      split at hs
      · cases hs
        exact ⟨rfl, s.selectedContextItems, List.Sublist.refl _, by simp [selects]⟩
      · cases hs
  | removeSelectedContextItem id =>
      simp only [step] at hs
      rcases s.removeSelectedContextItem_cases id with
        ⟨index, e, t, -, -, hremove, htype, hsel⟩ | ⟨-, hremove⟩
      · rw [hremove] at hs
        cases hs
        exact ⟨htype, _, List.eraseIdx_sublist _ index, by simpa [selects] using hsel⟩
      · rw [hremove] at hs
        cases hs
        exact ⟨rfl, s.selectedContextItems, List.Sublist.refl _, by simp [selects]⟩
  | clearSelectedContextItems =>
      cases hs
      refine ⟨?_, [], List.nil_sublist _, by simp [selects]⟩
      unfold clearSelectedContextItems
      split_ifs <;> rfl

/-- What a step selects was addable. -/
theorem addable_of_mem_selects {s : AIContextProvider} {a : Action} {e : SelectedItem}
    (he : e ∈ s.selects a) : Addable e.item s ∧ s.selects a = [e] := by
  cases a with
  | policyAnswers call answer =>
      simp only [selects] at he ⊢
      split at he
      · cases he
      · split_ifs at he with hadd
        · obtain rfl := List.mem_singleton.mp he
          simp [hadd]
        · cases he
  | _ => cases he

/-! ## The selection is well formed -/

/-- The items are of the provider's type, and no two of them have the same id. -/
structure WellFormed (s : AIContextProvider) : Prop where
  subType : ∀ e ∈ s.selectedContextItems, e.item.metadata.subType = s.type
  nodup : (s.selectedContextItems.map (·.item.id)).Nodup

theorem WellFormed.step {s s' : AIContextProvider} {a : Action} (h : s.WellFormed)
    (hs : AIContextProvider.step s a = some s') : s'.WellFormed := by
  obtain ⟨htype, kept, hkept, hsel⟩ := selectedContextItems_step hs
  have hsub := hkept.map (·.item.id)
  constructor
  · intro e he
    rw [hsel, List.mem_append] at he
    rw [htype]
    rcases he with he | he
    · exact h.subType e (hkept.subset he)
    · exact (addable_of_mem_selects he).1.1
  -- a step selects at most one item, and none whose id is taken
  · rw [hsel, List.map_append, List.nodup_append]
    refine ⟨h.nodup.sublist hsub, ?_, ?_⟩
    · cases hselects : s.selects a with
      | nil => exact List.nodup_nil
      | cons e es =>
          have he : e ∈ s.selects a := by simp [hselects]
          obtain ⟨-, hone⟩ := addable_of_mem_selects he
          rw [← hselects, hone]
          simp
    · rintro id hid _ hnew rfl
      obtain ⟨e, he, rfl⟩ := List.mem_map.mp hnew
      exact (addable_of_mem_selects he).1.2 (hsub.subset hid)

/-- **The selection is well formed** in every state that a run reaches. -/
theorem wellFormed_of_run (type : AIContextProviderType) (canItemBeAdded : Bool) (as : List Action)
    (s : AIContextProvider) (hrun : run step (new type canItemBeAdded) as = some s) :
    s.WellFormed :=
  run_invariant (I := WellFormed) (fun _ _ _ h hs => h.step hs)
    ⟨by simp [new], by simp [new]⟩ hrun

/-! ## Refused items -/

/-- Each selected item is one that the policies had allowed when it was added, and so is each item
whose content is retrieved. -/
structure OnlyAllowed (s : AIContextProvider) : Prop where
  selected : ∀ e ∈ s.selectedContextItems, e.answer.enabled = true
  retrieved : ∀ getItemWithContent, ∀ x ∈ s.retrieveSelectedContextItemsWithContent
    getItemWithContent, ∃ e ∈ s.selectedContextItems, e.answer.enabled = true ∧
      getItemWithContent e.item = x

theorem onlyAllowed_iff {s : AIContextProvider} :
    s.OnlyAllowed ↔ ∀ e ∈ s.selectedContextItems, e.answer.enabled = true := by
  constructor
  · intro h
    exact h.selected
  · intro h
    refine ⟨h, ?_⟩
    intro getItemWithContent x hx
    obtain ⟨item, hitem, rfl⟩ := List.mem_map.mp hx
    obtain ⟨e, he, rfl⟩ := List.mem_map.mp hitem
    exact ⟨e, he, h e he, rfl⟩

/-- No item is ever selected that the policies had refused. -/
def SelectsOnlyAllowed (s₀ : AIContextProvider) (as : List Action) : Prop :=
  Always step OnlyAllowed s₀ as

/-- If the action is an answer that refuses the item of an add, then the item is not addable: it is
of another type, or an item with its id is selected already. -/
def RefusesUnaddable (s : AIContextProvider) : Action → Prop
  | .policyAnswers call answer => (s.itemAllowedByPolicies answer).enabled = false →
      ∀ contextItem ∈ s.awaiting[call]?, ¬ Addable contextItem s
  | _ => True

instance (s : AIContextProvider) : ∀ a, Decidable (RefusesUnaddable s a)
  | .policyAnswers _ _ => inferInstanceAs (Decidable (_ → _))
  | .addSelectedContextItem _ | .policyRejects _ | .removeSelectedContextItem _
  | .clearSelectedContextItems => isTrue trivial

/-- A step keeps refused items out exactly when it refuses none that is addable. -/
theorem onlyAllowed_step {s s' : AIContextProvider} {a : Action} (h : s.OnlyAllowed)
    (hs : s.step a = some s') : s'.OnlyAllowed ↔ s.RefusesUnaddable a := by
  obtain ⟨-, kept, hkept, hsel⟩ := selectedContextItems_step hs
  have hold : ∀ e ∈ kept, e.answer.enabled = true := fun e he => h.selected e (hkept.subset he)
  have hnew : s'.OnlyAllowed ↔ ∀ e ∈ s.selects a, e.answer.enabled = true := by
    rw [onlyAllowed_iff, hsel]
    simp only [List.mem_append]
    grind
  rw [hnew]
  cases a with
  | policyAnswers call answer =>
      cases hcall : s.awaiting[call]? with
      | none => simp [selects, RefusesUnaddable, hcall]
      | some contextItem =>
          by_cases hadd : Addable contextItem s <;>
            simp [selects, RefusesUnaddable, hcall, hadd]
  | _ => simp [selects, RefusesUnaddable]

/-- **When no refused item is selected.** In every interleaving, no item that the policies had
refused is ever selected or retrieved, if and only if each answer that refuses an item comes when
the item is not addable for another reason. -/
theorem selectsOnlyAllowed_iff (type : AIContextProviderType) (canItemBeAdded : Bool)
    (as : List Action) (s : AIContextProvider)
    (hrun : run step (new type canItemBeAdded) as = some s) :
    SelectsOnlyAllowed (new type canItemBeAdded) as ↔
      Guarded step RefusesUnaddable (new type canItemBeAdded) as :=
  always_iff_guarded (I := fun _ => True) (fun _ _ _ _ _ _ _ => trivial)
    (fun _ _ _ _ h hs => onlyAllowed_step h hs) trivial
    (onlyAllowed_iff.mpr (by simp [new])) hrun

/-- An open tab. -/
def openTabItem (id : String) : AIContextItem where
  id := id
  content := none
  metadata := { subType := .openTab }

def allows : AIContextPolicyResponse := { enabled := true, disabledReasons := [] }

def refuses : AIContextPolicyResponse :=
  { enabled := false, disabledReasons := ["File disabled by context policy"] }

/-- Two adds of one item are under way when the policies allow the first and refuse the second. -/
theorem selectsOnlyAllowed_of_selected : SelectsOnlyAllowed (new .openTab true)
    [.addSelectedContextItem (openTabItem "a"), .addSelectedContextItem (openTabItem "a"),
      .policyAnswers 0 allows, .policyAnswers 0 refuses] :=
  (selectsOnlyAllowed_iff .openTab true _ _ rfl).mpr (by decide)

/-- An item is selected although the policies refuse it. -/
theorem not_selectsOnlyAllowed_of_refused : ¬ SelectsOnlyAllowed (new .openTab true)
    [.addSelectedContextItem (openTabItem "a"), .policyAnswers 0 refuses] := by
  intro h
  have hselected := (h _ [] _ (List.append_nil _).symm rfl).selected _ List.mem_cons_self
  cases hselected

end AIContextProvider
end KhulnasoftLsp.AiContext
