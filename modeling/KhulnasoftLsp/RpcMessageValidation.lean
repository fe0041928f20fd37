import KhulnasoftLsp.JsSet
import KhulnasoftLsp.JsString

/-!
# The validation of RPC messages

The definitions of RPC messages are checked before they are used: no two have one method name, and a
name is a path of segments in camel case, perhaps with `$/` in front. `validate` runs one validator
over all of the messages and another over each of them, and returns the errors of both.

`validate_iff` says which messages are accepted, and which names have errors otherwise.
-/

namespace KhulnasoftLsp.RpcMessageValidation

open JsString

/-- What the validators read of a definition. -/
structure RpcMessageDefinition where
  methodName : JsString
  deriving DecidableEq

structure MessageValidationError where
  code : String
  methodName : JsString
  message : JsString
  deriving DecidableEq

structure MessageValidationResult where
  isValid : Bool
  errors : List MessageValidationError
  deriving DecidableEq

/-- What the validators return for these errors. -/
def resultOf (errors : List MessageValidationError) : MessageValidationResult :=
  ⟨errors.length == 0, errors⟩

abbrev MessageValidator : Type := RpcMessageDefinition → MessageValidationResult

abbrev MessageCollectionValidator : Type := List RpcMessageDefinition → MessageValidationResult

/-! ## The validators -/

namespace DuplicateMethodValidator

/-- The messages from one on, with the names before it. -/
def duplicates (seenMethods : JsSet JsString) :
    List RpcMessageDefinition → List MessageValidationError
  | [] => []
  | message :: messages =>
    let errors := duplicates (seenMethods.add message.methodName) messages
    if seenMethods.has message.methodName then
      ⟨"DUPLICATE_METHOD", message.methodName,
        ofString "Duplicate method name: " ++ message.methodName⟩ :: errors
    else errors

def validate : MessageCollectionValidator := fun messages => resultOf (duplicates .empty messages)

end DuplicateMethodValidator

namespace NamingConventionValidator

def slash : UInt16 := 0x2f

def isLower (u : UInt16) : Bool := 0x61 ≤ u && u ≤ 0x7a

/-- `[a-zA-Z]` -/
def isLetter (u : UInt16) : Bool := isLower u || (0x41 ≤ u && u ≤ 0x5a)

/-- `$/` -/
def dollarPrefix : JsString := [0x24, slash]

/-- The name without `$/` in front. -/
def path (methodName : JsString) : JsString :=
  if dollarPrefix.isPrefixOf methodName then methodName.drop dollarPrefix.length else methodName

/-- `/^(\$\/)?[a-zA-Z/]+$/`. As `$` is not in the class, `$/` in front is always taken. -/
def allowedCharacters (methodName : JsString) : Bool :=
  path methodName != [] && (path methodName).all fun u => isLetter u || u == slash

/-- `/^[a-z][a-zA-Z]*$/` -/
def camelCase : JsString → Bool
  | [] => false
  | u :: us => isLower u && us.all isLetter

/-- `#validateCharacters` -/
def validateCharacters (message : RpcMessageDefinition) : List MessageValidationError :=
  if !allowedCharacters message.methodName then
    [⟨"INVALID_CHARACTERS", message.methodName,
      ofString ("Method name contains invalid characters. Only alphabetical characters and '/' " ++
        "are allowed, with optional '$/' at start: ") ++ message.methodName⟩]
  else []

/-- `#validateSegments`, for one of the segments -/
def validateSegment (methodName segment : JsString) : List MessageValidationError :=
  if segment = [] then
    [⟨"EMPTY_SEGMENT", methodName, ofString "Empty segment in method name: " ++ methodName⟩]
  else if !camelCase segment then
    [⟨"INVALID_CAMEL_CASE", methodName, ofString "Path segment '" ++ segment ++
      ofString "' is not in camelCase format: " ++ methodName⟩]
  else []

def validateSegments (message : RpcMessageDefinition) : List MessageValidationError :=
  ((path message.methodName).splitOn slash).flatMap (validateSegment message.methodName)

def validate : MessageValidator := fun message =>
  resultOf (validateCharacters message ++ validateSegments message)

end NamingConventionValidator

/-! ## The service -/

structure CompositeMessageValidationService where
  validators : List MessageValidator
  collectionValidators : List MessageCollectionValidator

/-- A result without errors adds none. -/
def CompositeMessageValidationService.validate (service : CompositeMessageValidationService)
    (messages : List RpcMessageDefinition) : MessageValidationResult :=
  resultOf
    ((service.collectionValidators.flatMap fun validator => (validator messages).errors) ++
      messages.flatMap fun message => service.validators.flatMap fun validator =>
        (validator message).errors)

/-- The service with the validators of the container. -/
def service : CompositeMessageValidationService where
  validators := [NamingConventionValidator.validate]
  collectionValidators := [DuplicateMethodValidator.validate]

/-! ## What is accepted -/

def IsCamelCase (segment : JsString) : Prop :=
  ∃ u us, segment = u :: us ∧ NamingConventionValidator.isLower u = true ∧
    ∀ v ∈ us, NamingConventionValidator.isLetter v = true

/-- Segments with `/` in between, and perhaps `$/` in front. -/
def IsMethodName (methodName : JsString) : Prop :=
  ∃ start ∈ [[], NamingConventionValidator.dollarPrefix], ∃ segments : List JsString,
    segments ≠ [] ∧ (∀ segment ∈ segments, IsCamelCase segment) ∧
      methodName = start ++ List.intercalate [NamingConventionValidator.slash] segments

namespace DuplicateMethodValidator

/-- There is one error for every time that a name occurs again. -/
theorem count_duplicates (methodName : JsString) (messages : List RpcMessageDefinition) :
    ∀ seenMethods : JsSet JsString,
      ((duplicates seenMethods messages).map (·.methodName)).count methodName =
        (messages.map (·.methodName)).count methodName -
          if seenMethods.has methodName = true then 0 else 1 := by
  induction messages with
  | nil =>
      intro seenMethods
      simp [duplicates]
  | cons message messages ih =>
      intro seenMethods
      have hrest := ih (seenMethods.add message.methodName)
      have hadd : (seenMethods.add message.methodName).has methodName = true ↔
          seenMethods.has methodName = true ∨ methodName = message.methodName := JsSet.has_add
      by_cases hname : message.methodName = methodName
      · subst hname
        rw [if_pos (hadd.mpr (.inr rfl))] at hrest
        by_cases hseen : seenMethods.has message.methodName = true
        · simp [duplicates, hseen, hrest]
        · simp [duplicates, hseen, hrest]
      · simp only [Ne.symm hname, or_false] at hadd
        simp only [hadd] at hrest
        by_cases hseen : seenMethods.has message.methodName = true
        · simp [duplicates, hseen, hrest, hname]
        · simp [duplicates, hseen, hrest, hname]

theorem mem_duplicates_iff {methodName : JsString} {messages : List RpcMessageDefinition} :
    (∃ e ∈ duplicates .empty messages, e.methodName = methodName) ↔
      2 ≤ (messages.map (·.methodName)).count methodName := by
  have hcount := count_duplicates methodName messages .empty
  rw [if_neg (by simp)] at hcount
  have hmem : (∃ e ∈ duplicates .empty messages, e.methodName = methodName) ↔
      0 < ((duplicates .empty messages).map (·.methodName)).count methodName := by
    rw [List.count_pos_iff, List.mem_map]
  rw [hmem, hcount]
  omega

end DuplicateMethodValidator

namespace NamingConventionValidator

theorem camelCase_iff {segment : JsString} : camelCase segment = true ↔ IsCamelCase segment := by
  cases segment with
  | nil => simp [camelCase, IsCamelCase]
  | cons u us => simp [camelCase, IsCamelCase]

theorem isLetter_ne_slash {u : UInt16} (h : isLetter u = true) : u ≠ slash := by
  rintro rfl
  revert h
  decide

theorem IsCamelCase.isLetter {segment : JsString} (h : IsCamelCase segment) :
    ∀ u ∈ segment, isLetter u = true := by
  obtain ⟨u, us, rfl, hu, hus⟩ := h
  intro v hv
  obtain rfl | hv := List.mem_cons.mp hv
  · simp [NamingConventionValidator.isLetter, hu]
  · exact hus v hv

theorem validateSegment_eq_nil_iff {methodName segment : JsString} :
    validateSegment methodName segment = [] ↔ IsCamelCase segment := by
  rw [validateSegment, ← camelCase_iff]
  cases segment with
  | nil => simp [camelCase]
  | cons u us => simp

theorem validateSegments_eq_nil_iff {message : RpcMessageDefinition} :
    validateSegments message = [] ↔
      ∀ segment ∈ (path message.methodName).splitOn slash, IsCamelCase segment := by
  rw [validateSegments, List.flatMap_eq_nil_iff]
  simp only [validateSegment_eq_nil_iff]

theorem mem_intercalate {u x : UInt16} {ls : List JsString} (h : u ∈ List.intercalate [x] ls) :
    u = x ∨ ∃ l ∈ ls, u ∈ l := by
  induction ls with
  | nil => simp [List.intercalate] at h
  | cons l ls ih =>
      cases ls with
      | nil => exact .inr ⟨l, List.mem_cons_self, by simpa [List.intercalate] using h⟩
      | cons l' ls =>
          rw [List.intercalate_cons_cons] at h
          simp only [List.mem_append, List.mem_singleton] at h
          obtain (hl | hx) | hrest := h
          · exact .inr ⟨l, List.mem_cons_self, hl⟩
          · exact .inl hx
          · obtain hx | ⟨l'', hmem, hu⟩ := ih hrest
            · exact .inl hx
            · exact .inr ⟨l'', List.mem_cons_of_mem l hmem, hu⟩

/-- A name whose segments are in camel case has no other characters, so that the characters are
checked for the sake of the message only. -/
theorem validateCharacters_eq_nil {message : RpcMessageDefinition}
    (h : validateSegments message = []) : validateCharacters message = [] := by
  rw [validateSegments_eq_nil_iff] at h
  have hpath : List.intercalate [slash] ((path message.methodName).splitOn slash) =
      path message.methodName := List.intercalate_splitOn slash
  have hne : path message.methodName ≠ [] := by
    intro hnil
    obtain ⟨u, us, hsegment, -⟩ := h [] (by simp [hnil])
    cases hsegment
  have hall : ∀ u ∈ path message.methodName, isLetter u = true ∨ u = slash := by
    intro u hu
    rw [← hpath] at hu
    obtain rfl | ⟨segment, hsegment, hu⟩ := mem_intercalate hu
    · exact .inr rfl
    · exact .inl (IsCamelCase.isLetter (h segment hsegment) u hu)
  have hallowed : allowedCharacters message.methodName = true := by
    simpa [allowedCharacters, hne] using hall
  simp [validateCharacters, hallowed]

/-- A path of segments does not start with `$/`. -/
theorem path_intercalate {segments : List JsString} (hne : segments ≠ [])
    (h : ∀ segment ∈ segments, IsCamelCase segment) :
    path (List.intercalate [slash] segments) = List.intercalate [slash] segments := by
  cases segments with
  | nil => exact absurd rfl hne
  | cons segment segments =>
      obtain ⟨u, us, rfl, hu, -⟩ := h segment List.mem_cons_self
      have hstart : ∃ rest, List.intercalate [slash] ((u :: us) :: segments) = u :: rest := by
        cases segments with
        | nil => exact ⟨us, by simp [List.intercalate]⟩
        | cons l ls => exact ⟨_, by rw [List.intercalate_cons_cons]; rfl⟩
      obtain ⟨rest, hrest⟩ := hstart
      have hdollar : u ≠ 0x24 := by
        rintro rfl
        revert hu
        decide
      rw [hrest, path, if_neg]
      simp [dollarPrefix, List.isPrefixOf, hdollar.symm]

theorem isMethodName_iff {message : RpcMessageDefinition} :
    IsMethodName message.methodName ↔ validateSegments message = [] := by
  rw [validateSegments_eq_nil_iff]
  constructor
  · rintro ⟨start, hstart, segments, hne, hsegments, hname⟩
    have hpath : path message.methodName = List.intercalate [slash] segments := by
      obtain rfl | hstart := List.mem_cons.mp hstart
      · rw [hname, List.nil_append, path_intercalate hne hsegments]
      · obtain rfl := List.mem_singleton.mp hstart
        rw [hname, path, if_pos (List.isPrefixOf_iff_prefix.mpr (List.prefix_append _ _)),
          List.drop_left]
    have hslash : ∀ segment ∈ segments, slash ∉ segment := by
      intro segment hsegment hmem
      exact isLetter_ne_slash (IsCamelCase.isLetter (hsegments segment hsegment) slash hmem) rfl
    rwa [hpath, List.splitOn_intercalate slash hslash hne]
  · intro h
    have hpath : List.intercalate [slash] ((path message.methodName).splitOn slash) =
        path message.methodName := List.intercalate_splitOn slash
    by_cases hprefix : dollarPrefix.isPrefixOf message.methodName = true
    · obtain ⟨rest, hrest⟩ := List.isPrefixOf_iff_prefix.mp hprefix
      refine ⟨dollarPrefix, by simp, _, List.splitOn_ne_nil slash _, h, ?_⟩
      rw [hpath, path, if_pos hprefix, ← hrest, List.drop_left]
    · refine ⟨[], by simp, _, List.splitOn_ne_nil slash _, h, ?_⟩
      rw [hpath, path, if_neg hprefix, List.nil_append]

/-- Every error is about the name of the message. -/
theorem methodName_of_mem_validate {message : RpcMessageDefinition} {e : MessageValidationError}
    (h : e ∈ (validate message).errors) : e.methodName = message.methodName := by
  obtain h | h := List.mem_append.mp h
  · rw [validateCharacters] at h
    split at h
    · rw [List.mem_singleton.mp h]
    · cases h
  · obtain ⟨segment, -, h⟩ := List.mem_flatMap.mp h
    rw [validateSegment] at h
    split_ifs at h
    · rw [List.mem_singleton.mp h]
    · rw [List.mem_singleton.mp h]
    · cases h

theorem validate_errors_eq_nil_iff {message : RpcMessageDefinition} :
    (validate message).errors = [] ↔ IsMethodName message.methodName := by
  rw [isMethodName_iff]
  show validateCharacters message ++ validateSegments message = [] ↔ _
  rw [List.append_eq_nil_iff]
  exact ⟨fun h => h.2, fun h => ⟨validateCharacters_eq_nil h, h⟩⟩

end NamingConventionValidator

variable {messages : List RpcMessageDefinition}

/-- The names that have errors are the names of messages that occur more than once, or are not
method names. -/
theorem exists_error_iff (methodName : JsString) :
    (∃ e ∈ (service.validate messages).errors, e.methodName = methodName) ↔
      methodName ∈ messages.map (·.methodName) ∧
        (2 ≤ (messages.map (·.methodName)).count methodName ∨ ¬ IsMethodName methodName) := by
  have herrors : (service.validate messages).errors =
      DuplicateMethodValidator.duplicates .empty messages ++
        messages.flatMap fun message => (NamingConventionValidator.validate message).errors := by
    simp [CompositeMessageValidationService.validate, service, resultOf,
      DuplicateMethodValidator.validate]
  rw [herrors]
  constructor
  · rintro ⟨e, he, rfl⟩
    obtain he | he := List.mem_append.mp he
    · have hcount := DuplicateMethodValidator.mem_duplicates_iff.mp ⟨e, he, rfl⟩
      exact ⟨List.count_pos_iff.mp (by omega), .inl hcount⟩
    · obtain ⟨message, hmessage, he⟩ := List.mem_flatMap.mp he
      have hname := NamingConventionValidator.methodName_of_mem_validate he
      refine ⟨List.mem_map.mpr ⟨message, hmessage, hname.symm⟩, .inr ?_⟩
      rw [hname, ← NamingConventionValidator.validate_errors_eq_nil_iff]
      exact List.ne_nil_of_mem he
  · rintro ⟨hmem, hcount | hnot⟩
    · obtain ⟨e, he, hname⟩ := DuplicateMethodValidator.mem_duplicates_iff.mpr hcount
      exact ⟨e, List.mem_append_left _ he, hname⟩
    · obtain ⟨message, hmessage, rfl⟩ := List.mem_map.mp hmem
      rw [← NamingConventionValidator.validate_errors_eq_nil_iff] at hnot
      obtain ⟨e, he⟩ := List.exists_mem_of_ne_nil _ hnot
      exact ⟨e, List.mem_append_right _ (List.mem_flatMap.mpr ⟨message, hmessage, he⟩),
        NamingConventionValidator.methodName_of_mem_validate he⟩

/-- **The messages are accepted exactly if their names differ and are method names**, and else the
errors are about the names that are not. -/
theorem validate_iff :
    ((service.validate messages).isValid = true ↔
      (messages.map (·.methodName)).Nodup ∧
        ∀ message ∈ messages, IsMethodName message.methodName) ∧
    ∀ methodName, (∃ e ∈ (service.validate messages).errors, e.methodName = methodName) ↔
      methodName ∈ messages.map (·.methodName) ∧
        (2 ≤ (messages.map (·.methodName)).count methodName ∨ ¬ IsMethodName methodName) := by
  refine ⟨?_, exists_error_iff⟩
  have hvalid : (service.validate messages).isValid = true ↔
      ∀ methodName, ¬ ∃ e ∈ (service.validate messages).errors, e.methodName = methodName := by
    show ((service.validate messages).errors.length == 0) = true ↔ _
    rw [beq_iff_eq, List.length_eq_zero_iff, List.eq_nil_iff_forall_not_mem]
    simp
  rw [hvalid, List.nodup_iff_count_le_one]
  simp only [exists_error_iff, not_and, not_or, not_not, not_le]
  constructor
  · intro h
    refine ⟨?_, fun message hmessage => (h _ (List.mem_map_of_mem hmessage)).2⟩
    intro methodName
    by_cases hmem : methodName ∈ messages.map (·.methodName)
    · exact Nat.le_of_lt_succ (h methodName hmem).1
    · rw [List.count_eq_zero_of_not_mem hmem]
      exact Nat.zero_le 1
  · rintro ⟨hcount, hnames⟩ methodName hmem
    obtain ⟨message, hmessage, rfl⟩ := List.mem_map.mp hmem
    exact ⟨Nat.lt_succ_of_le (hcount _), hnames message hmessage⟩

end KhulnasoftLsp.RpcMessageValidation
