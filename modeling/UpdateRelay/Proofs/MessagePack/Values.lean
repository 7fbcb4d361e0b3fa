import UpdateRelay.Proofs.MessagePack.Forms

/-!
# Well-formed values

`Dialect.Value` says which bytes are one value and how deep its containers are nested. Whether an
extension counts as a container is left to a `Dialect`. A value that is passed over is passed over
whole, whatever its shape, as long as it is not nested too deep: `Dialect.Value.skip`.
-/

namespace UpdateRelay.MessagePack

/-- In what the readers of values may differ: for how many containers an extension counts, and
whether a field may be named by its place in the form of a signed integer. -/
structure Dialect where
  extensionLevels : Nat
  signedPlaces : Bool
  deriving DecidableEq, Repr

/-- How many bytes follow a head that holds no values. -/
def Head.payload? : Head → Option Nat
  | nil | boolean _ | unsigned _ | signed _ => some 0
  | float length | text length | binary length => some length
  | extension _ | array _ | map _ => none

/-- How many values follow a head. -/
def Head.elements? : Head → Option Nat
  | array count => some count
  | map count => some (2 * count)
  | _ => none

/-- Whether bytes are a value that is nested some containers deep at the most. An extension has its
type in a byte before its data. -/
inductive Dialect.Value (dialect : Dialect) : (depth : Nat) → Bytes → Prop
  | plain {depth : Nat} {head : Head} {form content : Bytes} (isForm : form ∈ head.forms)
      (size : head.payload? = some content.length) : Value dialect depth (form ++ content)
  | extension {depth length : Nat} {form content : Bytes}
      (isForm : form ∈ (Head.extension length).forms) (size : content.length = length + 1) :
      Value dialect (depth + dialect.extensionLevels) (form ++ content)
  | container {depth : Nat} {head : Head} {form : Bytes} {elements : List Bytes}
      (isForm : form ∈ head.forms) (size : head.elements? = some elements.length)
      (each : ∀ element ∈ elements, Value dialect depth element) :
      Value dialect (depth + 1) (form ++ elements.flatten)

/-! ## Passing over values -/

theorem dropBytes_append (content rest : Bytes) :
    dropBytes content.length (content ++ rest) = some rest := by
  rw [dropBytes, splitAt?_append, Option.map_some]

/-- Values are passed over one by one. -/
theorem skipMany_flatten {skip : Bytes → Option Bytes} {elements : List Bytes}
    (each : ∀ element ∈ elements, ∀ rest, skip (element ++ rest) = some rest) (rest : Bytes) :
    skipMany skip elements.length (elements.flatten ++ rest) = some rest := by
  induction elements with
  | nil => rfl
  | cons element elements inductionHypothesis =>
    obtain ⟨first, others⟩ := List.forall_mem_cons.1 each
    rw [List.length_cons, List.flatten_cons, List.append_assoc, skipMany, first]
    exact inductionHypothesis others

/-- No value is passed over but whole. -/
theorem eq_of_skipMany {skip : Bytes → Option Bytes} {elements : List Bytes}
    (each : ∀ element ∈ elements, ∀ rest after, skip (element ++ rest) = some after → after = rest)
    {rest after : Bytes}
    (skipped : skipMany skip elements.length (elements.flatten ++ rest) = some after) :
    after = rest := by
  induction elements with
  | nil => exact (Option.some.inj skipped).symm
  | cons element elements inductionHypothesis =>
    obtain ⟨first, others⟩ := List.forall_mem_cons.1 each
    rw [List.length_cons, List.flatten_cons, List.append_assoc, skipMany] at skipped
    split at skipped
    next middle passed =>
      obtain rfl := first _ _ passed
      exact inductionHypothesis others skipped
    next => contradiction

section Skip

variable {form content rest : Bytes} {head : Head} {elements : List Bytes} {limit : Nat}

theorem skipValue_plain (isForm : form ∈ head.forms) (size : head.payload? = some content.length) :
    skipValue limit (form ++ content ++ rest) = some rest := by
  have passed := dropBytes_append content rest
  unfold skipValue
  rw [List.append_assoc, readAs_form isForm]
  cases head with
  | nil | boolean | unsigned | signed =>
    obtain rfl := List.length_eq_zero_iff.1 (Option.some.inj size).symm
    rfl
  | float length | text length | binary length =>
    obtain rfl := Option.some.inj size
    exact passed
  | extension | array | map => contradiction

theorem skipValue_extension {length : Nat} (isForm : form ∈ (Head.extension length).forms)
    (size : content.length = length + 1) :
    skipValue (limit + 1) (form ++ content ++ rest) = some rest := by
  have passed := dropBytes_append content rest
  rw [size] at passed
  unfold skipValue
  rw [List.append_assoc, readAs_form isForm]
  exact passed

theorem skipValue_container (isForm : form ∈ head.forms)
    (size : head.elements? = some elements.length) :
    skipValue (limit + 1) (form ++ elements.flatten ++ rest) =
      skipMany (skipValue limit) elements.length (elements.flatten ++ rest) := by
  rw [skipValue, List.append_assoc, readAs_form isForm]
  cases head with
  | array | map => rw [← Option.some.inj size]
  | _ => contradiction

theorem payload?_eq_none {count : Nat} (size : head.elements? = some count) :
    head.payload? = none := by
  cases head <;> first | rfl | contradiction

/-- Where nothing may be nested, there are no extensions and no containers. -/
theorem skipValue_zero (isForm : form ∈ head.forms) (deep : head.payload? = none) :
    skipValue 0 (form ++ rest) = none := by
  rw [skipValue, readAs_form isForm]
  cases head with
  | extension | array | map => rfl
  | _ => contradiction

end Skip

namespace Dialect

variable {dialect : Dialect} {depth : Nat} {bytes : Bytes}

/-- A value is passed over where as many containers may be nested as it has. -/
theorem Value.skip (counted : dialect.extensionLevels = 1) (value : dialect.Value depth bytes)
    {limit : Nat} (within : depth ≤ limit) (rest : Bytes) :
    skipValue limit (bytes ++ rest) = some rest := by
  induction value generalizing limit rest with
  | plain isForm size => exact skipValue_plain isForm size
  | extension isForm size =>
    rw [counted] at within
    obtain ⟨limit, rfl⟩ := Nat.exists_eq_add_of_le' (Nat.le_of_add_left_le within)
    exact skipValue_extension isForm size
  | container isForm size each inductionHypothesis =>
    obtain ⟨limit, rfl⟩ := Nat.exists_eq_add_of_le' (Nat.le_of_add_left_le within)
    rw [skipValue_container isForm size]
    exact skipMany_flatten (fun element member rest =>
      inductionHypothesis element member (Nat.le_of_succ_le_succ within) rest) rest

/-- A value that is passed over is passed over whole. -/
theorem Value.eq_of_skip (value : dialect.Value depth bytes) {limit : Nat} {rest after : Bytes}
    (skipped : skipValue limit (bytes ++ rest) = some after) : after = rest := by
  induction value generalizing limit rest after with
  | plain isForm size =>
    rw [skipValue_plain isForm size] at skipped
    exact (Option.some.inj skipped).symm
  | extension isForm size =>
    cases limit with
    | zero =>
      rw [List.append_assoc, skipValue_zero isForm rfl] at skipped
      contradiction
    | succ limit =>
      rw [skipValue_extension isForm size] at skipped
      exact (Option.some.inj skipped).symm
  | @container _ head _ _ isForm size each inductionHypothesis =>
    cases limit with
    | zero =>
      rw [List.append_assoc, skipValue_zero isForm (payload?_eq_none size)] at skipped
      contradiction
    | succ limit =>
      rw [skipValue_container isForm size] at skipped
      exact eq_of_skipMany (fun element member rest after =>
        inductionHypothesis element member) skipped

/-- A value starts with a head, and where that holds no values its content is all that follows. -/
theorem Value.exists_head (value : dialect.Value depth bytes) :
    ∃ head content, (∀ size ∈ head.payload?, size = content.length) ∧
      ∀ rest, readHead (bytes ++ rest) = some (head, content ++ rest) := by
  cases value with
  | @plain _ head form content isForm size =>
    refine ⟨head, content, fun other same => ?_, fun rest => ?_⟩
    · exact Option.some.inj ((Option.mem_def.1 same).symm.trans size)
    · rw [List.append_assoc, readAs_form isForm]
  | @extension _ length form content isForm size =>
    refine ⟨.extension length, content, nofun, fun rest => ?_⟩
    rw [List.append_assoc, readAs_form isForm]
  | @container _ head form elements isForm size each =>
    refine ⟨head, elements.flatten, ?_, fun rest => ?_⟩
    · rw [payload?_eq_none size]
      exact nofun
    · rw [List.append_assoc, readAs_form isForm]

end Dialect

end UpdateRelay.MessagePack
