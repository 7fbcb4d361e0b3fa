import UpdateRelay.Proofs.Text.Numeral
import UpdateRelay.Settings.Environment

/-!
# What a variable stands for

A variable that is missing or blank stands for the default of a setting, and another one for what
its value means. `Environment.StandsFor` says so of any meaning, and reading a text or a number from
the environment finds what the variable stands for.
-/

namespace UpdateRelay

namespace Environment

/-- Whether a variable is missing or blank. -/
def Unset (held : Option String) : Prop := ∀ value, held = some value → Text.isBlankText value

/-- Whether a setting is the one that a variable stands for: the default of the setting where the
variable is missing or blank, and what its value means elsewhere. -/
structure StandsFor {α : Type} (means : String → α → Prop) (fallback : α) (held : Option String)
    (setting : α) : Prop where
  unset : Unset held → setting = fallback
  set : ∀ value, held = some value → ¬ Text.isBlankText value → means value setting

/-- Whether a value spells a number of a range, white space around it aside. -/
def Spells (range : Text.IntegerRange) (value : String) (number : Int) : Prop :=
  Text.Numeral range.signed (Text.trim value).toList number ∧
    range.least ≤ number ∧ number ≤ range.greatest

theorem spells_iff {range : Text.IntegerRange} {value : String} {number : Int} :
    Spells range value number ↔ Text.integer? range (Text.trim value) = some number :=
  Text.integer?_eq_some_iff.symm

theorem Spells.unique {range : Text.IntegerRange} {value : String} {first second : Int}
    (one : Spells range value first) (other : Spells range value second) : first = second :=
  Option.some.inj ((spells_iff.1 one).symm.trans (spells_iff.1 other))

section StandsFor

variable {α β : Type} {means : String → α → Prop} {fallback setting : α} {held : Option String}
  {value : String}

theorem standsFor_of_unset (unset : Unset held) :
    StandsFor means fallback held setting ↔ setting = fallback :=
  ⟨fun stands => stands.unset unset,
    fun same => ⟨fun _ => same, fun _ isValue notBlank => absurd (unset _ isValue) notBlank⟩⟩

theorem standsFor_of_set (notBlank : ¬ Text.isBlankText value) :
    StandsFor means fallback (some value) setting ↔ means value setting := by
  refine ⟨fun stands => stands.set value rfl notBlank, fun said => ⟨fun unset => ?_, ?_⟩⟩
  · exact absurd (unset value rfl) notBlank
  · rintro _ ⟨⟩ -
    exact said

theorem unset_or_set (held : Option String) :
    Unset held ∨ ∃ value, held = some value ∧ ¬ Text.isBlankText value := by
  cases held with
  | none => exact .inl fun _ missing => absurd missing (Option.some_ne_none _).symm
  | some value =>
    by_cases blank : Text.isBlankText value
    · exact .inl fun _ same => Option.some.inj same ▸ blank
    · exact .inr ⟨value, rfl, blank⟩

/-- A setting that is computed from another stands for what that one stands for. -/
theorem standsFor_iff_exists {meansOther : String → β → Prop} {outcome : β} (compute : α → β)
    (same : ∀ value outcome, meansOther value outcome ↔
      ∃ setting, means value setting ∧ compute setting = outcome) :
    StandsFor meansOther (compute fallback) held outcome ↔
      ∃ setting, StandsFor means fallback held setting ∧ compute setting = outcome := by
  rcases unset_or_set held with unset | ⟨value, rfl, notBlank⟩
  · simp only [standsFor_of_unset unset, exists_eq_left]
    exact eq_comm
  · simp only [standsFor_of_set notBlank, same]

/-- What two variables hold stands for the same if both are blank together and mean the same. -/
theorem standsFor_congr {first second : String}
    (blank : Text.isBlankText first = Text.isBlankText second)
    (same : ¬ Text.isBlankText first → ∀ setting, means first setting ↔ means second setting) :
    StandsFor means fallback (some first) setting ↔
      StandsFor means fallback (some second) setting := by
  by_cases isBlank : Text.isBlankText first
  · rw [standsFor_of_unset fun _ isFirst => Option.some.inj isFirst ▸ isBlank,
      standsFor_of_unset fun _ isSecond => Option.some.inj isSecond ▸ blank ▸ isBlank]
  · rw [standsFor_of_set isBlank, standsFor_of_set (blank ▸ isBlank), same isBlank]

end StandsFor

/-! ## Reading a variable -/

section Reading

variable {environment : Environment} {key value : String}

theorem value?_of_unset (unset : Unset (environment key)) : environment.value? key = none :=
  Option.filter_eq_none_iff.2 fun value isValue => by simp [unset value isValue]

theorem value?_of_set (isValue : environment key = some value)
    (notBlank : ¬ Text.isBlankText value) : environment.value? key = some value :=
  Option.filter_eq_some_iff.2 ⟨isValue, by simpa using notBlank⟩

/-- What is made of a value that is not blank is what the variable stands for. -/
theorem getD_value?_iff {α : Type} {understand : String → α} {fallback setting : α} :
    ((environment.value? key).map understand).getD fallback = setting ↔
      StandsFor (fun value setting => setting = understand value) fallback (environment key)
        setting := by
  rcases unset_or_set (environment key) with unset | ⟨value, isValue, notBlank⟩
  · rw [value?_of_unset unset, standsFor_of_unset unset]
    exact eq_comm
  · rw [value?_of_set isValue notBlank, isValue, standsFor_of_set notBlank]
    exact eq_comm

variable {range : Text.IntegerRange} {fallback : Int}

theorem number_of_unset (unset : Unset (environment key)) :
    environment.number key range fallback = .ok fallback := by
  rw [Environment.number, value?_of_unset unset]

theorem number_of_set (isValue : environment key = some value)
    (notBlank : ¬ Text.isBlankText value) :
    environment.number key range fallback =
      (Text.integer? range (Text.trim value)).elim
        (.error (.configuration s!"{key}: not a valid number: {value}")) .ok := by
  cases spelled : Text.integer? range (Text.trim value) <;>
    simp [Environment.number, value?_of_set isValue notBlank, spelled]

/-- The number that is read is the one that the variable stands for. -/
theorem number_eq_ok_iff {number : Int} :
    environment.number key range fallback = .ok number ↔
      StandsFor (Spells range) fallback (environment key) number := by
  rcases unset_or_set (environment key) with unset | ⟨value, isValue, notBlank⟩
  · rw [number_of_unset unset, standsFor_of_unset unset, Except.ok.injEq, eq_comm]
  · rw [number_of_set isValue notBlank, isValue, standsFor_of_set notBlank, spells_iff]
    cases Text.integer? range (Text.trim value) <;> simp

/-- No number is read where a value that is not blank spells none; the failure names both. -/
theorem number_eq_error {failure : BrokerFailure}
    (fails : environment.number key range fallback = .error failure) :
    ∃ value, environment key = some value ∧ ¬ Text.isBlankText value ∧
      (∀ number, ¬ Spells range value number) ∧
      failure = .configuration s!"{key}: not a valid number: {value}" := by
  rcases unset_or_set (environment key) with unset | ⟨value, isValue, notBlank⟩
  · rw [number_of_unset unset] at fails
    contradiction
  · refine ⟨value, isValue, notBlank, ?_⟩
    rw [number_of_set isValue notBlank] at fails
    simp only [spells_iff]
    cases spelled : Text.integer? range (Text.trim value) with
    | some number => simp [spelled] at fails
    | none =>
      rw [spelled] at fails
      exact ⟨by simp, (Except.error.inj fails).symm⟩

end Reading

end Environment

end UpdateRelay
