import UpdateRelay.Proofs.Settings.Entries
import UpdateRelay.Proofs.Settings.Variables

/-!
# The fields of a broker's settings

Each field of a broker's settings has a variable of its own, and `BrokerSettings.Field.Follows`
tells which settings of the field its variable stands for. The settings that an environment gives
are those that follow from all six variables, and where it gives none one of the variables is to
blame or the settings cannot be used.
-/

namespace UpdateRelay.BrokerSettings

open Environment

/-! ## Fields -/

/-- The fields of a broker's settings. -/
inductive Field
  | kind
  | nodes
  | topicStem
  | capacity
  | connectTime
  | partitions
  deriving DecidableEq, Repr

namespace Field

def key : Field → String
  | kind => kindKey
  | nodes => nodesKey
  | topicStem => topicStemKey
  | capacity => capacityKey
  | connectTime => connectTimeKey
  | partitions => partitionsKey

/-- The type of a field. -/
def Setting : Field → Type
  | kind => BrokerKind
  | nodes => List String
  | topicStem => String
  | capacity => Nat
  | connectTime => Span
  | partitions => Int

/-- What is set for a field. -/
def of : (field : Field) → BrokerSettings → field.Setting
  | kind => BrokerSettings.kind
  | nodes => BrokerSettings.nodes
  | topicStem => BrokerSettings.topicStem
  | capacity => BrokerSettings.capacity
  | connectTime => BrokerSettings.connectTime
  | partitions => BrokerSettings.partitions

/-- The numbers that the variable of a field may hold, if it is one that holds a number. -/
def range? : Field → Option Text.IntegerRange
  | capacity | connectTime => some .count64
  | partitions => some .signed32
  | kind | nodes | topicStem => none

/-- What a value that is not blank means to a field. -/
def Means : (field : Field) → String → field.Setting → Prop
  | kind => fun value kind => kind = BrokerKind.select value
  | nodes => fun value nodes =>
      ∃ pieces : List String, pieces ≠ [] ∧ (∀ piece ∈ pieces, ',' ∉ piece.toList) ∧
        value = ",".intercalate pieces ∧
        nodes = (pieces.map Text.trim).filter fun node => node ≠ ""
  | topicStem => fun value stem => stem = Text.trim value
  | capacity => fun value (capacity : Nat) => Spells .count64 value capacity
  | connectTime => fun value time =>
      ∃ milliseconds : Nat, Spells .count64 value milliseconds ∧
        time = Span.ofMilliseconds milliseconds
  | partitions => Spells .signed32

/-- Whether what is set for a field is what its variable stands for. -/
def Follows (field : Field) (held : Option String) (settings : BrokerSettings) : Prop :=
  StandsFor field.Means (field.of .default) held (field.of settings)

theorem Means.unique {field : Field} {value : String} {first second : field.Setting}
    (one : field.Means value first) (other : field.Means value second) : first = second := by
  cases field with
  | kind | topicStem => exact one.trans other.symm
  | nodes => exact (eq_entries_iff.2 one).trans (eq_entries_iff.2 other).symm
  | capacity => exact Int.ofNat.inj (Spells.unique one other)
  | connectTime =>
    obtain ⟨milliseconds, spells, rfl⟩ := one
    obtain ⟨others, spellsToo, rfl⟩ := other
    rw [Int.ofNat.inj (spells.unique spellsToo)]
  | partitions => exact Spells.unique one other

/-- A variable stands for one setting of its field. -/
theorem Follows.unique {field : Field} {held : Option String} {settings others : BrokerSettings}
    (follows : field.Follows held settings) (followsToo : field.Follows held others) :
    field.of settings = field.of others := by
  rcases unset_or_set held with unset | ⟨value, rfl, notBlank⟩
  · rw [follows.unset unset, followsToo.unset unset]
  · exact (follows.set value rfl notBlank).unique (followsToo.set value rfl notBlank)

end Field

/-! ## Reading -/

section Steps

variable {ε α β : Type} {first : Except ε α} {next : α → Except ε β}

theorem bind_eq_ok_iff {outcome : β} :
    first >>= next = .ok outcome ↔ ∃ value, first = .ok value ∧ next value = .ok outcome := by
  cases first <;> simp [bind, Except.bind]

theorem bind_eq_error_iff {failure : ε} :
    first >>= next = .error failure ↔
      first = .error failure ∨ ∃ value, first = .ok value ∧ next value = .error failure := by
  cases first <;> simp [bind, Except.bind]

end Steps

section Reading

variable {environment : Environment} {settings : BrokerSettings}

theorem follows_capacity_iff :
    Field.capacity.Follows (environment capacityKey) settings ↔
      ∃ number, environment.number capacityKey .count64 default.capacity = .ok number ∧
        number.toNat = settings.capacity := by
  simp only [number_eq_ok_iff]
  change StandsFor (fun value (capacity : Nat) => Spells .count64 value capacity)
    (default.capacity : Int).toNat _ settings.capacity ↔ _
  refine standsFor_iff_exists Int.toNat fun value capacity => ⟨fun spells => ?_, ?_⟩
  · exact ⟨capacity, spells, rfl⟩
  · rintro ⟨number, spells, rfl⟩
    -- A number of this range is not negative, so nothing of it is lost.
    obtain ⟨count, rfl⟩ := Int.eq_ofNat_of_zero_le spells.2.1
    exact spells

theorem follows_connectTime_iff :
    Field.connectTime.Follows (environment connectTimeKey) settings ↔
      ∃ number, environment.number connectTimeKey .count64 5000 = .ok number ∧
        Span.ofMilliseconds number.toNat = settings.connectTime := by
  simp only [number_eq_ok_iff]
  change StandsFor (fun value time => ∃ milliseconds : Nat, Spells .count64 value milliseconds ∧
      time = Span.ofMilliseconds milliseconds)
    (Span.ofMilliseconds (5000 : Int).toNat) _ settings.connectTime ↔ _
  refine standsFor_iff_exists (fun number : Int => Span.ofMilliseconds number.toNat)
    fun value time => ⟨?_, ?_⟩
  · rintro ⟨milliseconds, spells, rfl⟩
    exact ⟨_, spells, rfl⟩
  · rintro ⟨number, spells, rfl⟩
    obtain ⟨milliseconds, rfl⟩ := Int.eq_ofNat_of_zero_le spells.2.1
    exact ⟨milliseconds, spells, rfl⟩

theorem follows_partitions_iff :
    Field.partitions.Follows (environment partitionsKey) settings ↔
      environment.number partitionsKey .signed32 default.partitions = .ok settings.partitions :=
  number_eq_ok_iff.symm

theorem follows_kind_iff :
    Field.kind.Follows (environment kindKey) settings ↔
      ((environment.value? kindKey).map BrokerKind.select).getD default.kind = settings.kind :=
  getD_value?_iff.symm

theorem follows_nodes_iff :
    Field.nodes.Follows (environment nodesKey) settings ↔
      ((environment.value? nodesKey).map entries).getD default.nodes = settings.nodes := by
  rw [getD_value?_iff]
  simp only [eq_entries_iff]
  rfl

theorem follows_topicStem_iff :
    Field.topicStem.Follows (environment topicStemKey) settings ↔
      ((environment.value? topicStemKey).map Text.trim).getD default.topicStem =
        settings.topicStem :=
  getD_value?_iff.symm

/-- The settings that are read are those that follow from the variables. -/
theorem read_eq_ok_iff :
    read environment = .ok settings ↔
      ∀ field : Field, field.Follows (environment field.key) settings := by
  have fields : (∀ field : Field, field.Follows (environment field.key) settings) ↔
      Field.kind.Follows (environment kindKey) settings ∧
      Field.nodes.Follows (environment nodesKey) settings ∧
      Field.topicStem.Follows (environment topicStemKey) settings ∧
      Field.capacity.Follows (environment capacityKey) settings ∧
      Field.connectTime.Follows (environment connectTimeKey) settings ∧
      Field.partitions.Follows (environment partitionsKey) settings :=
    ⟨fun all => ⟨all .kind, all .nodes, all .topicStem, all .capacity, all .connectTime,
      all .partitions⟩, fun ⟨kind, nodes, stem, capacity, time, partitions⟩ field => by
        cases field <;> assumption⟩
  rw [fields, follows_kind_iff, follows_nodes_iff, follows_topicStem_iff, follows_capacity_iff,
    follows_connectTime_iff, follows_partitions_iff, read]
  obtain ⟨kind, nodes, stem, capacity, time, partitions⟩ := settings
  cases environment.number capacityKey .count64 default.capacity <;>
    cases environment.number connectTimeKey .count64 5000 <;>
    cases environment.number partitionsKey .signed32 default.partitions <;>
    simp [bind, Except.bind, pure, Except.pure]

theorem accept_eq_ok_iff : settings.accept = .ok () ↔ settings.problem? = none := by
  cases problem : settings.problem? <;> simp [accept, problem]

/-- Settings that are refused have a problem, and the failure tells it. -/
theorem accept_eq_error {failure : BrokerFailure} (refused : settings.accept = .error failure) :
    ∃ problem, settings.problem? = some problem ∧ failure = .configuration problem := by
  cases found : settings.problem? with
  | none =>
    rw [accept_eq_ok_iff.2 found] at refused
    contradiction
  | some problem =>
    simp only [accept, found] at refused
    exact ⟨problem, rfl, (Except.error.inj refused).symm⟩

/-- The settings of an environment are those that follow from the variables, if they can be used. -/
theorem ofEnvironment_eq_ok_iff :
    ofEnvironment environment = .ok settings ↔
      (∀ field : Field, field.Follows (environment field.key) settings) ∧
        settings.accept = .ok () := by
  rw [← read_eq_ok_iff, ofEnvironment]
  simp only [bind_eq_ok_iff]
  constructor
  · rintro ⟨found, isRead, _, accepted, ⟨⟩⟩
    exact ⟨isRead, accepted⟩
  · exact fun ⟨isRead, accepted⟩ => ⟨settings, isRead, (), accepted, rfl⟩

/-- Whether a failure tells of the variable of a field that holds no number of the field. -/
def Misspelled (environment : Environment) (field : Field) (failure : BrokerFailure) : Prop :=
  ∃ range value, field.range? = some range ∧ environment field.key = some value ∧
    ¬ Text.isBlankText value ∧ (∀ number, ¬ Spells range value number) ∧
    failure = .configuration s!"{field.key}: not a valid number: {value}"

theorem read_eq_error {failure : BrokerFailure} (fails : read environment = .error failure) :
    ∃ field, Misspelled environment field failure := by
  have misspelled (field : Field) {range : Text.IntegerRange} (isNumber : field.range? = some range)
      {fallback : Int} (fails : environment.number field.key range fallback = .error failure) :
      ∃ field, Misspelled environment field failure :=
    let ⟨value, held, notBlank, never, same⟩ := number_eq_error fails
    ⟨field, range, value, isNumber, held, notBlank, never, same⟩
  -- The numbers are read in turn, and the first variable that holds none is the one to blame.
  rcases bind_eq_error_iff.1 fails with capacity | ⟨_, -, fails⟩
  · exact misspelled .capacity rfl capacity
  rcases bind_eq_error_iff.1 fails with time | ⟨_, -, fails⟩
  · exact misspelled .connectTime rfl time
  rcases bind_eq_error_iff.1 fails with partitions | ⟨_, -, fails⟩
  · exact misspelled .partitions rfl partitions
  contradiction

/-- There are no settings if a variable holds no number of its field, or if the settings that follow
from the variables cannot be used. -/
theorem ofEnvironment_eq_error {failure : BrokerFailure}
    (fails : ofEnvironment environment = .error failure) :
    (∃ field, Misspelled environment field failure) ∨
      ∃ settings problem, (∀ field : Field, field.Follows (environment field.key) settings) ∧
        settings.problem? = some problem ∧ failure = .configuration problem := by
  rcases bind_eq_error_iff.1 fails with unread | ⟨settings, isRead, fails⟩
  · exact .inl (read_eq_error unread)
  · rcases bind_eq_error_iff.1 fails with unusable | ⟨_, -, fails⟩
    · obtain ⟨problem, found, same⟩ := accept_eq_error unusable
      exact .inr ⟨settings, problem, read_eq_ok_iff.1 isRead, found, same⟩
    · contradiction

/-- Settings follow from the variables as soon as those of the numbers hold such. -/
theorem exists_follows_iff :
    (∃ settings, ∀ field : Field, field.Follows (environment field.key) settings) ↔
      ∀ (field : Field) range, field.range? = some range →
        ∀ value, environment field.key = some value → ¬ Text.isBlankText value →
          ∃ number, Spells range value number := by
  constructor
  · rintro ⟨settings, follows⟩ field range isNumber value held notBlank
    have means := (follows field).set value held notBlank
    cases field with
    | kind | nodes | topicStem => contradiction
    | capacity | partitions =>
      obtain rfl := Option.some.inj isNumber
      exact ⟨_, means⟩
    | connectTime =>
      obtain rfl := Option.some.inj isNumber
      obtain ⟨milliseconds, spells, -⟩ := means
      exact ⟨_, spells⟩
  · intro spelled
    cases found : read environment with
    | ok settings => exact ⟨settings, read_eq_ok_iff.1 found⟩
    | error failure =>
      obtain ⟨field, range, value, isNumber, held, notBlank, never, -⟩ := read_eq_error found
      obtain ⟨number, spells⟩ := spelled field range isNumber value held notBlank
      exact absurd spells (never number)

end Reading

end UpdateRelay.BrokerSettings
