import Mathlib.Logic.Relation
import UpdateRelay.Proofs.Settings.Fields

/-!
# Settings are read field by field

`BrokerSettings.read_field_by_field` is the account of the settings that an environment gives: which
they are, when there are none, and which changes to the environment,
`BrokerSettings.Field.Respelling`, do not matter.
-/

namespace UpdateRelay.BrokerSettings

open Environment

/-! ## Other spellings -/

namespace Field

/-- Changes to what a variable holds that do not matter to its field. -/
inductive Respelling : Field → Option String → Option String → Prop
  | blank {field value} (isBlank : Text.isBlankText value) : Respelling field none (some value)
  | pad {field lead trail} (leads : Text.isBlankText lead) (trails : Text.isBlankText trail)
      (value : String) : Respelling field (some value) (some (lead ++ value ++ trail))
  | padNode {lead trail} (leads : Text.isBlankText lead) (trails : Text.isBlankText trail)
      (front back : List String) (node : String) :
      Respelling .nodes (some (",".intercalate (front ++ node :: back)))
        (some (",".intercalate (front ++ (lead ++ node ++ trail) :: back)))
  | emptyNode {front back : List String}
      (notBlank : ¬ Text.isBlankText (",".intercalate (front ++ back))) :
      Respelling .nodes (some (",".intercalate (front ++ back)))
        (some (",".intercalate (front ++ "" :: back)))
  | plus {field range digits} (isNumber : Field.range? field = some range)
      (decimal : Text.Digits digits.toList) :
      Respelling field (some digits) (some ("+" ++ digits))
  | zeros {field range digits} (isNumber : Field.range? field = some range)
      (decimal : Text.Digits digits.toList) (count : Nat) :
      Respelling field (some digits) (some (String.ofList (List.replicate count '0') ++ digits))

variable {field : Field} {range : Text.IntegerRange} {first second : String}

/-- A value of nodes is known by its entries. -/
theorem means_nodes_congr (same : entries first = entries second) :
    ∀ setting, Field.nodes.Means first setting ↔ Field.nodes.Means second setting :=
  fun (nodes : List String) =>
    calc Field.nodes.Means first nodes
      _ ↔ nodes = entries first := eq_entries_iff.symm
      _ ↔ nodes = entries second := by rw [same]
      _ ↔ Field.nodes.Means second nodes := eq_entries_iff

/-- A value of a number is known by the numbers that it spells. -/
theorem means_congr (isNumber : field.range? = some range)
    (same : ∀ number, Spells range first number ↔ Spells range second number) :
    ∀ setting : field.Setting, field.Means first setting ↔ field.Means second setting := by
  cases field with
  | kind | nodes | topicStem => contradiction
  | capacity =>
    obtain rfl := Option.some.inj isNumber
    exact fun (capacity : Nat) => same capacity
  | connectTime =>
    obtain rfl := Option.some.inj isNumber
    simp only [Means, same, implies_true]
  | partitions =>
    obtain rfl := Option.some.inj isNumber
    exact same

theorem means_pad {lead trail : String} (leads : Text.isBlankText lead)
    (trails : Text.isBlankText trail) (value : String) (setting : field.Setting) :
    field.Means (lead ++ value ++ trail) setting ↔ field.Means value setting := by
  cases field with
  | kind => simp only [Means, BrokerKind.select, Text.trim_pad leads trails]
  | nodes => exact means_nodes_congr (entries_pad leads trails value) setting
  | topicStem => simp only [Means, Text.trim_pad leads trails]
  | capacity | connectTime | partitions =>
    simp only [Means, Spells, Text.trim_pad leads trails]

/-- Two spellings of numerals without white space stand for the same if they spell the same. -/
theorem standsFor_numeral {first second : List Char} (isNumber : field.range? = some range)
    (solid : Text.Solid first) (solidToo : Text.Solid second)
    (same : ∀ number, Text.Numeral range.signed first number ↔
      Text.Numeral range.signed second number)
    {fallback setting : field.Setting} :
    StandsFor field.Means fallback (some (String.ofList first)) setting ↔
      StandsFor field.Means fallback (some (String.ofList second)) setting := by
  refine standsFor_congr ?_ fun _ => means_congr isNumber fun number => ?_
  · rw [solid.not_isBlankText, solidToo.not_isBlankText]
  · simp only [Spells, Text.trim, String.toList_ofList, solid.trimChars_eq_self,
      solidToo.trimChars_eq_self, same]

/-- Changes that do not matter leave it as it is what the variable stands for. -/
theorem Respelling.follows_iff {held other : Option String}
    (respelling : Respelling field held other) {settings : BrokerSettings} :
    field.Follows held settings ↔ field.Follows other settings := by
  unfold Follows
  cases respelling with
  | blank isBlank =>
    have missing : Unset none := fun _ same => absurd same (Option.some_ne_none _).symm
    have unset : Unset (some _) := fun _ same => Option.some.inj same ▸ isBlank
    rw [standsFor_of_unset missing, standsFor_of_unset unset]
  | pad leads trails value =>
    exact standsFor_congr (Text.isBlankText_pad leads trails value).symm
      fun _ setting => (means_pad leads trails value setting).symm
  | padNode leads trails front back node =>
    refine standsFor_congr ?_ fun _ =>
      means_nodes_congr (entries_padPiece leads trails front back node).symm
    -- Blank are both lists or neither, for they have the same pieces but for white space.
    simp [Text.isBlankText_intercalate, Text.isBlankText_pad leads trails]
  | @emptyNode front back notBlank =>
    have some : front ++ back ≠ [] := by
      intro none
      rw [none] at notBlank
      exact notBlank rfl
    -- A list that is not blank has a piece, and with one more there is a comma, even between
    -- pieces that are both empty.
    have longer : ¬ (front ++ "" :: back).length ≤ 1 := by
      have := List.length_pos_of_ne_nil some
      rw [List.length_append] at this ⊢
      rw [List.length_cons]
      omega
    refine standsFor_congr ?_ fun _ => means_nodes_congr (entries_emptyPiece some).symm
    rw [Bool.eq_false_iff.2 notBlank, Text.isBlankText_intercalate, decide_eq_false longer,
      Bool.and_false]
  | @plus _ range digits isNumber decimal =>
    obtain ⟨digits, rfl⟩ : ∃ chars, digits = String.ofList chars := ⟨digits.toList, by simp⟩
    rw [String.toList_ofList] at decimal
    have sign : "+" ++ String.ofList digits = String.ofList ('+' :: digits) := by
      simp
    rw [sign]
    exact standsFor_numeral isNumber decimal.solid decimal.solid_plus
      fun _ => decimal.numeral_plus.symm
  | @zeros _ range digits isNumber decimal count =>
    obtain ⟨digits, rfl⟩ : ∃ chars, digits = String.ofList chars := ⟨digits.toList, by simp⟩
    rw [String.toList_ofList] at decimal
    rw [← String.ofList_append]
    exact standsFor_numeral isNumber decimal.solid (decimal.zeros_append count).solid
      fun _ => (decimal.numeral_zeros count).symm

theorem follows_iff_of_respelt {held other : Option String}
    (respelt : Relation.EqvGen field.Respelling held other) {settings : BrokerSettings} :
    field.Follows held settings ↔ field.Follows other settings := by
  induction respelt with
  | rel _ _ respelling => exact respelling.follows_iff
  | refl => exact Iff.rfl
  | symm _ _ _ ih => exact ih.symm
  | trans _ _ _ _ _ first second => exact first.trans second

end Field

/-! ## The whole account -/

/-- An environment gives the settings that follow from the variables of their fields, if they can be
used. There are such just if the variables of the numbers hold numbers of their ranges, as far as
they are not blank. Each field is a matter of its own variable and the default where that is missing
or blank. Changes to the variables that do not matter do not change the settings, and no other
variable is looked at. Where there are no settings, the failure is one of the configuration; it
tells of a variable that holds no number or of what keeps the settings from being used. -/
theorem read_field_by_field (environment : Environment) :
    (∀ settings, ofEnvironment environment = .ok settings ↔
        (∀ field : Field, field.Follows (environment field.key) settings) ∧
          settings.accept = .ok ()) ∧
      ((∃! settings, ∀ field : Field, field.Follows (environment field.key) settings) ↔
        ∀ (field : Field) range, field.range? = some range →
          ∀ value, environment field.key = some value → ¬ Text.isBlankText value →
            ∃ number, Spells range value number) ∧
      (∀ settings, ofEnvironment environment = .ok settings →
        (∀ field : Field, Unset (environment field.key) → field.of settings = field.of .default) ∧
          ∀ (other : Environment) others, ofEnvironment other = .ok others →
            ∀ field : Field, environment field.key = other field.key →
              field.of settings = field.of others) ∧
      (∀ other : Environment,
        (∀ field : Field, Relation.EqvGen field.Respelling (environment field.key)
          (other field.key)) →
        ∀ settings, ofEnvironment environment = .ok settings ↔ ofEnvironment other = .ok settings) ∧
      ∀ failure, ofEnvironment environment = .error failure →
        (∃ field, Misspelled environment field failure) ∨
          ∃ settings problem, (∀ field : Field, field.Follows (environment field.key) settings) ∧
            settings.problem? = some problem ∧ failure = .configuration problem := by
  refine ⟨fun _ => ofEnvironment_eq_ok_iff, ?numbers, ?fields, ?respelt,
    fun _ => ofEnvironment_eq_error⟩
  case numbers =>
    rw [← exists_follows_iff]
    refine ⟨ExistsUnique.exists, fun ⟨settings, follows⟩ => ⟨settings, follows, ?_⟩⟩
    intro other others
    exact Except.ok.inj ((read_eq_ok_iff.2 others).symm.trans (read_eq_ok_iff.2 follows))
  case fields =>
    intro settings isRead
    obtain ⟨follows, -⟩ := ofEnvironment_eq_ok_iff.1 isRead
    refine ⟨fun field => (follows field).unset, fun other others isReadToo field same => ?_⟩
    obtain ⟨followsToo, -⟩ := ofEnvironment_eq_ok_iff.1 isReadToo
    exact (follows field).unique (same ▸ followsToo field)
  case respelt =>
    intro other respelt settings
    rw [ofEnvironment_eq_ok_iff, ofEnvironment_eq_ok_iff]
    refine and_congr_left fun _ => forall_congr' fun field => ?_
    exact Field.follows_iff_of_respelt (respelt field)

/-- Environments that spell a durable broker's settings in two ways, and one where a number is a
word. -/
theorem read_two_spellings :
    let environment : Environment := fun key =>
      [(kindKey, "Kafka"), (nodesKey, ",".intercalate ["k1:9092", "k2:9092"]),
        (capacityKey, "32")].lookup key
    let other : Environment := fun key =>
      [(kindKey, "\t" ++ "Kafka" ++ "\u00a0"),
        (nodesKey, ",".intercalate ["k1:9092", "", "k2:9092"]), (capacityKey, "+" ++ "32"),
        (partitionsKey, " "), ("LOG_LEVEL", "debug")].lookup key
    let faulty : Environment := fun key => [(capacityKey, "lots")].lookup key
    let settings := { durable ["k1:9092", "k2:9092"] with capacity := 32 }
    let failure := BrokerFailure.configuration
      "UPDATES_BUFFER_CAPACITY: not a valid number: lots"
    (∀ field : Field, Relation.EqvGen field.Respelling (environment field.key)
        (other field.key)) ∧
      ofEnvironment environment = .ok settings ∧ ofEnvironment other = .ok settings ∧
      Unset (environment partitionsKey) ∧ settings.partitions = 1 ∧
      environment topicStemKey = other topicStemKey ∧
      ofEnvironment faulty = .error failure ∧
      ((∃ field, Misspelled faulty field failure) ∨
        ∃ settings problem, (∀ field : Field, field.Follows (faulty field.key) settings) ∧
          settings.problem? = some problem ∧ failure = .configuration problem) := by
  intro environment other faulty settings failure
  have isRead : ofEnvironment environment = .ok settings := by decide
  have fails : ofEnvironment faulty = .error failure := by decide
  have unset : Unset (environment partitionsKey) := fun value held => by
    have missing : environment partitionsKey = none := by decide
    rw [missing] at held
    contradiction
  have respelt : ∀ field : Field, Relation.EqvGen field.Respelling (environment field.key)
      (other field.key) := by
    intro field
    cases field with
    | kind => exact .rel _ _ (.pad rfl rfl "Kafka")
    | nodes =>
      exact .rel _ _ (@Field.Respelling.emptyNode ["k1:9092"] ["k2:9092"] (by decide))
    | topicStem | connectTime => exact .refl none
    | capacity => exact .rel _ _ (.plus rfl ⟨by decide, List.all_eq_true.1 rfl⟩)
    | partitions => exact .rel _ _ (.blank rfl)
  obtain ⟨-, -, fields, same, -⟩ := read_field_by_field environment
  exact ⟨respelt, isRead, (same other respelt settings).1 isRead, unset,
    (fields settings isRead).1 .partitions unset, by decide, fails,
    (read_field_by_field faulty).2.2.2.2 failure fails⟩

end UpdateRelay.BrokerSettings
