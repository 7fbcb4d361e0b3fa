import Mathlib.Data.List.Nodup
import UpdateRelay.Proofs.MessagePack.Values

/-!
# Events in any order

An event is read from a map that tells its three fields, in whatever order and form, among whatever
else that is nested no deeper than what is passed over may be. A map that tells a field not at all
or twice is no event.
-/

namespace UpdateRelay.MessagePack

/-! ## Forms of keys and values -/

/-- Bytes as text or as binary data. -/
def spellings (content : Bytes) : List Bytes :=
  ((Head.text content.length).forms ++ (Head.binary content.length).forms).map (· ++ content)

/-- An integer with or without a sign, in every width that holds it. -/
def numerals (value : Int) : List Bytes :=
  (if 0 ≤ value then (Head.unsigned value.toNat).forms else []) ++ (Head.signed value).forms

/-- The forms of what an event tells in a field. -/
def Field.valueForms (event : Event) : Field → List Bytes
  | resource => spellings (Bytes.ofText event.resource)
  | count => numerals event.count.toInt
  | message => spellings (Bytes.ofText event.message)

/-- Whether bytes are a key that stands for a field, or for none of them. -/
inductive Dialect.Key (dialect : Dialect) : Option Field → Bytes → Prop
  | name {name key : Bytes} (isKey : key ∈ spellings name) :
      Key dialect (Field.ofName? name) key
  | place {index : Nat} {key : Bytes} (isKey : key ∈ (Head.unsigned index).forms) :
      Key dialect (Field.ofIndex? index) key
  | signedPlace {index : Nat} {key : Bytes} (allowed : dialect.signedPlaces = true)
      (isKey : key ∈ (Head.signed index).forms) : Key dialect (Field.ofIndex? index) key

/-- An entry of a map, and the field that it is about if it is about one. -/
structure Entry where
  field? : Option Field
  key : Bytes
  value : Bytes
  deriving DecidableEq, Repr

/-- The entries of a map one after the other. -/
def entryBytes (entries : List Entry) : Bytes :=
  entries.flatMap fun entry => entry.key ++ entry.value

/-- The fields that entries are about, in order. -/
def fieldsOf (entries : List Entry) : List Field := entries.filterMap (·.field?)

theorem fieldsOf_cons (entry : Entry) (entries : List Entry) :
    fieldsOf (entry :: entries) = entry.field?.toList ++ fieldsOf entries := by
  cases isField : entry.field? <;> simp [fieldsOf, isField]

/-- Whether entries have keys and well-formed values. -/
structure Dialect.Entries (dialect : Dialect) (depth : Nat) (entries : List Entry) : Prop where
  keys : ∀ entry ∈ entries, dialect.Key entry.field? entry.key
  values : ∀ entry ∈ entries, dialect.Value depth entry.value

theorem Dialect.Entries.cons {dialect : Dialect} {depth : Nat} {entry : Entry}
    {entries : List Entry} (isKey : dialect.Key entry.field? entry.key)
    (isValue : dialect.Value depth entry.value) (others : dialect.Entries depth entries) :
    dialect.Entries depth (entry :: entries) :=
  ⟨List.forall_mem_cons.2 ⟨isKey, others.keys⟩, List.forall_mem_cons.2 ⟨isValue, others.values⟩⟩

/-- Whether entries tell each field of an event once, among others that are well formed. -/
structure Dialect.Tells (dialect : Dialect) (depth : Nat) (entries : List Entry) (event : Event) :
    Prop where
  keys : ∀ entry ∈ entries, dialect.Key entry.field? entry.key
  once : ∀ field, (fieldsOf entries).count field = 1
  spelled : ∀ entry ∈ entries, ∀ field ∈ entry.field?, entry.value ∈ field.valueForms event
  others : ∀ entry ∈ entries, entry.field? = none → dialect.Value depth entry.value

/-- What is read: an extension counts as a container, and places are not signed. -/
def Dialect.read : Dialect := ⟨1, false⟩

/-! ## Every form is read -/

theorem spellings_cases {content form : Bytes} (isForm : form ∈ spellings content) (rest : Bytes) :
    readHead (form ++ rest) = some (.text content.length, content ++ rest) ∨
      readHead (form ++ rest) = some (.binary content.length, content ++ rest) := by
  obtain ⟨start, isStart, rfl⟩ := List.mem_map.1 isForm
  rw [List.append_assoc]
  rcases List.mem_append.1 isStart with text | binary
  · exact Or.inl (readAs_form text _)
  · exact Or.inr (readAs_form binary _)

theorem readText_spelling {text : String} {form : Bytes}
    (isForm : form ∈ spellings (Bytes.ofText text)) (rest : Bytes) :
    readText (form ++ rest) = some (text, rest) := by
  rcases spellings_cases isForm rest with head | head <;>
    simp only [readText, head, splitAt?_append, Bytes.text?_ofText, Option.map_some]

theorem readCount_numeral {count : Int64} {form : Bytes} (isForm : form ∈ numerals count.toInt)
    (rest : Bytes) : readCount (form ++ rest) = some (count, rest) := by
  have high := count.toInt_lt
  rcases List.mem_append.1 isForm with unsigned | signed
  · split at unsigned
    next positive =>
      have head := readAs_form unsigned rest
      have same : Int64.ofNat count.toInt.toNat = count := by
        rw [← Int64.ofInt_eq_ofNat, Int.toNat_of_nonneg positive, Int64.ofInt_toInt]
      have below : count.toInt.toNat ≤ 0x7fffffffffffffff := by omega
      simp only [readCount, head, if_pos below, same]
    next => contradiction
  · have head := readAs_form signed rest
    simp only [readCount, head, Int64.ofInt_toInt]

/-- A key is read as the field that it stands for, unless it is a signed place. -/
theorem Dialect.Key.read {dialect : Dialect} {field? : Option Field} {key : Bytes}
    (isKey : dialect.Key field? key) (rest : Bytes) :
    readKey (key ++ rest) = some (field?, rest) ∨
      dialect.signedPlaces = true ∧ readKey (key ++ rest) = none := by
  cases isKey with
  | name isKey =>
    refine Or.inl ?_
    rcases spellings_cases isKey rest with head | head <;>
      simp only [readKey, head, splitAt?_append, Option.map_some]
  | place isKey =>
    refine Or.inl ?_
    simp only [readKey, readAs_form isKey rest]
  | signedPlace allowed isKey =>
    refine Or.inr ⟨allowed, ?_⟩
    simp only [readKey, readAs_form isKey rest]

theorem Dialect.Key.ofField {dialect : Dialect} {field : Field} {key : Bytes}
    (isKey : key ∈ spellings (Bytes.ofText field.name)) : dialect.Key (some field) key := by
  rw [← field.ofName?_name]
  exact .name isKey

theorem value_of_spelling {dialect : Dialect} {depth : Nat} {content form : Bytes}
    (isForm : form ∈ spellings content) : dialect.Value depth form := by
  obtain ⟨start, isStart, rfl⟩ := List.mem_map.1 isForm
  rcases List.mem_append.1 isStart with text | binary
  · exact .plain text rfl
  · exact .plain binary rfl

theorem value_of_numeral {dialect : Dialect} {depth : Nat} {value : Int} {form : Bytes}
    (isForm : form ∈ numerals value) : dialect.Value depth form := by
  rw [← List.append_nil form]
  rcases List.mem_append.1 isForm with unsigned | signed
  · split at unsigned
    next => exact .plain unsigned rfl
    next => contradiction
  · exact .plain signed rfl

/-- What an event tells in a field is a value that nests nothing. -/
theorem Field.value_of_mem_valueForms {dialect : Dialect} {depth : Nat} {event : Event}
    {field : Field} {form : Bytes} (isForm : form ∈ field.valueForms event) :
    dialect.Value depth form := by
  cases field with
  | resource | message => exact value_of_spelling isForm
  | count => exact value_of_numeral isForm

theorem Dialect.Tells.entries {dialect : Dialect} {depth : Nat} {entries : List Entry}
    {event : Event} (tells : dialect.Tells depth entries event) :
    dialect.Entries depth entries where
  keys := tells.keys
  values entry member := by
    cases isField : entry.field? with
    | none => exact tells.others entry member isField
    | some field => exact field.value_of_mem_valueForms (tells.spelled entry member field isField)

theorem Dialect.Entries.tells {dialect : Dialect} {depth : Nat} {entries : List Entry}
    {event : Event} (wellFormed : dialect.Entries depth entries)
    (once : ∀ field, (fieldsOf entries).count field = 1)
    (spelled : ∀ entry ∈ entries, ∀ field ∈ entry.field?, entry.value ∈ field.valueForms event) :
    dialect.Tells depth entries event :=
  ⟨wellFormed.keys, once, spelled, fun entry member _ => wellFormed.values entry member⟩

/-! ## The fields of an event -/

/-- What is known of an event by some of its fields. -/
def Draft.partOf (event : Event) (fields : List Field) : Draft :=
  ⟨if .resource ∈ fields then some event.resource else none,
    if .count ∈ fields then some event.count else none,
    if .message ∈ fields then some event.message else none⟩

theorem Draft.read_partOf {event : Event} {fields : List Field} {field : Field}
    (unknown : field ∉ fields) {value : Bytes} (isForm : value ∈ field.valueForms event)
    (rest : Bytes) :
    (partOf event fields).read field (value ++ rest) =
      some (partOf event (fields ++ [field]), rest) := by
  cases field with
  | resource =>
    have text := readText_spelling isForm rest
    simp [partOf, Draft.read, unknown, text]
  | count =>
    have count := readCount_numeral isForm rest
    simp [partOf, Draft.read, unknown, count]
  | message =>
    have text := readText_spelling isForm rest
    simp [partOf, Draft.read, unknown, text]

/-- An entry adds what it tells to what was known, and nothing if it is about no field. -/
theorem readEntry_partOf {event : Event} {entry : Entry} {fields : List Field}
    (isKey : Dialect.read.Key entry.field? entry.key)
    (isValue : Dialect.read.Value depthLimit entry.value)
    (spelled : ∀ field ∈ entry.field?, entry.value ∈ field.valueForms event)
    (unknown : ∀ field ∈ entry.field?, field ∉ fields) (rest : Bytes) :
    readEntry (.partOf event fields) (entry.key ++ entry.value ++ rest) =
      some (.partOf event (fields ++ entry.field?.toList), rest) := by
  have key : readKey (entry.key ++ (entry.value ++ rest)) =
      some (entry.field?, entry.value ++ rest) :=
    (isKey.read _).resolve_right fun signed => Bool.false_ne_true signed.1
  rw [List.append_assoc, readEntry, key]
  cases isField : entry.field? with
  | none =>
    have passed := isValue.skip rfl (Nat.le_refl depthLimit) rest
    simp only [passed, Option.map_some, Option.toList_none, List.append_nil]
  | some field => exact Draft.read_partOf (unknown field isField) (spelled field isField) rest

theorem readEntries_partOf {event : Event} {entries : List Entry} {fields : List Field}
    (wellFormed : Dialect.read.Entries depthLimit entries)
    (spelled : ∀ entry ∈ entries, ∀ field ∈ entry.field?, entry.value ∈ field.valueForms event)
    (distinct : (fields ++ fieldsOf entries).Nodup) (rest : Bytes) :
    readEntries (.partOf event fields) entries.length (entryBytes entries ++ rest) =
      some (.partOf event (fields ++ fieldsOf entries), rest) := by
  induction entries generalizing fields with
  | nil => simp [readEntries, entryBytes, fieldsOf]
  | cons entry entries inductionHypothesis =>
    obtain ⟨isKey, keys⟩ := List.forall_mem_cons.1 wellFormed.keys
    obtain ⟨isValue, values⟩ := List.forall_mem_cons.1 wellFormed.values
    obtain ⟨isSpelled, spelled⟩ := List.forall_mem_cons.1 spelled
    rw [fieldsOf_cons, ← List.append_assoc] at distinct
    have unknown : ∀ field ∈ entry.field?, field ∉ fields := fun field isField known =>
      (List.nodup_append.1 (List.nodup_append.1 distinct).1).2.2 field known field
        (Option.mem_toList.2 isField) rfl
    have first := readEntry_partOf isKey isValue isSpelled unknown (entryBytes entries ++ rest)
    have others := inductionHypothesis ⟨keys, values⟩ spelled distinct
    rw [entryBytes, List.flatMap_cons, List.append_assoc, List.length_cons, readEntries]
    rw [entryBytes] at first others
    rw [first, fieldsOf_cons, ← List.append_assoc]
    exact others

/-! ## Fields that are missing or told twice -/

/-- Whether a draft has a field. -/
def Draft.has (draft : Draft) : Field → Bool
  | .resource => draft.resource.isSome
  | .count => draft.count.isSome
  | .message => draft.message.isSome

/-- A draft that is an event has all fields. -/
theorem Draft.has_of_event? {draft : Draft} {event : Event} (complete : draft.event? = some event)
    (field : Field) : draft.has field = true := by
  unfold event? at complete
  split at complete
  next => cases field <;> rfl
  next => contradiction

/-- A field that is read was not there before, and no other comes or goes. -/
theorem Draft.has_of_read {draft after : Draft} {field : Field} {bytes rest : Bytes}
    (read : draft.read field bytes = some (after, rest)) (other : Field) :
    (draft.has other).toNat + [field].count other = (after.has other).toNat := by
  cases field with
  | resource | count | message =>
    simp only [Draft.read] at read
    split at read
    next => contradiction
    next unread =>
      obtain ⟨⟨value, remaining⟩, -, same⟩ := Option.map_eq_some_iff.1 read
      obtain ⟨rfl, rfl⟩ := Prod.mk.inj same
      cases other <;> simp_all [has]

theorem eq_of_readText {dialect : Dialect} {depth : Nat} {value rest remaining : Bytes}
    {text : String} (isValue : dialect.Value depth value)
    (read : readText (value ++ rest) = some (text, remaining)) : remaining = rest := by
  obtain ⟨head, content, size, isHead⟩ := isValue.exists_head
  rw [readText, isHead] at read
  cases head with
  | text length | binary length =>
    obtain rfl := size length rfl
    simp only [splitAt?_append] at read
    obtain ⟨_, -, same⟩ := Option.map_eq_some_iff.1 read
    exact (Prod.mk.inj same).2.symm
  | _ => contradiction

theorem eq_of_readCount {dialect : Dialect} {depth : Nat} {value rest remaining : Bytes}
    {count : Int64} (isValue : dialect.Value depth value)
    (read : readCount (value ++ rest) = some (count, remaining)) : remaining = rest := by
  obtain ⟨head, content, size, isHead⟩ := isValue.exists_head
  rw [readCount, isHead] at read
  cases head with
  | unsigned number =>
    obtain rfl := List.length_eq_zero_iff.1 (size 0 rfl).symm
    dsimp only at read
    split at read
    next => exact (Prod.mk.inj (Option.some.inj read)).2.symm
    next => contradiction
  | signed number =>
    obtain rfl := List.length_eq_zero_iff.1 (size 0 rfl).symm
    exact (Prod.mk.inj (Option.some.inj read)).2.symm
  | _ => contradiction

/-- What is read of a well-formed value is all of it. -/
theorem Draft.rest_of_read {dialect : Dialect} {depth : Nat} {draft after : Draft} {field : Field}
    {value rest remaining : Bytes} (isValue : dialect.Value depth value)
    (read : draft.read field (value ++ rest) = some (after, remaining)) : remaining = rest := by
  cases field with
  | resource | count | message =>
    simp only [Draft.read] at read
    split at read
    next => contradiction
    next =>
      obtain ⟨⟨content, other⟩, found, same⟩ := Option.map_eq_some_iff.1 read
      obtain ⟨-, rfl⟩ := Prod.mk.inj same
      first | exact eq_of_readText isValue found | exact eq_of_readCount isValue found

/-- However an entry is read, it is read whole, and it gives a field that was not there before if it
is about one. -/
theorem readEntry_inv {dialect : Dialect} {depth : Nat} {draft after : Draft} {entry : Entry}
    {rest remaining : Bytes} (isKey : dialect.Key entry.field? entry.key)
    (isValue : dialect.Value depth entry.value)
    (read : readEntry draft (entry.key ++ entry.value ++ rest) = some (after, remaining)) :
    remaining = rest ∧ ∀ field,
      (draft.has field).toNat + entry.field?.toList.count field = (after.has field).toNat := by
  rw [List.append_assoc, readEntry] at read
  rcases isKey.read (entry.value ++ rest) with key | ⟨-, key⟩
  · rw [key] at read
    cases isField : entry.field? with
    | none =>
      rw [isField] at read
      obtain ⟨passed, skipped, same⟩ := Option.map_eq_some_iff.1 read
      obtain ⟨rfl, rfl⟩ := Prod.mk.inj same
      exact ⟨isValue.eq_of_skip skipped, fun field => rfl⟩
    | some field =>
      rw [isField] at read
      exact ⟨Draft.rest_of_read isValue read, Draft.has_of_read read⟩
  · rw [key] at read
    contradiction

theorem readEntries_inv {dialect : Dialect} {depth : Nat} {draft after : Draft}
    {entries : List Entry} {rest remaining : Bytes} (wellFormed : dialect.Entries depth entries)
    (read : readEntries draft entries.length (entryBytes entries ++ rest) = some (after, remaining))
    (field : Field) :
    (draft.has field).toNat + (fieldsOf entries).count field = (after.has field).toNat := by
  induction entries generalizing draft with
  | nil =>
    obtain ⟨rfl, -⟩ := Prod.mk.inj (Option.some.inj read)
    rfl
  | cons entry entries inductionHypothesis =>
    obtain ⟨isKey, keys⟩ := List.forall_mem_cons.1 wellFormed.keys
    obtain ⟨isValue, values⟩ := List.forall_mem_cons.1 wellFormed.values
    rw [entryBytes, List.flatMap_cons, List.append_assoc, List.length_cons, readEntries] at read
    split at read
    next middle between isRead =>
      obtain ⟨rfl, gained⟩ := readEntry_inv isKey isValue isRead
      rw [fieldsOf_cons, List.count_append, ← Nat.add_assoc, gained field]
      exact inductionHypothesis ⟨keys, values⟩ read
    next => contradiction

/-! ## Maps -/

section Map

variable {entries : List Entry} {head : Bytes}

theorem decode?_of_map (isHead : head ∈ (Head.map entries.length).forms) (rest : Bytes) :
    decode? (head ++ entryBytes entries ++ rest) =
      (readEntries .blank entries.length (entryBytes entries ++ rest)).bind
        fun (draft, _) => draft.event? := by
  rw [decode?, List.append_assoc, readAs_form isHead]

theorem decode?_of_tells (isHead : head ∈ (Head.map entries.length).forms) {event : Event}
    (tells : Dialect.read.Tells depthLimit entries event) (rest : Bytes) :
    decode? (head ++ entryBytes entries ++ rest) = some event := by
  have distinct : ([] ++ fieldsOf entries).Nodup :=
    List.nodup_iff_count_le_one.2 fun field => Nat.le_of_eq (tells.once field)
  have known : ∀ field, field ∈ fieldsOf entries := fun field =>
    List.count_pos_iff.1 (Nat.lt_of_lt_of_eq Nat.zero_lt_one (tells.once field).symm)
  have read := readEntries_partOf tells.entries tells.spelled distinct rest
  have blank : Draft.partOf event [] = .blank := by simp [Draft.partOf, Draft.blank]
  rw [decode?_of_map isHead, ← blank, read]
  simp [Draft.partOf, Draft.event?, known]

theorem count_of_decode? (isHead : head ∈ (Head.map entries.length).forms) {dialect : Dialect}
    {depth : Nat} (wellFormed : dialect.Entries depth entries) {rest : Bytes} {event : Event}
    (read : decode? (head ++ entryBytes entries ++ rest) = some event) (field : Field) :
    (fieldsOf entries).count field = 1 := by
  rw [decode?_of_map isHead] at read
  obtain ⟨⟨draft, remaining⟩, isRead, complete⟩ := Option.bind_eq_some_iff.1 read
  have before : (Draft.blank.has field).toNat = 0 := by cases field <;> rfl
  have gained := readEntries_inv wellFormed isRead field
  rw [Draft.has_of_event? complete field, before] at gained
  exact (Nat.zero_add _).symm.trans gained

end Map

/-- A map that tells each field of an event once, in any order and in any form of key and value,
among others that are well formed and nested 1022 containers deep at the most, is read as the event
whatever follows it. One that tells some field not at all or more than once is refused. -/
theorem decode_map (wording : Bytes → String) {entries : List Entry} {head : Bytes}
    (isHead : head ∈ (Head.map entries.length).forms) (rest : Bytes) :
    let bytes := head ++ entryBytes entries ++ rest
    (∀ event, Dialect.read.Tells 1022 entries event → decode wording bytes = .ok event) ∧
    (∀ dialect : Dialect, ∀ depth, dialect.Entries depth entries →
      (∃ field, (fieldsOf entries).count field ≠ 1) →
        decode wording bytes = .error (.deserialization (wording bytes))) := by
  intro bytes
  constructor
  · intro event tells
    rw [decode, decode?_of_tells isHead tells]
  · rintro dialect depth wellFormed ⟨field, notOnce⟩
    cases read : decode? bytes with
    | none => rw [decode, read]
    | some event => exact absurd (count_of_decode? isHead wellFormed read field) notOnce

/-- The message under its place as binary data, a nested entry under no field's name, the count in
eight bytes, and the resource under its place. -/
def scattered : List Entry :=
  [⟨some .message, [0x02], [0xc4, 1, 0x6d]⟩, ⟨none, [0xa1, 0x78], [0x91, 0xd4, 5, 0]⟩,
    ⟨some .count, writeText "changed_count", [0xd3, 0, 0, 0, 0, 0, 0, 0, 7]⟩,
    ⟨some .resource, [0xcc, 0], [0xd9, 2, 0x70, 0x31]⟩]

theorem entries_scattered : Dialect.read.Entries 1022 scattered := by
  have other : Dialect.read.Key none [0xa1, 0x78] := by
    rw [show none = Field.ofName? [0x78] by decide]
    exact .name (by decide)
  have nested : Dialect.read.Value 1022 [0x91, 0xd4, 5, 0] :=
    @Dialect.Value.container _ 1021 (.array 1) [0x91] [[0xd4, 5, 0]] (by decide) rfl
      (List.forall_mem_singleton.2
        (@Dialect.Value.extension _ 1020 1 [0xd4] [5, 0] (by decide) rfl))
  refine .cons (@Dialect.Key.place _ 2 _ (by decide)) ?_ (.cons other nested
    (.cons (.ofField (by decide)) ?_
      (.cons (@Dialect.Key.place _ 0 _ (by decide)) ?_ ⟨nofun, nofun⟩)))
  · exact @value_of_spelling _ _ [0x6d] _ (by decide)
  · exact @value_of_numeral _ _ 7 _ (by decide)
  · exact @value_of_spelling _ _ [0x70, 0x31] _ (by decide)

theorem decode_scattered :
    decode (fun _ => "no event") ([0xde, 0, 4] ++ entryBytes scattered ++ [0xc1]) =
      .ok ⟨"p1", 7, "m"⟩ := by
  obtain ⟨reads, -⟩ := @decode_map (fun _ => "no event") scattered [0xde, 0, 4] (by decide) [0xc1]
  refine reads _ (entries_scattered.tells ?_ ?_)
  · intro field
    cases field <;> decide
  · decide

/-! ## What is refused -/

/-- An extension inside some arrays. -/
def nest (depth : Nat) : Bytes := List.replicate depth 0x91 ++ [0xd4, 5, 0]

theorem nest_succ (depth : Nat) : nest (depth + 1) = [0x91] ++ [nest depth].flatten := by
  simp [nest, List.replicate_succ]

/-- If extensions did not count, this would be nested no deeper than its arrays are. -/
theorem value_nest (signed : Bool) (depth : Nat) :
    Dialect.Value ⟨0, signed⟩ depth (nest depth) := by
  induction depth with
  | zero => exact @Dialect.Value.extension ⟨0, signed⟩ 0 1 [0xd4] [5, 0] (by decide) rfl
  | succ depth inductionHypothesis =>
    rw [nest_succ]
    exact @Dialect.Value.container _ depth (.array 1) [0x91] [nest depth] (by decide) rfl
      (List.forall_mem_singleton.2 inductionHypothesis)

theorem skipValue_nest (depth : Nat) (rest : Bytes) :
    skipValue depth (nest depth ++ rest) = none := by
  induction depth with
  | zero => exact @skipValue_zero [0xd4] (5 :: 0 :: rest) (.extension 1) (by decide) rfl
  | succ depth inductionHypothesis =>
    rw [nest_succ, @skipValue_container [0x91] rest (.array 1) [nest depth] depth (by decide) rfl]
    simp [skipMany, inductionHypothesis]

theorem decode_of_first {entry : Entry} {entries : List Entry} {head : Bytes}
    (isHead : head ∈ (Head.map (entries.length + 1)).forms)
    (refused : ∀ rest, readEntry .blank (entry.key ++ entry.value ++ rest) = none)
    (wording : Bytes → String) :
    decode wording (head ++ entryBytes (entry :: entries)) =
      .error (.deserialization (wording (head ++ entryBytes (entry :: entries)))) := by
  have nothing : decode? (head ++ entryBytes (entry :: entries)) = none := by
    have map := @decode?_of_map (entry :: entries) head isHead []
    rw [List.append_nil, List.append_nil] at map
    rw [map, List.length_cons, readEntries, entryBytes, List.flatMap_cons, refused,
      Option.bind_none]
  rw [decode, nothing]

/-- The count and the message of an event, under their names. -/
def remainder : List Entry :=
  [⟨some .count, writeText "changed_count", [1]⟩,
    ⟨some .message, writeText "message", [0xa1, 0x6d]⟩]

/-- An extension in 1022 arrays under another name, before the fields of an event. -/
def deepest : List Entry :=
  ⟨none, [0xa1, 0x65], nest 1022⟩ ::
    ⟨some .resource, writeText "resource_id", [0xa1, 0x70]⟩ :: remainder

/-- The fields of an event, the first under its place in the form of a signed integer. -/
def signedFirst : List Entry := ⟨some .resource, [0xd0, 0], [0xa1, 0x70]⟩ :: remainder

theorem entries_remainder (dialect : Dialect) (depth : Nat) : dialect.Entries depth remainder where
  keys := List.forall_mem_cons.2 ⟨.ofField (by decide), List.forall_mem_singleton.2
    (.ofField (by decide))⟩
  values := List.forall_mem_cons.2 ⟨@value_of_numeral _ _ 1 _ (by decide),
    List.forall_mem_singleton.2 (@value_of_spelling _ _ [0x6d] _ (by decide))⟩

theorem entries_deepest : Dialect.Entries ⟨0, false⟩ 1022 deepest := by
  have other : Dialect.Key ⟨0, false⟩ none [0xa1, 0x65] := by
    rw [show none = Field.ofName? [0x65] by decide]
    exact .name (by decide)
  refine .cons other (value_nest false 1022) (.cons (.ofField (by decide)) ?_ ?_)
  · exact @value_of_spelling _ _ [0x70] _ (by decide)
  · exact entries_remainder _ _

theorem entries_signedFirst : Dialect.Entries ⟨1, true⟩ 1022 signedFirst :=
  .cons (@Dialect.Key.signedPlace _ 0 _ rfl (by decide))
    (@value_of_spelling _ _ [0x70] _ (by decide)) (entries_remainder _ _)

/-- An extension counts as a container, and a place has no sign. -/
theorem deepest_and_signedFirst_refused :
    (Dialect.Tells ⟨0, false⟩ 1022 deepest ⟨"p", 1, "m"⟩ ∧
      [0x84] ∈ (Head.map deepest.length).forms ∧
      decode (fun _ => "no event") ([0x84] ++ entryBytes deepest) =
        .error (.deserialization "no event")) ∧
    (Dialect.Tells ⟨1, true⟩ 1022 signedFirst ⟨"p", 1, "m"⟩ ∧
      [0x83] ∈ (Head.map signedFirst.length).forms ∧
      decode (fun _ => "no event") ([0x83] ++ entryBytes signedFirst) =
        .error (.deserialization "no event")) := by
  have spelled : ∀ entry ∈ (⟨some .resource, [], [0xa1, 0x70]⟩ : Entry) :: remainder,
      ∀ field ∈ entry.field?, entry.value ∈ field.valueForms ⟨"p", 1, "m"⟩ := by
    decide
  obtain ⟨resource, others⟩ := List.forall_mem_cons.1 spelled
  refine ⟨⟨entries_deepest.tells ?_ ?_, by decide, ?_⟩, entries_signedFirst.tells ?_ ?_, by decide,
    ?_⟩
  · intro field
    cases field <;> rfl
  · exact List.forall_mem_cons.2 ⟨nofun, List.forall_mem_cons.2 ⟨resource, others⟩⟩
  · refine decode_of_first (by decide) (fun rest => ?_) _
    have key : readKey ([0xa1, 0x65] ++ (nest 1022 ++ rest)) = some (none, nest 1022 ++ rest) :=
      ((entries_deepest.keys _ List.mem_cons_self).read _).resolve_right
        fun signed => Bool.false_ne_true signed.1
    rw [List.append_assoc, readEntry, key]
    simp only [depthLimit, skipValue_nest, Option.map_none]
  · intro field
    cases field <;> rfl
  · exact List.forall_mem_cons.2 ⟨resource, others⟩
  · exact decode_of_first (by decide) (fun rest => rfl) _

end UpdateRelay.MessagePack
