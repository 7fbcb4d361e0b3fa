import UpdateRelay.MessagePack.Event

/-!
# Events survive being written and read

Reading undoes writing, for every event whose texts are short enough to have their lengths written
in 32 bits, and whatever follows the event: `MessagePack.decode?_encode`.
-/

namespace UpdateRelay

/-- Whether the length of a text can be written in 32 bits. -/
def Text.Fits (text : String) : Prop := (Bytes.ofText text).length < 0x100000000

/-- Whether the texts of an event can be written. -/
structure Event.Fits (event : Event) : Prop where
  resource : Text.Fits event.resource
  message : Text.Fits event.message

instance (text : String) : Decidable (Text.Fits text) :=
  inferInstanceAs (Decidable (_ < _))

instance (event : Event) : Decidable event.Fits :=
  decidable_of_iff (Text.Fits event.resource ∧ Text.Fits event.message)
    ⟨fun fits => ⟨fits.1, fits.2⟩, fun fits => ⟨fits.resource, fits.message⟩⟩

namespace MessagePack

/-! ## Numbers -/

theorem splitAt?_append (first rest : Bytes) :
    splitAt? first.length (first ++ rest) = some (first, rest) := by
  simp [splitAt?]

theorem readNumber_ofNat {width number : Nat} (fits : number < Bytes.limit width) (rest : Bytes) :
    readNumber width (Bytes.ofNat width number ++ rest) = some (number, rest) := by
  have split := splitAt?_append (Bytes.ofNat width number) rest
  rw [Bytes.length_ofNat] at split
  have same : (Bytes.ofNat width number).bigEndian = number := by
    rw [Bytes.bigEndian_ofNat, Nat.mod_eq_of_lt fits]
  simp only [readNumber, split, Option.map_some, same]

theorem numbered_ofNat {width number : Nat} (fits : number < Bytes.limit width)
    (head : Nat → Head) (rest : Bytes) :
    numbered width head (Bytes.ofNat width number ++ rest) = some (head number, rest) := by
  rw [numbered, readNumber_ofNat fits, Option.map_some]

theorem toNat_ofNat {number : Nat} (fits : number < 0x100) :
    (UInt8.ofNat number).toNat = number := by
  rw [UInt8.toNat_ofNat', Nat.mod_eq_of_lt fits]

/-- A negative number is read back from its two's complement. -/
theorem asSigned_of_neg {width : Nat} {value : Int} (negative : value < 0)
    (fits : -(Bytes.limit width : Int) ≤ 2 * value) :
    asSigned width (value + Bytes.limit width).toNat = value := by
  unfold asSigned
  have high : ¬2 * (value + Bytes.limit width).toNat < Bytes.limit width := by omega
  rw [if_neg high]
  omega

/-! ## Heads -/

theorem readMarked_text {length : Nat} (short : length < 32) (rest : Bytes) :
    readMarked (0xa0 + length) rest = some (.text length, rest) := by
  have positive : ¬0xa0 + length < 0x80 := by omega
  have notMap : ¬0xa0 + length < 0x90 := by omega
  have notArray : ¬0xa0 + length < 0xa0 := by omega
  have isText : 0xa0 + length < 0xc0 := by omega
  unfold readMarked
  rw [if_neg positive, if_neg notMap, if_neg notArray, if_pos isText, Nat.add_sub_cancel_left]

theorem readMarked_negative {marker : Nat} (large : 0xe0 ≤ marker) (rest : Bytes) :
    readMarked marker rest = some (.signed (asSigned 1 marker), rest) := by
  have positive : ¬marker < 0x80 := by omega
  have notMap : ¬marker < 0x90 := by omega
  have notArray : ¬marker < 0xa0 := by omega
  have notText : ¬marker < 0xc0 := by omega
  unfold readMarked
  rw [if_neg positive, if_neg notMap, if_neg notArray, if_neg notText]
  split
  case h_32 => rw [if_pos large]
  all_goals omega

theorem readHead_writeTextHead {length : Nat} (fits : length < 0x100000000) (rest : Bytes) :
    readHead (writeTextHead length ++ rest) = some (.text length, rest) := by
  unfold writeTextHead
  split
  next short =>
    have marker : (UInt8.ofNat (0xa0 + length)).toNat = 0xa0 + length :=
      toNat_ofNat (by omega)
    rw [List.singleton_append, readHead, marker]
    exact readMarked_text short rest
  next =>
    split
    next fits => exact @numbered_ofNat 1 length fits _ rest
    next =>
      split
      next fits => exact @numbered_ofNat 2 length fits _ rest
      next => exact @numbered_ofNat 4 length fits _ rest

theorem readHead_writeUnsigned {number : Nat} (fits : number < 0x10000000000000000)
    (rest : Bytes) : readHead (writeUnsigned number ++ rest) = some (.unsigned number, rest) := by
  unfold writeUnsigned
  split
  next small =>
    have marker : (UInt8.ofNat number).toNat = number := toNat_ofNat (by omega)
    rw [List.singleton_append, readHead, marker]
    unfold readMarked
    rw [if_pos small]
  next =>
    split
    next fits => exact @numbered_ofNat 1 number fits _ rest
    next =>
      split
      next fits => exact @numbered_ofNat 2 number fits _ rest
      next =>
        split
        next fits => exact @numbered_ofNat 4 number fits _ rest
        next => exact @numbered_ofNat 8 number fits _ rest

/-- A negative number in two's complement of some width is read back. -/
theorem numbered_signed {width : Nat} {value : Int} (negative : value < 0)
    (fits : -(Bytes.limit width : Int) ≤ 2 * value) (rest : Bytes) :
    numbered width (fun number => .signed (asSigned width number))
      (Bytes.ofNat width (value + Bytes.limit width).toNat ++ rest) =
      some (.signed value, rest) := by
  have below : (value + Bytes.limit width).toNat < Bytes.limit width := by omega
  rw [numbered_ofNat below, asSigned_of_neg negative fits]

theorem readHead_writeNegative {value : Int} (negative : value < 0)
    (fits : -0x8000000000000000 ≤ value) (rest : Bytes) :
    readHead (writeNegative value ++ rest) = some (.signed value, rest) := by
  unfold writeNegative
  split
  next small =>
    have marker : (UInt8.ofNat (value + 0x100).toNat).toNat = (value + 0x100).toNat :=
      toNat_ofNat (by omega)
    rw [List.singleton_append, readHead, marker, readMarked_negative (by omega)]
    have same : asSigned 1 (value + 0x100).toNat = value :=
      @asSigned_of_neg 1 value negative (by simp only [Bytes.limit]; omega)
    rw [same]
  next =>
    split
    next => exact @numbered_signed 1 value negative (by simp only [Bytes.limit]; omega) rest
    next =>
      split
      next => exact @numbered_signed 2 value negative (by simp only [Bytes.limit]; omega) rest
      next =>
        split
        next => exact @numbered_signed 4 value negative (by simp only [Bytes.limit]; omega) rest
        next => exact @numbered_signed 8 value negative (by simp only [Bytes.limit]; omega) rest

/-! ## Texts and counts -/

theorem readText_writeText {text : String} (fits : Text.Fits text) (rest : Bytes) :
    readText (writeText text ++ rest) = some (text, rest) := by
  have head := readHead_writeTextHead fits (Bytes.ofText text ++ rest)
  rw [writeText, List.append_assoc]
  simp only [readText, head, splitAt?_append, Bytes.text?_ofText, Option.map_some]

theorem readKey_writeText {name : String} (fits : Text.Fits name) (rest : Bytes) :
    readKey (writeText name ++ rest) = some (Field.ofName? (Bytes.ofText name), rest) := by
  have head := readHead_writeTextHead fits (Bytes.ofText name ++ rest)
  rw [writeText, List.append_assoc]
  simp only [readKey, head, splitAt?_append, Option.map_some]

theorem readCount_writeInteger (count : Int64) (rest : Bytes) :
    readCount (writeInteger count.toInt ++ rest) = some (count, rest) := by
  have low := count.le_toInt
  have high := count.toInt_lt
  unfold writeInteger
  split
  next positive =>
    have head := @readHead_writeUnsigned count.toInt.toNat (by omega) rest
    have same : Int64.ofNat count.toInt.toNat = count := by
      rw [← Int64.ofInt_eq_ofNat, Int.toNat_of_nonneg positive, Int64.ofInt_toInt]
    have below : count.toInt.toNat ≤ 0x7fffffffffffffff := by omega
    simp only [readCount, head, if_pos below, same]
  next negative =>
    have head := @readHead_writeNegative count.toInt (by omega) (by omega) rest
    simp only [readCount, head, Int64.ofInt_toInt]

/-! ## Events -/

theorem Field.fits_name (field : Field) : Text.Fits field.name := by
  cases field <;> decide

theorem Field.ofName?_name (field : Field) : ofName? (Bytes.ofText field.name) = some field := by
  cases field <;> decide

/-- An entry of a map is read into the draft under its name. -/
theorem readEntry_writeText (draft : Draft) (field : Field) (value : Bytes) :
    readEntry draft (writeText field.name ++ value) = draft.read field value := by
  simp only [readEntry, readKey_writeText field.fits_name, field.ofName?_name]

/-- The three entries of an event are read back, whatever follows. -/
theorem readEntries_encode {event : Event} (fits : event.Fits) (rest : Bytes) :
    readEntries .blank 3 (writeText Field.resource.name ++ (writeText event.resource ++
      (writeText Field.count.name ++ (writeInteger event.count.toInt ++
        (writeText Field.message.name ++ (writeText event.message ++ rest)))))) =
      some (⟨some event.resource, some event.count, some event.message⟩, rest) := by
  simp only [readEntries, readEntry_writeText, Draft.read, Draft.blank, Option.isSome_none,
    Bool.false_eq_true, if_false, readText_writeText fits.resource, readCount_writeInteger,
    readText_writeText fits.message, Option.map_some]

/-- Reading undoes writing. -/
theorem decode?_encode {event : Event} (fits : event.Fits) :
    decode? (encode event) = some event := by
  have entries := readEntries_encode fits []
  rw [List.append_nil] at entries
  have head : ∀ rest, readHead (0x83 :: rest) = some (.map 3, rest) := fun _ => rfl
  simp only [decode?, encode, List.append_assoc, head, entries, Option.bind_some, Draft.event?]

end MessagePack

end UpdateRelay
