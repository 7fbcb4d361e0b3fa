import UpdateRelay.Event
import UpdateRelay.Failure
import UpdateRelay.MessagePack.Skip

/-!
# Events in MessagePack

An event is written as a map of its three fields, named and in order. It is read from a map that
has the three fields once each, in any order and among any others, or from an array of exactly
the three. Bytes after the value are left alone.
-/

namespace UpdateRelay.MessagePack

inductive Field
  | resource
  | count
  | message
  deriving DecidableEq, Repr

namespace Field

/-- The fields in the order in which they are written. -/
def all : List Field := [resource, count, message]

/-- The name under which a field is written. -/
def name : Field → String
  | resource => "resource_id"
  | count => "changed_count"
  | message => "message"

/-- The field that bytes name. -/
def ofName? (name : Bytes) : Option Field :=
  all.find? fun field => Bytes.ofText field.name = name

/-- The field at a place in the order. -/
def ofIndex? (index : Nat) : Option Field := all[index]?

end Field

/-! ## Writing -/

def encode (event : Event) : Bytes :=
  0x83 :: (writeText Field.resource.name ++ writeText event.resource ++
    writeText Field.count.name ++ writeInteger event.count.toInt ++
    writeText Field.message.name ++ writeText event.message)

/-! ## Reading -/

/-- Reads the value of a text field: text or binary data that is UTF-8. -/
def readText (bytes : Bytes) : Option (String × Bytes) :=
  match readHead bytes with
  | some (.text length, rest) | some (.binary length, rest) =>
      match splitAt? length rest with
      | some (content, rest) => (Bytes.text? content).map fun text => (text, rest)
      | none => none
  | _ => none

/-- Reads the value of a count: an integer of 64 bits in any form. -/
def readCount (bytes : Bytes) : Option (Int64 × Bytes) :=
  match readHead bytes with
  | some (.unsigned value, rest) =>
      if value ≤ 0x7fffffffffffffff then some (Int64.ofNat value, rest) else none
  | some (.signed value, rest) => some (Int64.ofInt value, rest)
  | _ => none

structure Draft where
  resource : Option String
  count : Option Int64
  message : Option String
  deriving DecidableEq, Repr

namespace Draft

def blank : Draft := ⟨none, none, none⟩

def event? : Draft → Option Event
  | ⟨some resource, some count, some message⟩ => some ⟨resource, count, message⟩
  | _ => none

/-- Reads the value of a field that has not been read before. -/
def read (draft : Draft) (field : Field) (bytes : Bytes) : Option (Draft × Bytes) :=
  match field with
  | .resource =>
      if draft.resource.isSome then none
      else (readText bytes).map fun (text, rest) => ({ draft with resource := some text }, rest)
  | .count =>
      if draft.count.isSome then none
      else (readCount bytes).map fun (count, rest) =>
        ({ draft with count := some count }, rest)
  | .message =>
      if draft.message.isSome then none
      else (readText bytes).map fun (text, rest) => ({ draft with message := some text }, rest)

end Draft

/-- Reads the key of a map entry: a name, as text or binary data, or the place of a field in the
order. `none` inside stands for a key that names no field. -/
def readKey (bytes : Bytes) : Option (Option Field × Bytes) :=
  match readHead bytes with
  | some (.text length, rest) | some (.binary length, rest) =>
      (splitAt? length rest).map fun (name, rest) => (Field.ofName? name, rest)
  | some (.unsigned index, rest) => some (Field.ofIndex? index, rest)
  | _ => none

def readEntry (draft : Draft) (bytes : Bytes) : Option (Draft × Bytes) :=
  match readKey bytes with
  | some (some field, rest) => draft.read field rest
  | some (none, rest) => (skipValue depthLimit rest).map fun rest => (draft, rest)
  | none => none

/-- Reads `count` map entries into a draft. -/
def readEntries (draft : Draft) : (count : Nat) → Bytes → Option (Draft × Bytes)
  | 0, bytes => some (draft, bytes)
  | count + 1, bytes =>
      match readEntry draft bytes with
      | some (draft, rest) => readEntries draft count rest
      | none => none

/-- Reads values into the fields in order. -/
def readInOrder (draft : Draft) : List Field → Bytes → Option (Draft × Bytes)
  | [], bytes => some (draft, bytes)
  | field :: fields, bytes =>
      match draft.read field bytes with
      | some (draft, rest) => readInOrder draft fields rest
      | none => none

/-- The event that the bytes start with. -/
def decode? (bytes : Bytes) : Option Event :=
  match readHead bytes with
  | some (.map count, rest) => (readEntries .blank count rest).bind fun (draft, _) => draft.event?
  | some (.array count, rest) =>
      if count = Field.all.length then
        (readInOrder .blank Field.all rest).bind fun (draft, _) => draft.event?
      else none
  | _ => none

/-- The event that the bytes start with, or a failure that is worded by what the bytes are. -/
def decode (wording : Bytes → String) (bytes : Bytes) : Except BrokerFailure Event :=
  match decode? bytes with
  | some event => .ok event
  | none => .error (.deserialization (wording bytes))

end UpdateRelay.MessagePack
