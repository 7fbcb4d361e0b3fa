import UpdateRelay.Event
import UpdateRelay.Json.Record

/-!
# Events and commands in JSON

The forms in which events go to clients and commands come from them. All members are needed, in
any order, and others are passed over.
-/

namespace UpdateRelay

/-! ## Events -/

namespace Event

def toJson (event : Event) : Bytes :=
  Json.writeObject
    [("resource_id", Json.quote event.resource),
      ("changed_count", Json.writeInteger event.count.toInt),
      ("message", Json.quote event.message)]

structure Draft where
  resource : Option String
  count : Option Int
  message : Option String

def shape : Json.Shape Draft where
  members :=
    [Json.member "resource_id" Draft.resource (fun draft value => { draft with resource := value })
        Json.readText,
      Json.member "changed_count" Draft.count
        (fun draft value => { draft with count := value })
        (Json.readBounded (-0x8000000000000000) 0x7fffffffffffffff),
      Json.member "message" Draft.message (fun draft value => { draft with message := value })
        Json.readText]
  isOpen := true

def ofJson? (bytes : Bytes) : Option Event :=
  match shape.document? ⟨none, none, none⟩ bytes with
  | some ⟨some resource, some count, some message⟩ =>
      some ⟨resource, Int64.ofInt count, message⟩
  | _ => none

end Event

/-! ## Commands -/

namespace Command

def toJson (command : Command) : Bytes :=
  Json.writeObject
    [("resource_id", Json.quote command.resource), ("action", Json.quote command.action)]

structure Draft where
  resource : Option String
  action : Option String

def shape : Json.Shape Draft where
  members :=
    [Json.member "resource_id" Draft.resource (fun draft value => { draft with resource := value })
        Json.readText,
      Json.member "action" Draft.action (fun draft value => { draft with action := value })
        Json.readText]
  isOpen := true

def ofJson? (bytes : Bytes) : Option Command :=
  match shape.document? ⟨none, none⟩ bytes with
  | some ⟨some resource, some action⟩ => some ⟨resource, action⟩
  | _ => none

end Command

end UpdateRelay
