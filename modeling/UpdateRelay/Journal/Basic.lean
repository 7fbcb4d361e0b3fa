import UpdateRelay.Bytes
import UpdateRelay.Failure
import UpdateRelay.Table

/-!
# The journal

Topics to which records are appended, and consumer groups that read them. All readers of a group
share one position and so compete for the records; different groups each get every record. A group
exists while it has readers, and starts at the end of the topic.

A topic that was deleted and made again under its name is another topic: epochs tell them apart.
A reader remembers how many records it has seen, and `Journal.mustLook` says when one that waits
has to look again.
-/

namespace UpdateRelay

structure JournalRecord where
  key : Bytes
  value : Bytes
  deriving DecidableEq, Repr

/-- The position of the next record that a consumer group gets, and how many readers share it. -/
structure Group where
  offset : Nat
  members : Nat
  deriving DecidableEq, Repr

/-- A topic: what tells it apart from others of its name, its records and the groups that read
it. -/
structure Topic where
  epoch : Nat
  records : List JournalRecord
  groups : Table String Group
  deriving DecidableEq, Repr

/-- The journal, with the faults it is to show and the attempts it has counted. Epochs are whole
numbers and are never used twice; a counter of 64 bits stands for this as long as fewer than 2^64
topics are made. -/
structure Journal where
  topics : Table String Topic
  epochs : Nat
  createsOnDemand : Bool
  brokenAppends : Nat
  refusesCreation : Bool
  closed : Bool
  appendCount : Nat
  makeCount : Nat
  deriving DecidableEq, Repr

/-- A reader of a topic for a group, how many records the topic had when it last looked, and
whether it has left the group. -/
structure Reader where
  topic : String
  epoch : Nat
  group : String
  seen : Nat
  released : Bool
  deriving DecidableEq, Repr

namespace Journal

/-- A journal without topics, which makes topics when they are first written or read, or does not.
-/
def empty (createsOnDemand : Bool) : Journal where
  topics := ∅
  epochs := 0
  createsOnDemand := createsOnDemand
  brokenAppends := 0
  refusesCreation := false
  closed := false
  appendCount := 0
  makeCount := 0

/-! ## Looking -/

def hasTopic (journal : Journal) (name : String) : Bool := journal.topics.contains name

def records (journal : Journal) (name : String) : List JournalRecord :=
  match journal.topics.get? name with
  | some topic => topic.records
  | none => []

/-- The topic of a name, if it still is the one of an epoch. -/
def liveTopic? (journal : Journal) (name : String) (epoch : Nat) : Option Topic :=
  (journal.topics.get? name).filter fun topic => topic.epoch = epoch

/-- The group that a reader belongs to, if it still exists. -/
def groupOf? (journal : Journal) (reader : Reader) : Option Group :=
  (journal.liveTopic? reader.topic reader.epoch).bind fun topic => topic.groups.get? reader.group

/-! ## Topics -/

def addTopic (journal : Journal) (name : String) : Journal :=
  { journal with
    epochs := journal.epochs + 1
    topics := journal.topics.set name ⟨journal.epochs + 1, [], ∅⟩ }

def modifyTopic (journal : Journal) (name : String) (change : Topic → Topic) : Journal :=
  { journal with topics := journal.topics.modify name change }

def makeTopic (journal : Journal) (name : String) : Journal × Except JournalFailure Unit :=
  let counted := { journal with makeCount := journal.makeCount + 1 }
  if journal.closed then (counted, .error .closed)
  else if journal.refusesCreation then (counted, .error (.unreachable "topic creation refused"))
  else if journal.hasTopic name then (counted, .error (.topicExists name))
  else (counted.addTopic name, .ok ())

/-- The journal in which a topic exists for writing or reading, if that can be had. -/
def ensureTopic (journal : Journal) (name : String) : Except JournalFailure Journal :=
  if journal.hasTopic name then .ok journal
  else if journal.createsOnDemand then .ok (journal.addTopic name)
  else .error (.unknownTopic name)

def removeTopic (journal : Journal) (name : String) : Journal :=
  { journal with topics := journal.topics.erase name }

/-- Ends the journal for good. -/
def close (journal : Journal) : Journal := { journal with closed := true, topics := ∅ }

/-! ## Writing -/

def append (journal : Journal) (name : String) (record : JournalRecord) :
    Journal × Except JournalFailure Unit :=
  let counted := { journal with appendCount := journal.appendCount + 1 }
  if journal.closed then (counted, .error .closed)
  -- A fault shows before the topic is looked at, so that it makes no topic.
  else if 0 < journal.brokenAppends then
    ({ counted with brokenAppends := journal.brokenAppends - 1 },
      .error (.transport "write failed"))
  else
    match counted.ensureTopic name with
    | .error cause => (counted, .error cause)
    | .ok ready =>
        (ready.modifyTopic name fun topic => { topic with records := topic.records ++ [record] },
          .ok ())

/-! ## Reading -/

/-- The topic with one more member of a group, which starts at the end if it is new. -/
def Topic.join (topic : Topic) (group : String) : Topic :=
  let joined := match topic.groups.get? group with
    | some present => { present with members := present.members + 1 }
    | none => ⟨topic.records.length, 1⟩
  { topic with groups := topic.groups.set group joined }

/-- The topic with one member of a group less; a group that has no other member is forgotten. -/
def Topic.leave (topic : Topic) (group : String) : Topic :=
  match topic.groups.get? group with
  | none => topic
  | some present =>
      { topic with
        groups :=
          if present.members ≤ 1 then topic.groups.erase group
          else topic.groups.replace group { present with members := present.members - 1 } }

/-- The topic after a group got its next record. -/
def Topic.advance (topic : Topic) (group : String) : Topic :=
  { topic with
    groups := topic.groups.modify group fun present =>
      if present.offset < topic.records.length then { present with offset := present.offset + 1 }
      else present }

/-- Opens a reader of a topic for a group. -/
def attach (journal : Journal) (name group : String) :
    Journal × Except JournalFailure Reader :=
  if journal.closed then (journal, .error .closed)
  else
    match journal.ensureTopic name with
    | .error cause => (journal, .error cause)
    | .ok ready =>
        match ready.topics.get? name with
        | none => (journal, .error (.unknownTopic name))
        | some topic =>
            (ready.modifyTopic name (Topic.join · group),
              .ok ⟨name, topic.epoch, group, topic.records.length, false⟩)

/-- What a reader gets now: a record, nothing yet, or the failure that ends its reading. -/
def peek (journal : Journal) (reader : Reader) : Except JournalFailure (Option JournalRecord) :=
  if reader.released ∨ journal.closed then .error .closed
  else
    match journal.liveTopic? reader.topic reader.epoch with
    | none => .error .closed
    | some topic =>
        match topic.groups.get? reader.group with
        | none => .error .closed
        | some group => .ok topic.records[group.offset]?

/-- The journal after a reader took what it gets. -/
def take (journal : Journal) (reader : Reader) : Journal :=
  match journal.peek reader with
  | .ok (some _) => journal.modifyTopic reader.topic (Topic.advance · reader.group)
  | _ => journal

/-- The reader after it looked at its topic. -/
def look (journal : Journal) (reader : Reader) : Reader :=
  match journal.liveTopic? reader.topic reader.epoch with
  | some topic => { reader with seen := topic.records.length }
  | none => reader

/-- Whether the topic has changed since the reader last looked, or is gone. -/
def mustLook (journal : Journal) (reader : Reader) : Bool :=
  match journal.liveTopic? reader.topic reader.epoch with
  | some topic => topic.records.length ≠ reader.seen
  | none => true

/-- The journal after a reader left its group; one that has left before leaves nothing. -/
def leave (journal : Journal) (reader : Reader) : Journal :=
  if reader.released then journal
  else
    match journal.liveTopic? reader.topic reader.epoch with
    | none => journal
    | some _ => journal.modifyTopic reader.topic (Topic.leave · reader.group)

end Journal

/-- The reader after it left its group. -/
def Reader.release (reader : Reader) : Reader := { reader with released := true }

end UpdateRelay
