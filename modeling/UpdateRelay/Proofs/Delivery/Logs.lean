import UpdateRelay.Proofs.Cluster.Lasting

/-!
# The log of a seat

What is written down beside a run about the seat of one subscriber: how far the loop of its resource
had come when its mailbox was made, all that the mailbox was fed since, and what its receiver has
got. The run itself does not know of it. `DeliveryLog.UpTo` says that the events in a log are those
of the journal's records up to the position of a consumer group, which every step keeps.
-/

namespace UpdateRelay

/-- What is written down about one seat. -/
structure DeliveryLog where
  opened : Nat
  feeds : List Feed
  received : List Event
  deriving DecidableEq, Repr

namespace DeliveryLog

/-- The log of a seat that nobody has taken yet. -/
def blank : DeliveryLog := ⟨0, [], []⟩

/-- All events that were offered, oldest first. -/
def offered (log : DeliveryLog) : List Event := log.feeds.filterMap Feed.event?

/-- The log after the mailbox was fed. -/
def add (log : DeliveryLog) (box : Mailbox) (feeds : List Feed) : DeliveryLog :=
  { log with
    feeds := log.feeds ++ feeds
    received := log.received ++ Feed.takenAll feeds box }

@[simp] theorem opened_add (log : DeliveryLog) (box : Mailbox) (feeds : List Feed) :
    (log.add box feeds).opened = log.opened := rfl

@[simp] theorem offered_add (log : DeliveryLog) (box : Mailbox) (feeds : List Feed) :
    (log.add box feeds).offered = log.offered ++ feeds.filterMap Feed.event? :=
  List.filterMap_append

end DeliveryLog

namespace Cluster

/-- The mailbox at a place of a broker. -/
def box? (cluster : Cluster) (index place : Nat) : Option Mailbox :=
  cluster.brokers[index]?.bind (·.room.get? place)

/-- How far a broker has come in reading for a resource. -/
def progressOf (cluster : Cluster) (index : Nat) (resource : String) : Nat :=
  match cluster.brokers[index]? with
  | some broker =>
      cluster.journal.position broker.identity.topic (broker.identity.group resource)
  | none => 0

/-- What one mailbox is fed, of all that is told. -/
def toldTo (told : List (Nat × Nat × Feed)) (index place : Nat) : List Feed :=
  told.filterMap fun entry => if entry.1 = index ∧ entry.2.1 = place then some entry.2.2 else none

/-- A seat: a broker, a resource and a place in the broker's mailroom. -/
structure Seat where
  index : Nat
  resource : String
  place : Nat
  deriving DecidableEq, Repr

/-- What is written down about a seat in one step. A log is opened with the mailbox. -/
def write (before after : Cluster) (told : List (Nat × Nat × Feed)) (seat : Seat)
    (log : DeliveryLog) : DeliveryLog :=
  match before.box? seat.index seat.place with
  | some box => log.add box (toldTo told seat.index seat.place)
  | none => ⟨after.progressOf seat.index seat.resource, [], []⟩

/-- What is written down about a seat in a run. -/
def logAll (seat : Seat) : Cluster → List Action → DeliveryLog → DeliveryLog
  | _, [], log => log
  | cluster, action :: actions, log =>
      logAll seat (cluster.perform action) actions
        (write cluster (cluster.perform action) (cluster.told action) seat log)

end Cluster

/-! ## What has been offered up to a position -/

/-- Whether the events offered are those of the records from where the log was opened up to the
position of a group. -/
structure DeliveryLog.UpTo (log : DeliveryLog) (journal : Journal) (identity : Instance)
    (resource : String) : Prop where
  opened : log.opened ≤ journal.position identity.topic (identity.group resource)
  offered : log.offered = eventsFor resource
    (((journal.records identity.topic).take
      (journal.position identity.topic (identity.group resource))).drop log.opened)

namespace DeliveryLog.UpTo

variable {log : DeliveryLog} {journal after : Journal} {identity : Instance} {resource : String}

/-- A log that is opened at the position of the group. -/
theorem ofOpened (journal : Journal) (identity : Instance) (resource : String) :
    UpTo ⟨journal.position identity.topic (identity.group resource), [], []⟩ journal identity
      resource where
  opened := Nat.le_refl _
  offered := by
    rw [List.drop_eq_nil_of_le (List.length_take_le _ _)]
    rfl

/-- Where the group stays where it is, and nothing is offered, nothing changes. -/
theorem stay (upTo : log.UpTo journal identity resource)
    (position : after.position identity.topic (identity.group resource) =
      journal.position identity.topic (identity.group resource))
    (records : ∃ more, after.records identity.topic = journal.records identity.topic ++ more)
    (placed : journal.position identity.topic (identity.group resource) ≤
      (journal.records identity.topic).length)
    {feeds : List Feed} (silent : feeds.filterMap Feed.event? = []) (box : Mailbox) :
    (log.add box feeds).UpTo after identity resource where
  opened := by
    rw [position]
    exact upTo.opened
  offered := by
    obtain ⟨more, records⟩ := records
    rw [offered_add, silent, List.append_nil, position, records,
      List.take_append_of_le_length placed]
    exact upTo.offered

/-- Where the group comes one record further, and its event is offered, nothing is missed. -/
theorem advance (upTo : log.UpTo journal identity resource) {record : JournalRecord}
    (isNext : (journal.records identity.topic)[journal.position identity.topic
      (identity.group resource)]? = some record)
    (position : after.position identity.topic (identity.group resource) =
      journal.position identity.topic (identity.group resource) + 1)
    (records : after.records identity.topic = journal.records identity.topic)
    {feeds : List Feed}
    (told : feeds.filterMap Feed.event? = (Node.eventFor? resource record).toList)
    (box : Mailbox) : (log.add box feeds).UpTo after identity resource where
  opened := by
    rw [position]
    exact Nat.le_succ_of_le upTo.opened
  offered := by
    have inside := (List.getElem?_eq_some_iff.1 isNext).1
    have reach : log.opened ≤ ((journal.records identity.topic).take
        (journal.position identity.topic (identity.group resource))).length := by
      rw [List.length_take]
      have := upTo.opened
      omega
    rw [offered_add, opened_add, told, position, records, List.take_add_one, isNext,
      Option.toList_some, List.drop_append_of_le_length reach, eventsFor, List.filterMap_append,
      upTo.offered, eventsFor]
    cases heard : Node.eventFor? resource record <;> simp [heard]

end DeliveryLog.UpTo

end UpdateRelay
