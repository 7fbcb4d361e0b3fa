import UpdateRelay.Proofs.Cluster.OneReader
import UpdateRelay.Proofs.Delivery.LogInvariant

/-!
# Delivery is exact

In a run that lasts, whatever races, fails or pauses on the way, every subscriber is offered just
the events of its resource from the time it joined, once and in the order of the journal, as soon as
all loops wait for the next record; and its mailbox keeps of them what a bounded queue keeps.
-/

namespace UpdateRelay

/-- What is delivered to a seat whose broker has read all records: the events from the position at
which the log was opened are offered, and the mailbox is that of a bounded queue. -/
structure Delivered (records : List JournalRecord) (resource : String) (capacity : Nat)
    (log : DeliveryLog) (box : Mailbox) : Prop where
  opened : log.opened ≤ records.length
  offered : log.offered = eventsFor resource (records.drop log.opened)
  capacity : box.capacity = Mailbox.effectiveCapacity capacity
  got : (log.received ++ box.queue) <+: (Fifo.fed box.capacity log.feeds).kept
  held : box.hasReceiver = true →
    log.received ++ box.queue = (Fifo.fed box.capacity log.feeds).kept

namespace Delivered

variable {records : List JournalRecord} {resource : String} {capacity : Nat} {log : DeliveryLog}
  {box : Mailbox}

/-- What is received is some of it, in order. -/
theorem received_sublist (delivered : Delivered records resource capacity log box) :
    (log.received ++ box.queue).Sublist log.offered :=
  delivered.got.sublist.trans (Fifo.kept_sublist _ _)

/-- Who joined later is offered the end of what the other one is offered. -/
theorem offered_suffix {other : DeliveryLog} {otherCapacity : Nat} {otherBox : Mailbox}
    (delivered : Delivered records resource capacity log box)
    (otherDelivered : Delivered records resource otherCapacity other otherBox)
    (later : log.opened ≤ other.opened) : other.offered <:+ log.offered := by
  rw [delivered.offered, otherDelivered.offered]
  exact (List.drop_suffix_drop_left records later).filterMap _

end Delivered

namespace Cluster

/-- The logs of a run from a new journal. -/
def log (createsOnDemand : Bool) (actions : List Action) (seat : Seat) : DeliveryLog :=
  logAll seat (.empty createsOnDemand) actions .blank

/-- The logs of every run agree with the cluster that it has led to. -/
theorem faithful_reached {createsOnDemand : Bool} {actions : List Action}
    (apart : (reached createsOnDemand actions).Apart) :
    (reached createsOnDemand actions).Faithful (log createsOnDemand actions) := by
  have nothing : (Cluster.empty createsOnDemand).Faithful fun _ => .blank := by
    intro index broker isBroker
    simp [Cluster.empty] at isBroker
  exact faithful_performAll nothing (sound_empty createsOnDemand)
    (numbered_empty createsOnDemand) apart

/-- In a run that lasts this is so without conditions. -/
theorem exact_reached {createsOnDemand : Bool} {topic : String} {actions : List Action}
    (lasts : ∀ action ∈ actions, action.lasts topic)
    (apart : (reached createsOnDemand actions).Apart) :
    (reached createsOnDemand actions).Lasting topic ∧
      (reached createsOnDemand actions).Exact (log createsOnDemand actions) := by
  have lasting : (reached createsOnDemand actions).Lasting topic :=
    lasting_performAll (lasting_empty createsOnDemand topic) (numbered_empty createsOnDemand) lasts
  exact ⟨lasting, (faithful_reached apart).exact (sound_reached createsOnDemand actions) lasting⟩

/-- Where all loops wait, the loop of a seat waits for a topic of which it has seen everything. -/
theorem Sound.loop_of_calm {cluster : Cluster} (sound : cluster.Sound) (calm : cluster.Calm)
    {index : Nat} {broker : JournaledBroker} (isBroker : cluster.brokers[index]? = some broker)
    {resource : String} {id : SubscriberId} {place : Nat}
    (seat : broker.seat? resource id = some place) :
    ∃ entry loop topic, broker.entries.get? resource = some entry ∧ loop ∈ broker.loops ∧
      loop.resource = resource ∧ loop.generation = entry.generation ∧ loop.cancelled = false ∧
      loop.phase = .waiting ∧ loop.reader.ReadsOf broker.identity resource ∧
      cluster.journal.liveTopic? loop.reader.topic loop.reader.epoch = some topic ∧
      topic.records.length = loop.reader.seen := by
  obtain ⟨entry, found, _⟩ := JournaledBroker.seat?_eq_some_iff.1 seat
  obtain ⟨loop, member, rfl, generation, live⟩ := (sound.entryLoops isBroker).served found
  have isNode : cluster.node? index =
      some ⟨cluster.now, cluster.journal, cluster.link, broker⟩ := by
    rw [node?, isBroker, Option.map_some]
  have awaits := calm isNode loop member
  obtain ⟨topic, isLive, length⟩ := awaits.topic
  exact ⟨entry, loop, topic, found, member, rfl, generation, live, awaits.1,
    sound.loopReads isBroker loop member, isLive, length⟩

/-- So it can be told of every record. -/
theorem Sound.hears_of_calm {cluster : Cluster} (sound : cluster.Sound) (calm : cluster.Calm)
    {index : Nat} {broker : JournaledBroker} (isBroker : cluster.brokers[index]? = some broker)
    {resource : String} {id : SubscriberId} {place : Nat}
    (seat : broker.seat? resource id = some place) : broker.Hears cluster.journal resource := by
  obtain ⟨_, loop, _, _, member, same, _, live, _, _, isLive, _⟩ :=
    sound.loop_of_calm calm isBroker seat
  exact ⟨loop, member, same, live, Option.isSome_of_eq_some isLive⟩

/-- And its group is at the end of the topic. -/
theorem Faithful.position_of_calm {cluster : Cluster} {logs : Seat → DeliveryLog}
    (faithful : cluster.Faithful logs) (sound : cluster.Sound) (calm : cluster.Calm)
    {index : Nat} {broker : JournaledBroker} (isBroker : cluster.brokers[index]? = some broker)
    {resource : String} {id : SubscriberId} {place : Nat}
    (seat : broker.seat? resource id = some place) :
    cluster.journal.position broker.identity.topic (broker.identity.group resource) =
      (cluster.journal.records broker.identity.topic).length := by
  obtain ⟨_, loop, topic, _, member, _, _, _, waiting, ⟨sameTopic, sameGroup⟩, isLive, length⟩ :=
    sound.loop_of_calm calm isBroker seat
  have records : cluster.journal.records broker.identity.topic = topic.records := by
    rw [Journal.records, ← sameTopic, (Journal.liveTopic?_eq_some_iff.1 isLive).1]
  -- The loop has seen the whole topic, and its group is at least as far as it has seen.
  have reached := (faithful index broker isBroker).seen loop member waiting
    (Option.isSome_of_eq_some isLive)
  rw [sameTopic, sameGroup] at reached
  have placed := Journal.position_le_of_counts sound.counts broker.identity.topic
    (broker.identity.group resource)
  rw [records] at placed ⊢
  exact Nat.le_antisymm placed (length ▸ reached)

/-- Where all loops wait, everything has been delivered to every seat. -/
theorem Faithful.delivered_of_calm {cluster : Cluster} {logs : Seat → DeliveryLog}
    (faithful : cluster.Faithful logs) (sound : cluster.Sound) (calm : cluster.Calm)
    {index : Nat} {broker : JournaledBroker} (isBroker : cluster.brokers[index]? = some broker)
    {resource : String} {id : SubscriberId} {place : Nat}
    (seat : broker.seat? resource id = some place) :
    ∃ box, broker.room.get? place = some box ∧
      Delivered (cluster.journal.records broker.identity.topic) resource broker.identity.capacity
        (logs ⟨index, resource, place⟩) box := by
  obtain ⟨box, found⟩ := Mailroom.exists_get?_of_lt ((sound.seated isBroker).seatOld seat).2
  have upkept := faithful index broker isBroker
  obtain ⟨opened, offered⟩ := upkept.upTo seat (sound.hears_of_calm calm isBroker seat)
  rw [faithful.position_of_calm sound calm isBroker seat] at opened offered
  rw [List.take_length] at offered
  obtain ⟨got, held⟩ := upkept.mirrors found resource
  exact ⟨box, found, opened, offered, upkept.capacity found, got, fun isHeld => (held isHeld).1⟩

theorem delivered_of_calm {cluster : Cluster} {topic : String} {logs : Seat → DeliveryLog}
    (sound : cluster.Sound) (lasting : cluster.Lasting topic) (exact : cluster.Exact logs)
    (calm : cluster.Calm) {index : Nat} {broker : JournaledBroker}
    (isBroker : cluster.brokers[index]? = some broker) {resource : String} {id : SubscriberId}
    {place : Nat} (seat : broker.seat? resource id = some place) :
    ∃ box, broker.room.get? place = some box ∧
      Delivered (cluster.journal.records topic) resource broker.identity.capacity
        (logs ⟨index, resource, place⟩) box := by
  have delivered := exact.faithful.delivered_of_calm sound calm isBroker seat
  rw [lasting.sameTopic broker (List.mem_of_getElem? isBroker)] at delivered
  exact delivered

/-- Any number of brokers share a topic over a journal, and each of their consumer groups is that of
one resource at one broker. In every run without closes and removals of topics, in any order, once
all loops wait, every subscriber has been offered exactly the events of its resource from the
position that its loop had reached when it joined to the end of the journal, once each and in
order, and has what a bounded queue keeps of them. Of two subscribers of a resource, at any brokers,
the one that joined later is offered the end of what the other one is offered. -/
theorem delivery_is_exact (createsOnDemand : Bool) (topic : String) (actions : List Action)
    (lasts : ∀ action ∈ actions, action.lasts topic)
    (apart : (reached createsOnDemand actions).Apart)
    (calm : (reached createsOnDemand actions).Calm) {index : Nat} {broker : JournaledBroker}
    (isBroker : (reached createsOnDemand actions).brokers[index]? = some broker)
    {resource : String} {id : SubscriberId} {place : Nat}
    (seat : broker.seat? resource id = some place) :
    let own := log createsOnDemand actions ⟨index, resource, place⟩
    (∃ box, broker.room.get? place = some box ∧
      Delivered ((reached createsOnDemand actions).journal.records topic) resource
        broker.identity.capacity own box ∧
      (own.received ++ box.queue).Sublist own.offered) ∧
    ∀ {query : Nat} {other : JournaledBroker},
      (reached createsOnDemand actions).brokers[query]? = some other →
      ∀ {otherId : SubscriberId} {otherPlace : Nat},
        other.seat? resource otherId = some otherPlace →
        own.opened ≤ (log createsOnDemand actions ⟨query, resource, otherPlace⟩).opened →
        (log createsOnDemand actions ⟨query, resource, otherPlace⟩).offered <:+
          own.offered := by
  intro own
  obtain ⟨lasting, exact⟩ := exact_reached lasts apart
  have sound := sound_reached createsOnDemand actions
  obtain ⟨box, found, delivered⟩ := delivered_of_calm sound lasting exact calm isBroker seat
  refine ⟨⟨box, found, delivered, delivered.received_sublist⟩, ?_⟩
  intro query other isOther otherId otherPlace otherSeat later
  obtain ⟨_, _, otherDelivered⟩ := delivered_of_calm sound lasting exact calm isOther otherSeat
  exact delivered.offered_suffix otherDelivered later

/-- Names of one length that differ keep the groups of brokers apart. -/
theorem apart_of_names {cluster : Cluster} (length : Nat)
    (even : ∀ broker ∈ cluster.brokers, broker.identity.name.length = length)
    (distinct : (cluster.brokers.map (·.identity.name)).Nodup) : cluster.Apart := by
  intro index query broker other isBroker isOther resource another same
  -- The name of a group ends in that of its broker, which is as long for all brokers.
  have letters := congrArg String.toList same
  simp only [Instance.group, String.toList_append] at letters
  have lengths : broker.identity.name.toList.length = other.identity.name.toList.length := by
    rw [String.length_toList, String.length_toList, even broker (List.mem_of_getElem? isBroker),
      even other (List.mem_of_getElem? isOther)]
  have names := String.toList_inj.1 (List.append_inj_right' letters lengths)
  have inside : index < (cluster.brokers.map (·.identity.name)).length := by
    rw [List.length_map]
    exact (List.getElem?_eq_some_iff.1 isBroker).1
  refine (List.getElem?_inj inside distinct).1 ?_
  rw [List.getElem?_map, List.getElem?_map, isBroker, isOther, Option.map_some, Option.map_some,
    names]

/-- Two brokers read for the same resource. One of them has a read that fails and a mailbox that
overflows, the other gets its subscriber later, and some records tell nothing. -/
def twoBrokers : List Action :=
  [.start ⟨"updates", "relay", "one", 1⟩, .start ⟨"updates", "relay", "two", 4⟩,
    .subscribe 0 .unlimited "door", .stepCall 0, .stepCall 0,
    .append "updates" ⟨Bytes.ofText "door", [0xc1]⟩,
    .publish 0 .unlimited "door" ⟨"door", 1, "opened"⟩, .stepCall 1,
    .subscribe 1 .unlimited "door", .stepCall 2, .stepCall 2,
    .publish 1 .unlimited "door" ⟨"door", 2, "closed"⟩, .stepCall 3,
    .append "updates" (Node.recordOf "window" ⟨"window", 3, "opened"⟩),
    .relink ⟨1, false, false, false, false⟩, .stepLoop 0 1, .pass 250, .stepLoop 0 1,
    .stepLoop 0 1, .stepLoop 0 1, .stepLoop 0 1, .stepLoop 0 1, .stepLoop 0 1,
    .stepLoop 1 1, .stepLoop 1 1, .stepLoop 1 1, .receive 1 0]

/-- The first subscriber is offered both events and keeps one; the second is offered the last. -/
theorem delivery_to_two_brokers :
    ∃ broker box, (reached true twoBrokers).brokers[0]? = some broker ∧
      broker.room.get? 0 = some box ∧
      Delivered ((reached true twoBrokers).journal.records "updates") "door" 1
        (log true twoBrokers ⟨0, "door", 0⟩) box ∧
      (log true twoBrokers ⟨0, "door", 0⟩).offered =
        [⟨"door", 1, "opened"⟩, ⟨"door", 2, "closed"⟩] ∧
      box.queue = [⟨"door", 1, "opened"⟩] ∧
      (log true twoBrokers ⟨1, "door", 0⟩).offered = [⟨"door", 2, "closed"⟩] ∧
      (log true twoBrokers ⟨1, "door", 0⟩).offered <:+
        (log true twoBrokers ⟨0, "door", 0⟩).offered := by
  have lasts : ∀ action ∈ twoBrokers, action.lasts "updates" := by decide
  have apart : (reached true twoBrokers).Apart := apart_of_names 3 (by decide) (by decide)
  have calm : (reached true twoBrokers).Calm := by decide
  have first : ∃ broker, (reached true twoBrokers).brokers[0]? = some broker ∧
      broker.seat? "door" ⟨1⟩ = some 0 ∧ broker.identity.capacity = 1 := ⟨_, rfl, rfl, rfl⟩
  have second : ∃ broker, (reached true twoBrokers).brokers[1]? = some broker ∧
      broker.seat? "door" ⟨1⟩ = some 0 := ⟨_, rfl, rfl⟩
  obtain ⟨broker, isBroker, seat, capacity⟩ := first
  obtain ⟨other, isOther, otherSeat⟩ := second
  obtain ⟨⟨box, found, delivered, _⟩, together⟩ :=
    delivery_is_exact true "updates" twoBrokers lasts apart calm isBroker seat
  have queue : ((reached true twoBrokers).brokers[0]?.bind (·.room.get? 0)).map (·.queue) =
      some [⟨"door", 1, "opened"⟩] := by decide
  rw [isBroker, Option.bind_some, found, Option.map_some, Option.some.injEq] at queue
  exact ⟨broker, box, isBroker, found, capacity ▸ delivered, by decide, queue, by decide,
    together isOther otherSeat (by decide)⟩

end Cluster

end UpdateRelay
