import UpdateRelay.Proofs.Cluster.Staying
import UpdateRelay.Proofs.Delivery.Logs

/-!
# What the logs of a run agree with

`Cluster.Faithful` says that all logs agree with the state of a cluster: as long as a topic is
there for the loop of a seat, what the seat was offered is what the records up to the position of
its consumer group tell it; and its mailbox is that of a bounded queue. Every step keeps this, where
each consumer group is that of one resource at one broker. In a run that lasts all topics are there,
and `Cluster.Exact` says the same without conditions.
-/

namespace UpdateRelay

/-! ## One seat in one step -/

theorem feedsAt_eq_nil {feeds : List (Nat × Feed)} {place : Nat}
    (elsewhere : ∀ entry ∈ feeds, entry.1 ≠ place) : feedsAt feeds place = [] :=
  List.filterMap_eq_nil_iff.2 fun entry member => if_neg (elsewhere entry member)

theorem feedsAt_silent {feeds : List (Nat × Feed)}
    (silent : ∀ feed ∈ feeds, feed.2.event? = none) (place : Nat) :
    (feedsAt feeds place).filterMap Feed.event? = [] := by
  refine List.filterMap_eq_nil_iff.2 fun feed member => ?_
  obtain ⟨entry, isEntry, chosen⟩ := List.mem_filterMap.1 member
  split at chosen
  next =>
    obtain rfl := Option.some.inj chosen
    exact silent entry isEntry
  next => contradiction

namespace Reads

variable {before after : Footprint} {feeds : List (Nat × Feed)} {loop : ConsumptionLoop}
  {record : JournalRecord} {resource : String} {id : SubscriberId} {place : Nat}

/-- A read offers the event of its record to every subscriber of the loop's resource. -/
theorem told_own (reads : Reads before feeds after loop record)
    (entryLoops : before.broker.EntryLoops)
    {claims : List Claim} (seated : before.broker.Seated claims)
    (seat : before.broker.seat? loop.resource id = some place) :
    (feedsAt feeds place).filterMap Feed.event? =
      (Node.eventFor? loop.resource record).toList := by
  obtain ⟨entry, found, generation⟩ := entryLoops.serving loop reads.member reads.live
  have isEntry := JournaledBroker.entryAt?_eq_some_iff.2 ⟨found, generation⟩
  rw [JournaledBroker.seat?_of_get? found] at seat
  have present : place ∈ entry.subscribers.places := Roster.mem_places_iff.2 ⟨id, seat⟩
  rw [reads.feeds, JournaledBroker.offers, isEntry]
  cases Node.eventFor? loop.resource record with
  | none => rfl
  | some event =>
    rw [Effect.feedsAt_feeds (Effect.places_nodup seated found), if_pos present]
    rfl

/-- A read offers something to subscribers of its resource only. -/
theorem seat_of_fed (reads : Reads before feeds after loop record) {feed : Nat × Feed}
    (fed : feed ∈ feeds) : ∃ id, before.broker.seat? loop.resource id = some feed.1 := by
  rw [reads.feeds, JournaledBroker.offers] at fed
  split at fed
  next found _ isEntry =>
    obtain ⟨place, isPlace, rfl⟩ := List.mem_map.1 fed
    obtain ⟨id, isSeat⟩ := Roster.mem_places_iff.1 isPlace
    rw [← JournaledBroker.seat?_of_get? (JournaledBroker.entryAt?_eq_some_iff.1 isEntry).1]
      at isSeat
    exact ⟨id, isSeat⟩
  next => simp at fed

theorem told_other (reads : Reads before feeds after loop record) {claims : List Claim}
    (seated : before.broker.Seated claims) (seat : before.broker.seat? resource id = some place)
    (other : resource ≠ loop.resource) : feedsAt feeds place = [] := by
  refine feedsAt_eq_nil fun feed fed same => ?_
  obtain ⟨neighbour, isNeighbour⟩ := reads.seat_of_fed fed
  rw [same] at isNeighbour
  exact other (seated.onePlace seat isNeighbour).1

end Reads

namespace Effect

variable {before after : Footprint} {feeds : List (Nat × Feed)} {others : List Claim}
  {elsewhere : List Reader} {log : DeliveryLog} {resource : String} {present current : Group}

/-- What a step does to a group that no loop of its broker reads. -/
theorem upTo_of_ne (effect : Effect before feeds after) (sound : before.Sound others elsewhere)
    {identity : Instance}
    (was : before.journal.group? identity.topic (identity.group resource) = some present)
    (is : after.journal.group? identity.topic (identity.group resource) = some current)
    (apart : ∀ loop ∈ before.broker.loops,
      identity.group resource ≠ before.broker.identity.group loop.resource)
    (upTo : log.UpTo before.journal identity resource) {more : List Feed}
    (silent : more.filterMap Feed.event? = []) (box : Mailbox) :
    (log.add box more).UpTo after.journal identity resource := by
  have placed := Journal.position_le_of_counts sound.counts identity.topic
    (identity.group resource)
  rcases effect.quiet_or_reads_of_group is with ⟨steady, _⟩ | ⟨loop, record, reads⟩
  · obtain ⟨position, records⟩ := steady.position_eq was is
    exact upTo.stay position records placed silent box
  · have group := (sound.loopReads loop reads.member).2
    have different : identity.group resource ≠ loop.reader.group :=
      group ▸ apart loop reads.member
    rw [reads.journal]
    refine upTo.stay (Journal.position_take_of_ne _ _ different) ⟨[], ?_⟩ placed silent box
    rw [Journal.records_take reads.seen, List.append_nil]

/-- What a step does to the seats of its own broker. -/
theorem upTo (effect : Effect before feeds after) (sound : before.Sound others elsewhere)
    {id : SubscriberId} {place : Nat}
    (seat : before.broker.seat? resource id = some place)
    (was : before.journal.group? before.broker.identity.topic
      (before.broker.identity.group resource) = some present)
    (is : after.journal.group? before.broker.identity.topic
      (before.broker.identity.group resource) = some current)
    (upTo : log.UpTo before.journal before.broker.identity resource) (box : Mailbox) :
    (log.add box (feedsAt feeds place)).UpTo after.journal before.broker.identity
      resource := by
  have placed := Journal.position_le_of_counts sound.counts before.broker.identity.topic
    (before.broker.identity.group resource)
  rcases effect.quiet_or_reads_of_group is with ⟨steady, silent⟩ | ⟨loop, record, reads⟩
  · obtain ⟨position, records⟩ := steady.position_eq was is
    exact upTo.stay position records placed (feedsAt_silent silent place) box
  · obtain ⟨sameTopic, sameGroup⟩ := sound.loopReads loop reads.member
    -- Different resources have different groups, so the read moves the position of one alone.
    by_cases own : resource = loop.resource
    · subst own
      obtain ⟨isNext, position⟩ := Journal.position_take reads.seen
      rw [sameTopic, sameGroup] at isNext position
      rw [reads.journal]
      exact upTo.advance isNext position (Journal.records_take reads.seen _)
        (reads.told_own sound.entryLoops sound.seated seat) box
    · have different : before.broker.identity.group resource ≠ loop.reader.group := by
        rw [sameGroup]
        exact fun same => own (before.broker.identity.group_injective same)
      rw [reads.journal]
      refine upTo.stay (Journal.position_take_of_ne _ _ different) ⟨[], ?_⟩ placed ?_ box
      · rw [Journal.records_take reads.seen, List.append_nil]
      · rw [reads.told_other sound.seated seat own]
        rfl

theorem position_le (effect : Effect before feeds after) {name group : String}
    (was : before.journal.group? name group = some present)
    (is : after.journal.group? name group = some current) :
    before.journal.position name group ≤ after.journal.position name group := by
  rcases effect.quiet_or_reads_of_group is with ⟨steady, _⟩ | ⟨loop, record, reads⟩
  · exact Nat.le_of_eq (steady.position_eq was is).1.symm
  · rw [reads.journal]
    -- Only the group of the loop that reads moves, and it moves forwards.
    by_cases own : group = loop.reader.group
    · subst own
      by_cases here : name = loop.reader.topic
      · subst here
        rw [(Journal.position_take reads.seen).2]
        exact Nat.le_succ _
      · have same : (before.journal.take loop.reader).position name loop.reader.group =
            before.journal.position name loop.reader.group := by
          unfold Journal.position Journal.group?
          rw [Journal.get?_take reads.seen, if_neg here]
        exact Nat.le_of_eq same.symm
    · exact Nat.le_of_eq (Journal.position_take_of_ne _ _ own).symm

theorem mirrors (effect : Effect before feeds after) {claims : List Claim}
    (seated : before.broker.Seated claims) {place : Nat} {box later : Mailbox}
    (was : before.broker.room.get? place = some box)
    (is : after.broker.room.get? place = some later)
    (mirrors : (Fifo.fed box.capacity log.feeds).Mirrors log.received box) :
    later.capacity = box.capacity ∧
      (Fifo.fed later.capacity (log.add box (feedsAt feeds place)).feeds).Mirrors
        (log.add box (feedsAt feeds place)).received later := by
  obtain ⟨found, isFound, same⟩ := effect.mail seated was
  obtain rfl := Option.some.inj (isFound.symm.trans is)
  have capacity : found.capacity = box.capacity :=
    same.capacity.trans (Feed.capacity_changeAll _ _)
  refine ⟨capacity, ?_⟩
  have fed := mirrors.nextAll (feedsAt feeds place)
  rw [Fifo.fed, ← List.foldl_append] at fed
  rw [capacity]
  exact fed.of_same same.queue same.hasReceiver

end Effect

/-! ## All seats -/

/-- Whether the logs of all seats of a broker agree with it, as far as their loops can read. -/
structure JournaledBroker.Faithful (broker : JournaledBroker) (journal : Journal)
    (logs : String → Nat → DeliveryLog) : Prop where
  upTo : ∀ {resource : String} {id : SubscriberId} {place : Nat},
    broker.seat? resource id = some place → broker.Hears journal resource →
      (logs resource place).UpTo journal broker.identity resource
  seen : ∀ loop ∈ broker.loops, loop.phase = .waiting → journal.Serves loop.reader →
    loop.reader.seen ≤ journal.position loop.reader.topic loop.reader.group
  capacity : ∀ {place : Nat} {box : Mailbox}, broker.room.get? place = some box →
    box.capacity = Mailbox.effectiveCapacity broker.identity.capacity
  mirrors : ∀ {place : Nat} {box : Mailbox}, broker.room.get? place = some box → ∀ resource,
    (Fifo.fed box.capacity (logs resource place).feeds).Mirrors
      (logs resource place).received box

/-- Whether the logs of all seats of a broker agree with it. -/
structure JournaledBroker.Exact (broker : JournaledBroker) (journal : Journal)
    (logs : String → Nat → DeliveryLog) : Prop where
  upTo : ∀ {resource : String} {id : SubscriberId} {place : Nat},
    broker.seat? resource id = some place →
      (logs resource place).UpTo journal broker.identity resource
  seen : ∀ loop ∈ broker.loops, loop.phase = .waiting →
    loop.reader.seen ≤ journal.position loop.reader.topic loop.reader.group
  capacity : ∀ {place : Nat} {box : Mailbox}, broker.room.get? place = some box →
    box.capacity = Mailbox.effectiveCapacity broker.identity.capacity
  mirrors : ∀ {place : Nat} {box : Mailbox}, broker.room.get? place = some box → ∀ resource,
    (Fifo.fed box.capacity (logs resource place).feeds).Mirrors
      (logs resource place).received box

theorem JournaledBroker.faithful_empty (identity : Instance) (journal : Journal)
    (logs : String → Nat → DeliveryLog) :
    (JournaledBroker.empty identity).Faithful journal logs where
  upTo := fun seat => by cases seat
  seen := by simp [JournaledBroker.empty]
  capacity := fun found => by cases found
  mirrors := fun found => by cases found

namespace Cluster

/-- Whether all logs agree with a cluster, as far as loops can read. -/
def Faithful (cluster : Cluster) (logs : Seat → DeliveryLog) : Prop :=
  ∀ (index : Nat) (broker : JournaledBroker), cluster.brokers[index]? = some broker →
    broker.Faithful cluster.journal fun resource place => logs ⟨index, resource, place⟩

/-- Whether all logs agree with a cluster. -/
def Exact (cluster : Cluster) (logs : Seat → DeliveryLog) : Prop :=
  ∀ {index : Nat} {broker : JournaledBroker}, cluster.brokers[index]? = some broker →
    broker.Exact cluster.journal fun resource place => logs ⟨index, resource, place⟩

/-- Whether each consumer group is that of one resource at one broker. -/
def Apart (cluster : Cluster) : Prop :=
  ∀ {index query : Nat} {broker other : JournaledBroker}, cluster.brokers[index]? = some broker →
    cluster.brokers[query]? = some other → ∀ {resource another : String},
      broker.identity.group resource = other.identity.group another → index = query

/-- Where all topics are there, whoever has a seat can be told of every record. -/
theorem Lasting.hears {cluster : Cluster} {topic : String} (lasting : cluster.Lasting topic)
    (sound : cluster.Sound) {index : Nat} {broker : JournaledBroker}
    (isBroker : cluster.brokers[index]? = some broker) {resource : String} {id : SubscriberId}
    {place : Nat} (seat : broker.seat? resource id = some place) :
    broker.Hears cluster.journal resource := by
  obtain ⟨entry, found, _⟩ := JournaledBroker.seat?_eq_some_iff.1 seat
  obtain ⟨loop, member, isResource, _, live⟩ := (sound.entryLoops isBroker).served found
  exact ⟨loop, member, isResource, live,
    lasting.live loop.reader (mem_readersOf_of_loop isBroker member)⟩

theorem Faithful.exact {cluster : Cluster} {logs : Seat → DeliveryLog} {topic : String}
    (faithful : cluster.Faithful logs) (sound : cluster.Sound)
    (lasting : cluster.Lasting topic) : cluster.Exact logs := by
  intro index broker isBroker
  obtain ⟨upTo, seen, capacity, mirrors⟩ := faithful index broker isBroker
  refine ⟨fun seat => upTo seat (lasting.hears sound isBroker seat), ?_, capacity, mirrors⟩
  intro loop member waiting
  exact seen loop member waiting (lasting.live loop.reader (mem_readersOf_of_loop isBroker member))

theorem Exact.faithful {cluster : Cluster} {logs : Seat → DeliveryLog}
    (exact : cluster.Exact logs) : cluster.Faithful logs := by
  intro index broker isBroker
  obtain ⟨upTo, seen, capacity, mirrors⟩ := exact isBroker
  exact ⟨fun seat _ => upTo seat, fun loop member waiting _ => seen loop member waiting, capacity,
    mirrors⟩

theorem box?_eq {cluster : Cluster} {index : Nat} {broker : JournaledBroker}
    (isBroker : cluster.brokers[index]? = some broker) (place : Nat) :
    cluster.box? index place = broker.room.get? place := by
  rw [box?, isBroker, Option.bind_some]

theorem progressOf_eq {cluster : Cluster} {index : Nat} {broker : JournaledBroker}
    (isBroker : cluster.brokers[index]? = some broker) (resource : String) :
    cluster.progressOf index resource =
      cluster.journal.position broker.identity.topic (broker.identity.group resource) := by
  rw [progressOf, isBroker]

theorem toldTo_own (feeds : List (Nat × Feed)) (index place : Nat) :
    toldTo (feeds.map (index, ·)) index place = feedsAt feeds place := by
  simp [toldTo, feedsAt, List.filterMap_map]

theorem toldTo_other (feeds : List (Nat × Feed)) {index query : Nat} (other : query ≠ index)
    (place : Nat) : toldTo (feeds.map (index, ·)) query place = [] := by
  refine List.filterMap_eq_nil_iff.2 fun entry member => if_neg fun both => ?_
  obtain ⟨_, _, rfl⟩ := List.mem_map.1 member
  exact other both.1.symm

section Step

variable {before after : Cluster} {logs : Seat → DeliveryLog} {index : Nat}
  {broker : JournaledBroker} {told : List (Nat × Nat × Feed)} {resource : String} {place : Nat}
  {box : Mailbox} {log : DeliveryLog}

theorem write_of_some (found : before.box? index place = some box) :
    write before after told ⟨index, resource, place⟩ log =
      log.add box (toldTo told index place) := by
  simp only [write, found]

theorem write_of_none (unborn : before.box? index place = none) :
    write before after told ⟨index, resource, place⟩ log =
      ⟨after.progressOf index resource, [], []⟩ := by
  simp only [write, unborn]

/-- What one step does to the seats of a broker that it does not touch. -/
theorem Faithful.untouched (faithful : before.Faithful logs) (sound : before.Sound)
    (afterSound : after.Sound) (outlasts : before.journal.Outlasts after.journal)
    (was : before.brokers[index]? = some broker) (is : after.brokers[index]? = some broker)
    (nothing : ∀ place, toldTo told index place = [])
    (upTo : ∀ {resource : String} {log : DeliveryLog} {present current : Group},
      before.journal.group? broker.identity.topic (broker.identity.group resource) =
        some present →
      after.journal.group? broker.identity.topic (broker.identity.group resource) =
        some current →
      log.UpTo before.journal broker.identity resource → ∀ box,
        (log.add box []).UpTo after.journal broker.identity resource)
    (position_le : ∀ {name group : String} {present current : Group},
      before.journal.group? name group = some present →
      after.journal.group? name group = some current →
        before.journal.position name group ≤ after.journal.position name group) :
    broker.Faithful after.journal fun resource place =>
      write before after told ⟨index, resource, place⟩ (logs ⟨index, resource, place⟩) := by
  have upkept := faithful index broker was
  have served : ∀ loop ∈ broker.loops, after.journal.Serves loop.reader →
      before.journal.Serves loop.reader := fun loop member serves =>
    outlasts.serves rfl (sound.epoch_le was member) serves
  constructor
  case upTo =>
    intro resource id place seat hears
    have heard : broker.Hears before.journal resource := by
      obtain ⟨loop, member, isResource, live, serves⟩ := hears
      exact ⟨loop, member, isResource, live, served loop member serves⟩
    obtain ⟨present, wasThere⟩ := sound.group?_of_hears was heard
    obtain ⟨current, isThere⟩ := afterSound.group?_of_hears is hears
    obtain ⟨box, found⟩ := Mailroom.exists_get?_of_lt ((sound.seated was).seatOld seat).2
    rw [← box?_eq was] at found
    rw [write_of_some found, nothing]
    exact upTo wasThere isThere (upkept.upTo seat heard) box
  case seen =>
    intro loop member waiting serves
    have wasServed := served loop member serves
    obtain ⟨present, wasThere⟩ :=
      sound.group?_of_serves (mem_readersOf_of_loop was member) wasServed
    obtain ⟨current, isThere⟩ :=
      afterSound.group?_of_serves (mem_readersOf_of_loop is member) serves
    exact Nat.le_trans (upkept.seen loop member waiting wasServed) (position_le wasThere isThere)
  case capacity => exact upkept.capacity
  case mirrors =>
    intro place box found resource
    have mirrors := upkept.mirrors found resource
    rw [← box?_eq was] at found
    rw [write_of_some found, nothing]
    simpa only [DeliveryLog.add, Feed.takenAll, List.append_nil] using mirrors

/-- What one step does to the seats of the broker at which it happens. -/
theorem Faithful.touched (faithful : before.Faithful logs) (sound : before.Sound)
    (afterSound : after.Sound) (isBroker : before.brokers[index]? = some broker)
    {next : JournaledBroker} (goes : before.GoesOn index broker after next)
    {claim later : Option Claim} {rest : List (Nat × Claim)} {feeds : List (Nat × Feed)}
    (effect : Effect ⟨before.journal, broker, claim⟩ feeds ⟨after.journal, next, later⟩)
    (claims : before.claims.Perm (claim.toList.map (index, ·) ++ rest)) :
    next.Faithful after.journal fun resource place =>
      write before after (feeds.map (index, ·)) ⟨index, resource, place⟩
        (logs ⟨index, resource, place⟩) := by
  have footprint := sound.footprint isBroker claims
  have upkept := faithful index broker isBroker
  have isNext := goes.isLater
  constructor
  case upTo =>
    intro resource id place seat hears
    rw [effect.identity]
    rcases effect.seat_source seat with old | ⟨rfl, _⟩
    · have born := ((sound.seated isBroker).seatOld old).2
      obtain ⟨box, found⟩ := Mailroom.exists_get?_of_lt born
      have heard := goes.hears sound afterSound isBroker seat born hears
      obtain ⟨present, wasThere⟩ := sound.group?_of_hears isBroker heard
      obtain ⟨current, isThere⟩ := afterSound.group?_of_hears isNext hears
      rw [effect.identity] at isThere
      rw [← box?_eq isBroker] at found
      rw [write_of_some found, toldTo_own]
      exact effect.upTo footprint old wasThere isThere (upkept.upTo old heard) box
    · -- A new seat: its log is opened at the position that its group has after the step.
      have unborn := Mailroom.get?_eq_none_of_le (Nat.le_refl broker.room.nextPlace)
      rw [← box?_eq isBroker] at unborn
      rw [write_of_none unborn, progressOf_eq isNext, effect.identity]
      exact .ofOpened after.journal broker.identity resource
  case seen =>
    intro loop member waiting serves
    have isReader := mem_readersOf_of_loop isNext member
    obtain ⟨current, isThere⟩ := afterSound.group?_of_serves isReader serves
    rcases effect.waiting_source footprint.entryLoops member waiting with
      ⟨earlier, isEarlier, _, waited, same⟩ | ⟨earlier, isEarlier, _, seen, journal, same⟩
    · rw [same] at serves isThere ⊢
      have wasServed := goes.outlasts.serves rfl (sound.epoch_le isBroker isEarlier) serves
      obtain ⟨present, wasThere⟩ :=
        sound.group?_of_serves (mem_readersOf_of_loop isBroker isEarlier) wasServed
      exact Nat.le_trans (upkept.seen earlier isEarlier waited wasServed)
        (effect.position_le wasThere isThere)
    · -- The loop has found nothing to read, so its group is at the end of the topic that it saw.
      obtain ⟨length, reached⟩ := Journal.length_le_of_peek seen
      have membership := before.journal.membership_look earlier.reader
      simp only [Reader.membership, Prod.mk.injEq] at membership
      have unchanged : after.journal = before.journal := journal
      rw [same, membership.1, membership.2.2.1, length, unchanged]
      exact reached
  case capacity =>
    intro place box found
    rw [effect.identity]
    cases isBox : broker.room.get? place with
    | some earlier =>
      obtain ⟨last, isLast, same⟩ := effect.mail footprint.seated isBox
      obtain rfl := Option.some.inj (isLast.symm.trans found)
      rw [same.capacity, Feed.capacity_changeAll]
      exact upkept.capacity isBox
    | none =>
      have unborn : broker.room.nextPlace ≤ place := List.getElem?_eq_none_iff.1 isBox
      rw [effect.newMail unborn found]
      rfl
  case mirrors =>
    intro place box found resource
    cases isBox : broker.room.get? place with
    | some earlier =>
      have mirrors := upkept.mirrors isBox resource
      have kept := (effect.mirrors footprint.seated isBox found mirrors).2
      rw [← box?_eq isBroker] at isBox
      rw [write_of_some isBox, toldTo_own]
      exact kept
    | none =>
      have unborn : broker.room.nextPlace ≤ place := List.getElem?_eq_none_iff.1 isBox
      rw [effect.newMail unborn found]
      rw [← box?_eq isBroker] at isBox
      rw [write_of_none isBox]
      exact Fifo.mirrors_fresh _

/-- Where the journal only grows and nothing is told, everything is untouched. -/
theorem Faithful.grows (faithful : before.Faithful logs) (sound : before.Sound)
    (afterSound : after.Sound) (growth : before.journal.Grows after.journal)
    (was : before.brokers[index]? = some broker) (is : after.brokers[index]? = some broker) :
    broker.Faithful after.journal fun resource place =>
      write before after [] ⟨index, resource, place⟩ (logs ⟨index, resource, place⟩) := by
  refine faithful.untouched sound afterSound growth.outlasts was is (fun _ => rfl) ?_ ?_
  · intro resource log present current wasThere isThere upTo box
    obtain ⟨position, records⟩ := growth.steady.position_eq wasThere isThere
    exact upTo.stay position records (Journal.position_le_of_counts sound.counts _ _) rfl box
  · intro name group present current wasThere isThere
    exact Nat.le_of_eq (growth.steady.position_eq wasThere isThere).1.symm

/-- Where a topic is removed, the groups that are left are as they were. -/
theorem Faithful.removed (faithful : before.Faithful logs) (sound : before.Sound)
    (afterSound : after.Sound) {name : String}
    (journal : after.journal = before.journal.removeTopic name)
    (was : before.brokers[index]? = some broker) (is : after.brokers[index]? = some broker) :
    broker.Faithful after.journal fun resource place =>
      write before after [] ⟨index, resource, place⟩ (logs ⟨index, resource, place⟩) := by
  have outlasts := journal ▸ before.journal.outlasts_removeTopic name
  have kept : ∀ {query group : String} {current : Group},
      after.journal.group? query group = some current →
        after.journal.topics.get? query = before.journal.topics.get? query := by
    intro query group current isThere
    rw [journal] at isThere ⊢
    exact Journal.get?_removeTopic_of_group isThere
  have position : ∀ {query group : String} {current : Group},
      after.journal.group? query group = some current →
        after.journal.position query group = before.journal.position query group := by
    intro query group current isThere
    rw [Journal.position, Journal.position, Journal.group?, Journal.group?, kept isThere]
  refine faithful.untouched sound afterSound outlasts was is (fun _ => rfl) ?_ ?_
  · intro resource log present current wasThere isThere upTo box
    refine upTo.stay (position isThere) ⟨[], ?_⟩
      (Journal.position_le_of_counts sound.counts _ _) rfl box
    rw [Journal.records, Journal.records, kept isThere, List.append_nil]
  · intro query group present current wasThere isThere
    exact Nat.le_of_eq (position isThere).symm

/-- Every step keeps the logs in agreement. -/
theorem Faithful.step {action : Action} (faithful : before.Faithful logs) (sound : before.Sound)
    (apart : before.Apart) (step : Step before action after) :
    after.Faithful fun seat => write before after (before.told action) seat (logs seat) := by
  intro query current isCurrent
  have afterSound := step.sound sound
  have goes := fun {broker} (isBroker : before.brokers[query]? = some broker) =>
    step.goes isBroker
  cases step with
  | @happened _ _ index broker next claim later rest feeds isBroker effect told brokers
      claimsBefore claimsAfter =>
    rw [told]
    -- At the broker of the effect logs take up what was told; nobody else was told anything.
    by_cases here : query = index
    · subst here
      obtain ⟨_, goes⟩ := goes isBroker
      obtain rfl := Option.some.inj (goes.isLater.symm.trans isCurrent)
      obtain ⟨inside, _⟩ := List.getElem?_eq_some_iff.1 isBroker
      rw [brokers, List.getElem?_set_self inside] at isCurrent
      obtain rfl := Option.some.inj isCurrent
      exact faithful.touched sound afterSound isBroker goes effect claimsBefore
    · have was : before.brokers[query]? = some current := by
        rw [brokers, List.getElem?_set_ne (Ne.symm here)] at isCurrent
        exact isCurrent
      have footprint := sound.footprint isBroker claimsBefore
      refine faithful.untouched sound afterSound effect.outlasts was isCurrent
        (toldTo_other feeds here) ?_ ?_
      · intro resource log present currently wasThere isThere upTo box
        refine effect.upTo_of_ne footprint wasThere isThere ?_ upTo rfl box
        exact fun loop _ same => here (apart was isBroker same)
      · exact fun wasThere isThere => effect.position_le wasThere isThere
  | started growth brokers =>
    rw [brokers, List.getElem?_append] at isCurrent
    split at isCurrent
    next inside =>
      refine faithful.grows sound afterSound growth isCurrent ?_
      rw [brokers, List.getElem?_append_left inside, isCurrent]
    next =>
      rw [List.mem_singleton.1 (List.mem_of_getElem? isCurrent)]
      exact JournaledBroker.faithful_empty _ _ _
  | grew growth told brokers =>
    rw [told]
    exact faithful.grows sound afterSound growth (brokers ▸ isCurrent) isCurrent
  | removed journal brokers =>
    exact faithful.removed sound afterSound journal (brokers ▸ isCurrent) isCurrent

end Step

/-! ## Runs -/

/-- Brokers keep their names. -/
theorem Apart.earlier {cluster : Cluster} (numbered : cluster.Numbered) {actions : List Action}
    (apart : (cluster.performAll actions).Apart) : cluster.Apart := by
  intro index query broker other isBroker isOther resource another same
  obtain ⟨later, isLater, continues⟩ := continues_performAll numbered actions isBroker
  obtain ⟨otherLater, isOtherLater, otherContinues⟩ :=
    continues_performAll numbered actions isOther
  rw [← continues.identity, ← otherContinues.identity] at same
  exact apart isLater isOtherLater same

/-- In every state of a run the logs of all seats agree with the cluster. -/
theorem faithful_performAll {cluster : Cluster} {logs : Seat → DeliveryLog}
    (faithful : cluster.Faithful logs) (sound : cluster.Sound) (numbered : cluster.Numbered)
    {actions : List Action} (apart : (cluster.performAll actions).Apart) :
    (cluster.performAll actions).Faithful fun seat =>
      logAll seat cluster actions (logs seat) := by
  -- The first action leaves a cluster to which all hypotheses apply again; names never change, so
  -- `Apart` is carried backwards from the last state.
  induction actions generalizing cluster logs with
  | nil => exact faithful
  | cons action actions inductionHypothesis =>
    have wereApart : cluster.Apart := apart.earlier numbered
    exact inductionHypothesis (faithful.step sound wereApart (step_perform numbered action))
      (sound.perform numbered action) (numbered.perform action) apart

/-- A run that lasts keeps all topics. -/
theorem lasting_performAll {cluster : Cluster} {topic : String} (lasting : cluster.Lasting topic)
    (numbered : cluster.Numbered) {actions : List Action}
    (lasts : ∀ action ∈ actions, action.lasts topic) :
    (cluster.performAll actions).Lasting topic := by
  induction actions generalizing cluster with
  | nil => exact lasting
  | cons action actions inductionHypothesis =>
    exact inductionHypothesis (lasting.perform numbered (lasts action List.mem_cons_self))
      (numbered.perform action) fun later member => lasts later (List.mem_cons_of_mem _ member)

end Cluster

end UpdateRelay
