import UpdateRelay.Proofs.Cluster.OneReader
import UpdateRelay.Proofs.Journal.Missed

/-!
# Records that were missed

What steps of loops deliver, with the records that the events come from. While a broker is idle for
a resource, so that it has neither an entry nor a subscribe in progress nor a loop that is still to
end, it misses the records of this resource for good: nobody who subscribes later gets them. The
loop matters: one that was told to stop keeps its consumer group alive until it ends.
-/

namespace UpdateRelay

/-- An event that a loop hands on: to which mailbox of which broker, and out of which record. -/
structure Delivery where
  index : Nat
  place : Nat
  source : RecordId
  event : Event
  deriving DecidableEq, Repr

/-- Whether a broker has nothing to do with a resource. -/
structure JournaledBroker.Idle (broker : JournaledBroker) (claims : List Claim)
    (resource : String) : Prop where
  absent : broker.entries.get? resource = none
  unclaimed : ∀ claim ∈ claims, claim.resource ≠ resource
  ended : ∀ loop ∈ broker.loops, loop.resource ≠ resource

namespace Effect

variable {before after : Footprint} {feeds : List (Nat × Feed)}

/-- Whatever happens, a group does not come back to a record that it has missed. -/
theorem misses (effect : Effect before feeds after) {source : RecordId} {group : String}
    (misses : before.journal.Misses source group) : after.journal.Misses source group := by
  cases effect with
  | grew growth | gaveUp growth => exact misses.grows growth
  | numbered | wasted | joined | withEntry | disbanded | pruned | fed | tidied | entered | waited =>
    exact misses
  | @attached _ _ broker claim _ _ _ growth =>
    refine (misses.grows growth).modifyTopic _ (fun _ => rfl) fun missed => ?_
    exact missed.join (broker.identity.group claim.resource)
  | released | joinedLate | ended | retired => exact misses.leave _
  | shut => exact misses.close
  | passed | handed => exact misses.take _

end Effect

/-- What a loop offers is the event of the record that it is at, and to its own subscribers. -/
theorem Node.mem_pollFeeds {node : Node} {loop : ConsumptionLoop} {place : Nat} {feed : Feed}
    (member : (place, feed) ∈ node.pollFeeds loop) :
    ∃ record event, node.journal.peek loop.reader = .ok (some record) ∧
      eventFor? loop.resource record = some event ∧ feed = .offer event ∧
      ∃ id, node.broker.seat? loop.resource id = some place := by
  have reading : (place, feed) ∈ node.readFeeds loop := by
    unfold pollFeeds at member
    split at member
    next => contradiction
    next => contradiction
    next =>
      split at member
      next => contradiction
      next =>
        split at member
        next => contradiction
        next => exact member
    next =>
      split at member
      next => contradiction
      next =>
        split at member
        next => exact member
        next => contradiction
  unfold readFeeds at reading
  split at reading
  next record seen =>
    split at reading
    next event telling =>
      split at reading
      next entry isEntry =>
        obtain ⟨other, onRoster, same⟩ := List.mem_map.1 reading
        obtain ⟨rfl, rfl⟩ := Prod.mk.inj same
        obtain ⟨id, seat⟩ := Roster.mem_places_iff.1 onRoster
        have found := (JournaledBroker.entryAt?_eq_some_iff.1 isEntry).1
        rw [← JournaledBroker.seat?_of_get? found] at seat
        exact ⟨record, event, seen, telling, rfl, id, seat⟩
      next => contradiction
    next => contradiction
  next => contradiction

namespace Cluster

/-! ## Deliveries -/

/-- The record that a loop is at. -/
def sourceOf (cluster : Cluster) (loop : ConsumptionLoop) : RecordId :=
  ⟨loop.reader.topic, loop.reader.epoch,
    cluster.journal.position loop.reader.topic loop.reader.group⟩

/-- What an action delivers. -/
def deliveries (cluster : Cluster) : Action → List Delivery
  | .stepLoop index generation =>
      match cluster.node? index with
      | none => []
      | some node =>
          match node.broker.loop? generation with
          | none => []
          | some loop =>
              (node.pollFeeds loop).filterMap fun feed =>
                feed.2.event?.map (⟨index, feed.1, cluster.sourceOf loop, ·⟩)
  | _ => []

/-- Deliveries are all the offers that are made. -/
theorem told_offer_iff {cluster : Cluster} {action : Action} {index place : Nat} {event : Event} :
    (index, place, Feed.offer event) ∈ cluster.told action ↔
      ∃ source, ⟨index, place, source, event⟩ ∈ cluster.deliveries action := by
  have own : ∀ (query box : Nat) (feed : Feed), feed.event? = none →
      (index, place, Feed.offer event) ∉ cluster.toldAt query box feed := by
    intro query box feed silent member
    unfold toldAt at member
    split at member
    next =>
      split at member
      next =>
        obtain ⟨_, _, rfl⟩ := List.mem_singleton.1 member
        contradiction
      next => contradiction
    next => contradiction
  cases action with
  | receive broker box => simp [told, deliveries, own broker box .receive rfl]
  | drain broker box => simp [told, deliveries, own broker box .drain rfl]
  | abandon broker box => simp [told, deliveries, own broker box .abandon rfl]
  | stepLoop broker generation =>
    cases isNode : cluster.node? broker with
    | none => simp [told, deliveries, isNode]
    | some node =>
      cases found : node.broker.loop? generation with
      | none => simp [told, deliveries, isNode, found]
      | some loop =>
        simp only [told, deliveries, isNode, found, List.mem_map, List.mem_filterMap,
          Option.map_eq_some_iff, Prod.mk.injEq, Delivery.mk.injEq]
        constructor
        · rintro ⟨⟨_, _⟩, member, rfl, rfl, rfl⟩
          exact ⟨_, _, member, event, rfl, rfl, rfl, rfl, rfl⟩
        · rintro ⟨source, ⟨_, feed⟩, member, _, offered, rfl, rfl, rfl, rfl⟩
          cases feed with
          | offer =>
            obtain rfl := Option.some.inj offered
            exact ⟨_, member, rfl, rfl⟩
          | receive | drain | abandon => contradiction
  | _ => simp [told, deliveries]

/-- Where a delivery comes from: a loop of the broker is at a record that tells the event to the
subscribers of its resource, one of whom has the mailbox. -/
theorem source_of_delivery {cluster : Cluster} {action : Action} {delivery : Delivery}
    (member : delivery ∈ cluster.deliveries action) :
    ∃ broker loop record, cluster.brokers[delivery.index]? = some broker ∧ loop ∈ broker.loops ∧
      cluster.journal.peek loop.reader = .ok (some record) ∧
      Node.eventFor? loop.resource record = some delivery.event ∧
      (∃ id, broker.seat? loop.resource id = some delivery.place) ∧
      delivery.source = cluster.sourceOf loop := by
  cases action with
  | stepLoop index generation =>
    simp only [deliveries] at member
    split at member
    next => contradiction
    next node isNode =>
      split at member
      next => contradiction
      next loop found =>
        obtain ⟨⟨place, feed⟩, offered, isDelivery⟩ := List.mem_filterMap.1 member
        obtain ⟨event, telling, rfl⟩ := Option.map_eq_some_iff.1 isDelivery
        obtain ⟨isBroker, journal⟩ := node?_eq_some isNode
        obtain ⟨record, told, seen, heard, rfl, seat⟩ := Node.mem_pollFeeds offered
        obtain rfl := Option.some.inj telling
        exact ⟨node.broker, loop, record, isBroker, mem_of_loop? found, journal ▸ seen, heard, seat,
          rfl⟩
  | _ => contradiction

/-! ## Runs -/

section Misses

variable {source : RecordId} {group : String}

theorem Step.misses {before after : Cluster} {action : Action} (step : Step before action after)
    (misses : before.journal.Misses source group) : after.journal.Misses source group := by
  cases step with
  | happened _ effect => exact effect.misses misses
  | started growth | grew growth => exact misses.grows growth
  | removed journal =>
    rw [journal]
    exact misses.removeTopic _

theorem misses_performAll {cluster : Cluster} (numbered : cluster.Numbered)
    (misses : cluster.journal.Misses source group) (actions : List Action) :
    (cluster.performAll actions).journal.Misses source group :=
  keeps_performAll (fun numbered misses action => (step_perform numbered action).misses misses)
    numbered misses actions

/-- What has been missed is delivered to nobody who reads in the group. -/
theorem source_ne_of_misses {cluster : Cluster} (sound : cluster.Sound) {broker : JournaledBroker}
    {resource : String} (misses : cluster.journal.Misses source (broker.identity.group resource))
    {action : Action} {delivery : Delivery} (member : delivery ∈ cluster.deliveries action)
    (isBroker : cluster.brokers[delivery.index]? = some broker) {id : SubscriberId}
    (seat : broker.seat? resource id = some delivery.place) : delivery.source ≠ source := by
  obtain ⟨other, loop, record, isOther, isLoop, seen, _, ⟨taker, taken⟩, isSource⟩ :=
    source_of_delivery member
  obtain rfl := Option.some.inj (isBroker.symm.trans isOther)
  -- A mailbox belongs to one subscriber, so the loop is one of the resource.
  obtain ⟨rfl, _⟩ := (sound.seated isBroker).onePlace taken seat
  intro same
  subst same
  rw [isSource] at misses
  have passed := misses.lt_position seen rfl rfl (sound.loopReads isBroker loop isLoop).2
  exact Nat.lt_irrefl _ passed

end Misses

/-- Who is idle for a resource reads nothing in its group. -/
theorem group_ne_of_idle {cluster : Cluster} (sound : cluster.Sound) {broker : JournaledBroker}
    (alone : cluster.brokers = [broker]) {resource : String}
    (idle : broker.Idle (claimsAt cluster.claims 0) resource) :
    ∀ reader ∈ readersOf cluster.brokers cluster.claims,
      reader.group ≠ broker.identity.group resource := by
  have isBroker : cluster.brokers[0]? = some broker := by rw [alone]; rfl
  intro reader member same
  rcases List.mem_append.1 member with looping | claimed
  · rw [alone, List.flatMap_singleton] at looping
    obtain ⟨loop, isLoop, rfl⟩ := List.mem_map.1 looping
    have reads := (sound.loopReads isBroker loop isLoop).2
    exact idle.ended loop isLoop (broker.identity.group_injective (reads.symm.trans same))
  · obtain ⟨⟨index, claim⟩, isClaim, held⟩ := List.mem_filterMap.1 claimed
    have inside := sound.settled _ isClaim
    rw [alone] at inside
    obtain rfl : index = 0 := by simpa using inside
    have here : claim ∈ claimsAt cluster.claims 0 :=
      List.mem_filterMap.2 ⟨_, isClaim, if_pos rfl⟩
    have reads := (sound.claimReads isBroker claim here reader held).2
    exact idle.unclaimed claim here (broker.identity.group_injective (reads.symm.trans same))

/-- In every run of a broker, in any order of the steps of its calls and loops: what the journal
holds while the broker is idle for a resource, records that came in meanwhile among it, is never
delivered to a subscriber of this resource later on. -/
theorem missed_records_stay_missed (createsOnDemand : Bool) (earlier later : List Action)
    {broker now : JournaledBroker} {resource : String} {source : RecordId}
    (alone : (reached createsOnDemand earlier).brokers = [broker])
    (idle : broker.Idle (claimsAt (reached createsOnDemand earlier).claims 0) resource)
    (holds : (reached createsOnDemand earlier).journal.Holds source)
    (isNow : (reached createsOnDemand (earlier ++ later)).brokers[0]? = some now) (action : Action)
    {id : SubscriberId} {place : Nat} (seat : now.seat? resource id = some place) :
    ∀ delivery ∈ (reached createsOnDemand (earlier ++ later)).deliveries action,
      delivery.index = 0 → delivery.place = place → delivery.source ≠ source := by
  have sound := sound_reached createsOnDemand earlier
  have numbered := numbered_reached createsOnDemand earlier
  have missed : (reached createsOnDemand earlier).journal.Misses source
      (broker.identity.group resource) :=
    .ofNobody sound.counts holds fun reader member _ =>
      group_ne_of_idle sound alone idle reader member
  have stillMissed := misses_performAll numbered missed later
  rw [← reached_append] at stillMissed
  have wasBroker : (reached createsOnDemand earlier).brokers[0]? = some broker := by
    rw [alone]; rfl
  -- The broker keeps its identity, and so its groups.
  obtain ⟨next, isNext, continues⟩ := continues_performAll numbered later wasBroker
  rw [← reached_append] at isNext
  obtain rfl := Option.some.inj (isNow.symm.trans isNext)
  rw [← continues.identity] at stillMissed
  rintro ⟨_, _, _, _⟩ member rfl rfl
  exact source_ne_of_misses (sound_reached createsOnDemand (earlier ++ later)) stillMissed member
    isNow seat

/-- A subscriber leaves and comes back. Meanwhile there is one record; the loop of the first
subscription has ended before it. -/
def absence : List Action :=
  [.start ⟨"updates", "relay", "one", 4⟩, .subscribe 0 .unlimited "door", .stepCall 0, .stepCall 0,
    .unsubscribe 0 "door" ⟨1⟩, .stepLoop 0 1,
    .publish 0 .unlimited "door" ⟨"door", 1, "opened"⟩, .stepCall 1]

/-- The subscriber comes back, and there is one more record. -/
def laterSubscribe : List Action :=
  [.subscribe 0 .unlimited "door", .stepCall 2, .stepCall 2,
    .publish 0 .unlimited "door" ⟨"door", 2, "closed"⟩, .stepCall 3]

/-- The subscriber gets the second record and not the first. -/
theorem absence_is_missed :
    (reached true absence).journal.Holds ⟨"updates", 1, 0⟩ ∧
      (∀ delivery ∈ (reached true (absence ++ laterSubscribe)).deliveries (.stepLoop 0 2),
        delivery.index = 0 → delivery.place = 1 → delivery.source ≠ ⟨"updates", 1, 0⟩) ∧
      (reached true (absence ++ laterSubscribe)).deliveries (.stepLoop 0 2) =
        [⟨0, 1, ⟨"updates", 1, 1⟩, ⟨"door", 2, "closed"⟩⟩] := by
  have holds : (reached true absence).journal.Holds ⟨"updates", 1, 0⟩ := ⟨_, rfl, by decide⟩
  have idle : ∃ broker, (reached true absence).brokers = [broker] ∧
      broker.Idle (claimsAt (reached true absence).claims 0) "door" :=
    ⟨_, rfl, rfl, by decide, by decide⟩
  have back : ∃ broker, (reached true (absence ++ laterSubscribe)).brokers[0]? = some broker ∧
      broker.seat? "door" ⟨2⟩ = some 1 := ⟨_, rfl, rfl⟩
  obtain ⟨broker, alone, isIdle⟩ := idle
  obtain ⟨now, isNow, seat⟩ := back
  exact ⟨holds, missed_records_stay_missed true absence laterSubscribe alone isIdle holds isNow
    (.stepLoop 0 2) seat, by decide⟩

/-- As `absence`, but the loop that was told to stop has not got round to it. -/
def hastyAbsence : List Action :=
  [.start ⟨"updates", "relay", "one", 4⟩, .subscribe 0 .unlimited "door", .stepCall 0, .stepCall 0,
    .unsubscribe 0 "door" ⟨1⟩, .publish 0 .unlimited "door" ⟨"door", 1, "opened"⟩]

/-- While the record comes in there is no entry and no subscribe in progress, yet it is delivered to
the next subscriber: the old loop has kept the consumer group and its position alive. -/
theorem replay_by_lingering_loop :
    (∃ broker, (reached true hastyAbsence).brokers = [broker] ∧
        broker.entries.get? "door" = none ∧ claimsAt (reached true hastyAbsence).claims 0 = []) ∧
      (∃ broker, (reached true (hastyAbsence ++ [.stepCall 1])).brokers = [broker] ∧
        broker.entries.get? "door" = none ∧
        claimsAt (reached true (hastyAbsence ++ [.stepCall 1])).claims 0 = []) ∧
      ¬(reached true hastyAbsence).journal.Holds ⟨"updates", 1, 0⟩ ∧
      (reached true (hastyAbsence ++ [.stepCall 1])).journal.Holds ⟨"updates", 1, 0⟩ ∧
      (∃ broker,
        (reached true (hastyAbsence ++ [.stepCall 1] ++ laterSubscribe)).brokers[0]? = some broker ∧
          broker.seat? "door" ⟨2⟩ = some 1) ∧
      (reached true (hastyAbsence ++ [.stepCall 1] ++ laterSubscribe)).deliveries (.stepLoop 0 2) =
        [⟨0, 1, ⟨"updates", 1, 0⟩, ⟨"door", 1, "opened"⟩⟩] := by
  refine ⟨⟨_, rfl, rfl, rfl⟩, ⟨_, rfl, rfl, rfl⟩, ?_, ⟨_, rfl, by decide⟩, ⟨_, rfl, rfl⟩,
    by decide⟩
  rintro ⟨topic, live, inside⟩
  have isTopic : (reached true hastyAbsence).journal.liveTopic? "updates" 1 =
      some ⟨1, [], _⟩ := rfl
  obtain rfl := Option.some.inj (live.symm.trans isTopic)
  exact Nat.not_lt_zero _ inside

end Cluster

end UpdateRelay
