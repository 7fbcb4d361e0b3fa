import UpdateRelay.Proofs.Cluster.Granting
import UpdateRelay.Proofs.Cluster.Sending
import UpdateRelay.Proofs.Delivery.Exact

/-!
# After the end of a topic

When a topic is removed, all loops that read it are cut off from it for good, even if another is
made under its name: `JournaledBroker.CutOff` is what a run keeps from then on. Their subscribers
are offered nothing more (`DeliveryLog.RunsOut`), and once all loops wait they have lost their seats
and their sending ends. Whoever has a seat then is read for from the topic that there is.
-/

namespace UpdateRelay

/-! ## Mailboxes that are offered nothing -/

/-- What a log and a mailbox become while nothing is offered: the receiver gets what was queued,
and loses some of it only by giving up. -/
structure DeliveryLog.RunsOut (was : DeliveryLog) (box : Mailbox) (is : DeliveryLog)
    (now : Mailbox) : Prop where
  opened : is.opened = was.opened
  offered : is.offered = was.offered
  receiver : now.hasReceiver = true → box.hasReceiver = true
  got : (is.received ++ now.queue) <+: (was.received ++ box.queue)
  held : now.hasReceiver = true → is.received ++ now.queue = was.received ++ box.queue

namespace DeliveryLog.RunsOut

variable {was is : DeliveryLog} {box now : Mailbox}

theorem refl (log : DeliveryLog) (box : Mailbox) : log.RunsOut box log box :=
  ⟨rfl, rfl, id, List.prefix_rfl, fun _ => rfl⟩

theorem trans {last : DeliveryLog} {later : Mailbox} (first : was.RunsOut box is now)
    (second : is.RunsOut now last later) : was.RunsOut box last later where
  opened := second.opened.trans first.opened
  offered := second.offered.trans first.offered
  receiver := fun isHeld => first.receiver (second.receiver isHeld)
  got := second.got.trans first.got
  held := fun isHeld => (second.held isHeld).trans (first.held (second.receiver isHeld))

/-- Feeds that offer nothing. -/
theorem add (log : DeliveryLog) {feeds : List Feed} (silent : feeds.filterMap Feed.event? = [])
    (same : Effect.SameToReceiver (Feed.changeAll feeds box) now) :
    log.RunsOut box (log.add box feeds) now := by
  obtain ⟨got, held⟩ := Feed.takenAll_of_silent silent box
  refine ⟨rfl, ?_, ?_, ?_, ?_⟩
  · rw [offered_add, silent, List.append_nil]
  · rw [same.hasReceiver]
    exact fun isHeld => (held isHeld).1
  · rw [same.queue, DeliveryLog.add, List.append_assoc]
    exact (List.prefix_append_right_inj _).2 got
  · rw [same.queue, same.hasReceiver, DeliveryLog.add, List.append_assoc]
    exact fun isHeld => congrArg _ (held isHeld).2

end DeliveryLog.RunsOut

/-! ## Seats that are cut off -/

/-- Whether whoever has the seat of a place can be told of nothing more, as the topic of its loop is
gone. -/
def JournaledBroker.CutOff (broker : JournaledBroker) (journal : Journal) (place : Nat) : Prop :=
  ∀ (resource : String) (id : SubscriberId), broker.seat? resource id = some place →
    ¬broker.Hears journal resource

/-- Nothing is offered to a seat that is cut off. -/
theorem Effect.silent_of_cutOff {before after : Footprint} {feeds : List (Nat × Feed)}
    (effect : Effect before feeds after) {place : Nat}
    (cutOff : before.broker.CutOff before.journal place) :
    (feedsAt feeds place).filterMap Feed.event? = [] := by
  rcases effect.silent_or_reads with ⟨_, silent⟩ | ⟨loop, record, reads⟩
  · exact feedsAt_silent silent place
  · -- A loop that reads a record has its topic, so its subscribers are not cut off.
    obtain ⟨_, _, isLive, _⟩ := Journal.peek_eq_ok reads.seen
    have hears : before.broker.Hears before.journal loop.resource :=
      ⟨loop, reads.member, rfl, reads.live, Option.isSome_of_eq_some isLive⟩
    rw [feedsAt_eq_nil fun feed fed same => ?_, List.filterMap_nil]
    obtain ⟨id, seat⟩ := reads.seat_of_fed fed
    exact cutOff loop.resource id (same ▸ seat) hears

namespace Cluster

section CutOff

variable {before after : Cluster} {index place : Nat} {broker later : JournaledBroker}
  {box : Mailbox} {resource : String}

/-- A seat that is cut off stays so. -/
theorem GoesOn.cutOff (goes : before.GoesOn index broker after later) (sound : before.Sound)
    (afterSound : after.Sound) (isBroker : before.brokers[index]? = some broker)
    (old : place < broker.room.nextPlace) (cutOff : broker.CutOff before.journal place) :
    later.CutOff after.journal place := by
  intro resource id seat hears
  rcases goes.continues.seat seat with kept | ⟨new, _⟩
  · exact cutOff resource id kept (goes.hears sound afterSound isBroker seat old hears)
  · exact Nat.not_lt_of_le new old

/-- When the topic of a broker is removed, all its seats are cut off. -/
theorem Sound.cutOff_removeTopic (sound : before.Sound)
    (isBroker : before.brokers[index]? = some broker) (place : Nat) :
    broker.CutOff (before.journal.removeTopic broker.identity.topic) place := by
  rintro resource id _ ⟨loop, member, rfl, _, serves⟩
  have gone : (before.journal.removeTopic broker.identity.topic).liveTopic? loop.reader.topic
      loop.reader.epoch = none := by
    rw [(sound.loopReads isBroker loop member).1, Journal.liveTopic?, Journal.removeTopic,
      Table.get?_erase, if_pos rfl, Option.filter_none]
  rw [Journal.Serves, gone] at serves
  contradiction

/-- Where all loops wait, nobody has a seat that is cut off. -/
theorem Sound.unseated_of_cutOff (sound : before.Sound) (calm : before.Calm)
    (isBroker : before.brokers[index]? = some broker) (cutOff : broker.CutOff before.journal place)
    (resource : String) (id : SubscriberId) : broker.seat? resource id ≠ some place := fun seat =>
  cutOff resource id seat (sound.hears_of_calm calm isBroker seat)

/-- What becomes of a mailbox in a step that offers it nothing. -/
theorem Step.runsOut {action : Action} (step : Step before action after) (sound : before.Sound)
    (isBroker : before.brokers[index]? = some broker) (found : broker.room.get? place = some box)
    (isLater : after.brokers[index]? = some later)
    (silent : (toldTo (before.told action) index place).filterMap Feed.event? = [])
    (log : DeliveryLog) :
    ∃ now, later.room.get? place = some now ∧
      log.RunsOut box
        (write before after (before.told action) ⟨index, resource, place⟩ log) now := by
  have isBox : before.box? index place = some box := (box?_eq isBroker place).trans found
  rw [write_of_some isBox]
  -- A broker at which nothing happens is the same as before.
  have untouched : after.brokers[index]? = before.brokers[index]? →
      toldTo (before.told action) index place = [] →
      ∃ now, later.room.get? place = some now ∧
        log.RunsOut box (log.add box (toldTo (before.told action) index place)) now := by
    intro same nothing
    rw [same, isBroker] at isLater
    obtain rfl := Option.some.inj isLater
    rw [nothing]
    exact ⟨box, found, .add log rfl ⟨rfl, rfl, rfl⟩⟩
  have inside := (List.getElem?_eq_some_iff.1 isBroker).1
  cases step with
  | @happened _ _ there current next _ _ _ feeds isCurrent effect told brokers claimsBefore =>
    by_cases here : there = index
    · subst here
      obtain rfl := Option.some.inj (isBroker.symm.trans isCurrent)
      rw [brokers, List.getElem?_set_self inside] at isLater
      obtain rfl := Option.some.inj isLater
      rw [told, toldTo_own] at silent ⊢
      obtain ⟨now, isNow, same⟩ := effect.mail (sound.footprint isBroker claimsBefore).seated found
      exact ⟨now, isNow, .add log silent same⟩
    · refine untouched (by rw [brokers, List.getElem?_set_ne here]) ?_
      rw [told, toldTo_other feeds (Ne.symm here)]
  | started _ brokers =>
    exact untouched (by rw [brokers, List.getElem?_append_left inside]) rfl
  | grew _ told brokers => exact untouched (by rw [brokers]) (by rw [told]; rfl)
  | removed _ brokers => exact untouched (by rw [brokers]) rfl

/-- A step offers nothing to a seat that is cut off. -/
theorem Step.silent_of_cutOff {action : Action} (step : Step before action after)
    (isBroker : before.brokers[index]? = some broker)
    (cutOff : broker.CutOff before.journal place) :
    (toldTo (before.told action) index place).filterMap Feed.event? = [] := by
  cases step with
  | @happened _ _ there current _ _ _ _ feeds isCurrent effect told =>
    rw [told]
    by_cases here : there = index
    · subst here
      obtain rfl := Option.some.inj (isBroker.symm.trans isCurrent)
      rw [toldTo_own]
      exact effect.silent_of_cutOff cutOff
    · rw [toldTo_other feeds (Ne.symm here)]
      rfl
  | started | removed => rfl
  | grew _ told =>
    rw [told]
    rfl

/-- In a run, a seat that is cut off stays so, and is offered nothing. -/
theorem runsOut_performAll (sound : before.Sound) (numbered : before.Numbered)
    (isBroker : before.brokers[index]? = some broker) (found : broker.room.get? place = some box)
    (cutOff : broker.CutOff before.journal place) (actions : List Action) (log : DeliveryLog) :
    ∃ later now, (before.performAll actions).brokers[index]? = some later ∧
      later.CutOff (before.performAll actions).journal place ∧
      later.room.get? place = some now ∧
      log.RunsOut box (logAll ⟨index, resource, place⟩ before actions log) now := by
  induction actions generalizing before broker box log with
  | nil => exact ⟨broker, box, isBroker, cutOff, found, .refl log box⟩
  | cons action actions inductionHypothesis =>
    have step := step_perform numbered action
    have afterSound := sound.perform numbered action
    obtain ⟨middle, goes⟩ := step.goes isBroker
    obtain ⟨between, isBetween, first⟩ := step.runsOut sound isBroker found goes.isLater
      (step.silent_of_cutOff isBroker cutOff) log
    have stillCutOff := goes.cutOff sound afterSound isBroker
      (Mailroom.lt_of_get?_eq_some found) cutOff
    obtain ⟨later, now, isLater, isCutOff, isNow, second⟩ :=
      inductionHypothesis afterSound (numbered.perform action) goes.isLater isBetween stillCutOff
        (write before (before.perform action) (before.told action) ⟨index, resource, place⟩ log)
    exact ⟨later, now, isLater, isCutOff, isNow, first.trans second⟩

end CutOff

end Cluster

/-! ## Who is let go -/

/-- Whether somebody who had a seat was let go: no resource has the subscriber any more, and the
mailbox has lost its sending end and was offered nothing meanwhile. -/
structure JournaledBroker.LetGo (was is : JournaledBroker) (id : SubscriberId) (place : Nat)
    (before after : DeliveryLog) : Prop where
  unseated : ∀ resource, is.seat? resource id = none
  ending : ∃ box now, was.room.get? place = some box ∧ is.room.get? place = some now ∧
    now.hasSender = false ∧ before.RunsOut box after now

namespace Cluster

/-- Whoever had a seat when the topic of the broker was removed has been let go once all loops
wait. -/
theorem letGo_of_removeTopic {cluster : Cluster} (sound : cluster.Sound)
    (numbered : cluster.Numbered) {index : Nat} {broker after : JournaledBroker}
    (isBroker : cluster.brokers[index]? = some broker) {resource : String} {id : SubscriberId}
    {place : Nat} (seat : broker.seat? resource id = some place) (rest : List Action)
    (isAfter : (cluster.performAll
      (.removeTopic broker.identity.topic :: rest)).brokers[index]? = some after)
    (calm : (cluster.performAll (.removeTopic broker.identity.topic :: rest)).Calm)
    (connected : after.Connected) (log : DeliveryLog) :
    broker.LetGo after id place log (logAll ⟨index, resource, place⟩ cluster
      (.removeTopic broker.identity.topic :: rest) log) := by
  have afterSound := sound_performAll sound numbered
    (.removeTopic broker.identity.topic :: rest)
  obtain ⟨box, found⟩ := Mailroom.exists_get?_of_lt ((sound.seated isBroker).seatOld seat).2
  -- The removal tells nobody anything, and after it the seat is cut off.
  let action : Action := .removeTopic broker.identity.topic
  have isRemoved : (cluster.perform action).brokers[index]? = some broker := isBroker
  obtain ⟨between, isBetween, first⟩ := (step_perform numbered action).runsOut sound isBroker found
    isRemoved rfl log
  have cutOff : broker.CutOff (cluster.perform action).journal place :=
    sound.cutOff_removeTopic isBroker place
  obtain ⟨later, now, isLater, isCutOff, isNow, second⟩ := runsOut_performAll
    (sound.perform numbered action) (numbered.perform action) isRemoved isBetween cutOff rest
    (write cluster (cluster.perform action) (cluster.told action) ⟨index, resource, place⟩ log)
  obtain rfl := Option.some.inj (isAfter.symm.trans isLater)
  have nobody := afterSound.unseated_of_cutOff calm isAfter isCutOff
  refine ⟨fun there => ?_, box, now, found, isNow, ?_, first.trans second⟩
  · obtain ⟨later, goes⟩ := goes_performAll numbered (action :: rest) isBroker
    obtain rfl := Option.some.inj (isAfter.symm.trans goes.isLater)
    have reused := JournaledBroker.nothingReused (sound.entryLoops isBroker) (sound.seated isBroker)
      goes.continues
    refine Option.eq_none_iff_forall_ne_some.2 fun other still => ?_
    obtain ⟨rfl, rfl⟩ := reused.idOwner seat still
    exact nobody _ id still
  · refine Bool.eq_false_iff.2 fun sends => ?_
    obtain ⟨there, other, still⟩ := connected place ⟨now, isNow, sends⟩
    exact nobody there other still

/-! ## Who is read for -/

end Cluster

/-- Whether a resource is read for from the topic that there is now under the name of the broker's
topic. -/
def JournaledBroker.ReadsCurrent (broker : JournaledBroker) (journal : Journal)
    (resource : String) : Prop :=
  ∃ entry loop topic, broker.entries.get? resource = some entry ∧ loop ∈ broker.loops ∧
    loop.resource = resource ∧ loop.generation = entry.generation ∧ loop.cancelled = false ∧
    loop.reader.topic = broker.identity.topic ∧
    journal.topics.get? broker.identity.topic = some topic ∧ loop.reader.epoch = topic.epoch

namespace Cluster

theorem Sound.readsCurrent_of_calm {cluster : Cluster} (sound : cluster.Sound)
    (calm : cluster.Calm) {index : Nat} {broker : JournaledBroker}
    (isBroker : cluster.brokers[index]? = some broker) {resource : String} {id : SubscriberId}
    {place : Nat} (seat : broker.seat? resource id = some place) :
    broker.ReadsCurrent cluster.journal resource := by
  obtain ⟨entry, loop, topic, found, member, same, generation, live, _, reads, isLive, _⟩ :=
    sound.loop_of_calm calm isBroker seat
  obtain ⟨isTopic, epoch⟩ := Journal.liveTopic?_eq_some_iff.1 isLive
  exact ⟨entry, loop, topic, found, member, same, generation, live, reads.1, reads.1 ▸ isTopic,
    epoch.symm⟩

theorem logAll_append (seat : Seat) (cluster : Cluster) (earlier later : List Action)
    (log : DeliveryLog) : logAll seat cluster (earlier ++ later) log =
      logAll seat (cluster.performAll earlier) later
        (logAll seat cluster earlier log) := by
  induction earlier generalizing cluster log with
  | nil => rfl
  | cons action earlier inductionHypothesis => exact inductionHypothesis _ _

theorem log_append (createsOnDemand : Bool) (earlier later : List Action) (seat : Seat) :
    log createsOnDemand (earlier ++ later) seat =
      logAll seat (reached createsOnDemand earlier) later
        (log createsOnDemand earlier seat) :=
  logAll_append seat (.empty createsOnDemand) earlier later .blank

section Staying

variable {first last : Cluster} {index : Nat} {broker later : JournaledBroker} {resource : String}
  {id : SubscriberId} {place : Nat}

/-- A log is opened once. -/
theorem opened_logAll (numbered : first.Numbered)
    (isBroker : first.brokers[index]? = some broker) (old : place < broker.room.nextPlace)
    (actions : List Action) (log : DeliveryLog) :
    (logAll ⟨index, resource, place⟩ first actions log).opened = log.opened := by
  induction actions generalizing first broker log with
  | nil => rfl
  | cons action actions inductionHypothesis =>
    obtain ⟨middle, goes⟩ := (step_perform numbered action).goes isBroker
    obtain ⟨box, found⟩ := Mailroom.exists_get?_of_lt old
    rw [← box?_eq isBroker] at found
    have later := inductionHypothesis (numbered.perform action) goes.isLater
      (Nat.lt_of_lt_of_le old goes.continues.nextPlace)
      (write first (first.perform action) (first.told action) ⟨index, resource, place⟩ log)
    rw [write_of_some found] at later
    rw [logAll, write_of_some found]
    exact later

/-- Where all loops wait, the topic of whoever has kept a seat is the one that was there. -/
theorem GoesOn.records_of_calm (goes : first.GoesOn index broker last later) (sound : first.Sound)
    (lastSound : last.Sound) (isBroker : first.brokers[index]? = some broker) (calm : last.Calm)
    (seat : later.seat? resource id = some place) (old : place < broker.room.nextPlace) :
    first.journal.records broker.identity.topic <+:
      last.journal.records broker.identity.topic := by
  obtain ⟨loop, member, _, _, earlier, isEarlier, succeeds⟩ := goes.loop_of_seat
    (sound.entryLoops isBroker) (lastSound.entryLoops goes.isLater) seat old
  have isNode : last.node? index = some ⟨last.now, last.journal, last.link, later⟩ := by
    rw [node?, goes.isLater, Option.map_some]
  obtain ⟨topic, isLive, _⟩ := (calm isNode loop member).topic
  have same := succeeds.reader
  simp only [Reader.membership, Prod.mk.injEq] at same
  rw [same.1, same.2.1, (sound.loopReads isBroker earlier isEarlier).1] at isLive
  obtain ⟨before, wasLive, kept⟩ :=
    goes.outlasts.source (sound.epoch_le isBroker isEarlier) isLive
  rw [Journal.records, Journal.records, (Journal.liveTopic?_eq_some_iff.1 wasLive).1,
    (Journal.liveTopic?_eq_some_iff.1 isLive).1]
  exact kept

/-- And whoever has kept a seat has been offered the events of all that was appended meanwhile. -/
theorem caughtUp_of_calm {createsOnDemand : Bool} {earlier actions : List Action}
    (apart : (reached createsOnDemand (earlier ++ actions)).Apart)
    (calm : (reached createsOnDemand (earlier ++ actions)).Calm)
    (isBroker : (reached createsOnDemand earlier).brokers[index]? = some broker)
    (isLater : (reached createsOnDemand (earlier ++ actions)).brokers[index]? = some later)
    (old : place < broker.room.nextPlace) (seat : later.seat? resource id = some place) :
    ∃ appended,
      (reached createsOnDemand (earlier ++ actions)).journal.records later.identity.topic =
        (reached createsOnDemand earlier).journal.records later.identity.topic ++ appended ∧
      eventsFor resource appended <:+
        (log createsOnDemand (earlier ++ actions) ⟨index, resource, place⟩).offered := by
  have numbered := numbered_reached createsOnDemand earlier
  have sound := sound_reached createsOnDemand earlier
  have lastSound := sound_reached createsOnDemand (earlier ++ actions)
  have faithful := faithful_reached apart
  obtain ⟨_, _, delivered⟩ := faithful.delivered_of_calm lastSound calm isLater seat
  have goes : (reached createsOnDemand earlier).GoesOn index broker
      (reached createsOnDemand (earlier ++ actions)) later := by
    obtain ⟨next, goes⟩ := goes_performAll numbered actions isBroker
    rw [← reached_append] at goes
    obtain rfl := Option.some.inj (isLater.symm.trans goes.isLater)
    exact goes
  obtain ⟨appended, records⟩ :=
    goes.records_of_calm sound lastSound isBroker calm seat old
  rw [← goes.continues.identity] at records
  refine ⟨appended, records.symm, ?_⟩
  -- The log was opened when the first state was reached, at a record that was there by then.
  have opened : (log createsOnDemand (earlier ++ actions) ⟨index, resource, place⟩).opened ≤
      ((reached createsOnDemand earlier).journal.records later.identity.topic).length := by
    have hears := goes.hears sound lastSound isBroker seat old
      (lastSound.hears_of_calm calm isLater seat)
    have kept := (goes.continues.seat seat).resolve_right fun new => Nat.not_lt_of_le new.1 old
    have wereApart : (reached createsOnDemand earlier).Apart :=
      Apart.earlier numbered (reached_append createsOnDemand earlier actions ▸ apart)
    have upTo := (faithful_reached wereApart index broker isBroker).upTo kept hears
    rw [log_append, opened_logAll numbered isBroker old, goes.continues.identity]
    exact Nat.le_trans upTo.opened (Journal.position_le_of_counts sound.counts _ _)
  rw [delivered.offered, ← records, List.drop_append_of_le_length opened, eventsFor, eventsFor,
    List.filterMap_append]
  exact List.suffix_append _ _

end Staying

/-- The groups of a single broker are nobody else's. -/
theorem apart_of_alone {cluster : Cluster} {broker : JournaledBroker}
    (alone : cluster.brokers = [broker]) : cluster.Apart := by
  intro index query first second isFirst isSecond _ _ _
  have inside := (List.getElem?_eq_some_iff.1 isFirst).1
  have otherInside := (List.getElem?_eq_some_iff.1 isSecond).1
  rw [alone, List.length_singleton] at inside otherInside
  omega

/-- In every run with a single broker, whenever all loops wait: whoever has a seat is read for from
the topic that there is now, has been offered the events of its resource since it joined, and has
what a bounded queue keeps of them. Whoever had a seat when the topic was removed has been let go,
and was offered nothing since, whatever was made under the name of the topic. Whoever has kept a
seat has been offered the event of every record that was appended meanwhile. And a broker that
accepts subscribers grants the next subscribe. -/
theorem nobody_stays_on_dead_topic (createsOnDemand : Bool) (earlier later : List Action)
    {before after : JournaledBroker}
    (wasAlone : (reached createsOnDemand earlier).brokers = [before])
    (isAlone : (reached createsOnDemand (earlier ++ later)).brokers = [after])
    (calm : (reached createsOnDemand (earlier ++ later)).Calm) :
    let first := reached createsOnDemand earlier
    let last := reached createsOnDemand (earlier ++ later)
    let topic := after.identity.topic
    (∀ resource id place, after.seat? resource id = some place →
      after.ReadsCurrent last.journal resource ∧
        ∃ box, after.room.get? place = some box ∧
          Delivered (last.journal.records topic) resource after.identity.capacity
            (log createsOnDemand (earlier ++ later) ⟨0, resource, place⟩) box) ∧
    (∀ resource id place, before.seat? resource id = some place →
      let was := log createsOnDemand earlier ⟨0, resource, place⟩
      let is := log createsOnDemand (earlier ++ later) ⟨0, resource, place⟩
      (∀ rest, later = .removeTopic topic :: rest → before.LetGo after id place was is) ∧
        (after.seat? resource id = some place →
          ∃ appended, last.journal.records topic = first.journal.records topic ++ appended ∧
            eventsFor resource appended <:+ is.offered)) ∧
    (Node.AcceptsSubscribe ⟨last.now, last.journal, last.link, after⟩ →
      Mailbox.canHold after.identity.capacity = true →
      ∀ (scope : Scope) (resource : String), scope.stop? last.now = none →
        let next := last.performAll (.subscribe 0 scope resource ::
          List.replicate 4 (.stepCall last.nextTicket))
        ∃ place broker, next.reply? last.nextTicket =
            some (.subscribed (.ok ⟨⟨after.nextNumber⟩, resource, place⟩)) ∧
          next.brokers[0]? = some broker ∧
          broker.seat? resource ⟨after.nextNumber⟩ = some place) := by
  intro first last topic
  have sound : first.Sound := sound_reached createsOnDemand earlier
  have lastSound : last.Sound := sound_reached createsOnDemand (earlier ++ later)
  have numbered : first.Numbered := numbered_reached createsOnDemand earlier
  have isBroker : first.brokers[0]? = some before := by rw [wasAlone]; rfl
  have isAfter : last.brokers[0]? = some after := by rw [isAlone]; rfl
  have apart : last.Apart := apart_of_alone isAlone
  have isLast : last = first.performAll later := reached_append createsOnDemand earlier later
  have sameIdentity : after.identity = before.identity := by
    obtain ⟨next, goes⟩ := goes_performAll numbered later isBroker
    rw [← isLast] at goes
    obtain rfl := Option.some.inj (isAfter.symm.trans goes.isLater)
    exact goes.continues.identity
  refine ⟨fun resource id place seat => ?_, fun resource id place seat => ?_, ?_⟩
  · exact ⟨lastSound.readsCurrent_of_calm calm isAfter seat,
      (faithful_reached apart).delivered_of_calm lastSound calm isAfter seat⟩
  · intro was is
    refine ⟨fun rest removal => ?_, ?_⟩
    · have isTopic : topic = before.identity.topic := congrArg Instance.topic sameIdentity
      have connected : after.Connected :=
        connected_reached createsOnDemand _ after (List.mem_of_getElem? isAfter)
      have isLog : is = logAll ⟨0, resource, place⟩ first later was :=
        log_append createsOnDemand earlier later _
      rw [isTopic] at removal
      rw [isLog, removal]
      rw [isLast, removal] at isAfter
      have stillCalm : (first.performAll later).Calm := isLast ▸ calm
      exact letGo_of_removeTopic sound numbered isBroker seat rest isAfter (removal ▸ stillCalm)
        connected was
    · exact caughtUp_of_calm apart calm isBroker isAfter ((sound.seated isBroker).seatOld seat).2
  · intro accepts fits scope resource live
    have isNode : last.node? 0 = some ⟨last.now, last.journal, last.link, after⟩ := by
      rw [node?, isAfter, Option.map_some]
    exact subscribe_granted (numbered_reached createsOnDemand _)
      (accounted_reached createsOnDemand _) isNode accepts fits live resource

/-- A subscriber has an event in its mailbox. -/
def beforeRemoval : List Action :=
  [.start ⟨"updates", "relay", "one", 4⟩, .subscribe 0 .unlimited "door", .stepCall 0, .stepCall 0,
    .publish 0 .unlimited "door" ⟨"door", 1, "opened"⟩, .stepCall 1, .stepLoop 0 1]

/-- The topic is removed and made again by a publish before the loop has noticed, and one more
subscriber joins the old entry. Then somebody subscribes anew, and an event is published. -/
def afterRemoval : List Action :=
  [.publish 0 .unlimited "door" ⟨"door", 2, "closed"⟩, .stepCall 2,
    .subscribe 0 .unlimited "door", .stepLoop 0 1, .subscribe 0 .unlimited "door", .stepCall 4,
    .stepCall 4, .publish 0 .unlimited "door" ⟨"door", 3, "opened"⟩, .stepCall 5,
    .stepLoop 0 2, .stepLoop 0 2]

/-- The first subscriber is let go with its event, and the last one is offered what came after it
joined. -/
theorem fresh_start_after_removal :
    ∃ before after,
      (reached true beforeRemoval).brokers = [before] ∧
      (reached true (beforeRemoval ++ .removeTopic "updates" :: afterRemoval)).brokers = [after] ∧
      before.LetGo after ⟨1⟩ 0 (log true beforeRemoval ⟨0, "door", 0⟩)
        (log true (beforeRemoval ++ .removeTopic "updates" :: afterRemoval) ⟨0, "door", 0⟩) ∧
      (after.room.get? 0).map (·.queue) = some [⟨"door", 1, "opened"⟩] ∧
      after.seat? "door" ⟨2⟩ = none ∧
      (∃ box, after.room.get? 2 = some box ∧
        Delivered ((reached true
            (beforeRemoval ++ .removeTopic "updates" :: afterRemoval)).journal.records "updates")
          "door" 4 (log true
            (beforeRemoval ++ .removeTopic "updates" :: afterRemoval) ⟨0, "door", 2⟩) box) ∧
      (log true (beforeRemoval ++ .removeTopic "updates" :: afterRemoval)
        ⟨0, "door", 2⟩).offered = [⟨"door", 3, "opened"⟩] := by
  have calm : (reached true (beforeRemoval ++ .removeTopic "updates" :: afterRemoval)).Calm := by
    decide
  have first : ∃ before, (reached true beforeRemoval).brokers = [before] ∧
      before.seat? "door" ⟨1⟩ = some 0 := ⟨_, rfl, rfl⟩
  have last : ∃ after,
      (reached true (beforeRemoval ++ .removeTopic "updates" :: afterRemoval)).brokers = [after] ∧
      after.seat? "door" ⟨3⟩ = some 2 ∧ after.seat? "door" ⟨2⟩ = none ∧
      after.identity = ⟨"updates", "relay", "one", 4⟩ ∧
      (after.room.get? 0).map (·.queue) = some [⟨"door", 1, "opened"⟩] :=
    ⟨_, rfl, rfl, rfl, rfl, rfl⟩
  obtain ⟨before, wasAlone, seat⟩ := first
  obtain ⟨after, isAlone, later, gone, identity, queue⟩ := last
  obtain ⟨current, seated, _⟩ := nobody_stays_on_dead_topic true beforeRemoval
    (.removeTopic "updates" :: afterRemoval) wasAlone isAlone calm
  rw [identity] at current seated
  obtain ⟨_, delivered⟩ := current "door" ⟨3⟩ 2 later
  obtain ⟨letGo, _⟩ := seated "door" ⟨1⟩ 0 seat
  exact ⟨before, after, wasAlone, isAlone, letGo afterRemoval rfl, queue, gone, delivered,
    by decide⟩

end Cluster

end UpdateRelay
