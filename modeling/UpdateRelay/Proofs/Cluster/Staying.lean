import UpdateRelay.Proofs.Cluster.Order
import UpdateRelay.Proofs.Journal.Position
import UpdateRelay.Proofs.Journal.Outlasting

/-!
# Whoever keeps a seat keeps its loop

From one state of a run to a later one, a subscriber that has kept its seat has the entry and the
loop that it had, and the loop has the reader that it had. `Cluster.GoesOn` puts this together with
what outlasts the run at the journal. So what a loop could read when its topic went, its subscribers
can never get.
-/

namespace UpdateRelay

/-- Whether the topic that a reader was opened for is still there. -/
def Journal.Serves (journal : Journal) (reader : Reader) : Prop :=
  (journal.liveTopic? reader.topic reader.epoch).isSome

theorem Journal.Outlasts.serves {journal after : Journal} (outlasts : journal.Outlasts after)
    {reader earlier : Reader} (same : reader.membership = earlier.membership)
    (old : earlier.epoch ≤ journal.epochs) (serves : after.Serves reader) :
    journal.Serves earlier := by
  simp only [Reader.membership, Prod.mk.injEq] at same
  obtain ⟨topic, live⟩ := Option.isSome_iff_exists.1 serves
  rw [same.1, same.2.1] at live
  obtain ⟨_, wasLive, _⟩ := outlasts.source old live
  exact Option.isSome_of_eq_some wasLive

namespace JournaledBroker

/-- Whether everyone who has kept a seat is on the entry that it was on. -/
def SeatsStay (before after : JournaledBroker) : Prop :=
  ∀ (resource : String) (id : SubscriberId) (place : Nat),
    after.seat? resource id = some place → place < before.room.nextPlace →
      ∃ earlier entry, before.entries.get? resource = some earlier ∧
        after.entries.get? resource = some entry ∧ entry.generation = earlier.generation

theorem SeatsStay.refl (broker : JournaledBroker) : broker.SeatsStay broker := by
  intro resource id place seat _
  obtain ⟨entry, found, _⟩ := seat?_eq_some_iff.1 seat
  exact ⟨entry, entry, found, found, rfl⟩

/-- Whether the loop that serves a resource has a reader whose topic is still there. -/
def Hears (broker : JournaledBroker) (journal : Journal) (resource : String) : Prop :=
  ∃ loop ∈ broker.loops, loop.resource = resource ∧ loop.cancelled = false ∧
    journal.Serves loop.reader

end JournaledBroker

namespace Effect

variable {before after : Footprint} {feeds : List (Nat × Feed)}

theorem outlasts (effect : Effect before feeds after) :
    before.journal.Outlasts after.journal := by
  cases effect with
  | grew growth | gaveUp growth => exact growth.outlasts
  | numbered | wasted | joined | withEntry | disbanded | pruned | fed | tidied | entered | waited =>
    exact .refl _
  | attached _ _ growth => exact growth.outlasts.modifyTopic _ (fun _ => rfl) fun _ => rfl
  | released | joinedLate | ended | retired => exact Journal.outlasts_leave _ _
  | shut => exact Journal.outlasts_close _
  | passed | handed => exact Journal.outlasts_take _ _

theorem seatsStay (effect : Effect before feeds after) :
    before.broker.SeatsStay after.broker := by
  intro resource id place seat old
  rcases effect.seat_source seat with kept | ⟨rfl, _⟩
  · obtain ⟨entry, found, _⟩ := JournaledBroker.seat?_eq_some_iff.1 seat
    obtain ⟨earlier, wasFound, _⟩ := JournaledBroker.seat?_eq_some_iff.1 kept
    rcases effect.entry_source found with ⟨source, isSource, same⟩ | ⟨absent, _⟩
    · exact ⟨source, entry, isSource, found, same.symm⟩
    · rw [absent] at wasFound
      contradiction
  · exact absurd old (Nat.lt_irrefl _)

end Effect

namespace Cluster

/-- How the broker at an index of a cluster, and the journal, become what they are in a later
state. -/
structure GoesOn (first : Cluster) (index : Nat) (broker : JournaledBroker) (last : Cluster)
    (later : JournaledBroker) : Prop where
  isLater : last.brokers[index]? = some later
  continues : broker.Continues (claimsAt first.claims index) later (claimsAt last.claims index)
  seatsStay : broker.SeatsStay later
  outlasts : first.journal.Outlasts last.journal

theorem Step.outlasts {before after : Cluster} {action : Action} (step : Step before action after) :
    before.journal.Outlasts after.journal := by
  cases step with
  | happened _ effect => exact effect.outlasts
  | started growth | grew growth => exact growth.outlasts
  | removed journal =>
    rw [journal]
    exact Journal.outlasts_removeTopic _ _

theorem Step.goes {before after : Cluster} {action : Action} (step : Step before action after)
    {index : Nat} {broker : JournaledBroker} (isBroker : before.brokers[index]? = some broker) :
    ∃ later, before.GoesOn index broker after later := by
  obtain ⟨later, isLater, continues⟩ := step.continues isBroker
  refine ⟨later, isLater, continues, ?_, step.outlasts⟩
  have inside := (List.getElem?_eq_some_iff.1 isBroker).1
  -- A broker at which nothing happens is the same as before.
  have untouched : after.brokers[index]? = before.brokers[index]? → broker.SeatsStay later := by
    intro same
    rw [same, isBroker] at isLater
    obtain rfl := Option.some.inj isLater
    exact .refl broker
  cases step with
  | @happened _ _ there current next _ _ _ _ isCurrent effect _ brokers =>
    by_cases here : there = index
    · subst here
      obtain rfl := Option.some.inj (isBroker.symm.trans isCurrent)
      rw [brokers, List.getElem?_set_self inside] at isLater
      obtain rfl := Option.some.inj isLater
      exact effect.seatsStay
    · exact untouched (by rw [brokers, List.getElem?_set_ne here])
  | started _ brokers => exact untouched (by rw [brokers, List.getElem?_append_left inside])
  | grew _ _ brokers | removed _ brokers => exact untouched (by rw [brokers])

namespace GoesOn

variable {first middle last : Cluster} {index : Nat} {broker between later : JournaledBroker}

theorem refl (isBroker : first.brokers[index]? = some broker) :
    first.GoesOn index broker first broker :=
  ⟨isBroker, .refl _ _, .refl broker, .refl _⟩

theorem trans (sooner : first.GoesOn index broker middle between)
    (afterwards : middle.GoesOn index between last later) :
    first.GoesOn index broker last later where
  isLater := afterwards.isLater
  continues := sooner.continues.trans afterwards.continues
  seatsStay := by
    intro resource id place seat old
    have stillOld := Nat.lt_of_lt_of_le old sooner.continues.nextPlace
    obtain ⟨middleEntry, entry, isMiddle, found, generation⟩ :=
      afterwards.seatsStay _ _ _ seat stillOld
    -- Whoever has the seat in the end has had it in between, as its place was taken by then.
    have kept : between.seat? resource id = some place := by
      rcases afterwards.continues.seat seat with kept | ⟨new, _⟩
      · exact kept
      · exact absurd stillOld (Nat.not_lt_of_le new)
    obtain ⟨earlier, other, isEarlier, isOther, same⟩ := sooner.seatsStay _ _ _ kept old
    obtain rfl := Option.some.inj (isMiddle.symm.trans isOther)
    exact ⟨earlier, entry, isEarlier, found, generation.trans same⟩
  outlasts := sooner.outlasts.trans afterwards.outlasts

/-- Whoever has kept a seat is served by a loop that was there. -/
theorem loop_of_seat (goes : first.GoesOn index broker last later) (entryLoops : broker.EntryLoops)
    (stillEntryLoops : later.EntryLoops) {resource : String} {id : SubscriberId} {place : Nat}
    (seat : later.seat? resource id = some place) (old : place < broker.room.nextPlace) :
    ∃ loop ∈ later.loops, loop.resource = resource ∧ loop.cancelled = false ∧
      ∃ earlier ∈ broker.loops, loop.Succeeds earlier := by
  obtain ⟨before, entry, wasFound, found, same⟩ := goes.seatsStay _ _ _ seat old
  obtain ⟨loop, member, isResource, generation, live⟩ := stillEntryLoops.served found
  refine ⟨loop, member, isResource, live, ?_⟩
  rcases goes.continues.loop loop member with new | succeeds
  · have entryOld := entryLoops.entryOld wasFound
    omega
  · exact succeeds

end GoesOn

/-- How the broker at an index goes on in a run, and the journal with it. -/
theorem goes_performAll {cluster : Cluster} (numbered : cluster.Numbered) (actions : List Action)
    {index : Nat} {broker : JournaledBroker} (isBroker : cluster.brokers[index]? = some broker) :
    ∃ later, cluster.GoesOn index broker (cluster.performAll actions) later := by
  induction actions generalizing cluster broker with
  | nil => exact ⟨broker, .refl isBroker⟩
  | cons action actions inductionHypothesis =>
    obtain ⟨middle, sooner⟩ := (step_perform numbered action).goes isBroker
    obtain ⟨later, afterwards⟩ :=
      inductionHypothesis (numbered.perform action) sooner.isLater
    exact ⟨later, sooner.trans afterwards⟩

/-! ## Loops whose topic is still there -/

variable {first last : Cluster} {index : Nat} {broker later : JournaledBroker}

theorem Sound.epoch_le {cluster : Cluster} (sound : cluster.Sound)
    (isBroker : cluster.brokers[index]? = some broker) {loop : ConsumptionLoop}
    (member : loop ∈ broker.loops) : loop.reader.epoch ≤ cluster.journal.epochs :=
  sound.counts.readerEpoch _ (mem_readersOf_of_loop isBroker member)

/-- If a topic is still there, then it was there for everyone who has kept a seat. -/
theorem GoesOn.hears (goes : first.GoesOn index broker last later) (sound : first.Sound)
    (stillSound : last.Sound) (isBroker : first.brokers[index]? = some broker) {resource : String}
    {id : SubscriberId} {place : Nat} (seat : later.seat? resource id = some place)
    (old : place < broker.room.nextPlace) (hears : later.Hears last.journal resource) :
    broker.Hears first.journal resource := by
  have stillEntryLoops := stillSound.entryLoops goes.isLater
  obtain ⟨loop, member, rfl, live, serves⟩ := hears
  obtain ⟨other, isOther, same, otherLive, earlier, isEarlier, succeeds⟩ :=
    goes.loop_of_seat (sound.entryLoops isBroker) stillEntryLoops seat old
  obtain rfl := stillEntryLoops.live_loop_unique isOther member otherLive live same
  have wasLive : earlier.cancelled = false := by
    cases stopped : earlier.cancelled with
    | false => rfl
    | true => exact (succeeds.cancelled stopped).symm.trans live
  exact ⟨earlier, isEarlier, succeeds.resource.symm, wasLive,
    goes.outlasts.serves succeeds.reader (sound.epoch_le isBroker isEarlier) serves⟩

/-- The group of a reader whose topic is there exists. -/
theorem Sound.group?_of_serves {cluster : Cluster} (sound : cluster.Sound) {reader : Reader}
    (member : reader ∈ readersOf cluster.brokers cluster.claims)
    (serves : cluster.journal.Serves reader) :
    ∃ group, cluster.journal.group? reader.topic reader.group = some group := by
  obtain ⟨topic, isLive⟩ := Option.isSome_iff_exists.1 serves
  obtain ⟨group, joined, _⟩ := sound.counts.exists_group member isLive
  refine ⟨group, ?_⟩
  rw [Journal.group?, (Journal.liveTopic?_eq_some_iff.1 isLive).1]
  exact joined

theorem Sound.group?_of_hears {cluster : Cluster} (sound : cluster.Sound)
    (isBroker : cluster.brokers[index]? = some broker) {resource : String}
    (hears : broker.Hears cluster.journal resource) :
    ∃ group, cluster.journal.group? broker.identity.topic (broker.identity.group resource) =
      some group := by
  obtain ⟨loop, member, rfl, _, serves⟩ := hears
  obtain ⟨sameTopic, sameGroup⟩ := sound.loopReads isBroker loop member
  rw [← sameTopic, ← sameGroup]
  exact sound.group?_of_serves (mem_readersOf_of_loop isBroker member) serves

end Cluster

end UpdateRelay
