import UpdateRelay.Proofs.Cluster.Lasting
import UpdateRelay.Proofs.Cluster.Sending

/-!
# Closed brokers

What goes on at a broker after it was closed: subscribers take what their mailboxes still hold, and
loops that were all told to stop end one by one. Nobody joins, no loop is added and no event comes
in any more, whatever else happens at the other brokers and at the journal.
-/

namespace UpdateRelay

theorem Feed.queue_change_suffix {feed : Feed} (own : feed.event? = none) (box : Mailbox) :
    (feed.change box).queue <:+ box.queue := by
  cases feed with
  | offer => contradiction
  | receive => exact List.tail_suffix _
  | drain | abandon => exact List.nil_suffix

namespace Mailroom

theorem queue_modify_suffix (room : Mailroom) (place : Nat) {change : Mailbox → Mailbox}
    (shrinks : ∀ box, (change box).queue <:+ box.queue) (query : Nat) :
    (room.modify place change).queue query <:+ room.queue query := by
  by_cases here : place = query
  · unfold queue
    rw [get?_modify, if_pos here]
    cases room.get? query with
    | none => exact List.suffix_rfl
    | some box => exact shrinks box
  · have same : (room.modify place change).queue query = room.queue query := by
      unfold queue
      rw [get?_modify, if_neg here]
    exact same ▸ List.suffix_rfl

theorem Quieter.queue_eq {room after : Mailroom} (quieter : room.Quieter after) (place : Nat) :
    after.queue place = room.queue place := by
  unfold queue
  rcases quieter.2 place with same | hung
  · rw [same]
  · rw [hung]
    cases room.get? place <;> rfl

/-- A receiver whose sending end is gone never waits: it gets what is left, and then the end. -/
theorem receipt_eq_closed {room : Mailroom} {place : Nat} (silent : ¬room.Sends place)
    (empty : room.queue place = []) : room.receipt place = .closed := by
  unfold queue at empty
  unfold receipt
  cases found : room.get? place with
  | none => rfl
  | some box =>
    rw [found] at empty
    have hungUp : box.hasSender = false :=
      Bool.eq_false_iff.2 fun sends => silent ⟨box, found, sends⟩
    exact box.receipt_eq_closed_iff.2 ⟨empty, hungUp⟩

end Mailroom

namespace JournaledBroker

/-- How a broker goes on after it was closed. -/
structure Drains (before after : JournaledBroker) : Prop where
  closed : after.closed = true
  nextPlace : after.room.nextPlace = before.room.nextPlace
  sends : ∀ place, after.room.Sends place → before.room.Sends place
  queue : ∀ place, after.room.queue place <:+ before.room.queue place
  succession : before.Succession after

namespace Drains

variable {before middle after : JournaledBroker}

/-- What happens to the loops only. -/
theorem of_succession (closed : after.closed = true) (room : after.room = before.room)
    (succession : before.Succession after) : before.Drains after where
  closed := closed
  nextPlace := by rw [room]
  sends := fun _ sends => room ▸ sends
  queue := fun _ => room ▸ List.suffix_rfl
  succession := succession

theorem refl (closed : before.closed = true) : before.Drains before :=
  .of_succession closed rfl (.refl before)

theorem trans (first : before.Drains middle) (second : middle.Drains after) :
    before.Drains after where
  closed := second.closed
  nextPlace := second.nextPlace.trans first.nextPlace
  sends := fun place sends => first.sends place (second.sends place sends)
  queue := fun place => (second.queue place).trans (first.queue place)
  succession := first.succession.trans second.succession

end Drains

theorem drains_disband (broker : JournaledBroker) : broker.Drains broker.disband where
  closed := rfl
  nextPlace := broker.quieter_disband.1
  sends := fun place sends => ((broker.sends_disband place).1 sends).2
  queue := fun place => broker.quieter_disband.queue_eq place ▸ List.suffix_rfl
  succession := broker.succession_disband

namespace EntryLoops

variable {broker : JournaledBroker}

/-- A closed broker has told all its loops to stop. -/
theorem cancelled (entryLoops : broker.EntryLoops) (closed : broker.closed = true) :
    ∀ loop ∈ broker.loops, loop.cancelled = true := by
  intro loop member
  cases live : loop.cancelled with
  | true => rfl
  | false =>
    obtain ⟨entry, found, _⟩ := entryLoops.serving loop member live
    rw [entryLoops.shut closed] at found
    contradiction

theorem prune_of_closed (entryLoops : broker.EntryLoops) (closed : broker.closed = true)
    (resource : String) (ids : List SubscriberId) : broker.prune resource ids = broker := by
  simp [JournaledBroker.prune, entryLoops.shut closed resource]

theorem entryCount_of_closed (entryLoops : broker.EntryLoops) (closed : broker.closed = true) :
    broker.entryCount = 0 := by
  refine List.length_eq_zero_iff.2 (List.eq_nil_iff_forall_not_mem.2 fun entry member => ?_)
  have found := Table.get?_eq_some_iff.2 member
  rw [entryLoops.shut closed] at found
  contradiction

end EntryLoops

end JournaledBroker

/-- A closed broker goes on as such, and none of its mailboxes is offered anything. -/
theorem Effect.drains {before after : Footprint} {feeds : List (Nat × Feed)}
    (effect : Effect before feeds after) (entryLoops : before.broker.EntryLoops)
    (closed : before.broker.closed = true) :
    before.broker.Drains after.broker ∧ ∀ feed ∈ feeds, feed.2.event? = none := by
  have silent : ∀ feed ∈ ([] : List (Nat × Feed)), feed.2.event? = none := by simp
  -- No entry is left to join, and no loop that was not told to stop.
  have nobody : ∀ {resource entry}, before.broker.entries.get? resource ≠ some entry := by
    intro resource entry found
    rw [entryLoops.shut closed] at found
    contradiction
  have stopped := entryLoops.cancelled closed
  cases effect with
  | grew | gaveUp | attached | released | shut => exact ⟨.refl closed, silent⟩
  | numbered | wasted => exact ⟨.of_succession closed rfl (.refl _), silent⟩
  | joined found | joinedLate _ found => exact absurd found nobody
  | withEntry _ isOpen => exact absurd (isOpen.symm.trans closed) Bool.false_ne_true
  | disbanded => exact ⟨JournaledBroker.drains_disband _, silent⟩
  | pruned resource ids =>
    rw [entryLoops.prune_of_closed closed]
    exact ⟨.refl closed, silent⟩
  | tidied =>
    rw [entryLoops.prune_of_closed closed]
    exact ⟨.of_succession closed rfl (JournaledBroker.succession_enter _ _ _), silent⟩
  | fed feed own =>
    refine ⟨⟨closed, Mailroom.nextPlace_modify _ _ _, fun place => ?_, fun place => ?_, .refl _⟩,
      by simp [own]⟩
    · exact (Mailroom.sends_modify feed.hasSender_change place).1
    · exact Mailroom.queue_modify_suffix _ _ (Feed.queue_change_suffix own) place
  | ended =>
    exact ⟨.of_succession closed rfl (JournaledBroker.succession_dropLoop _ _), silent⟩
  | entered member live | waited member live | retired member live | passed member live
  | handed member live =>
    exact absurd (live.symm.trans (stopped _ member)) Bool.false_ne_true

/-- What is over for the journal stays over. -/
theorem Effect.closed_mono {before after : Footprint} {feeds : List (Nat × Feed)}
    (effect : Effect before feeds after) (closed : before.journal.closed = true) :
    after.journal.closed = true := by
  by_cases busy : before.claim.isSome ∨ before.broker.loops ≠ []
  · exact (effect.closed busy).trans closed
  · cases effect with
    | shut => rfl
    | grew growth => exact growth.closed.trans closed
    | numbered | wasted | joined | disbanded | pruned | fed => exact closed
    | gaveUp | attached | released | joinedLate | withEntry => simp at busy
    | tidied member | entered member | waited member | ended member | retired member
    | passed member | handed member => exact absurd (Or.inr (List.ne_nil_of_mem member)) busy

namespace Cluster

theorem Step.drains {before after : Cluster} {action : Action}
    (step : Step before action after) (sound : before.Sound) {index : Nat}
    {broker : JournaledBroker} (isBroker : before.brokers[index]? = some broker)
    (closed : broker.closed = true) :
    ∃ next, after.brokers[index]? = some next ∧ broker.Drains next ∧
      ∀ place event, (index, place, Feed.offer event) ∉ before.told action := by
  have inside := (List.getElem?_eq_some_iff.1 isBroker).1
  cases step with
  | @happened _ _ there current next _ _ _ feeds isCurrent effect told brokers =>
    by_cases here : there = index
    · subst here
      obtain rfl := Option.some.inj (isBroker.symm.trans isCurrent)
      obtain ⟨drains, silent⟩ := effect.drains (sound.entryLoops isBroker) closed
      refine ⟨next, by rw [brokers, List.getElem?_set_self inside], drains, ?_⟩
      intro place event offered
      rw [told] at offered
      obtain ⟨feed, member, same⟩ := List.mem_map.1 offered
      obtain ⟨_, rfl⟩ := Prod.mk.inj same
      have quiet := silent _ member
      contradiction
    · refine ⟨broker, by rw [brokers, List.getElem?_set_ne here, isBroker], .refl closed, ?_⟩
      intro place event offered
      rw [told] at offered
      obtain ⟨feed, _, same⟩ := List.mem_map.1 offered
      exact here (Prod.mk.inj same).1
  | started growth brokers =>
    refine ⟨broker, by rw [brokers, List.getElem?_append_left inside, isBroker], .refl closed, ?_⟩
    simp [told]
  | grew growth told brokers => exact ⟨broker, brokers ▸ isBroker, .refl closed, by simp [told]⟩
  | removed journal brokers => exact ⟨broker, brokers ▸ isBroker, .refl closed, by simp [told]⟩

theorem Step.closed_mono {before after : Cluster} {action : Action}
    (step : Step before action after) (closed : before.journal.closed = true) :
    after.journal.closed = true := by
  cases step with
  | happened _ effect => exact effect.closed_mono closed
  | started growth | grew growth => exact growth.closed.trans closed
  | removed journal =>
    rw [journal]
    exact closed

/-! ## Runs -/

/-- A cluster in order, one of whose brokers is closed. -/
structure ClosedAt (cluster : Cluster) (index : Nat) (broker : JournaledBroker) : Prop where
  sound : cluster.Sound
  numbered : cluster.Numbered
  isBroker : cluster.brokers[index]? = some broker
  closed : broker.closed = true

namespace ClosedAt

variable {cluster : Cluster} {index : Nat} {broker : JournaledBroker}

theorem broker_of_node? (closedAt : cluster.ClosedAt index broker) {node : Node}
    (isNode : cluster.node? index = some node) : node.broker = broker :=
  Option.some.inj ((node?_eq_some isNode).1.symm.trans closedAt.isBroker)

theorem perform (closedAt : cluster.ClosedAt index broker) (action : Action) :
    ∃ next, (cluster.perform action).ClosedAt index next ∧ broker.Drains next ∧
      ∀ place event, (index, place, Feed.offer event) ∉ cluster.told action := by
  obtain ⟨next, isNext, drains, silent⟩ := (step_perform closedAt.numbered action).drains
    closedAt.sound closedAt.isBroker closedAt.closed
  exact ⟨next, ⟨closedAt.sound.perform closedAt.numbered action, closedAt.numbered.perform action,
    isNext, drains.closed⟩, drains, silent⟩

theorem performAll (closedAt : cluster.ClosedAt index broker) (actions : List Action) :
    ∃ now, (cluster.performAll actions).ClosedAt index now ∧ broker.Drains now := by
  induction actions generalizing cluster broker with
  | nil => exact ⟨broker, closedAt, .refl closedAt.closed⟩
  | cons action actions inductionHypothesis =>
    obtain ⟨middle, isMiddle, first, _⟩ := closedAt.perform action
    obtain ⟨now, isNow, second⟩ := inductionHypothesis isMiddle
    exact ⟨now, isNow, first.trans second⟩

/-- What every action keeps while the broker is closed, a run keeps. -/
theorem run {holds : Cluster → Prop} (closedAt : cluster.ClosedAt index broker)
    (kept : ∀ {cluster : Cluster} {broker : JournaledBroker}, cluster.ClosedAt index broker →
      holds cluster → ∀ action, holds (cluster.perform action))
    (start : holds cluster) (actions : List Action) : holds (cluster.performAll actions) := by
  induction actions generalizing cluster broker with
  | nil => exact start
  | cons action actions inductionHypothesis =>
    obtain ⟨next, isNext, _⟩ := closedAt.perform action
    exact inductionHypothesis isNext (kept closedAt start action)

end ClosedAt

end Cluster

end UpdateRelay
