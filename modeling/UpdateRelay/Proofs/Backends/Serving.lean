import UpdateRelay.Proofs.Backends.AfterRequest

/-!
# Requests to corresponding brokers

A durable broker at rest and an in-process one correspond if they have the same subscribers and
mailboxes. Whatever is asked of both, they give the same answer and correspond again afterwards.
-/

namespace UpdateRelay

namespace JournaledBroker

variable {broker : JournaledBroker} {loop : ConsumptionLoop}

theorem cameFrom_cancelLoop {generation : Nat}
    (member : loop ∈ (broker.cancelLoop generation).loops) : loop.CameFrom broker.loops := by
  obtain ⟨earlier, isEarlier, rfl⟩ := List.mem_map.1 member
  dsimp only
  split
  next => exact ⟨earlier, isEarlier, true, rfl⟩
  next => exact .of_mem isEarlier

theorem cameFrom_prune {resource : String} {ids : List SubscriberId}
    (member : loop ∈ (broker.prune resource ids).loops) : loop.CameFrom broker.loops := by
  rcases broker.loops_prune resource ids with same | ⟨_, _, _, same⟩
  · exact .of_mem (same ▸ member)
  · rw [same] at member
    exact cameFrom_cancelLoop member

theorem cameFrom_disband (member : loop ∈ broker.disband.loops) :
    loop.CameFrom broker.loops := by
  obtain ⟨earlier, isEarlier, rfl⟩ := List.mem_map.1 member
  exact ⟨earlier, isEarlier, true, rfl⟩

end JournaledBroker

namespace Node

/-- Whether a durable broker is at rest and is what an in-process one is. -/
structure Corresponds (node : Node) (direct : DirectBroker) : Prop where
  due : node.Due direct
  rests : node.Rests

section Corresponds

variable {node : Node} {direct : DirectBroker}

theorem Corresponds.same (corresponds : node.Corresponds direct) : node.broker.direct = direct :=
  corresponds.due.same corresponds.rests

theorem Due.of_settles {after : Node} (due : node.Due direct) (settles : node.Settles after) :
    after.Corresponds direct :=
  ⟨due.steps settles.1, settles.2⟩

/-- The registry of a broker at rest may change where the journal does not. -/
theorem Corresponds.changed (corresponds : node.Corresponds direct) {feeds : List (Nat × Feed)}
    (change : JournaledBroker → JournaledBroker)
    (effect : Effect (node.footprint none) feeds ((node.modifyBroker change).footprint none))
    (closed : (change node.broker).closed = node.broker.closed)
    (entries : node.broker.entries = ∅ → (change node.broker).entries = ∅)
    (loops : ∀ loop ∈ (change node.broker).loops, loop.CameFrom node.broker.loops) :
    (node.modifyBroker change).Due (change node.broker).direct := by
  have same := corresponds.same
  cases corresponds.due with
  | lasting isOpen ready =>
    have follows : node.Follows (node.modifyBroker change) :=
      ⟨effect.sound ready.sound, rfl, rfl, effect.identity, .refl _,
        fun loop member => Or.inl (loops loop member)⟩
    have stillOpen : (change node.broker).direct.closed = false := by
      rw [← isOpen, ← same]
      exact closed
    exact .lasting stillOpen (follows.ready ready corresponds.rests)
      (follows.owes ready corresponds.rests rfl loops)
  | ended isOver =>
    refine .ended ⟨closed.trans isOver.closed, ?_, entries isOver.entries⟩ rfl
    refine List.eq_nil_iff_forall_not_mem.2 fun loop member => ?_
    obtain ⟨earlier, isEarlier, _⟩ := loops loop member
    rw [isOver.loops] at isEarlier
    contradiction

theorem Corresponds.transitionTo (corresponds : node.Corresponds direct) (now : Nat) :
    { node with now := now }.Corresponds direct := by
  have same := corresponds.same
  cases corresponds.due with
  | lasting isOpen ready =>
    have loops : ∀ loop ∈ node.broker.loops, loop.CameFrom node.broker.loops :=
      fun _ => ConsumptionLoop.CameFrom.of_mem
    have follows : node.Follows { node with now := now } :=
      ⟨ready.sound, rfl, rfl, rfl, .refl _, fun loop member => Or.inl (loops loop member)⟩
    refine ⟨.lasting isOpen (follows.ready ready corresponds.rests) ?_,
      ready.rests_of_calm corresponds.rests rfl fun _ => rfl⟩
    rw [← same]
    exact follows.owes ready corresponds.rests rfl loops
  | ended isOver =>
    have laterOver : { node with now := now }.Over :=
      ⟨isOver.closed, isOver.loops, isOver.entries⟩
    exact ⟨.ended laterOver same, laterOver.rests⟩

/-! ## Requests without calls -/

theorem Corresponds.unsubscribe (corresponds : node.Corresponds direct) (resource : String)
    (id : SubscriberId) :
    (node.modifyBroker (·.unsubscribe resource id)).Due (direct.unsubscribe resource id) := by
  have direct := node.broker.direct_prune resource [id]
  have closed : (node.broker.unsubscribe resource id).closed = node.broker.closed := by
    have same := congrArg DirectBroker.closed direct
    rw [DirectBroker.closed_prune] at same
    exact same
  have entries : node.broker.entries = ∅ → (node.broker.unsubscribe resource id).entries = ∅ := by
    intro nobody
    have absent : node.broker.entries.get? resource = none := by
      rw [nobody]
      rfl
    rw [JournaledBroker.unsubscribe, JournaledBroker.prune, absent, nobody]
  have due := corresponds.changed (·.unsubscribe resource id)
    (.pruned resource [id] : Effect (node.footprint none) [] _) closed entries
    fun _ => JournaledBroker.cameFrom_prune
  rw [← corresponds.same, DirectBroker.unsubscribe, ← direct]
  exact due

theorem Corresponds.modifyBox (corresponds : node.Corresponds direct) (place : Nat) (feed : Feed)
    (own : feed.event? = none) :
    (node.modifyBroker (·.modifyBox place feed.change)).Due
      (direct.modifyBox place feed.change) := by
  rw [← corresponds.same]
  by_cases born : place < node.broker.room.nextPlace
  · exact corresponds.changed (·.modifyBox place feed.change)
      (.fed feed own born : Effect (node.footprint none) [(place, feed)] _) rfl
      (fun nobody => nobody) fun _ => .of_mem
  · have unchanged : node.broker.modifyBox place feed.change = node.broker := by
      rw [JournaledBroker.modifyBox, Mailroom.modify,
        List.modify_eq_self (Nat.le_of_not_lt born)]
    have direct : node.broker.direct.modifyBox place feed.change = node.broker.direct :=
      congrArg JournaledBroker.direct unchanged
    rw [direct, modifyBroker, unchanged, corresponds.same]
    exact corresponds.due

/-! ## Subscribing -/

/-- A subscribe may use up its id and come to nothing. -/
theorem Corresponds.spendNumber (corresponds : node.Corresponds direct) :
    (node.modifyBroker JournaledBroker.spendNumber).Due
      { direct with nextNumber := direct.nextNumber + 1 } := by
  rw [← corresponds.same]
  exact corresponds.changed JournaledBroker.spendNumber
    (.wasted : Effect (node.footprint none) [] _) rfl (fun nobody => nobody) fun _ => .of_mem

theorem Corresponds.join (corresponds : node.Corresponds direct) {resource : String} {entry : Entry}
    (found : node.broker.entries.get? resource = some entry) :
    (node.modifyBroker fun broker =>
        broker.spendNumber.join resource entry ⟨broker.nextNumber⟩).Due
      ({ direct with nextNumber := direct.nextNumber + 1 }.register resource
        ⟨direct.nextNumber⟩) := by
  have present : node.broker.entries ≠ ∅ := by
    intro nobody
    rw [nobody] at found
    contradiction
  have due := corresponds.changed
    (fun broker => broker.spendNumber.join resource entry ⟨broker.nextNumber⟩)
    (.joined found : Effect (node.footprint none) [] _) rfl (fun nobody => absurd nobody present)
    fun _ => .of_mem
  have same : entry.subscribers = node.broker.spendNumber.roster resource := by
    rw [JournaledBroker.roster, JournaledBroker.spendNumber, found]
  rw [JournaledBroker.direct_join _ _ same] at due
  rw [← corresponds.same]
  exact due

end Corresponds

end Node

end UpdateRelay
