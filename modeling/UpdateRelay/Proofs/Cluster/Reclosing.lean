import UpdateRelay.Proofs.Cluster.Closing

/-!
# Closing a durable broker more than once

Only the first close of a broker waits for the loops and closes the journal. Another one that begins
meanwhile has its answer at once, whatever is left, so that it says nothing before the first one has
come to its end.
-/

namespace UpdateRelay

namespace JournaledBroker

variable (broker : JournaledBroker) (resource : String)

theorem closed_prune (ids : List SubscriberId) :
    (broker.prune resource ids).closed = broker.closed := by
  unfold prune
  split
  next => rfl
  next => dsimp only; split <;> rfl

theorem closed_dissolve (generation : Nat) :
    (broker.dissolve resource generation).closed = broker.closed := by
  unfold dissolve
  split <;> rfl

end JournaledBroker

/-- Nothing but the beginning of a close closes a broker. -/
theorem Effect.broker_closed {before after : Footprint} {feeds : List (Nat × Feed)}
    (effect : Effect before feeds after) (claimed : before.claim.isSome = true) :
    after.broker.closed = before.broker.closed := by
  cases effect with
  | pruned resource ids => exact JournaledBroker.closed_prune _ _ _
  | tidied => exact JournaledBroker.closed_prune _ _ _
  | retired => exact JournaledBroker.closed_dissolve _ _ _
  | disbanded => contradiction
  | _ => rfl

namespace Node

variable {node after : Node}

theorem broker_closed_pollLoop? {loop : ConsumptionLoop} (member : loop ∈ node.broker.loops)
    (stepped : node.pollLoop? loop = some after) : after.broker.closed = node.broker.closed :=
  (effect_pollLoop? member stepped (some ⟨"", ⟨0⟩, none⟩)).broker_closed rfl

theorem broker_closed_pollCall? {call : Call} {progress : Progress}
    (stepped : node.pollCall? call = some (after, progress)) :
    after.broker.closed = node.broker.closed := by
  cases callTurn stepped with
  | failed => rfl
  | publish _ turn => rw [turn.grows.2.1]
  | abandoned | subscribe =>
    exact (effect_pollCall? stepped).broker_closed (Call.isSome_claim?_subscribe _ _ _ _)
  | closed => rfl

theorem broker_beginPublish (scope : Scope) (resource : String) (event : Event) :
    (node.beginPublish scope resource event).1.broker = node.broker := by
  unfold beginPublish
  split
  next => rfl
  next => split <;> rfl

theorem broker_closed_beginSubscribe (scope : Scope) (resource : String) :
    (node.beginSubscribe scope resource).1.broker.closed = node.broker.closed := by
  simp only [beginSubscribe]
  split
  next => rfl
  next =>
    split
    next => rfl
    next =>
      split
      next => rfl
      next => split <;> rfl

end Node

namespace Cluster

/-! ## Who closes a broker -/

/-- Whether every closed broker of one list stands closed in another already. -/
def ClosedIn (brokers after : List JournaledBroker) : Prop :=
  ∀ (index : Nat) (next : JournaledBroker), after[index]? = some next → next.closed = true →
    ∃ broker, brokers[index]? = some broker ∧ broker.closed = true

theorem closedIn_refl (brokers : List JournaledBroker) : ClosedIn brokers brokers :=
  fun _ broker isBroker closed => ⟨broker, isBroker, closed⟩

theorem closedIn_set {brokers : List JournaledBroker} {index : Nat}
    {broker changed : JournaledBroker} (isBroker : brokers[index]? = some broker)
    (same : changed.closed = broker.closed) : ClosedIn brokers (brokers.set index changed) := by
  intro other next isNext closed
  rw [List.getElem?_set] at isNext
  split at isNext
  next here =>
    subst here
    rw [if_pos (List.getElem?_eq_some_iff.1 isBroker).1] at isNext
    obtain rfl := Option.some.inj isNext
    exact ⟨broker, isBroker, same ▸ closed⟩
  next => exact ⟨next, isNext, closed⟩

theorem closedIn_modifyBroker (cluster : Cluster) (index : Nat)
    {change : JournaledBroker → JournaledBroker}
    (same : ∀ broker, (change broker).closed = broker.closed) :
    ClosedIn cluster.brokers (cluster.modifyBroker index change).brokers := by
  cases isBroker : cluster.brokers[index]? with
  | none =>
    rw [modifyBroker_of_none isBroker]
    exact closedIn_refl _
  | some broker =>
    have set : (cluster.modifyBroker index change).brokers =
        cluster.brokers.set index (change broker) := modify_eq_set isBroker change
    rw [set]
    exact closedIn_set isBroker (same broker)

theorem closedIn_begin (cluster : Cluster) (index : Nat) {start : Node → Node × Progress}
    (same : ∀ node, (start node).1.broker.closed = node.broker.closed) :
    ClosedIn cluster.brokers (cluster.begin index start).brokers := by
  unfold begin
  cases isNode : cluster.node? index with
  | none => exact closedIn_refl _
  | some node =>
    have set := @closedIn_set _ index _ _ (node?_eq_some isNode).1 (same node)
    dsimp only
    cases (start node).2 <;> exact set

/-- A broker that is closed after an action was so before, unless the action is a close of it. -/
theorem closedIn_perform (cluster : Cluster) {action : Action}
    (other : ∀ index, action ≠ .close index) :
    ClosedIn cluster.brokers (cluster.perform action).brokers := by
  cases action with
  | close index => exact absurd rfl (other index)
  | start identity =>
    intro index next isNext closed
    have brokers : (cluster.perform (.start identity)).brokers =
        cluster.brokers ++ [.empty identity] := rfl
    rw [brokers, List.getElem?_append] at isNext
    split at isNext
    next => exact ⟨next, isNext, closed⟩
    next =>
      obtain ⟨-, rfl⟩ := by simpa [List.getElem?_singleton] using isNext
      contradiction
  | publish index scope resource event =>
    exact closedIn_begin _ _ fun node => congrArg _ (node.broker_beginPublish scope resource event)
  | subscribe index scope resource =>
    exact closedIn_begin _ _ fun node => node.broker_closed_beginSubscribe scope resource
  | unsubscribe index resource id =>
    exact closedIn_modifyBroker _ _ fun broker => broker.closed_prune resource [id]
  | receive | drain | abandon => exact closedIn_modifyBroker _ _ fun _ => rfl
  | stepCall ticket =>
    rcases cluster.perform_stepCall ticket with idle | ⟨caller, node, next, progress, _, _, isNode,
      polled, noted⟩
    · rw [idle]
      exact closedIn_refl _
    · rw [noted]
      have set := @closedIn_set _ caller.broker _ _ (node?_eq_some isNode).1
        (Node.broker_closed_pollCall? polled)
      cases progress <;> exact set
  | stepLoop index generation =>
    rcases cluster.perform_stepLoop index generation with idle | ⟨node, loop, after, isNode, member,
      stepped, isAfter⟩
    · rw [idle]
      exact closedIn_refl _
    · rw [isAfter]
      exact closedIn_set (node?_eq_some isNode).1 (Node.broker_closed_pollLoop? member stepped)
  | _ => exact closedIn_refl _

/-! ## Closes of closed brokers -/

theorem perform_close_again {cluster : Cluster} {index : Nat} {broker : JournaledBroker}
    (isBroker : cluster.brokers[index]? = some broker) (closed : broker.closed = true) :
    cluster.perform (.close index) =
      { cluster with
        replies := cluster.replies ++ [(cluster.nextTicket, .completed (.ok ()))]
        nextTicket := cluster.nextTicket + 1 } := by
  have same : cluster.brokers.set index broker = cluster.brokers := by
    obtain ⟨_, rfl⟩ := List.getElem?_eq_some_iff.1 isBroker
    exact List.set_getElem_self _
  simp [perform, begin, node?, isBroker, Node.beginClose, closed, withNode, same]

/-- Whether for every closed broker there is a close that is in progress or came to its end. -/
def SeenTo (cluster : Cluster) : Prop :=
  ∀ (index : Nat) (broker : JournaledBroker), cluster.brokers[index]? = some broker →
    broker.closed = true → ∃ ticket, cluster.IsClosing index ticket

section SeenTo

variable {cluster : Cluster} {index : Nat} {broker : JournaledBroker}

theorem SeenTo.perform (seenTo : cluster.SeenTo) (sound : cluster.Sound)
    (numbered : cluster.Numbered) (accounted : cluster.Accounted) (action : Action) :
    (cluster.perform action).SeenTo := by
  intro index next isNext closed
  -- A broker that was closed already has a close, which the action brings on or leaves alone.
  have brought : ∀ broker, cluster.brokers[index]? = some broker → broker.closed = true →
      ∃ ticket, (cluster.perform action).IsClosing index ticket := by
    intro broker isBroker closed
    obtain ⟨ticket, isClosing⟩ := seenTo index broker isBroker closed
    exact ⟨ticket, isClosing.perform ⟨sound, numbered, isBroker, closed⟩ action⟩
  by_cases isClose : ∃ other, action = .close other
  · -- A close of an open broker is in progress once it has begun; any other one closes nothing.
    obtain ⟨other, rfl⟩ := isClose
    cases isBroker : cluster.brokers[other]? with
    | none =>
      have same : cluster.perform (.close other) = cluster := by
        simp [Cluster.perform, begin, node?, isBroker]
      exact brought next (same ▸ isNext) closed
    | some broker =>
      cases shut : broker.closed with
      | true =>
        have same : (cluster.perform (.close other)).brokers = cluster.brokers := by
          rw [perform_close_again isBroker shut]
        exact brought next (same ▸ isNext) closed
      | false =>
        by_cases here : other = index
        · subst here
          exact ⟨_, (inProgress_close numbered accounted isBroker shut).1⟩
        · rw [perform_close isBroker shut, List.getElem?_set_ne here] at isNext
          exact brought next isNext closed
  · obtain ⟨broker, isBroker, earlier⟩ :=
      cluster.closedIn_perform (not_exists.1 isClose) index next isNext closed
    exact brought broker isBroker earlier

theorem seenTo_reached (createsOnDemand : Bool) (actions : List Action) :
    (reached createsOnDemand actions).SeenTo := by
  have initial : (empty createsOnDemand).SeenTo := by
    intro index broker isBroker
    simp [empty] at isBroker
  have kept := @keeps_performAll
    (fun cluster => cluster.Sound ∧ cluster.Accounted ∧ cluster.SeenTo)
    (fun numbered holds action =>
      ⟨holds.1.perform numbered action, holds.2.1.perform numbered action,
        holds.2.2.perform holds.1 numbered holds.2.1 action⟩)
    (empty createsOnDemand) (numbered_empty createsOnDemand)
    ⟨sound_empty createsOnDemand, accounted_empty createsOnDemand, initial⟩ actions
  exact kept.2.2

end SeenTo

/-! ## What the answer of a close means -/

/-- Whether a close of a broker is in progress. -/
def IsBeingClosed (cluster : Cluster) (index : Nat) : Prop :=
  ∃ caller ∈ cluster.calls, caller.broker = index ∧ caller.call.isClose = true

/-- What a close of a broker that begins in one state has come to in a later one. Its readers are
those of its loops and those that its subscribes in progress hold. -/
structure CloseOutcome (before after : Cluster) (index : Nat) (broker now : JournaledBroker) :
    Prop where
  isNow : after.brokers[index]? = some now
  closed : now.closed = true
  deserted : now.entryCount = 0
  stopped : ∀ loop ∈ now.loops, loop.cancelled = true
  released : now.loops = [] → ∀ {name : String} {topic : Topic},
    after.journal.topics.get? name = some topic → ∀ group, topic.memberCount group =
      (readersOf (after.brokers.eraseIdx index) after.claims).countP
        (·.readsFor name topic.epoch group)
  succeeds : ∀ {reply : Reply}, after.reply? before.nextTicket = some reply →
    reply = .completed (.ok ())
  atOnce : broker.closed = true → after.reply? before.nextTicket = some (.completed (.ok ()))
  settled : ∀ {reply : Reply}, after.reply? before.nextTicket = some reply →
    broker.closed = false ∨ ¬after.IsBeingClosed index →
      now.loops = [] ∧ after.journal.closed = true

section Answered

variable {cluster : Cluster} {index : Nat} {broker : JournaledBroker}

/-- A closed broker that no close is in progress at was closed to the end. -/
theorem SeenTo.ended (seenTo : cluster.SeenTo) (closedAt : cluster.ClosedAt index broker)
    (settled : ¬cluster.IsBeingClosed index) :
    broker.loops = [] ∧ cluster.journal.closed = true := by
  obtain ⟨ticket, ⟨inProgress, _⟩ | ⟨_, shut, last, isLast, ended⟩⟩ :=
    seenTo index broker closedAt.isBroker closedAt.closed
  · have member := ((caller?_eq_some_iff closedAt.numbered).1 inProgress).1
    exact absurd ⟨_, member, rfl, rfl⟩ settled
  · obtain rfl := Option.some.inj (closedAt.isBroker.symm.trans isLast)
    exact ⟨ended, shut⟩

theorem memberCount_of_ended (sound : cluster.Sound)
    (isBroker : cluster.brokers[index]? = some broker) (ended : broker.loops = []) {name : String}
    {topic : Topic} (found : cluster.journal.topics.get? name = some topic) (group : String) :
    topic.memberCount group =
      (readersOf (cluster.brokers.eraseIdx index) cluster.claims).countP
        (·.readsFor name topic.epoch group) := by
  rw [sound.counts.counted found group]
  exact (readers_of_vacated isBroker ended).countP_eq _

theorem reply?_close_again (accounted : cluster.Accounted)
    (isBroker : cluster.brokers[index]? = some broker) (closed : broker.closed = true) :
    (cluster.perform (.close index)).reply? cluster.nextTicket = some (.completed (.ok ())) := by
  have unused := accounted.reply?_of_le (Nat.le_refl cluster.nextTicket)
  have isNode : cluster.node? index =
      some ⟨cluster.now, cluster.journal, cluster.link, broker⟩ := by
    simp [node?, isBroker]
  exact (reply?_begin isNode (·.beginClose) (by simp [Node.beginClose, closed]) unused).1

theorem closeOutcome_of_open {before after : Cluster} {now : JournaledBroker}
    (closes : before.ClosesDown after index broker now) (sound : after.Sound)
    (isOpen : broker.closed = false) : before.CloseOutcome after index broker now where
  isNow := closes.isNow
  closed := closes.shutDown.closed
  deserted := closes.shutDown.deserted
  stopped loop member := (closes.shutDown.stopped loop member).1
  released := memberCount_of_ended sound closes.isNow
  succeeds answered := (closes.returned answered).1
  atOnce closed := by rw [isOpen] at closed; contradiction
  settled answered _ := (closes.returned answered).2

theorem closeOutcome_of_closed {before after : Cluster} {now : JournaledBroker}
    (closedAt : after.ClosedAt index now) (seenTo : after.SeenTo)
    (again : after.reply? before.nextTicket = some (.completed (.ok ())))
    (closed : broker.closed = true) : before.CloseOutcome after index broker now where
  isNow := closedAt.isBroker
  closed := closedAt.closed
  deserted := (closedAt.sound.entryLoops closedAt.isBroker).entryCount_of_closed closedAt.closed
  stopped := (closedAt.sound.entryLoops closedAt.isBroker).cancelled closedAt.closed
  released := memberCount_of_ended closedAt.sound closedAt.isBroker
  succeeds answered := Option.some.inj (answered.symm.trans again)
  atOnce _ := again
  settled _ last := by
    rcases last with isOpen | last
    · rw [isOpen] at closed
      contradiction
    · exact seenTo.ended closedAt last

end Answered

/-- A close can only succeed, and a close of a closed broker does so at once. When it has its
answer, and it was this close that closed the broker or no close of it is in progress any more, no
loop of the broker is left and the journal is closed. Until then all its loops are told to stop, and
with the last of them the last reader leaves that no subscribe in progress holds. -/
theorem closes_leave_nothing (createsOnDemand : Bool) (earlier later : List Action) {index : Nat}
    {broker : JournaledBroker}
    (isBroker : (reached createsOnDemand earlier).brokers[index]? = some broker) :
    ∃ now, (reached createsOnDemand earlier).CloseOutcome
      (reached createsOnDemand (earlier ++ .close index :: later)) index broker now := by
  have sound := sound_reached createsOnDemand earlier
  have numbered := numbered_reached createsOnDemand earlier
  have accounted := accounted_reached createsOnDemand earlier
  have seenTo := seenTo_reached createsOnDemand (earlier ++ .close index :: later)
  have soundAfter := sound_reached createsOnDemand (earlier ++ .close index :: later)
  rw [reached_append] at seenTo soundAfter ⊢
  -- A close of an open broker waits for its loops. Any other one was answered when it began, and
  -- what its answer means is what the invariant says about the close that it found.
  cases closed : broker.closed with
  | false =>
    have connected := connected_reached createsOnDemand earlier broker
      (List.mem_of_getElem? isBroker)
    obtain ⟨now, closes⟩ := closesDown sound numbered accounted connected isBroker closed later
    exact ⟨now, closeOutcome_of_open closes soundAfter closed⟩
  | true =>
    have closedAt : (reached createsOnDemand earlier).ClosedAt index broker :=
      ⟨sound, numbered, isBroker, closed⟩
    obtain ⟨now, isNow, _⟩ := closedAt.performAll (.close index :: later)
    have again := reply?_performAll (reply?_close_again accounted isBroker closed) later
    exact ⟨now, closeOutcome_of_closed isNow seenTo again closed⟩

/-- The close of a broker with one loop begins. -/
def closeBegun : List Action :=
  [.start ⟨"updates", "relay", "one", 4⟩, .subscribe 0 .unlimited "door", .stepCall 0, .stepCall 0,
    .close 0]

/-- The loop ends, and then the close goes on. -/
def closeEnds : List Action := [.stepLoop 0 1, .stepCall 1]

theorem second_close_and_first :
    ∃ broker, (reached true closeBegun).brokers[0]? = some broker ∧ broker.closed = true ∧
      (reached true closeBegun).nextTicket = 2 ∧
      (reached true (closeBegun ++ .close 0 :: closeEnds)).reply? 2 =
        some (.completed (.ok ())) ∧
      (reached true (closeBegun ++ .close 0 :: closeEnds)).journal.closed = true ∧
      ∃ now, (reached true closeBegun).CloseOutcome
          (reached true (closeBegun ++ .close 0 :: closeEnds)) 0 broker now ∧
        now.loops = [] := by
  have isClosed : ∃ broker, (reached true closeBegun).brokers[0]? = some broker ∧
      broker.closed = true := ⟨_, rfl, rfl⟩
  obtain ⟨broker, isBroker, closed⟩ := isClosed
  obtain ⟨now, outcome⟩ := closes_leave_nothing true closeBegun closeEnds isBroker
  have last : ¬(reached true (closeBegun ++ .close 0 :: closeEnds)).IsBeingClosed 0 := by
    rintro ⟨caller, member, _⟩
    exact absurd member List.not_mem_nil
  obtain ⟨ended, shut⟩ := outcome.settled (outcome.atOnce closed) (Or.inr last)
  exact ⟨broker, isBroker, closed, rfl, outcome.atOnce closed, shut, now, outcome, ended⟩

/-- A broker is closed while a subscribe holds the reader that was opened for it. -/
def closeBeforeEntry : List Action :=
  [.start ⟨"updates", "relay", "one", 4⟩, .relink ⟨0, false, false, false, true⟩,
    .subscribe 0 .unlimited "door", .stepCall 0, .close 0, .stepCall 1]

/-- The second close has its answer while the loop runs and the journal is open, and a close can
have it while the reader of a subscribe is not released. -/
theorem second_close_returns_early :
    ((reached true (closeBegun ++ [.close 0])).reply? 2 = some (.completed (.ok ())) ∧
      (reached true (closeBegun ++ [.close 0])).brokers.map (·.loopCount) = [1] ∧
      (reached true (closeBegun ++ [.close 0])).journal.closed = false) ∧
    ((reached true closeBeforeEntry).reply? 1 = some (.completed (.ok ())) ∧
      (reached true closeBeforeEntry).claims.map (·.2.reader.map (·.released)) = [some false]) :=
  ⟨⟨rfl, rfl, rfl⟩, rfl, rfl⟩

end Cluster

end UpdateRelay
