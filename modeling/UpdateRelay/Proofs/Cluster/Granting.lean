import UpdateRelay.Proofs.Cluster.Provisioning

/-!
# Subscribes that are granted

A broker accepts subscribers if it is open, the journal answers it, and its topic is there or can
be made. A subscribe at such a broker is granted, whether the topic was there, was made by the
journal on demand or had to be asked for.
-/

namespace UpdateRelay

namespace Journal

/-- Whether there is a topic for whoever opens a reader of it. -/
def Provides (journal : Journal) (name : String) : Prop :=
  journal.hasTopic name = true ∨ journal.createsOnDemand = true

variable {journal : Journal} {name : String}

theorem Provides.ensureTopic (provides : journal.Provides name) :
    ∃ ready, journal.ensureTopic name = .ok ready ∧ ready.hasTopic name = true := by
  unfold Journal.ensureTopic
  cases present : journal.hasTopic name with
  | true => exact ⟨journal, rfl, present⟩
  | false =>
    rcases provides with has | creates
    · rw [present] at has
      contradiction
    · exact ⟨journal.addTopic name, by simp [creates], hasTopic_addTopic journal name⟩

theorem Provides.attach (provides : journal.Provides name) (isOpen : journal.closed = false)
    (group : String) : ∃ after reader, journal.attach name group = (after, .ok reader) := by
  obtain ⟨ready, ensured, has⟩ := provides.ensureTopic
  rw [hasTopic_eq_isSome] at has
  obtain ⟨topic, found⟩ := Option.isSome_iff_exists.1 has
  refine ⟨ready.modifyTopic name (Topic.join · group),
    ⟨name, topic.epoch, group, topic.records.length, false⟩, ?_⟩
  simp only [Journal.attach, isOpen, ensured, found, Bool.false_eq_true, if_false]

/-- A reader of a topic that there is none of, and that nobody makes on demand, is refused. -/
theorem attach_of_not_provides (bare : ¬journal.Provides name) (isOpen : journal.closed = false)
    (group : String) : journal.attach name group = (journal, .error (.unknownTopic name)) := by
  simp only [Provides, not_or, Bool.not_eq_true] at bare
  simp [Journal.attach, Journal.ensureTopic, isOpen, bare]

theorem makeTopic_of_not_provides (bare : ¬journal.Provides name)
    (isOpen : journal.closed = false) (willing : journal.refusesCreation = false) :
    ∃ after, journal.makeTopic name = (after, .ok ()) ∧ after.closed = false ∧
      after.Provides name := by
  simp only [Provides, not_or, Bool.not_eq_true] at bare
  refine ⟨{ journal with makeCount := journal.makeCount + 1 }.addTopic name, ?_, isOpen,
    Or.inl (hasTopic_addTopic _ _)⟩
  simp [Journal.makeTopic, isOpen, willing, bare]

end Journal

/-! ## At one broker -/

namespace Node

/-- Whether a broker is open, the journal answers it, and its topic is there or can be made. -/
structure AcceptsSubscribe (node : Node) : Prop where
  isOpen : node.broker.closed = false
  reachable : node.journal.closed = false
  answers : node.link.answers = true
  topic : node.journal.Provides node.broker.identity.topic ∨ node.journal.refusesCreation = false

variable {node after : Node} {progress : Progress} {scope : Scope} {resource : String}
  {id : SubscriberId}

/-- Whether a subscribe is granted, and its subscriber has a seat at the place that it was told. -/
def Granted (resource : String) (id : SubscriberId) (result : Node × Progress) : Prop :=
  ∃ place, result.2 = .replied (.subscribed (.ok ⟨id, resource, place⟩)) ∧
    result.1.broker.seat? resource id = some place

/-- A subscriber for whom a reader was opened gets the next place, with the entry that there is or
with one of its own. -/
theorem register_of_open (isOpen : node.broker.closed = false) (resource : String)
    (id : SubscriberId) (reader : Reader) :
    ∃ after, node.register resource id reader = (after, node.subscriptionAt resource id) ∧
      after.broker.seat? resource id = some node.broker.room.nextPlace := by
  unfold register
  rw [isOpen]
  cases found : node.broker.entries.get? resource with
  | some entry =>
    have same := fun other => (JournaledBroker.seat?_of_get? found other).symm
    exact ⟨_, rfl, (JournaledBroker.seat?_join same id resource id).trans (if_pos ⟨rfl, rfl⟩)⟩
  | none =>
    have same : ∀ other, (Entry.mk .empty node.broker.freshGeneration).subscribers.place? other =
        node.broker.seat? resource other := by
      intro other
      rw [JournaledBroker.seat?, found]
      exact Roster.place?_empty other
    exact ⟨_, rfl, (JournaledBroker.seat?_join same id resource id).trans (if_pos ⟨rfl, rfl⟩)⟩

/-- A subscribe that has a reader is granted. -/
theorem granted_of_opened (isOpen : node.broker.closed = false)
    (hands : node.link.holdsOpened = false) (live : scope.stop? node.now = none) (reader : Reader)
    (steps : Nat) :
    Granted resource id
      (pursue (steps + 1) node (.pending (.subscribe resource id scope (.opened reader)))) := by
  have free : holds node.link (.opened reader) = false := hands
  obtain ⟨after, registered, seat⟩ := register_of_open isOpen resource id reader
  have polled : node.pollCall? (.subscribe resource id scope (.opened reader)) =
      some (after, node.subscriptionAt resource id) := by
    rw [pollCall?_subscribe live resource id free, ← registered]
    rfl
  rw [pursue_of_polled polled, subscriptionAt, pursue_replied]
  exact ⟨node.broker.room.nextPlace, rfl, seat⟩

/-- A subscribe that asks for a reader where there is a topic gets one. -/
theorem granted_of_provides (isOpen : node.broker.closed = false)
    (reachable : node.journal.closed = false) (answers : node.link.answers = true)
    (provides : node.journal.Provides node.broker.identity.topic)
    (live : scope.stop? node.now = none) {stage : SubscribeStage}
    (asks : stage = .opening ∨ stage = .reopening) (steps : Nat) :
    Granted resource id
      (pursue (steps + 2) node (.pending (.subscribe resource id scope stage))) := by
  simp only [Link.answers, Bool.and_eq_true, Bool.not_eq_true'] at answers
  obtain ⟨⟨_, opens⟩, hands⟩ := answers
  obtain ⟨journal, reader, attached⟩ :=
    provides.attach reachable (node.broker.identity.group resource)
  have polled : node.pollCall? (.subscribe resource id scope stage) =
      some ({ node with journal := journal },
        .pending (.subscribe resource id scope (.opened reader))) := by
    have free : holds node.link stage = false := by rcases asks with rfl | rfl <;> exact opens
    rw [pollCall?_subscribe live resource id free]
    rcases asks with rfl | rfl <;> simp [pollSubscribe, attach, attached]
  rw [pursue_of_polled polled]
  exact @granted_of_opened { node with journal := journal } scope resource id isOpen hands live
    reader steps

/-- A subscribe at a broker that accepts it is granted within four steps. -/
theorem AcceptsSubscribe.grants (accepts : node.AcceptsSubscribe)
    (live : scope.stop? node.now = none) (resource : String) (id : SubscriberId) :
    Granted resource id (pursue 4 node (.pending (.subscribe resource id scope .opening))) := by
  obtain ⟨isOpen, reachable, answers, topic⟩ := accepts
  by_cases provides : node.journal.Provides node.broker.identity.topic
  · exact granted_of_provides isOpen reachable answers provides live (Or.inl rfl) 2
  · -- The topic is missing, so the call asks for it before it asks for a reader once more.
    obtain ⟨journal, made, stillOpen, present⟩ := Journal.makeTopic_of_not_provides provides
      reachable (topic.resolve_left provides)
    have missing := Journal.attach_of_not_provides provides reachable
      (node.broker.identity.group resource)
    have free := answers
    simp only [Link.answers, Bool.and_eq_true, Bool.not_eq_true'] at free
    obtain ⟨⟨creates, opens⟩, _⟩ := free
    have refused : node.pollCall? (.subscribe resource id scope .opening) =
        some (node, .pending (.subscribe resource id scope .creating)) := by
      have unheld : holds node.link .opening = false := opens
      rw [pollCall?_subscribe live resource id unheld]
      simp [pollSubscribe, attach, missing]
    have asked : node.pollCall? (.subscribe resource id scope .creating) =
        some ({ node with journal := journal },
          .pending (.subscribe resource id scope .reopening)) := by
      rw [pollCall?_subscribe live resource id rfl]
      simp [pollSubscribe, creates, made]
    rw [pursue_of_polled refused, pursue_of_polled asked]
    exact @granted_of_provides { node with journal := journal } scope resource id isOpen stillOpen
      answers present live _ (Or.inr rfl) 0

/-- No step of a call takes time. -/
theorem now_pollCall? {call : Call} (stepped : node.pollCall? call = some (after, progress)) :
    after.now = node.now := by
  cases callTurn stepped with
  | failed | closed => rfl
  | publish _ turn => cases turn <;> rfl
  | @abandoned _ _ _ stage => cases stage <;> rfl
  | @subscribe resource _ _ _ _ _ turn =>
    have attached : (node.attach resource).1.now = node.now := rfl
    cases turn with
    | attached _ answered | refused _ answered | missing answered =>
      rw [answered] at attached
      exact attached
    | stuck | hung | made | unmade | shut | joined | withEntry => rfl

end Node

/-! ## In a cluster -/

namespace Cluster

variable {cluster : Cluster} {index ticket : Nat} {node after : Node} {reply : Reply}

/-- The steps of a call that has its answer do nothing. -/
theorem performAll_stepCalls_of_none (gone : cluster.caller? ticket = none) (steps : Nat) :
    cluster.performAll (List.replicate steps (.stepCall ticket)) = cluster := by
  have same : cluster.perform (.stepCall ticket) = cluster := by
    unfold caller? at gone
    simp only [perform, stepCall, gone]
  induction steps with
  | zero => rfl
  | succ steps inductionHypothesis =>
    rw [List.replicate_succ, performAll, List.foldl_cons, same]
    exact inductionHypothesis

theorem caller?_note_replied (cluster : Cluster) (ticket index : Nat) (reply : Reply) :
    (cluster.note ticket index (.replied reply)).caller? ticket = none := by
  simp only [note, caller?, List.find?_filter, List.find?_eq_none]
  intro caller _
  simp

/-- Where nothing happens but the steps of one call, it comes as far as its node takes it. -/
theorem answered_of_pursue (steps : Nat) {call : Call}
    (isCaller : cluster.caller? ticket = some ⟨ticket, index, call⟩)
    (unanswered : cluster.reply? ticket = none) (isNode : cluster.node? index = some node)
    (pursued : Node.pursue steps node (.pending call) = (after, .replied reply)) :
    let last := cluster.performAll (List.replicate steps (.stepCall ticket))
    last.reply? ticket = some reply ∧ last.brokers[index]? = some after.broker := by
  induction steps generalizing cluster node call with
  | zero => cases pursued
  | succ steps inductionHypothesis =>
    cases polled : node.pollCall? call with
    | none => simp [Node.pursue, polled] at pursued
    | some result =>
      obtain ⟨next, progress⟩ := result
      rw [Node.pursue_of_polled polled] at pursued
      have stepped := @stepCall_of_polled cluster ⟨ticket, index, call⟩ node next progress isCaller
        isNode polled
      obtain ⟨isBroker, _⟩ := node?_eq_some isNode
      have inside := (List.getElem?_eq_some_iff.1 isBroker).1
      have noted := @callState_note ⟨ticket, index, call⟩ (cluster.withNode index next) isCaller
        unanswered index
      have placed : (cluster.withNode index next).brokers[index]? = some next.broker := by
        simp [withNode, inside]
      simp only [List.replicate_succ, performAll, List.foldl_cons, stepped]
      cases progress with
      | pending call =>
        have now : next.now = cluster.now := by
          rw [Node.now_pollCall? polled]
          obtain ⟨_, _, rfl⟩ := Option.map_eq_some_iff.1 isNode
          rfl
        have isNext : ((cluster.withNode index next).note ticket index (.pending call)).node?
            index = some next := by
          have same : (cluster.withNode index next).now = next.now := now.symm
          simp only [node?, note, placed, Option.map_some, same]
          rfl
        exact inductionHypothesis (noted.1 call) unanswered isNext pursued
      | replied answer =>
        rw [Node.pursue_replied] at pursued
        cases pursued
        rw [← performAll, performAll_stepCalls_of_none (caller?_note_replied _ _ _ _)]
        exact ⟨noted.2 reply, placed⟩

section Begun

variable {next : Node} {start : Node → Node × Progress}

theorem caller?_nextTicket (numbered : cluster.Numbered) :
    cluster.caller? cluster.nextTicket = none := by
  refine List.find?_eq_none.2 fun caller member same => ?_
  have old := numbered.old caller member
  rw [of_decide_eq_true same] at old
  exact Nat.lt_irrefl _ old

/-- A call that has its answer at once is not in progress. -/
theorem begun_of_replied (numbered : cluster.Numbered) (accounted : cluster.Accounted)
    (isNode : cluster.node? index = some node) (replied : start node = (next, .replied reply)) :
    (cluster.begin index start).caller? cluster.nextTicket = none ∧
      (cluster.begin index start).reply? cluster.nextTicket = some reply ∧
      (cluster.begin index start).brokers[index]? = some next.broker := by
  have unused := accounted.reply?_of_le (Nat.le_refl cluster.nextTicket)
  have inside := (List.getElem?_eq_some_iff.1 (node?_eq_some isNode).1).1
  refine ⟨?_, (reply?_begin isNode start (congrArg Prod.snd replied) unused).1, ?_⟩
  · rw [← caller?_nextTicket numbered]
    simp only [begin, isNode, replied, caller?, withNode]
  · simp [begin, isNode, replied, withNode, inside]

/-- A call that does not have its answer at once is in progress. -/
theorem begun_of_pending (numbered : cluster.Numbered) (accounted : cluster.Accounted)
    (isNode : cluster.node? index = some node) {call : Call}
    (pending : start node = (next, .pending call)) (now : next.now = cluster.now) :
    (cluster.begin index start).caller? cluster.nextTicket =
        some ⟨cluster.nextTicket, index, call⟩ ∧
      (cluster.begin index start).reply? cluster.nextTicket = none ∧
      (cluster.begin index start).node? index = some next := by
  have fresh := caller?_nextTicket numbered
  have inside := (List.getElem?_eq_some_iff.1 (node?_eq_some isNode).1).1
  have entered : cluster.begin index start =
      { cluster.withNode index next with
        calls := cluster.calls ++ [⟨cluster.nextTicket, index, call⟩]
        nextTicket := cluster.nextTicket + 1 } := by
    simp only [begin, isNode, pending]
    rfl
  rw [entered]
  refine ⟨?_, accounted.reply?_of_le (Nat.le_refl cluster.nextTicket), ?_⟩
  · unfold caller? at fresh
    simp [caller?, List.find?_append, fresh]
  · simp [node?, withNode, inside, ← now]

end Begun

/-- A subscribe at a broker that accepts it, whose mailboxes can be made, is granted if its call
is left to take its steps. -/
theorem subscribe_granted (numbered : cluster.Numbered) (accounted : cluster.Accounted)
    (isNode : cluster.node? index = some node) (accepts : node.AcceptsSubscribe)
    (fits : Mailbox.canHold node.broker.identity.capacity = true) {scope : Scope}
    (live : scope.stop? node.now = none) (resource : String) :
    let id : SubscriberId := ⟨node.broker.nextNumber⟩
    let last := cluster.performAll (.subscribe index scope resource ::
      List.replicate 4 (.stepCall cluster.nextTicket))
    ∃ place broker, last.reply? cluster.nextTicket =
        some (.subscribed (.ok ⟨id, resource, place⟩)) ∧
      last.brokers[index]? = some broker ∧ broker.seat? resource id = some place := by
  intro id last
  let start : Node → Node × Progress := (·.beginSubscribe scope resource)
  have isLast : last = (cluster.begin index start).performAll
      (List.replicate 4 (.stepCall cluster.nextTicket)) := rfl
  let spent := node.modifyBroker JournaledBroker.spendNumber
  cases found : node.broker.entries.get? resource with
  | some entry =>
    -- The resource has an entry, and the subscriber joins it at once.
    let joined := spent.modifyBroker (·.join resource entry id)
    have begins : start node = (joined, node.subscriptionAt resource id) := by
      simp only [start, Node.beginSubscribe, Scope.check, live, fits, accepts.isOpen, found]
      rfl
    obtain ⟨gone, replied, placed⟩ := begun_of_replied numbered accounted isNode begins
    rw [performAll_stepCalls_of_none gone] at isLast
    have same : ∀ other, entry.subscribers.place? other = spent.broker.seat? resource other :=
      fun other => (JournaledBroker.seat?_of_get? found other).symm
    exact ⟨node.broker.room.nextPlace, joined.broker, isLast ▸ replied, isLast ▸ placed,
      (JournaledBroker.seat?_join same id resource id).trans (if_pos ⟨rfl, rfl⟩)⟩
  | none =>
    have begins : start node = (spent, .pending (.subscribe resource id scope .opening)) := by
      simp only [start, Node.beginSubscribe, Scope.check, live, fits, accepts.isOpen, found]
      rfl
    have now : spent.now = cluster.now := by
      obtain ⟨_, _, rfl⟩ := Option.map_eq_some_iff.1 isNode
      rfl
    obtain ⟨called, unanswered, isSpent⟩ :=
      begun_of_pending numbered accounted isNode begins now
    have stillWelcomes : spent.AcceptsSubscribe :=
      ⟨accepts.isOpen, accepts.reachable, accepts.answers, accepts.topic⟩
    obtain ⟨place, answered, seat⟩ := stillWelcomes.grants live resource id
    obtain ⟨replied, placed⟩ :=
      answered_of_pursue 4 called unanswered isSpent (Prod.ext rfl answered)
    exact ⟨place, _, isLast ▸ replied, isLast ▸ placed, seat⟩

end Cluster

end UpdateRelay
