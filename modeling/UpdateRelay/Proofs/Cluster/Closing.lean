import UpdateRelay.Proofs.Cluster.Calls
import UpdateRelay.Proofs.Cluster.Failing
import UpdateRelay.Proofs.Cluster.ClosedBrokers

/-!
# Closing a durable broker

From the moment a close begins, publishes and subscribes that are in progress can only fail, those
that begin later fail at once, and what the broker still has to do is to let its loops end. When the
close has its answer, nothing of the broker is left.
-/

namespace UpdateRelay.Cluster

/-- Whether an action is a step of a call. -/
def Action.isStepOf (ticket : Nat) : Action → Bool
  | .stepCall other => other = ticket
  | _ => false

/-- Whether an action leaves a link alone that answers all requests, or makes it one. -/
def Action.keepsAnswering : Action → Bool
  | .relink link => link.answers
  | _ => true

/-! ## The link -/

theorem link_of_node? {cluster : Cluster} {index : Nat} {node : Node}
    (isNode : cluster.node? index = some node) : node.link = cluster.link := by
  obtain ⟨_, _, rfl⟩ := Option.map_eq_some_iff.1 isNode
  rfl

theorem link_begin (cluster : Cluster) (index : Nat) {start : Node → Node × Progress}
    (kept : ∀ node, (start node).1.link = node.link) :
    (cluster.begin index start).link = cluster.link := by
  unfold begin
  cases isNode : cluster.node? index with
  | none => rfl
  | some node =>
    have same := (kept node).trans (link_of_node? isNode)
    dsimp only
    cases (start node).2 <;> exact same

/-- What becomes of the link: it is exchanged, or some reads less are to fail. -/
theorem link_perform (cluster : Cluster) (action : Action) :
    (∃ link, action = .relink link ∧ (cluster.perform action).link = link) ∨
      ∃ reads, (cluster.perform action).link = { cluster.link with failingReads := reads } := by
  cases action with
  | relink link => exact Or.inl ⟨link, rfl, rfl⟩
  | publish index scope resource event =>
    exact Or.inr ⟨_, cluster.link_begin index (Node.link_beginPublish · scope resource event)⟩
  | subscribe index scope resource =>
    exact Or.inr ⟨_, cluster.link_begin index (Node.link_beginSubscribe · scope resource)⟩
  | close index => exact Or.inr ⟨_, cluster.link_begin index Node.link_beginClose⟩
  | stepCall ticket =>
    rcases cluster.perform_stepCall ticket with idle | ⟨_, node, next, progress, _, _, isNode,
      polled, noted⟩
    · rw [idle]
      exact Or.inr ⟨_, rfl⟩
    · have kept := (Node.link_pollCall? polled).trans (link_of_node? isNode)
      have same : (cluster.perform (.stepCall ticket)).link = next.link := by
        rw [noted]
        cases progress <;> rfl
      exact Or.inr ⟨_, same.trans kept⟩
  | stepLoop index generation =>
    rcases cluster.perform_stepLoop index generation with same | ⟨_, _, next, isNode, _, stepped,
      after⟩
    · rw [same]
      exact Or.inr ⟨_, rfl⟩
    · obtain ⟨reads, kept⟩ := Node.link_pollLoop? stepped
      rw [link_of_node? isNode] at kept
      rw [after]
      exact Or.inr ⟨reads, kept⟩
  | _ => exact Or.inr ⟨_, rfl⟩

theorem answers_perform {cluster : Cluster} (answers : cluster.link.answers) {action : Action}
    (keeps : action.keepsAnswering) : (cluster.perform action).link.answers := by
  rcases cluster.link_perform action with ⟨link, rfl, same⟩ | ⟨reads, same⟩
  · rw [same]
    exact keeps
  · rw [same]
    exact answers

/-! ## Calls that were in progress -/

/-- Whether a publish or a subscribe is in progress at a broker. -/
structure Underway (cluster : Cluster) (index : Nat) (caller : Caller) : Prop where
  inProgress : cluster.caller? caller.ticket = some caller
  unanswered : cluster.reply? caller.ticket = none
  here : caller.broker = index
  other : caller.call.isClose = false

/-- Whether a publish or a subscribe at a broker is in progress or has failed. -/
def CanOnlyFail (cluster : Cluster) (index ticket : Nat) : Prop :=
  (∃ caller, caller.ticket = ticket ∧ cluster.Underway index caller) ∨
    ∃ reply, cluster.reply? ticket = some reply ∧ reply.failed = true

/-- Whether a publish or a subscribe at a broker has its answer, or will have it after some number
of steps if its requests are answered. -/
def AnsweredWithin (cluster : Cluster) (index ticket steps : Nat) : Prop :=
  (∃ caller, caller.ticket = ticket ∧ cluster.Underway index caller ∧
      caller.call.isStuck = false ∧ caller.call.stepsLeft ≤ steps) ∨
    ∃ reply, cluster.reply? ticket = some reply

/-- Whether a close of a broker is in progress, or has come to an end together with all loops and
the journal. -/
def IsClosing (cluster : Cluster) (index ticket : Nat) : Prop :=
  (cluster.caller? ticket = some ⟨ticket, index, .close⟩ ∧ cluster.reply? ticket = none) ∨
    (cluster.reply? ticket = some (.completed (.ok ())) ∧ cluster.journal.closed = true ∧
      ∃ broker, cluster.brokers[index]? = some broker ∧ broker.loops = [])

theorem isClose_cancelScope (call : Call) : call.cancelScope.isClose = call.isClose := by
  cases call <;> rfl

theorem isStuck_cancelScope (call : Call) : call.cancelScope.isStuck = call.isStuck := by
  cases call with
  | publish | close => rfl
  | subscribe resource id scope stage => cases stage <;> rfl

theorem stepsLeft_cancelScope (call : Call) : call.cancelScope.stepsLeft = call.stepsLeft := by
  cases call with
  | publish | close => rfl
  | subscribe resource id scope stage => cases stage <;> rfl

section Closed

variable {cluster : Cluster} {index ticket : Nat} {broker : JournaledBroker}

theorem ClosedAt.old (closedAt : cluster.ClosedAt index broker) {caller : Caller}
    (inProgress : cluster.caller? ticket = some caller) : ticket < cluster.nextTicket := by
  obtain ⟨member, rfl⟩ := (caller?_eq_some_iff closedAt.numbered).1 inProgress
  exact closedAt.numbered.old caller member

/-- At a closed broker a call need not wait, and a step of it brings it on. -/
theorem ClosedAt.moves (closedAt : cluster.ClosedAt index broker) (answers : cluster.link.answers)
    {caller : Caller} (here : caller.broker = index) (other : caller.call.isClose = false)
    (going : caller.call.isStuck = false) :
    ∃ node after progress, cluster.node? caller.broker = some node ∧
      node.pollCall? caller.call = some (after, progress) ∧
      ∀ later, progress = .pending later →
        later.stepsLeft < caller.call.stepsLeft ∧ later.isStuck = false := by
  let node : Node := ⟨cluster.now, cluster.journal, cluster.link, broker⟩
  have isNode : cluster.node? caller.broker = some node := by
    simp [node, node?, here, closedAt.isBroker]
  have shut : node.broker.closed = true := closedAt.closed
  obtain ⟨after, progress, polled, closer⟩ := Node.pollCall?_of_closed shut answers other going
  exact ⟨node, after, progress, isNode, polled, closer⟩

theorem CanOnlyFail.perform (closedAt : cluster.ClosedAt index broker)
    (fails : cluster.CanOnlyFail index ticket) (action : Action) :
    (cluster.perform action).CanOnlyFail index ticket := by
  rcases fails with ⟨caller, rfl, ⟨inProgress, unanswered, rfl, other⟩⟩ | ⟨reply, answered, failed⟩
  · have old := closedAt.old inProgress
    cases callStep_perform inProgress unanswered old action with
    | idle still unanswered => exact Or.inl ⟨caller, rfl, still, unanswered, rfl, other⟩
    | cancelled still unanswered =>
      exact Or.inl ⟨{ caller with call := caller.call.cancelScope }, rfl, still, unanswered, rfl,
        (isClose_cancelScope _).trans other⟩
    | @went _ node _ later isNode polled still unanswered =>
      exact Or.inl ⟨{ caller with call := later }, rfl, still, unanswered, rfl,
        isClose_pollCall? polled⟩
    | answered isNode polled answer =>
      have shut := (closedAt.broker_of_node? isNode).symm ▸ closedAt.closed
      exact Or.inr ⟨_, answer, Node.failed_pollCall? shut other polled⟩
  · exact Or.inr ⟨reply, reply?_perform answered action, failed⟩

theorem AnsweredWithin.perform {steps : Nat} (closedAt : cluster.ClosedAt index broker)
    (answers : cluster.link.answers) (within : cluster.AnsweredWithin index ticket steps)
    (action : Action) : (cluster.perform action).AnsweredWithin index ticket
      (steps - if action.isStepOf ticket then 1 else 0) := by
  rcases within with ⟨caller, rfl, ⟨inProgress, unanswered, rfl, other⟩, going, left⟩ |
    ⟨reply, answered⟩
  · have old := closedAt.old inProgress
    obtain ⟨node, next, progress, isNode, stepped, closer⟩ :=
      closedAt.moves answers rfl other going
    cases callStep_perform inProgress unanswered old action with
    | idle still unanswered waits =>
      -- The call need not wait, so the action was no step of it.
      have apart : action.isStepOf caller.ticket = false := by
        cases action with
        | stepCall ticket =>
          refine decide_eq_false fun same => ?_
          have stuck := waits (congrArg _ same)
          simp [pollCaller?, isNode, stepped] at stuck
        | _ => rfl
      rw [apart]
      exact Or.inl ⟨caller, rfl, ⟨still, unanswered, rfl, other⟩, going, left⟩
    | cancelled still unanswered =>
      exact Or.inl ⟨{ caller with call := caller.call.cancelScope }, rfl,
        ⟨still, unanswered, rfl, (isClose_cancelScope _).trans other⟩,
        (isStuck_cancelScope _).trans going,
        Nat.le_trans (Nat.le_of_eq (stepsLeft_cancelScope _)) left⟩
    | @went _ _ _ later sameNode polled still unanswered =>
      obtain rfl := Option.some.inj (isNode.symm.trans sameNode)
      obtain ⟨rfl, rfl⟩ := Prod.mk.inj (Option.some.inj (stepped.symm.trans polled))
      obtain ⟨fewer, goes⟩ := closer _ rfl
      refine Or.inl ⟨{ caller with call := later }, rfl,
        ⟨still, unanswered, rfl, isClose_pollCall? polled⟩, goes, ?_⟩
      simp only [Action.isStepOf, decide_true, if_true]
      omega
    | answered isNode polled answer => exact Or.inr ⟨_, answer⟩
  · exact Or.inr ⟨reply, reply?_perform answered action⟩

theorem IsClosing.perform (closedAt : cluster.ClosedAt index broker)
    (isClosing : cluster.IsClosing index ticket) (action : Action) :
    (cluster.perform action).IsClosing index ticket := by
  rcases isClosing with ⟨inProgress, unanswered⟩ | ⟨answered, shut, last, isLast, ended⟩
  · have old := closedAt.old inProgress
    have step : cluster.CallStep ⟨ticket, index, .close⟩ action (cluster.perform action) :=
      callStep_perform inProgress unanswered old action
    cases step with
    | idle still unanswered | cancelled still unanswered => exact Or.inl ⟨still, unanswered⟩
    | went isNode polled => cases Node.callTurn polled
    | @answered _ node _ _ isNode polled answer brokers journal =>
      cases Node.callTurn polled with
      | closed ended =>
        have inside := (List.getElem?_eq_some_iff.1 closedAt.isBroker).1
        refine Or.inr ⟨answer, by rw [journal]; rfl, node.broker, ?_, ended⟩
        rw [brokers, List.getElem?_set_self inside]
  · obtain rfl := Option.some.inj (closedAt.isBroker.symm.trans isLast)
    obtain ⟨next, isNext, drains, _⟩ := closedAt.perform action
    have stays := (step_perform closedAt.numbered action).closed_mono shut
    refine Or.inr ⟨reply?_perform answered action, stays, next, isNext.isBroker, ?_⟩
    -- Every loop comes from one that was there before, and there was none.
    refine List.eq_nil_iff_forall_not_mem.2 fun loop member => ?_
    obtain ⟨earlier, isEarlier, _⟩ := drains.succession loop member
    rw [ended] at isEarlier
    contradiction

/-- A run in which requests are answered brings a call closer to its answer with each of its
steps. -/
theorem AnsweredWithin.performAll {steps : Nat} (closedAt : cluster.ClosedAt index broker)
    (answers : cluster.link.answers) (within : cluster.AnsweredWithin index ticket steps)
    {actions : List Action} (keeps : ∀ action ∈ actions, action.keepsAnswering) :
    (cluster.performAll actions).AnsweredWithin index ticket
      (steps - actions.countP (·.isStepOf ticket)) := by
  induction actions generalizing cluster broker steps with
  | nil => exact within
  | cons action actions inductionHypothesis =>
    rw [List.forall_mem_cons] at keeps
    obtain ⟨next, isNext, _⟩ := closedAt.perform action
    have later := inductionHypothesis isNext (answers_perform answers keeps.1)
      (within.perform closedAt answers action) keeps.2
    rw [List.countP_cons, Nat.add_comm, Nat.sub_add_eq]
    exact later

/-- A call that has no steps left has its answer. -/
theorem AnsweredWithin.answered (within : cluster.AnsweredWithin index ticket 0) :
    ∃ reply, cluster.reply? ticket = some reply := by
  rcases within with ⟨caller, _, _, _, none⟩ | answered
  · have positive : 0 < caller.call.stepsLeft := by
      unfold Call.stepsLeft
      split <;> decide
    omega
  · exact answered

end Closed

/-! ## Closing -/

theorem perform_close {cluster : Cluster} {index : Nat} {broker : JournaledBroker}
    (isBroker : cluster.brokers[index]? = some broker) (isOpen : broker.closed = false) :
    cluster.perform (.close index) =
      { cluster with
        brokers := cluster.brokers.set index broker.disband
        calls := cluster.calls ++ [⟨cluster.nextTicket, index, .close⟩]
        nextTicket := cluster.nextTicket + 1 } := by
  simp [perform, begin, node?, isBroker, Node.beginClose, isOpen, withNode, Node.modifyBroker]

end UpdateRelay.Cluster

namespace UpdateRelay

/-- What a close leaves of a broker: no entry, no loop that was not there and none that was not told
to stop, and mailboxes that nothing comes into any more and that end once they are empty. -/
structure JournaledBroker.ShutDown (before now : JournaledBroker) : Prop where
  closed : now.closed = true
  deserted : now.entryCount = 0
  stopped : ∀ loop ∈ now.loops, loop.cancelled = true ∧
    ∃ earlier ∈ before.loops, loop.Succeeds earlier
  places : now.room.nextPlace = before.room.nextPlace
  queues : ∀ place, now.room.queue place <:+ before.room.queue place
  ended : ∀ place, now.room.queue place = [] → now.room.receipt place = .closed

namespace Cluster

/-- What a close of a broker comes to, from one state, in which it begins, to a later one. -/
structure ClosesDown (before after : Cluster) (index : Nat) (broker now : JournaledBroker) :
    Prop where
  isNow : after.brokers[index]? = some now
  shutDown : broker.ShutDown now
  silent : ∀ action place event, (index, place, Feed.offer event) ∉ after.told action
  ending : ∀ {node : Node}, after.node? index = some node →
    ∀ loop ∈ node.broker.loops, ∃ next, node.pollLoop? loop = some next
  returned : ∀ {reply : Reply}, after.reply? before.nextTicket = some reply →
    reply = .completed (.ok ()) ∧ now.loops = [] ∧ after.journal.closed = true
  failing : ∀ caller ∈ before.calls, caller.broker = index → caller.call.isClose = false →
    after.CanOnlyFail index caller.ticket
  publish : ∀ (scope : Scope) (resource : String) (event : Event),
    (after.perform (.publish index scope resource event)).reply? after.nextTicket =
        some (.completed (.error (scope.refusal after.now .closed))) ∧
      (after.perform (.publish index scope resource event)).journal = after.journal
  subscribe : ∀ (scope : Scope) (resource : String),
    (after.perform (.subscribe index scope resource)).reply? after.nextTicket =
        some (.subscribed (.error (scope.refusal after.now
          (if Mailbox.canHold now.identity.capacity then .closed
            else .mailboxTooLarge now.identity.capacity)))) ∧
      (after.perform (.subscribe index scope resource)).journal = after.journal
  unwritten : ∀ caller ∈ after.calls, caller.broker = index → caller.call.isClose = false →
    ∀ name, (after.perform (.stepCall caller.ticket)).journal.records name =
      after.journal.records name
  readers : ∀ {name : String} {topic : Topic}, after.journal.topics.get? name = some topic →
    ∀ group, topic.memberCount group = (readersOf after.brokers after.claims).countP
      (·.readsFor name topic.epoch group)
  vacated : now.loops = [] → (∀ caller ∈ after.calls, caller.broker ≠ index) →
    ∀ {name : String} {topic : Topic}, after.journal.topics.get? name = some topic →
      ∀ group, topic.memberCount group =
        (readersOf (after.brokers.eraseIdx index) after.claims).countP
          (·.readsFor name topic.epoch group)

/-! ## What begins later -/

section Later

variable {cluster : Cluster} {index : Nat} {broker : JournaledBroker}

theorem ClosedAt.exists_node (closedAt : cluster.ClosedAt index broker) :
    ∃ node, cluster.node? index = some node ∧ node.broker = broker ∧ node.now = cluster.now ∧
      node.journal = cluster.journal :=
  ⟨⟨cluster.now, cluster.journal, cluster.link, broker⟩, by simp [node?, closedAt.isBroker], rfl,
    rfl, rfl⟩

theorem reply?_publish (closedAt : cluster.ClosedAt index broker) (accounted : cluster.Accounted)
    (scope : Scope) (resource : String) (event : Event) :
    (cluster.perform (.publish index scope resource event)).reply? cluster.nextTicket =
        some (.completed (.error (scope.refusal cluster.now .closed))) ∧
      (cluster.perform (.publish index scope resource event)).journal = cluster.journal := by
  obtain ⟨node, isNode, rfl, now, journal⟩ := closedAt.exists_node
  have refused := node.beginPublish_of_closed closedAt.closed scope resource event
  have begun := reply?_begin isNode (·.beginPublish scope resource event)
    (congrArg Prod.snd refused) (accounted.reply?_of_le (Nat.le_refl _))
  rw [(beginPublish_same node scope resource event).1, journal, now] at begun
  exact begun

theorem reply?_subscribe (closedAt : cluster.ClosedAt index broker) (accounted : cluster.Accounted)
    (scope : Scope) (resource : String) :
    (cluster.perform (.subscribe index scope resource)).reply? cluster.nextTicket =
        some (.subscribed (.error (scope.refusal cluster.now
          (if Mailbox.canHold broker.identity.capacity then .closed
            else .mailboxTooLarge broker.identity.capacity)))) ∧
      (cluster.perform (.subscribe index scope resource)).journal = cluster.journal := by
  obtain ⟨node, isNode, rfl, now, journal⟩ := closedAt.exists_node
  have refused := node.beginSubscribe_of_closed closedAt.closed scope resource
  have begun := reply?_begin isNode (·.beginSubscribe scope resource) refused
    (accounted.reply?_of_le (Nat.le_refl _))
  rw [(beginSubscribe_same node scope resource).1, journal, now] at begun
  exact begun

/-- No call of a closed broker but a close touches a record. -/
theorem records_stepCall (closedAt : cluster.ClosedAt index broker) {caller : Caller}
    (member : caller ∈ cluster.calls) (here : caller.broker = index)
    (other : caller.call.isClose = false) (name : String) :
    (cluster.perform (.stepCall caller.ticket)).journal.records name =
      cluster.journal.records name := by
  rcases cluster.perform_stepCall caller.ticket with idle | ⟨stepper, node, next, progress,
    isStepper, sameTicket, isNode, polled, noted⟩
  · rw [idle]
  · obtain rfl := List.inj_on_of_nodup_map closedAt.numbered.distinct isStepper member sameTicket
    have shut := (closedAt.broker_of_node? (here ▸ isNode)).symm ▸ closedAt.closed
    have kept := Node.records_pollCall? shut other polled name
    rw [(node?_eq_some isNode).2] at kept
    rw [noted]
    cases progress <;> exact kept

end Later

/-! ## What a close comes to -/

theorem shutDown_of_drains {broker now : JournaledBroker} (connected : broker.Connected)
    (entryLoops : now.EntryLoops) (drains : broker.disband.Drains now) : broker.ShutDown now where
  closed := drains.closed
  deserted := entryLoops.entryCount_of_closed drains.closed
  stopped := by
    have total := broker.drains_disband.trans drains
    exact fun loop member => ⟨entryLoops.cancelled drains.closed loop member,
      total.succession loop member⟩
  places := (broker.drains_disband.trans drains).nextPlace
  queues := (broker.drains_disband.trans drains).queue
  ended := fun place => Mailroom.receipt_eq_closed fun sends =>
    connected.not_sends_disband place (drains.sends place sends)

section Run

variable {cluster : Cluster} {index : Nat} {broker : JournaledBroker}

theorem closedAt_close (sound : cluster.Sound) (numbered : cluster.Numbered)
    (isBroker : cluster.brokers[index]? = some broker) (isOpen : broker.closed = false) :
    (cluster.perform (.close index)).ClosedAt index broker.disband where
  sound := sound.perform numbered _
  numbered := numbered.perform _
  isBroker := by
    have inside := (List.getElem?_eq_some_iff.1 isBroker).1
    rw [perform_close isBroker isOpen]
    exact List.getElem?_set_self inside
  closed := rfl

/-- The close itself is in progress once it has begun, and so are the calls that were. -/
theorem inProgress_close (numbered : cluster.Numbered) (accounted : cluster.Accounted)
    (isBroker : cluster.brokers[index]? = some broker) (isOpen : broker.closed = false) :
    (cluster.perform (.close index)).IsClosing index cluster.nextTicket ∧
      ∀ caller ∈ cluster.calls, caller.broker = index → caller.call.isClose = false →
        (cluster.perform (.close index)).Underway index caller := by
  constructor
  · refine Or.inl ⟨(caller?_eq_some_iff (numbered.perform _)).2 ⟨?_, rfl⟩, ?_⟩
    · rw [perform_close isBroker isOpen]
      exact List.mem_append_right _ (List.mem_singleton_self _)
    · rw [perform_close isBroker isOpen]
      exact accounted.reply?_of_le (Nat.le_refl _)
  · intro caller member here other
    obtain ⟨sameCaller, sameReply⟩ := callState_begin (numbered.old caller member) index
      (·.beginClose)
    exact ⟨sameCaller.trans ((caller?_eq_some_iff numbered).2 ⟨member, rfl⟩),
      sameReply.trans (accounted.reply?_of_mem member), here, other⟩

theorem readers_of_vacated {now : JournaledBroker}
    (isNow : cluster.brokers[index]? = some now) (ended : now.loops = []) :
    (readersOf cluster.brokers cluster.claims).Perm
      (readersOf (cluster.brokers.eraseIdx index) cluster.claims) := by
  have split : (readersOf cluster.brokers cluster.claims).Perm
      ((Footprint.mk cluster.journal now none).readers ++
        readersOf (cluster.brokers.eraseIdx index) cluster.claims) :=
    perm_readersOf cluster.journal isNow (.refl cluster.claims)
  rw [Footprint.readers, ended] at split
  exact split

theorem closesDown (sound : cluster.Sound) (numbered : cluster.Numbered)
    (accounted : cluster.Accounted) (connected : broker.Connected)
    (isBroker : cluster.brokers[index]? = some broker) (isOpen : broker.closed = false)
    (actions : List Action) : ∃ now, cluster.ClosesDown
      ((cluster.perform (.close index)).performAll actions) index broker now := by
  -- The broker is closed by the first action; whatever all actions keep from then on holds last.
  have begun := closedAt_close sound numbered isBroker isOpen
  obtain ⟨isClosing, underway⟩ := inProgress_close numbered accounted isBroker isOpen
  obtain ⟨now, isNow, drains⟩ := begun.performAll actions
  have later := accounted_performAll (accounted.perform numbered (.close index)) begun.numbered
    actions
  have entryLoops := isNow.sound.entryLoops isNow.isBroker
  refine ⟨now, ?_⟩
  constructor
  case isNow => exact isNow.isBroker
  case shutDown => exact shutDown_of_drains connected entryLoops drains
  case silent =>
    intro action
    obtain ⟨_, _, _, silent⟩ := isNow.perform action
    exact silent
  case ending =>
    intro node isNode loop member
    rw [isNow.broker_of_node? isNode] at member
    exact Node.pollLoop?_of_cancelled (entryLoops.cancelled isNow.closed loop member)
  case returned =>
    intro reply answered
    rcases begun.run IsClosing.perform isClosing actions with ⟨_, unanswered⟩ |
      ⟨completed, shut, last, isLast, ended⟩
    · rw [unanswered] at answered
      contradiction
    · obtain rfl := Option.some.inj (completed.symm.trans answered)
      obtain rfl := Option.some.inj (isNow.isBroker.symm.trans isLast)
      exact ⟨rfl, ended, shut⟩
  case failing =>
    intro caller member here other
    exact begun.run CanOnlyFail.perform (Or.inl ⟨caller, rfl, underway caller member here other⟩)
      actions
  case publish => exact reply?_publish isNow later
  case subscribe => exact reply?_subscribe isNow later
  case unwritten => exact fun caller => records_stepCall isNow
  case readers => exact isNow.sound.counts.counted
  case vacated =>
    intro ended _ name topic found group
    rw [isNow.sound.counts.counted found group]
    exact (readers_of_vacated isNow.isBroker ended).countP_eq _

end Run

/-- In every run, from the moment a close of a broker begins: the broker has no entry, its loops
only end, no mailbox of it is offered anything, and its receivers get what is left and then the end.
The close can only succeed, and when it does no loop is left and the journal is closed. Publishes
and subscribes that were in progress can only fail and, if their requests are answered, do so within
four steps; those that begin later fail at once. None of them adds a record, and the readers that
are open are those of loops and of subscribes in progress. -/
theorem close_releases_everything (createsOnDemand : Bool) (earlier later : List Action)
    {index : Nat} {broker : JournaledBroker}
    (isBroker : (reached createsOnDemand earlier).brokers[index]? = some broker)
    (isOpen : broker.closed = false) :
    let before := reached createsOnDemand earlier
    let after := reached createsOnDemand (earlier ++ .close index :: later)
    (∃ now, before.ClosesDown after index broker now) ∧
      (before.link.answers → (∀ action ∈ later, action.keepsAnswering) →
        ∀ caller ∈ before.calls, caller.broker = index → caller.call.isClose = false →
          caller.call.isStuck = false → 4 ≤ later.countP (·.isStepOf caller.ticket) →
            ∃ reply, after.reply? caller.ticket = some reply ∧ reply.failed = true) := by
  intro before after
  have sound : before.Sound := sound_reached createsOnDemand earlier
  have numbered : before.Numbered := numbered_reached createsOnDemand earlier
  have accounted : before.Accounted := accounted_reached createsOnDemand earlier
  have connected := connected_reached createsOnDemand earlier broker
    (List.mem_of_getElem? isBroker)
  have isAfter : after = (before.perform (.close index)).performAll later :=
    reached_append createsOnDemand earlier _
  rw [isAfter]
  obtain ⟨now, closes⟩ := closesDown sound numbered accounted connected isBroker isOpen later
  refine ⟨⟨now, closes⟩, fun answers keeps caller member here other going stepped => ?_⟩
  have begun := closedAt_close sound numbered isBroker isOpen
  have underway := (inProgress_close numbered accounted isBroker isOpen).2 caller member here other
  have few : caller.call.stepsLeft ≤ 4 := by
    unfold Call.stepsLeft
    split <;> decide
  have answering : (before.perform (.close index)).link.answers := by
    rw [perform_close isBroker isOpen]
    exact answers
  have within := AnsweredWithin.performAll begun answering
    (Or.inl ⟨caller, rfl, underway, going, few⟩) keeps
  rw [Nat.sub_eq_zero_of_le stepped] at within
  -- The answer is there, and it can only be a failure.
  obtain ⟨reply, answered⟩ := within.answered
  rcases closes.failing caller member here other with ⟨_, same, inProgress⟩ | failed
  · rw [← same, inProgress.unanswered] at answered
    contradiction
  · exact failed

/-- A broker has a loop that pauses after a read that failed, an event in a mailbox, a subscribe
that holds a reader, and a publish that is about to append. -/
def busy : List Action :=
  [.start ⟨"updates", "relay", "one", 4⟩, .subscribe 0 .unlimited "door", .stepCall 0, .stepCall 0,
    .publish 0 .unlimited "door" ⟨"door", 1, "opened"⟩, .stepCall 1, .stepLoop 0 1,
    .relink ⟨1, false, false, false, false⟩, .stepLoop 0 1,
    .subscribe 0 .unlimited "gate", .stepCall 2,
    .publish 0 .unlimited "door" ⟨"door", 2, "closed"⟩]

/-- Both calls take steps, the loop ends, and then the close has its answer. -/
def closingSteps : List Action :=
  [.stepCall 3, .stepCall 3, .stepCall 3, .stepCall 3, .stepCall 2, .stepCall 2, .stepCall 2,
    .stepCall 2, .stepLoop 0 1, .stepCall 4]

theorem busy_broker_closes :
    ∃ broker, (reached true busy).brokers[0]? = some broker ∧ broker.closed = false ∧
      broker.loopCount = 1 ∧ broker.entryCount = 1 ∧
      (reached true busy).calls.map (·.ticket) = [2, 3] ∧
      (∃ now, (reached true busy).ClosesDown (reached true (busy ++ .close 0 :: closingSteps)) 0
        broker now) ∧
      (∃ reply, (reached true (busy ++ .close 0 :: closingSteps)).reply? 2 = some reply ∧
        reply.failed = true) ∧
      (∃ reply, (reached true (busy ++ .close 0 :: closingSteps)).reply? 3 = some reply ∧
        reply.failed = true) ∧
      (reached true (busy ++ .close 0 :: closingSteps)).reply? 4 = some (.completed (.ok ())) ∧
      (reached true (busy ++ .close 0 :: closingSteps)).journal.closed = true := by
  have isOpen : ∃ broker, (reached true busy).brokers[0]? = some broker ∧ broker.closed = false ∧
      broker.loopCount = 1 ∧ broker.entryCount = 1 := ⟨_, rfl, rfl, rfl, rfl⟩
  obtain ⟨broker, isBroker, isOpen, loops, entries⟩ := isOpen
  obtain ⟨closes, answered⟩ := close_releases_everything true busy closingSteps isBroker isOpen
  have calls : ∃ subscribe publish, (reached true busy).calls = [subscribe, publish] ∧
      subscribe.broker = 0 ∧ subscribe.call.isClose = false ∧ subscribe.call.isStuck = false ∧
      subscribe.ticket = 2 ∧ publish.broker = 0 ∧ publish.call.isClose = false ∧
      publish.call.isStuck = false ∧ publish.ticket = 3 :=
    ⟨_, _, rfl, rfl, rfl, rfl, rfl, rfl, rfl, rfl, rfl⟩
  obtain ⟨subscribe, publish, are, subscribeHere, subscribeOther, subscribeGoing, second,
    publishHere, publishOther, publishGoing, third⟩ := calls
  have answers := answered (by decide) (by decide)
  rw [are] at answers
  have first := answers subscribe (by simp) subscribeHere subscribeOther subscribeGoing
    (by rw [second]; decide)
  have last := answers publish (by simp) publishHere publishOther publishGoing
    (by rw [third]; decide)
  rw [second] at first
  rw [third] at last
  exact ⟨broker, isBroker, isOpen, loops, entries, rfl, closes, first, last, rfl, rfl⟩

/-- A broker whose mailboxes are to be larger than any can be was closed, and a subscribe begins. -/
def vastCapacity : List Action :=
  [.start ⟨"updates", "relay", "one", 0x2000000000000000⟩, .close 0, .stepCall 0,
    .subscribe 0 .unlimited "door"]

/-- The subscribe does not fail because the broker is closed: its mailbox cannot be made. -/
theorem vast_mailbox_after_close :
    (reached true vastCapacity).reply? 0 = some (.completed (.ok ())) ∧
      (reached true vastCapacity).reply? 1 =
        some (.subscribed (.error (.mailboxTooLarge 0x2000000000000000))) ∧
      (reached true vastCapacity).reply? 1 ≠ some (.subscribed (.error .closed)) :=
  ⟨rfl, rfl, fun same => nomatch same⟩

end Cluster

end UpdateRelay
