import UpdateRelay.Proofs.Cluster.Operations

/-!
# Who uses a topic

A broker keeps its topic as long as it lives. `Cluster.uses` says at which places the brokers of a
topic are, and `Cluster.spares` which actions leave a topic to the calls at them.
-/

namespace UpdateRelay

/-! ## The topic of a broker -/

namespace JournaledBroker

variable (broker : JournaledBroker)

theorem topicUse_prune (resource : String) (ids : List SubscriberId) :
    (broker.prune resource ids).topicUse = broker.topicUse := by
  unfold prune
  split
  next => rfl
  next =>
    dsimp only
    split <;> rfl

theorem topicUse_offer (resource : String) (generation : Nat) (event : Event) :
    (broker.offer resource generation event).1.topicUse = broker.topicUse := by
  unfold offer
  split <;> rfl

theorem topicUse_dissolve (resource : String) (generation : Nat) :
    (broker.dissolve resource generation).topicUse = broker.topicUse := by
  unfold dissolve
  split <;> rfl

end JournaledBroker

namespace Node

variable {node after : Node} {progress : Progress}

theorem topicUse_pollCall? {call : Call} (stepped : node.pollCall? call = some (after, progress)) :
    after.broker.topicUse = node.broker.topicUse := by
  cases callTurn stepped with
  | failed | closed => rfl
  | publish _ turn => rw [turn.grows.2.1]
  | @abandoned _ _ _ stage => cases stage <;> rfl
  | @subscribe resource _ _ _ _ _ turn =>
    cases turn with
    | stuck | hung | made | unmade | shut | joined | withEntry => rfl
    | attached _ answered | refused _ answered | missing answered =>
      have same := broker_attach node resource
      rw [answered] at same
      exact congrArg JournaledBroker.topicUse same

theorem topicUse_read (node : Node) (loop : ConsumptionLoop) :
    (node.read loop).broker.topicUse = node.broker.topicUse := by
  unfold read
  split
  next record _ =>
    unfold handOn
    cases eventFor? loop.resource record with
    | none => rfl
    | some event => exact node.broker.topicUse_offer _ _ event
  next => rfl
  next => exact node.broker.topicUse_dissolve _ _
  next => rfl

theorem topicUse_pollLoop? {loop : ConsumptionLoop} (stepped : node.pollLoop? loop = some after) :
    after.broker.topicUse = node.broker.topicUse := by
  cases loopTurn stepped with
  | tidied => exact node.broker.topicUse_prune _ _
  | ended | resumed | failed => rfl
  | read => exact node.topicUse_read loop

/-! ## Steps that leave a topic alone -/

variable {name : String} {content : Option (List JournalRecord)}

theorem serviceable_pollLoop? {loop : ConsumptionLoop}
    (serviceable : node.journal.Serviceable name content)
    (stepped : node.pollLoop? loop = some after) : after.journal.Serviceable name content := by
  cases loopTurn stepped with
  | tidied | resumed | failed => exact serviceable
  | ended => exact serviceable.leave loop.reader
  | read =>
    unfold read
    split
    next record _ =>
      have taken := serviceable.take loop.reader
      unfold handOn
      cases eventFor? loop.resource record with
      | none => exact taken
      | some event => exact taken
    next => exact serviceable
    next => exact serviceable.leave loop.reader
    next => exact serviceable

/-- A call of a broker that uses another topic leaves a topic alone. -/
theorem serviceable_pollCall? {call : Call} (serviceable : node.journal.Serviceable name content)
    (stepped : node.pollCall? call = some (after, progress))
    (elsewhere : node.broker.identity.topic ≠ name) (other : call.isClose = false) :
    after.journal.Serviceable name content := by
  have appended := serviceable.append_of_ne elsewhere
  have made := serviceable.makeTopic_of_ne elsewhere
  cases callTurn stepped with
  | closed => contradiction
  | failed => exact serviceable
  | @abandoned _ _ _ stage =>
    cases stage with
    | opened reader => exact serviceable.leave reader
    | opening | creating | reopening | stuck => exact serviceable
  | @publish record _ _ _ _ _ turn =>
    have written := appended record
    cases turn with
    | hung => exact serviceable
    | written _ answered | unwritten _ answered | missing answered =>
      rw [answered] at written
      exact written
    | made answered | unmade answered =>
      rw [answered] at made
      exact made
  | @subscribe resource _ _ _ _ _ turn =>
    have attached : (node.attach resource).1.journal.Serviceable name content :=
      serviceable.attach node.broker.identity.topic (node.broker.identity.group resource)
    cases turn with
    | stuck | hung | withEntry => exact serviceable
    | attached _ answered | refused _ answered | missing answered =>
      rw [answered] at attached
      exact attached
    | made answered | unmade answered =>
      rw [answered] at made
      exact made
    | @shut reader | @joined reader => exact serviceable.leave reader

end Node

namespace Cluster

/-! ## The topics of a cluster -/

/-- The topic of the broker at an index, and whether the broker is closed. -/
def topicUse? (cluster : Cluster) (index : Nat) : Option (String × Bool) :=
  cluster.brokers[index]?.map (·.topicUse)

/-- Whether the broker at an index uses a topic. -/
def uses (cluster : Cluster) (topic : String) (index : Nat) : Bool :=
  (cluster.topicUse? index).any fun topicUse => topicUse.1 = topic

variable {cluster : Cluster} {index : Nat}

theorem uses_of_topicUse? {topic : String} {closed : Bool}
    (topicUse : cluster.topicUse? index = some (topic, closed)) :
    cluster.uses topic index = true := by
  simp [uses, topicUse]

theorem topicUse?_withNode {there : Nat} {node after : Node}
    (isNode : cluster.node? there = some node)
    (same : after.broker.topicUse = node.broker.topicUse) :
    (cluster.withNode there after).topicUse? index = cluster.topicUse? index := by
  obtain ⟨isBroker, _⟩ := node?_eq_some isNode
  simp only [topicUse?, withNode, List.getElem?_set]
  split
  next here =>
    subst here
    rw [if_pos (List.getElem?_eq_some_iff.1 isBroker).1, isBroker]
    exact congrArg some same
  next => rfl

theorem topicUse?_begin {there : Nat} {start : Node → Node × Progress}
    (same : ∀ node : Node, (start node).1.broker.topicUse = node.broker.topicUse) :
    (cluster.begin there start).topicUse? index = cluster.topicUse? index := by
  unfold begin
  cases isNode : cluster.node? there with
  | none => rfl
  | some node =>
    have kept := @topicUse?_withNode cluster index there node (start node).1 isNode (same node)
    dsimp only
    split <;> exact kept

theorem topicUse?_modifyBroker {there : Nat} {change : JournaledBroker → JournaledBroker}
    (same : ∀ broker : JournaledBroker, (change broker).topicUse = broker.topicUse) :
    (cluster.modifyBroker there change).topicUse? index = cluster.topicUse? index := by
  simp only [topicUse?, modifyBroker, List.getElem?_modify]
  split
  next =>
    cases cluster.brokers[index]? with
    | none => rfl
    | some broker => exact congrArg some (same broker)
  next => rw [id_map']

/-! ## What leaves a topic to the calls in progress -/

/-- Whether an action leaves a topic to the calls at its brokers: it neither makes nor removes nor
writes the topic, cancels none of those calls, closes no broker and keeps no request from its
answer. Publishes and subscribes may begin anywhere. -/
def spares (cluster : Cluster) (topic : String) : Action → Bool
  | .start identity => identity.topic ≠ topic
  | .cancelScope ticket =>
      !(cluster.caller? ticket).any fun caller => cluster.uses topic caller.broker
  | .close _ => false
  | .append name _ | .makeTopic name | .removeTopic name => name ≠ topic
  | .breakJournal brokenAppends refusesCreation => brokenAppends = 0 && !refusesCreation
  | .relink link => link.serves
  | _ => true

/-- Whether all actions of a run spare a topic. -/
def sparesAll (topic : String) : Cluster → List Action → Bool
  | _, [] => true
  | cluster, action :: actions =>
      cluster.spares topic action && sparesAll topic (cluster.perform action) actions

/-- Brokers keep their topics; a broker that is started uses another topic. -/
theorem topicUse?_perform {topic : String} {action : Action}
    (spares : cluster.spares topic action = true) (index : Nat) :
    (cluster.perform action).topicUse? index = cluster.topicUse? index ∨
      (cluster.topicUse? index = none ∧ (cluster.perform action).uses topic index = false) := by
  cases action with
  | start identity =>
    have other : identity.topic ≠ topic := of_decide_eq_true spares
    have grown : (cluster.perform (.start identity)).topicUse? index =
        (cluster.brokers ++ [.empty identity])[index]?.map (·.topicUse) := rfl
    rw [uses, grown, topicUse?, List.getElem?_append]
    split
    next => exact Or.inl rfl
    next beyond =>
      refine Or.inr ⟨by rw [List.getElem?_eq_none (Nat.le_of_not_lt beyond)]; rfl, ?_⟩
      cases found : [JournaledBroker.empty identity][index - cluster.brokers.length]? with
      | none => rfl
      | some broker =>
        obtain rfl := List.mem_singleton.1 (List.mem_of_getElem? found)
        simpa [JournaledBroker.topicUse, JournaledBroker.empty] using other
  | close => contradiction
  | publish there scope resource event =>
    exact Or.inl (topicUse?_begin fun node =>
      (Operation.begins_publish node there scope resource event).topicUse)
  | subscribe there scope resource =>
    exact Or.inl (topicUse?_begin fun node =>
      (Operation.begins_subscribe node there scope resource).topicUse)
  | unsubscribe there resource id =>
    exact Or.inl (topicUse?_modifyBroker fun broker => broker.topicUse_prune resource [id])
  | receive | drain | abandon => exact Or.inl (topicUse?_modifyBroker fun _ => rfl)
  | stepCall ticket =>
    rcases cluster.perform_stepCall ticket with idle | ⟨caller, node, next, progress, _, _,
      isNode, polled, noted⟩
    · exact Or.inl (by rw [idle])
    · have kept := @topicUse?_withNode cluster index _ _ _ isNode (Node.topicUse_pollCall? polled)
      rw [noted]
      cases progress <;> exact Or.inl kept
  | stepLoop there generation =>
    rcases cluster.perform_stepLoop there generation with idle | ⟨node, loop, after, isNode,
      _, stepped, performed⟩
    · exact Or.inl (by rw [idle])
    · rw [performed]
      exact Or.inl (topicUse?_withNode isNode (Node.topicUse_pollLoop? stepped))
  | cancelScope | append | makeTopic | removeTopic | breakJournal | relink | pass =>
    exact Or.inl rfl

theorem uses_perform {topic : String} {action : Action}
    (spares : cluster.spares topic action = true) (idle : cluster.uses topic index = false) :
    (cluster.perform action).uses topic index = false := by
  rcases topicUse?_perform spares index with same | ⟨_, other⟩
  · rw [uses, same]
    exact idle
  · exact other

end Cluster

end UpdateRelay
