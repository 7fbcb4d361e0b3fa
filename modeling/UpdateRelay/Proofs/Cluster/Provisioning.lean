import UpdateRelay.Proofs.Cluster.TopicUsers

/-!
# A topic that is being made

Several brokers may find their topic missing at once. Each call that does asks for it and tries once
more; only one of them makes it. `Cluster.Provisioned` says how far operations have come that began
since the topic was missing, and every action keeps it.
-/

namespace UpdateRelay.Cluster

/-! ## Operations of a run -/

/-- The operation that an action begins, if there is one. -/
def Action.operation? : Action → Option Operation
  | .publish broker scope resource event => some (.publish broker scope resource event)
  | .subscribe broker scope resource => some (.subscribe broker scope resource)
  | _ => none

/-- Whether an operation is admitted at a broker of a topic. -/
def Admits (cluster : Cluster) (topic : String) (operation : Operation) : Prop :=
  cluster.uses topic operation.broker = true ∧
    ∃ node ∈ cluster.node? operation.broker, operation.Admitted node

instance (cluster : Cluster) (topic : String) (operation : Operation) :
    Decidable (cluster.Admits topic operation) :=
  inferInstanceAs (Decidable (_ ∧ ∃ node ∈ cluster.node? operation.broker, operation.Admitted node))

/-- The operation that an action begins at a broker of a topic where it is admitted, with the number
of its call. -/
def begun? (cluster : Cluster) (topic : String) (action : Action) : Option (Nat × Operation) :=
  (action.operation?.filter fun operation => cluster.Admits topic operation).map
    (cluster.nextTicket, ·)

/-- The operations that begin in a run at brokers of a topic. -/
def operationsOf (topic : String) : Cluster → List Action → List (Nat × Operation)
  | _, [] => []
  | cluster, action :: actions =>
      (cluster.begun? topic action).toList ++ operationsOf topic (cluster.perform action) actions

/-- Whether an action is a request for a topic to be made that succeeds. -/
def creates (cluster : Cluster) (topic : String) : Action → Bool
  | .stepCall ticket =>
      (cluster.caller? ticket).any fun caller => cluster.uses topic caller.broker &&
        (cluster.node? caller.broker).any fun node => node.creates caller.call
  | .start identity =>
      identity.topic = topic && !cluster.link.hangsCreations &&
        (cluster.journal.makeTopic topic).2.isOk
  | .makeTopic name => name = topic && (cluster.journal.makeTopic topic).2.isOk
  | _ => false

/-- How many requests in a run for a topic to be made succeed. -/
def creations (topic : String) : Cluster → List Action → Nat
  | _, [] => 0
  | cluster, action :: actions =>
      (cluster.creates topic action).toNat + creations topic (cluster.perform action) actions

/-! ## How far operations have come -/

/-- The record that a call in progress is to leave, if its number is one of some. -/
def ownRecord? (tickets : List Nat) (caller : Caller) : Option JournalRecord :=
  if caller.ticket ∈ tickets then caller.call.record? else none

/-- The records that calls in progress are still to leave, among those with some numbers. -/
def unwritten (cluster : Cluster) (tickets : List Nat) : List JournalRecord :=
  cluster.calls.filterMap (ownRecord? tickets)

/-- Whether the call of an operation is in progress with a number of steps left at the most, or the
operation was granted. -/
def WithinSteps (cluster : Cluster) (topic : String) (ticket : Nat) (operation : Operation)
    (steps : Nat) : Prop :=
  (∃ call left, cluster.caller? ticket = some ⟨ticket, operation.broker, call⟩ ∧ left ≤ steps ∧
      operation.Under (cluster.journal.content? topic).isSome call left) ∨
    ∃ reply, cluster.reply? ticket = some reply ∧ operation.Granted reply ∧
      (cluster.journal.content? topic).isSome = true

/-- How far operations at brokers of a topic have come: each has its answer or few enough steps
left, and the topic holds what the operations leave, but for the records that are still to be
written. Whoever else has a call in progress uses another topic. -/
structure Provisioned (cluster : Cluster) (topic : String) (operations : List (Nat × Operation)) :
    Prop where
  numbered : cluster.Numbered
  accounted : cluster.Accounted
  serviceable : cluster.journal.Serviceable topic (cluster.journal.content? topic)
  serves : cluster.link.serves = true
  old : ∀ {ticket operation}, (ticket, operation) ∈ operations → ticket < cluster.nextTicket
  topicUses : ∀ {ticket operation}, (ticket, operation) ∈ operations →
    cluster.topicUse? operation.broker = some (topic, false)
  withinSteps : ∀ {ticket operation}, (ticket, operation) ∈ operations →
    cluster.WithinSteps topic ticket operation 4
  closeless : ∀ caller ∈ cluster.calls, caller.call.isClose = false
  strangers : ∀ caller ∈ cluster.calls, caller.ticket ∉ operations.map Prod.fst →
    cluster.uses topic caller.broker = false
  written : ((cluster.journal.content? topic).getD [] ++
    cluster.unwritten (operations.map Prod.fst)).Perm (operations.filterMap (·.2.record?))

/-- Whether an action is no step of a call with one of some numbers. -/
def Action.IsForeign (tickets : List Nat) : Action → Prop
  | .stepCall ticket => ticket ∉ tickets
  | _ => True

section Step

variable {cluster : Cluster} {topic : String} {operations : List (Nat × Operation)} {ticket : Nat}
  {operation : Operation} {action : Action}

/-! ### Steps of operations -/

theorem stepCall_of_polled {caller : Caller} {node next : Node} {progress : Progress}
    (isCaller : cluster.caller? caller.ticket = some caller)
    (isNode : cluster.node? caller.broker = some node)
    (polled : node.pollCall? caller.call = some (next, progress)) :
    cluster.perform (.stepCall caller.ticket) =
      (cluster.withNode caller.broker next).note caller.ticket caller.broker progress := by
  unfold caller? at isCaller
  simp only [perform, stepCall, isCaller, pollCaller?, isNode, polled, Option.map_some,
    Option.getD_some]

namespace Provisioned

/-- The next step of an operation that is in progress. -/
theorem own_step (provisioned : cluster.Provisioned topic operations)
    (isOperation : (ticket, operation) ∈ operations)
    (live : operation.scope.stop? cluster.now = none)
    {call : Call} {left : Nat}
    (inProgress : cluster.caller? ticket = some ⟨ticket, operation.broker, call⟩)
    (under : operation.Under (cluster.journal.content? topic).isSome call left) :
    ∃ next progress later,
      cluster.perform (.stepCall ticket) =
        (cluster.withNode operation.broker next).note ticket operation.broker progress ∧
      next.journal.Serviceable topic later ∧
      operation.Moves left (cluster.journal.content? topic) progress later ∧
      cluster.creates topic (.stepCall ticket) =
        ((cluster.journal.content? topic).isNone && later.isSome) := by
  have topicUse := provisioned.topicUses isOperation
  have uses := uses_of_topicUse? topicUse
  obtain ⟨broker, isBroker, same⟩ := Option.map_eq_some_iff.1 topicUse
  obtain ⟨rfl, isOpen⟩ := Prod.mk.inj same
  -- What its broker has before it is an open broker of the topic and a journal that serves.
  let node : Node := ⟨cluster.now, cluster.journal, cluster.link, broker⟩
  have isNode : cluster.node? operation.broker = some node := by simp [node?, isBroker, node]
  have moved : operation.MovesAt node call left (cluster.journal.content? broker.identity.topic) :=
    under.moves provisioned.serviceable isOpen provisioned.serves live
  obtain ⟨next, progress, later, polled, serviceable, moves, creates⟩ := moved
  refine ⟨next, progress, later, ?_, serviceable, moves, ?_⟩
  · exact @stepCall_of_polled cluster ⟨ticket, operation.broker, call⟩ node next progress
      inProgress isNode polled
  · simp [Cluster.creates, inProgress, uses, isNode, creates]

/-- A call of somebody else that takes a step is not at a broker of the topic. -/
theorem elsewhere (provisioned : cluster.Provisioned topic operations) {caller : Caller}
    (member : caller ∈ cluster.calls)
    (foreign : caller.ticket ∉ operations.map Prod.fst) {node : Node}
    (isNode : cluster.node? caller.broker = some node) :
    node.broker.identity.topic ≠ topic := by
  have stranger := provisioned.strangers caller member foreign
  simpa [uses, topicUse?, (node?_eq_some isNode).1, JournaledBroker.topicUse] using stranger

theorem serviceable_perform (provisioned : cluster.Provisioned topic operations)
    (spares : cluster.spares topic action = true)
    (foreign : action.IsForeign (operations.map Prod.fst)) :
    (cluster.perform action).journal.Serviceable topic (cluster.journal.content? topic) := by
  have serviceable := provisioned.serviceable
  cases action with
  | start identity =>
    have other : identity.topic ≠ topic := of_decide_eq_true spares
    simp only [perform, start, Node.start]
    split
    next => exact serviceable
    next => exact serviceable.makeTopic_of_ne other
  | close => contradiction
  | publish index scope resource event =>
    have same : (cluster.perform (.publish index scope resource event)).journal =
        cluster.journal := journal_begin fun node => (beginPublish_same node scope resource event).1
    rwa [same]
  | subscribe index scope resource =>
    have same : (cluster.perform (.subscribe index scope resource)).journal =
        cluster.journal := journal_begin fun node => (beginSubscribe_same node scope resource).1
    rwa [same]
  | append name record => exact serviceable.append_of_ne (of_decide_eq_true spares) record
  | makeTopic name => exact serviceable.makeTopic_of_ne (of_decide_eq_true spares)
  | removeTopic name => exact serviceable.removeTopic_of_ne (of_decide_eq_true spares)
  | breakJournal brokenAppends refusesCreation =>
    simp only [Cluster.spares, Bool.and_eq_true, decide_eq_true_eq, Bool.not_eq_true'] at spares
    exact ⟨serviceable.isOpen, spares.1, spares.2, serviceable.strict, serviceable.content⟩
  | stepCall ticket =>
    rcases cluster.perform_stepCall ticket with idle | ⟨caller, node, next, progress, member, same,
      isNode, polled, noted⟩
    · rwa [idle]
    · obtain rfl := same
      rw [← (node?_eq_some isNode).2] at serviceable
      have left := Node.serviceable_pollCall? serviceable polled
        (provisioned.elsewhere member foreign isNode) (provisioned.closeless caller member)
      rw [noted]
      cases progress <;> rwa [← (node?_eq_some isNode).2]
  | stepLoop index generation =>
    rcases cluster.perform_stepLoop index generation with idle | ⟨node, loop, after, isNode, _,
      stepped, performed⟩
    · rwa [idle]
    · rw [← (node?_eq_some isNode).2] at serviceable
      rw [performed, ← (node?_eq_some isNode).2]
      exact Node.serviceable_pollLoop? serviceable stepped
  | unsubscribe | receive | drain | abandon | cancelScope | relink | pass => exact serviceable

theorem creates_perform (provisioned : cluster.Provisioned topic operations)
    (spares : cluster.spares topic action = true)
    (foreign : action.IsForeign (operations.map Prod.fst)) :
    cluster.creates topic action = false := by
  cases action with
  | start identity =>
    have other : identity.topic ≠ topic := of_decide_eq_true spares
    simp [Cluster.creates, other]
  | makeTopic name =>
    have other : name ≠ topic := of_decide_eq_true spares
    simp [Cluster.creates, other]
  | stepCall ticket =>
    simp only [Cluster.creates]
    cases found : cluster.caller? ticket with
    | none => rfl
    | some caller =>
      obtain ⟨member, rfl⟩ := (caller?_eq_some_iff provisioned.numbered).1 found
      simp [provisioned.strangers caller member foreign]
  | _ => rfl

/-- No operation that began before has the number of the next call. -/
theorem fresh (provisioned : cluster.Provisioned topic operations) :
    cluster.nextTicket ∉ operations.map Prod.fst := by
  intro member
  obtain ⟨⟨ticket, operation⟩, isOperation, rfl⟩ := List.mem_map.1 member
  exact absurd (provisioned.old isOperation) (Nat.lt_irrefl _)

theorem unwritten_begin (provisioned : cluster.Provisioned topic operations) (index : Nat)
    (start : Node → Node × Progress) :
    (cluster.begin index start).unwritten (operations.map Prod.fst) =
      cluster.unwritten (operations.map Prod.fst) := by
  unfold begin
  cases cluster.node? index with
  | none => rfl
  | some node =>
    dsimp only
    cases (start node).2 with
    | replied reply => rfl
    | pending call =>
      have late : ownRecord? (operations.map Prod.fst) ⟨cluster.nextTicket, index, call⟩ = none :=
        if_neg provisioned.fresh
      simp only [unwritten, withNode, List.filterMap_append, List.filterMap_cons, late,
        List.filterMap_nil, List.append_nil]

theorem unwritten_perform (provisioned : cluster.Provisioned topic operations)
    (foreign : action.IsForeign (operations.map Prod.fst)) :
    (cluster.perform action).unwritten (operations.map Prod.fst) =
      cluster.unwritten (operations.map Prod.fst) := by
  cases action with
  | publish | subscribe | close => exact provisioned.unwritten_begin _ _
  | stepCall ticket =>
    rcases cluster.perform_stepCall ticket with idle | ⟨caller, node, next, progress, _, same,
      _, _, noted⟩
    · rw [idle]
    · subst same
      rw [noted]
      -- Whatever becomes of the call of somebody else, it is not counted.
      have uncounted : ∀ other : Caller, other.ticket = caller.ticket →
          ownRecord? (operations.map Prod.fst) other = none := by
        intro other same
        exact if_neg (same ▸ foreign)
      cases progress with
      | replied reply =>
        simp only [unwritten, note, withNode, List.filterMap_filter]
        refine List.filterMap_congr fun other _ => ?_
        by_cases same : other.ticket = caller.ticket
        · simp [same, uncounted other same]
        · simp [same]
      | pending call =>
        simp only [unwritten, note, withNode, List.filterMap_map]
        refine List.filterMap_congr fun other _ => ?_
        by_cases same : other.ticket = caller.ticket
        · simp [same, uncounted other same, uncounted ⟨caller.ticket, caller.broker, call⟩ rfl]
        · simp [same]
  | stepLoop index generation =>
    rcases cluster.perform_stepLoop index generation with idle | ⟨_, _, _, _, _, _, stepped⟩
    · rw [idle]
    · rw [stepped]
      rfl
  | cancelScope ticket =>
    simp only [unwritten, perform, List.filterMap_map]
    refine List.filterMap_congr fun other _ => ?_
    by_cases same : other.ticket = ticket
    · have kept : other.call.cancelScope.record? = other.call.record? := by
        cases other.call <;> rfl
      rw [Function.comp_apply, if_pos same]
      simp only [ownRecord?, kept]
    · simp [same]
  | _ => rfl

end Provisioned

/-! ### Operations that begin -/

theorem perform_operation (begins : action.operation? = some operation) :
    cluster.perform action = cluster.begin operation.broker operation.start := by
  cases action with
  | publish | subscribe =>
    cases begins
    rfl
  | _ => contradiction

theorem begun?_eq_some (begun : cluster.begun? topic action = some (ticket, operation)) :
    action.operation? = some operation ∧ cluster.Admits topic operation ∧
      ticket = cluster.nextTicket := by
  obtain ⟨_, filtered, same⟩ := Option.map_eq_some_iff.1 begun
  obtain ⟨rfl, rfl⟩ := Prod.mk.inj same
  obtain ⟨begins, admits⟩ := Option.filter_eq_some_iff.1 filtered
  exact ⟨begins, of_decide_eq_true admits, rfl⟩

/-- What begins at a broker of a topic and is not admitted has its answer at once. -/
theorem calls_of_refused (begins : action.operation? = some operation)
    (refused : cluster.begun? topic action = none)
    (uses : cluster.uses topic operation.broker = true) :
    (cluster.perform action).calls = cluster.calls := by
  rw [perform_operation begins]
  unfold begin
  cases isNode : cluster.node? operation.broker with
  | none => rfl
  | some node =>
    have unwelcome : ¬operation.Admitted node := fun admitted => by
      have admits : cluster.Admits topic operation := ⟨uses, node, isNode, admitted⟩
      simp [begun?, begins, Option.filter_some, admits] at refused
    have begun := operation.begins node
    dsimp only
    generalize operation.start node = started at begun
    cases begun with
    | pending admitted => exact absurd admitted unwelcome
    | replied => rfl

namespace Provisioned

/-- Where a publish or a subscribe begins that is none of the operations, it uses another topic. -/
theorem strangers_begin (provisioned : cluster.Provisioned topic operations)
    (begins : action.operation? = some operation) (refused : cluster.begun? topic action = none)
    {caller : Caller} (member : caller ∈ (cluster.perform action).calls)
    (foreign : caller.ticket ∉ operations.map Prod.fst) :
    cluster.uses topic caller.broker = false := by
  cases uses : cluster.uses topic operation.broker with
  | true =>
    rw [calls_of_refused begins refused uses] at member
    exact provisioned.strangers caller member foreign
  | false =>
    rw [perform_operation begins] at member
    unfold begin at member
    cases isNode : cluster.node? operation.broker with
    | none =>
      rw [isNode] at member
      exact provisioned.strangers caller member foreign
    | some node =>
      simp only [isNode] at member
      split at member
      next => exact provisioned.strangers caller member foreign
      next =>
        rcases List.mem_append.1 member with old | new
        · exact provisioned.strangers caller old foreign
        · rw [List.mem_singleton.1 new]
          exact uses

/-- Whoever has a call in progress that is none of the operations uses another topic. -/
theorem strangers_perform (provisioned : cluster.Provisioned topic operations)
    (spares : cluster.spares topic action = true) (refused : cluster.begun? topic action = none)
    {caller : Caller} (member : caller ∈ (cluster.perform action).calls)
    (foreign : caller.ticket ∉ operations.map Prod.fst) :
    (cluster.perform action).uses topic caller.broker = false := by
  refine uses_perform spares ?_
  cases action with
  | publish | subscribe => exact provisioned.strangers_begin rfl refused member foreign
  | close => contradiction
  | stepCall ticket =>
    rcases cluster.perform_stepCall ticket with idle | ⟨stepper, _, _, progress, isStepper, _, _, _,
      noted⟩
    · rw [idle] at member
      exact provisioned.strangers caller member foreign
    · rw [noted] at member
      cases progress with
      | replied reply => exact provisioned.strangers caller (List.mem_filter.1 member).1 foreign
      | pending call =>
        obtain ⟨earlier, isEarlier, rfl⟩ := List.mem_map.1 member
        split at foreign
        next same =>
          rw [if_pos same]
          exact provisioned.strangers stepper isStepper foreign
        next other =>
          rw [if_neg other]
          exact provisioned.strangers earlier isEarlier foreign
  | stepLoop index generation =>
    rcases cluster.perform_stepLoop index generation with idle | ⟨_, _, _, _, _, _, stepped⟩
    · rw [idle] at member
      exact provisioned.strangers caller member foreign
    · rw [stepped] at member
      exact provisioned.strangers caller member foreign
  | cancelScope ticket =>
    obtain ⟨earlier, isEarlier, rfl⟩ := List.mem_map.1 member
    split at foreign
    next same =>
      rw [if_pos same]
      exact provisioned.strangers earlier isEarlier foreign
    next other =>
      rw [if_neg other]
      exact provisioned.strangers earlier isEarlier foreign
  | _ => exact provisioned.strangers caller member foreign

end Provisioned

/-! ### Steps left of an operation -/

theorem WithinSteps.mono {few many : Nat}
    (withinSteps : cluster.WithinSteps topic ticket operation few) (le : few ≤ many) :
    cluster.WithinSteps topic ticket operation many := by
  rcases withinSteps with ⟨call, left, inProgress, fewer, under⟩ | granted
  · exact Or.inl ⟨call, left, inProgress, Nat.le_trans fewer le, under⟩
  · exact Or.inr granted

/-- An action that is no step of a call leaves the call where it is. -/
theorem Provisioned.same_caller (provisioned : cluster.Provisioned topic operations)
    (spares : cluster.spares topic action = true) (isOperation : (ticket, operation) ∈ operations)
    (idle : action.isStepOf ticket = false) {call : Call}
    (inProgress : cluster.caller? ticket = some ⟨ticket, operation.broker, call⟩) :
    (cluster.perform action).caller? ticket = cluster.caller? ticket := by
  have unanswered : cluster.reply? ticket = none :=
    provisioned.accounted.reply?_of_caller? provisioned.numbered inProgress
  have old : ticket < cluster.nextTicket := provisioned.old isOperation
  -- Nothing but a step or a cancellation could change the call, and it is not cancelled.
  have step : cluster.CallStep ⟨ticket, operation.broker, call⟩ action (cluster.perform action) :=
    callStep_perform inProgress unanswered old action
  cases step with
  | idle still => exact still.trans inProgress.symm
  | went | answered => simp [Action.isStepOf] at idle
  | cancelled =>
    have topicUse := provisioned.topicUses isOperation
    simp [Cluster.spares, inProgress, uses_of_topicUse? topicUse] at spares

/-- What an action comes to for an operation: a step of its call brings it closer to its answer. -/
theorem WithinSteps.perform (provisioned : cluster.Provisioned topic operations)
    (spares : cluster.spares topic action = true) (isOperation : (ticket, operation) ∈ operations)
    (live : operation.scope.stop? cluster.now = none)
    (stays : (cluster.journal.content? topic).isSome = true →
      ((cluster.perform action).journal.content? topic).isSome = true) {steps : Nat}
    (withinSteps : cluster.WithinSteps topic ticket operation steps) :
    (cluster.perform action).WithinSteps topic ticket operation
      (steps - (action.isStepOf ticket).toNat) := by
  rcases withinSteps with ⟨call, left, inProgress, few, under⟩ | ⟨reply, answered, grants, present⟩
  · cases own : action.isStepOf ticket with
    | false =>
      have same := provisioned.same_caller spares isOperation own inProgress
      exact Or.inl ⟨call, left, same.trans inProgress, few, under.mono stays⟩
    | true =>
      have unanswered : cluster.reply? ticket = none :=
        provisioned.accounted.reply?_of_caller? provisioned.numbered inProgress
      have isStep : action = .stepCall ticket := by
        cases action with
        | stepCall ticket => exact congrArg _ (of_decide_eq_true own)
        | _ => contradiction
      subst isStep
      obtain ⟨next, progress, later, performed, serviceable, moves, _⟩ :=
        provisioned.own_step isOperation live inProgress under
      have noted := @callState_note ⟨ticket, operation.broker, call⟩
        (cluster.withNode operation.broker next) inProgress unanswered operation.broker
      have content : ((cluster.withNode operation.broker next).note ticket operation.broker
          progress).journal.content? topic = later := by
        rw [← serviceable.content]
        cases progress <;> rfl
      rw [performed]
      unfold WithinSteps
      rw [content]
      generalize cluster.journal.content? topic = before at moves
      cases moves with
      | @cameOn _ more left fewer moved | @made more left fewer moved =>
        exact Or.inl ⟨more, left, noted.1 more, by simp only [Bool.toNat_true]; omega, moved⟩
      | @granted _ reply grants => exact Or.inr ⟨reply, noted.2 reply, grants, rfl⟩
  · exact Or.inr ⟨reply, reply?_perform answered action, grants, stays present⟩

/-! ### What is written and made -/

/-- What an action does to the content of a topic and to the records that are still to be written.
-/
structure ContentStep (before after : Cluster) (topic : String) (tickets : List Nat) (made : Bool) :
    Prop where
  serviceable : after.journal.Serviceable topic (after.journal.content? topic)
  stays : (before.journal.content? topic).isSome = true →
    (after.journal.content? topic).isSome = true
  written : ((after.journal.content? topic).getD [] ++ after.unwritten tickets).Perm
    ((before.journal.content? topic).getD [] ++ before.unwritten tickets)
  tally : made.toNat + (before.journal.content? topic).isSome.toNat =
    (after.journal.content? topic).isSome.toNat

/-- Nothing is written or made for the operations. -/
theorem ContentStep.idle {after : Cluster}
    (serviceable : after.journal.Serviceable topic (cluster.journal.content? topic))
    (unwritten : after.unwritten tickets = cluster.unwritten tickets) :
    ContentStep cluster after topic tickets false := by
  have same := serviceable.content
  exact ⟨same ▸ serviceable, fun present => same ▸ present, by rw [same, unwritten],
    by rw [same, Bool.toNat_false, Nat.zero_add]⟩

section Own

variable {broker : Nat} {call : Call}

theorem unwritten_pending {next : Node} (numbered : cluster.Numbered)
    (member : ⟨ticket, broker, call⟩ ∈ cluster.calls) {later : Call}
    (same : later.record? = call.record?) (tickets : List Nat) :
    ((cluster.withNode broker next).note ticket broker (.pending later)).unwritten tickets =
      cluster.unwritten tickets := by
  simp only [unwritten, note, withNode, List.filterMap_map]
  refine List.filterMap_congr fun other isOther => ?_
  by_cases here : other.ticket = ticket
  · obtain rfl : other = ⟨ticket, broker, call⟩ :=
      List.inj_on_of_nodup_map numbered.distinct isOther member here
    simp [ownRecord?, same]
  · simp [here]

theorem perm_unwritten_replied (numbered : cluster.Numbered)
    (member : ⟨ticket, broker, call⟩ ∈ cluster.calls) (next : Node) (reply : Reply)
    {tickets : List Nat} (own : ticket ∈ tickets) :
    (cluster.unwritten tickets).Perm (call.record?.toList ++
      ((cluster.withNode broker next).note ticket broker (.replied reply)).unwritten tickets) := by
  have split := (perm_cons_filter numbered.distinct member).filterMap (ownRecord? tickets)
  have mine : ownRecord? tickets ⟨ticket, broker, call⟩ = call.record? := if_pos own
  rw [List.filterMap_cons, mine] at split
  cases record : call.record? with
  | none =>
    rw [record] at split
    exact split
  | some written =>
    rw [record] at split
    exact split

end Own

namespace Provisioned

/-- A step of an operation keeps content and records together. -/
theorem contentStep_own (provisioned : cluster.Provisioned topic operations)
    (isOperation : (ticket, operation) ∈ operations)
    (live : operation.scope.stop? cluster.now = none)
    {call : Call} {left : Nat}
    (inProgress : cluster.caller? ticket = some ⟨ticket, operation.broker, call⟩)
    (under : operation.Under (cluster.journal.content? topic).isSome call left) :
    ContentStep cluster (cluster.perform (.stepCall ticket)) topic (operations.map Prod.fst)
      (cluster.creates topic (.stepCall ticket)) := by
  obtain ⟨member, _⟩ := (caller?_eq_some_iff provisioned.numbered).1 inProgress
  obtain ⟨next, progress, later, performed, serviceable, moves, creates⟩ :=
    provisioned.own_step isOperation live inProgress under
  have own : ticket ∈ operations.map Prod.fst := List.mem_map.2 ⟨_, isOperation, rfl⟩
  have left : ((cluster.withNode operation.broker next).note ticket operation.broker
      progress).journal.Serviceable topic later := by
    cases progress <;> exact serviceable
  have content := left.content
  have record := under.record
  rw [performed, creates]
  refine ⟨content.symm ▸ left, content ▸ moves.stays, ?_, content ▸ moves.tally⟩
  rw [content]
  generalize cluster.journal.content? topic = before at moves
  -- A record goes from those that are still to be written onto the content, or neither changes.
  cases moves with
  | cameOn _ moved =>
    rw [unwritten_pending provisioned.numbered member (moved.record.trans record.symm)]
  | made _ moved =>
    rw [unwritten_pending provisioned.numbered member (moved.record.trans record.symm)]
    exact .refl _
  | @granted records reply =>
    have split := perm_unwritten_replied provisioned.numbered member next reply own
    rw [record] at split
    simp only [Option.getD_some, List.append_assoc]
    exact split.symm.append_left records

/-- An action keeps the books. -/
theorem contentStep (provisioned : cluster.Provisioned topic operations)
    (spares : cluster.spares topic action = true)
    (live : ∀ {ticket operation}, (ticket, operation) ∈ operations →
      operation.scope.stop? cluster.now = none) :
    ContentStep cluster (cluster.perform action) topic (operations.map Prod.fst)
      (cluster.creates topic action) := by
  by_cases foreign : action.IsForeign (operations.map Prod.fst)
  · rw [provisioned.creates_perform spares foreign]
    exact .idle (provisioned.serviceable_perform spares foreign)
      (provisioned.unwritten_perform foreign)
  · cases action with
    | stepCall ticket =>
      -- It is a step of one of the operations, unless that one has its answer.
      have own : ticket ∈ operations.map Prod.fst := not_not.1 foreign
      obtain ⟨⟨ticket, operation⟩, isOperation, rfl⟩ := List.mem_map.1 own
      rcases provisioned.withinSteps isOperation with ⟨call, left, inProgress, _, under⟩ |
        ⟨reply, answered, _⟩
      · exact provisioned.contentStep_own isOperation (live isOperation) inProgress under
      · have absent : cluster.caller? ticket = none := by
          refine Option.eq_none_iff_forall_ne_some.2 fun caller isCaller => ?_
          have unanswered := provisioned.accounted.reply?_of_caller? provisioned.numbered isCaller
          rw [answered] at unanswered
          contradiction
        have idle : cluster.perform (.stepCall ticket) = cluster := by
          unfold caller? at absent
          simp [perform, stepCall, absent]
        have uncreated : cluster.creates topic (.stepCall ticket) = false := by
          simp [Cluster.creates, absent]
        rw [idle, uncreated]
        exact .idle provisioned.serviceable rfl
    | _ => exact absurd trivial foreign

/-- Operations in progress stay in order where no other begins. -/
theorem perform_refused (provisioned : cluster.Provisioned topic operations)
    (spares : cluster.spares topic action = true)
    (live : ∀ {ticket operation}, (ticket, operation) ∈ operations →
      operation.scope.stop? cluster.now = none)
    (refused : cluster.begun? topic action = none) :
    (cluster.perform action).Provisioned topic operations := by
  have contentStep := provisioned.contentStep spares live
  constructor
  case numbered => exact provisioned.numbered.perform action
  case accounted => exact provisioned.accounted.perform provisioned.numbered action
  case serviceable => exact contentStep.serviceable
  case serves =>
    rcases cluster.link_perform action with ⟨link, rfl, same⟩ | ⟨reads, same⟩
    · rw [same]
      exact spares
    · rw [same]
      exact provisioned.serves
  case old =>
    intro ticket operation isOperation
    exact Nat.lt_of_lt_of_le (provisioned.old isOperation) (cluster.nextTicket_perform_le action)
  case topicUses =>
    intro ticket operation isOperation
    have topicUse := provisioned.topicUses isOperation
    rcases topicUse?_perform spares operation.broker with same | ⟨absent, _⟩
    · exact same.trans topicUse
    · rw [absent] at topicUse
      contradiction
  case withinSteps =>
    intro ticket operation isOperation
    exact ((provisioned.withinSteps isOperation).perform provisioned spares isOperation
      (live isOperation) contentStep.stays).mono (Nat.sub_le _ _)
  case closeless =>
    refine closeless_perform ?_ provisioned.closeless
    rintro index rfl
    contradiction
  case strangers =>
    exact fun caller member => provisioned.strangers_perform spares refused member
  case written => exact contentStep.written.trans provisioned.written

end Provisioned

/-! ### One more operation -/

/-- The cluster after a call has begun at a broker. -/
def entered (cluster : Cluster) (index : Nat) (broker : JournaledBroker) (call : Call) : Cluster :=
  { cluster with
    brokers := cluster.brokers.set index broker
    calls := cluster.calls ++ [⟨cluster.nextTicket, index, call⟩]
    nextTicket := cluster.nextTicket + 1 }

/-- An operation that is admitted begins with a call that is in progress. -/
theorem Admits.begins (admits : cluster.Admits topic operation) :
    ∃ broker after call steps, cluster.brokers[operation.broker]? = some broker ∧
      after.topicUse = broker.topicUse ∧ steps ≤ 4 ∧ operation.Under false call steps ∧
      cluster.begin operation.broker operation.start =
        cluster.entered operation.broker after call := by
  obtain ⟨_, node, isNode, admitted⟩ := admits
  obtain ⟨broker, isBroker, rfl⟩ := Option.map_eq_some_iff.1 isNode
  have begun := operation.begins ⟨cluster.now, cluster.journal, cluster.link, broker⟩
  simp only [begin, node?, isBroker, Option.map_some]
  generalize operation.start ⟨cluster.now, cluster.journal, cluster.link, broker⟩ = started at begun
  cases begun with
  | @pending after call steps _ topicUse few under =>
    exact ⟨broker, after, call, steps, rfl, topicUse, few, under, rfl⟩
  | replied refused => exact absurd admitted refused

theorem Admits.topicUse (admits : cluster.Admits topic operation) :
    cluster.topicUse? operation.broker = some (topic, false) := by
  obtain ⟨uses, node, isNode, admitted⟩ := admits
  have isBroker : cluster.brokers[operation.broker]? = some node.broker := (node?_eq_some isNode).1
  simpa [Cluster.uses, topicUse?, isBroker, JournaledBroker.topicUse, admitted.isOpen] using uses

theorem topicUse?_entered {there : Nat} {broker after : JournaledBroker} (call : Call)
    (isBroker : cluster.brokers[there]? = some broker) (topicUse : after.topicUse = broker.topicUse)
    (index : Nat) : (cluster.entered there after call).topicUse? index =
      cluster.topicUse? index := by
  simp only [topicUse?, entered, List.getElem?_set]
  split
  next here =>
    subst here
    rw [if_pos (List.getElem?_eq_some_iff.1 isBroker).1, isBroker]
    exact congrArg some topicUse
  next => rfl

/-- The call with the next number is one more to be counted; the others are as before. -/
theorem unwritten_entered (numbered : cluster.Numbered) {tickets : List Nat} (index : Nat)
    (broker : JournaledBroker) (call : Call) :
    (cluster.entered index broker call).unwritten (tickets ++ [cluster.nextTicket]) =
      cluster.unwritten tickets ++ call.record?.toList := by
  have counted : ownRecord? (tickets ++ [cluster.nextTicket]) ⟨cluster.nextTicket, index, call⟩ =
      call.record? := if_pos (List.mem_append_right _ (List.mem_singleton.2 rfl))
  have others : cluster.calls.filterMap (ownRecord? (tickets ++ [cluster.nextTicket])) =
      cluster.unwritten tickets := by
    refine List.filterMap_congr fun caller member => ?_
    have old : caller.ticket ≠ cluster.nextTicket := Nat.ne_of_lt (numbered.old caller member)
    simp [ownRecord?, old]
  rw [unwritten, entered, List.filterMap_append, others]
  cases record : call.record? <;> simp [counted, record]

namespace Provisioned

/-- One more operation begins. -/
theorem begin (provisioned : cluster.Provisioned topic operations)
    (admits : cluster.Admits topic operation) :
    (cluster.begin operation.broker operation.start).Provisioned topic
      (operations ++ [(cluster.nextTicket, operation)]) := by
  have numbered := provisioned.numbered.begin operation.broker operation.start
  have accounted := provisioned.accounted.begin operation.broker operation.start
  have isTopicUse := admits.topicUse
  obtain ⟨broker, after, call, steps, isBroker, topicUse, few, under, begun⟩ := admits.begins
  have same := topicUse?_entered call isBroker topicUse
  rw [begun] at numbered accounted ⊢
  constructor
  case numbered => exact numbered
  case accounted => exact accounted
  case serviceable => exact provisioned.serviceable
  case serves => exact provisioned.serves
  case old =>
    intro ticket other isOperation
    rcases List.mem_append.1 isOperation with earlier | new
    · exact Nat.lt_succ_of_lt (provisioned.old earlier)
    · cases List.mem_singleton.1 new
      exact Nat.lt_succ_self _
  case topicUses =>
    intro ticket other isOperation
    rw [same]
    rcases List.mem_append.1 isOperation with earlier | new
    · exact provisioned.topicUses earlier
    · cases List.mem_singleton.1 new
      exact isTopicUse
  case withinSteps =>
    intro ticket other isOperation
    rcases List.mem_append.1 isOperation with earlier | new
    · rcases provisioned.withinSteps earlier with ⟨began, left, inProgress, fewer, going⟩ | granted
      · obtain ⟨member, _⟩ := (caller?_eq_some_iff provisioned.numbered).1 inProgress
        exact Or.inl ⟨began, left,
          (caller?_eq_some_iff numbered).2 ⟨List.mem_append_left _ member, rfl⟩, fewer, going⟩
      · exact Or.inr granted
    · cases List.mem_singleton.1 new
      have inProgress : (cluster.entered operation.broker after call).caller? cluster.nextTicket =
          some ⟨cluster.nextTicket, operation.broker, call⟩ :=
        (caller?_eq_some_iff numbered).2
          ⟨List.mem_append_right _ (List.mem_singleton.2 rfl), rfl⟩
      exact Or.inl ⟨call, steps, inProgress, few, under.mono fun never => nomatch never⟩
  case closeless =>
    intro caller member
    rcases List.mem_append.1 member with earlier | new
    · exact provisioned.closeless caller earlier
    · rw [List.mem_singleton.1 new]
      cases under <;> rfl
  case strangers =>
    intro caller member foreign
    rw [List.map_append, List.mem_append, not_or] at foreign
    rw [uses, same]
    rcases List.mem_append.1 member with earlier | new
    · exact provisioned.strangers caller earlier foreign.1
    · rw [List.mem_singleton.1 new] at foreign
      exact absurd (List.mem_singleton.2 rfl) foreign.2
  case written =>
    rw [List.map_append, List.map_singleton, unwritten_entered provisioned.numbered, under.record,
      ← List.append_assoc, List.filterMap_append]
    refine List.Perm.append provisioned.written ?_
    rw [List.filterMap_cons]
    cases operation.record? <;> exact .refl _

/-- Every action keeps operations in order, with those that it begins. -/
theorem perform (provisioned : cluster.Provisioned topic operations)
    (spares : cluster.spares topic action = true)
    (live : ∀ {ticket operation}, (ticket, operation) ∈ operations →
      operation.scope.stop? cluster.now = none) :
    (cluster.perform action).Provisioned topic
      (operations ++ (cluster.begun? topic action).toList) := by
  cases begun : cluster.begun? topic action with
  | none =>
    rw [Option.toList_none, List.append_nil]
    exact provisioned.perform_refused spares live begun
  | some entry =>
    obtain ⟨begins, admits, same⟩ := begun?_eq_some begun
    rw [perform_operation begins, Option.toList_some, ← Prod.eta entry, same]
    exact provisioned.begin admits

end Provisioned

end Step

end UpdateRelay.Cluster
