import UpdateRelay.Proofs.Cluster.Without

/-!
# Subscribes that fail without a trace

A run with a subscribe that fails beside the run of the same actions without the call, in which no
more was done for it than that its number and the id of its subscriber were used up. Both runs end
alike: nothing is left of the call but its answer, the attempts to make the topic, and the topic
where one of them made it.

This holds unless the reader of the call passes its position on, as when it is the only one of its
group and behind while a reader for another subscribe is opened. That one gets records from before
its time, and still gets them after the first call has failed.
-/

namespace UpdateRelay

/-! ## Steps of the call itself -/

/-- The reader that was opened for a call, as long as it has no answer. -/
def Progress.reader? : Progress → Option Reader
  | .pending call => call.reader?
  | .replied _ => none

namespace Node

variable {node next : Node} {progress : Progress} {other : Journal}

/-- What a step of a subscribe leaves if it does not succeed: nothing but another journal, and there
no more than the reader that the call holds and its topic. -/
structure JournalOnly (node next : Node) (held : Option Reader) (other : Journal) : Prop where
  broker : next.broker = node.broker
  link : next.link = node.link
  journal : next.journal.Without held (other.provide node.broker.identity.topic next.journal)

theorem JournalOnly.of_without {held : Option Reader} {journal : Journal}
    (without : journal.Without held other) :
    JournalOnly node { node with journal := journal } held other where
  broker := rfl
  link := rfl
  journal := by rwa [Journal.provide_of_same (without.hasTopic _)]

theorem journalOnly_attach {readers : List Reader} (counts : MemberCounts node.journal readers)
    (without : node.journal.Without none other) {resource : String} {reader : Reader}
    (attached : node.attach resource = (next, .ok reader)) :
    JournalOnly node next (some reader) other := by
  unfold Node.attach at attached
  cases answered : node.journal.attach node.broker.identity.topic
    (node.broker.identity.group resource) with
  | mk journal answer =>
    rw [answered] at attached
    obtain ⟨rfl, rfl⟩ := Prod.mk.inj attached
    exact ⟨rfl, rfl, without.provide_attach counts answered⟩

theorem journalOnly_makeTopic {held : Option Reader} (without : node.journal.Without held other)
    {journal : Journal} {outcome : Except JournalFailure Unit}
    (answered : node.journal.makeTopic node.broker.identity.topic = (journal, outcome)) :
    JournalOnly node { node with journal := journal } held other := by
  have made := without.provide_makeTopic node.broker.identity.topic
  rw [answered] at made
  exact ⟨rfl, rfl, made⟩

theorem journalOnly_release {reader : Reader} (without : node.journal.Without (some reader) other)
    (unreleased : reader.released = false) : JournalOnly node (node.release reader) none other :=
  .of_without (without.of_leave unreleased)

/-- A step of a subscribe that does not succeed leaves no more than that. -/
theorem SubscribeTurn.journalOnly {resource : String} {id : SubscriberId} {scope : Scope}
    {stage : SubscribeStage} (turn : node.SubscribeTurn resource id scope stage next progress)
    {readers : List Reader} (counts : MemberCounts node.journal readers)
    (listed : ∀ reader ∈ (Call.subscribe resource id scope stage).reader?,
      reader ∈ readers)
    (without : node.journal.Without
      (Call.subscribe resource id scope stage).reader? other)
    (failing : ∀ subscription, progress ≠ .replied (.subscribed (.ok subscription))) :
    JournalOnly node next progress.reader? other := by
  cases turn with
  | stuck => exact .of_without without
  | hung => exact .of_without without
  | attached asks answered =>
    rcases asks with rfl | rfl
    · exact journalOnly_attach counts without answered
    · exact journalOnly_attach counts without answered
  | refused asks answered =>
    obtain rfl := attach_eq_error answered
    rcases asks with rfl | rfl
    · exact .of_without without
    · exact .of_without without
  | missing answered =>
    obtain rfl := attach_eq_error answered
    exact .of_without without
  | made answered => exact journalOnly_makeTopic without answered
  | unmade answered => exact journalOnly_makeTopic without answered
  | @shut reader =>
    exact journalOnly_release without (counts.unreleased reader (listed reader rfl))
  | joined => exact absurd rfl (failing _)
  | withEntry => exact absurd rfl (failing _)

theorem journalOnly_of_polled {resource : String} {id : SubscriberId} {scope : Scope}
    {stage : SubscribeStage}
    (polled : node.pollCall? (.subscribe resource id scope stage) = some (next, progress))
    {readers : List Reader} (counts : MemberCounts node.journal readers)
    (listed : ∀ reader ∈ (Call.subscribe resource id scope stage).reader?,
      reader ∈ readers)
    (without : node.journal.Without
      (Call.subscribe resource id scope stage).reader? other)
    (failing : ∀ subscription, progress ≠ .replied (.subscribed (.ok subscription))) :
    JournalOnly node next progress.reader? other := by
  cases callTurn polled with
  | abandoned =>
    cases stage with
    | opened reader =>
      exact journalOnly_release without (counts.unreleased reader (listed reader rfl))
    | opening | creating | reopening | stuck => exact .of_without without
  | subscribe turn => exact turn.journalOnly counts listed without failing

/-- A subscribe that goes on is a subscribe of the same resource. -/
theorem subscribe_of_polled {resource : String} {id : SubscriberId} {scope : Scope}
    {stage : SubscribeStage} {call : Call}
    (polled : node.pollCall? (.subscribe resource id scope stage) = some (next, .pending call)) :
    ∃ later, call = .subscribe resource id scope later := by
  cases callTurn polled with
  | subscribe turn => cases turn <;> exact ⟨_, rfl⟩

/-- How a subscribe begins that does not succeed at once: an id is used up, unless the scope is
done, and the call fails or is about to open a reader. -/
theorem beginSubscribe_cases (node : Node) (scope : Scope) (resource : String)
    (failing : ∀ subscription, (node.beginSubscribe scope resource).2 ≠
      .replied (.subscribed (.ok subscription))) :
    ∃ progress, node.beginSubscribe scope resource =
        (node.modifyBroker fun broker =>
          match scope.check node.now with
          | .error _ => broker
          | .ok () => broker.spendNumber, progress) ∧
      ((∃ cause, progress = .replied (.subscribed (.error cause))) ∨
        ∃ id, progress = .pending (.subscribe resource id scope .opening)) := by
  unfold beginSubscribe at failing ⊢
  cases checked : scope.check node.now with
  | error cause => exact ⟨_, rfl, Or.inl ⟨cause, rfl⟩⟩
  | ok =>
    simp only [checked] at failing ⊢
    split
    next => exact ⟨_, rfl, Or.inl ⟨_, rfl⟩⟩
    next fits =>
      split
      next => exact ⟨_, rfl, Or.inl ⟨_, rfl⟩⟩
      next isOpen =>
        split
        next entry found =>
          simp only [fits, isOpen, found] at failing
          exact absurd rfl (failing _)
        next => exact ⟨_, rfl, Or.inr ⟨_, rfl⟩⟩

end Node

namespace Cluster

variable {cluster other : Cluster} {ticket : Nat} {topic : String}

/-! ## The run without the call -/

/-- The cluster after a subscribe for which no more was done than that its number was used up, and
the id of its subscriber unless its scope was done already. -/
def skipSubscribe (cluster : Cluster) (index : Nat) (scope : Scope) : Cluster :=
  { cluster with
    brokers := cluster.brokers.modify index fun broker =>
      match scope.check cluster.now with
      | .error _ => broker
      | .ok () => broker.spendNumber
    nextTicket := cluster.nextTicket + 1 }

/-- The cluster with a topic that another one has. -/
def provide (cluster : Cluster) (topic : String) (model : Cluster) : Cluster :=
  { cluster with journal := cluster.journal.provide topic model.journal }

/-- The same action in a cluster without a call. A step of the call is nothing there, but if the
topic was made by it, the empty topic appears. -/
def follow (ticket : Nat) (topic : String) (cluster other : Cluster) : Action → Cluster
  | .stepCall stepped =>
      if stepped = ticket then other.provide topic (cluster.stepCall stepped)
      else other.stepCall stepped
  | action => other.perform action

/-- The run without a call beside the one with it. -/
def followAll (ticket : Nat) (topic : String) : Cluster → Cluster → List Action → Cluster
  | _, other, [] => other
  | cluster, other, action :: actions =>
      followAll ticket topic (cluster.perform action) (follow ticket topic cluster other action)
        actions

/-- Whether the reader of a call keeps its position to itself in a run. -/
def KeepsPosition (ticket : Nat) : Cluster → List Action → Prop
  | _, [] => True
  | cluster, action :: actions =>
      ¬cluster.PassesPosition ticket action ∧ KeepsPosition ticket (cluster.perform action) actions

instance decidableKeepsPosition (ticket : Nat) : ∀ (cluster : Cluster) (actions : List Action),
    Decidable (KeepsPosition ticket cluster actions)
  | _, [] => isTrue trivial
  | cluster, action :: actions =>
      have := decidableKeepsPosition ticket (cluster.perform action) actions
      inferInstanceAs (Decidable (¬cluster.PassesPosition ticket action ∧
        KeepsPosition ticket (cluster.perform action) actions))

/-- Whether no step of a call makes its topic in a run. -/
def Unmade (ticket : Nat) (topic : String) : Cluster → List Action → Prop
  | _, [] => True
  | cluster, .stepCall stepped :: actions =>
      (stepped = ticket → (cluster.stepCall stepped).journal.hasTopic topic =
        cluster.journal.hasTopic topic) ∧
        Unmade ticket topic (cluster.stepCall stepped) actions
  | cluster, action :: actions => Unmade ticket topic (cluster.perform action) actions

/-- Whether two clusters agree in everything but the answer of a call and the attempts to make
topics. -/
structure AgreeBut (ticket : Nat) (cluster other : Cluster) : Prop where
  now : other.now = cluster.now
  link : other.link = cluster.link
  brokers : other.brokers = cluster.brokers
  journal : cluster.journal.Without none other.journal
  calls : other.calls = cluster.calls
  replies : other.replies = cluster.replies.filter fun entry => entry.1 ≠ ticket
  nextTicket : other.nextTicket = cluster.nextTicket

/-- Whether a call is a subscribe at a broker of a topic, in progress or answered. -/
def Subscribing (cluster : Cluster) (ticket : Nat) (topic : String) : Prop :=
  (∃ reply, cluster.reply? ticket = some reply) ∨
    ∃ caller broker resource id scope stage, cluster.caller? ticket = some caller ∧
      caller.call = .subscribe resource id scope stage ∧
      cluster.brokers[caller.broker]? = some broker ∧ broker.identity.topic = topic

theorem Unmade.tail {action : Action} {actions : List Action}
    (unmade : Unmade ticket topic cluster (action :: actions)) :
    Unmade ticket topic (cluster.perform action) actions := by
  cases action with
  | stepCall => exact unmade.2
  | _ => exact unmade

theorem follow_of_ne {action : Action} (beside : action ≠ .stepCall ticket) :
    follow ticket topic cluster other action = other.perform action := by
  cases action with
  | stepCall stepped => exact if_neg fun same => beside (congrArg Action.stepCall same)
  | _ => rfl

/-! ## Calls in progress -/

/-- A call that has its answer is not in progress. -/
theorem caller?_of_answered (accounted : cluster.Accounted) (numbered : cluster.Numbered)
    {reply : Reply} (answered : cluster.reply? ticket = some reply) :
    cluster.caller? ticket = none := by
  cases inProgress : cluster.caller? ticket with
  | none => rfl
  | some caller =>
    have unanswered := accounted.reply?_of_caller? numbered inProgress
    rw [answered] at unanswered
    contradiction

theorem Subscribing.perform (subscribing : cluster.Subscribing ticket topic)
    (numbered : cluster.Numbered) (accounted : cluster.Accounted) (action : Action) :
    (cluster.perform action).Subscribing ticket topic := by
  obtain ⟨reply, answered⟩ | ⟨caller, broker, resource, id, scope, stage, isCaller, isSubscribe,
    isBroker, isTopic⟩ := subscribing
  · exact Or.inl ⟨reply, reply?_perform answered action⟩
  · obtain ⟨member, rfl⟩ := (caller?_eq_some_iff numbered).1 isCaller
    obtain ⟨later, isLater, continues⟩ := (step_perform numbered action).continues isBroker
    have sameTopic : later.identity.topic = topic := by rw [continues.identity, isTopic]
    have unanswered := accounted.reply?_of_mem member
    cases callStep_perform isCaller unanswered (numbered.old caller member) action with
    | idle still =>
      exact Or.inr ⟨caller, later, resource, id, scope, stage, still, isSubscribe, isLater,
        sameTopic⟩
    | cancelled still =>
      exact Or.inr ⟨_, later, resource, id, _, stage, still, by rw [isSubscribe]; rfl, isLater,
        sameTopic⟩
    | went isNode polled still =>
      rw [isSubscribe] at polled
      obtain ⟨next, rfl⟩ := Node.subscribe_of_polled polled
      exact Or.inr ⟨_, later, resource, id, scope, next, still, rfl, isLater, sameTopic⟩
    | answered _ _ answer => exact Or.inl ⟨_, answer⟩

/-! ## The steps of the call -/

theorem filter_calls_note (cluster : Cluster) (ticket index : Nat) (call : Call) :
    (cluster.note ticket index (.pending call)).calls.filter
        (fun caller => caller.ticket ≠ ticket) =
      cluster.calls.filter fun caller => caller.ticket ≠ ticket := by
  have kept : (fun caller : Caller => decide (caller.ticket ≠ ticket)) ∘
      (fun caller => if caller.ticket = ticket then ⟨ticket, index, call⟩ else caller) =
        fun caller => decide (caller.ticket ≠ ticket) := by
    funext caller
    by_cases same : caller.ticket = ticket <;> simp [same]
  rw [note, List.filter_map, kept]
  refine (List.map_congr_left fun caller member => ?_).trans (List.map_id _)
  exact if_neg (by simpa using (List.mem_filter.1 member).2)

namespace Without

theorem provide (without : cluster.Without ticket other) :
    other.provide topic cluster = other := by
  rw [Cluster.provide, Journal.provide_of_same (without.journal.hasTopic topic)]

/-- Where a step of the call does not make the topic, it is nothing to the cluster without it. -/
theorem follow_own (without : cluster.Without ticket other)
    (unmade : (cluster.stepCall ticket).journal.hasTopic topic = cluster.journal.hasTopic topic) :
    follow ticket topic cluster other (.stepCall ticket) = other.perform (.stepCall ticket) := by
  have gone : other.calls.find? (fun caller => caller.ticket = ticket) = none := by
    rw [without.calls, List.find?_filter, List.find?_eq_none]
    simp
  have still : other.stepCall ticket = other := by simp only [Cluster.stepCall, gone]
  have same := (without.journal.hasTopic topic).trans unmade.symm
  rw [Cluster.perform, still, follow, if_pos rfl, Cluster.provide, Journal.provide_of_same same]

/-- Once the call is not in progress any more, its answer is all that is left. -/
theorem agreeBut (without : cluster.Without ticket other)
    (gone : cluster.caller? ticket = none) : AgreeBut ticket cluster other where
  now := without.now
  link := without.link
  brokers := without.brokers
  journal := by
    have journal := without.journal
    rwa [readerOf?, gone] at journal
  calls := by
    rw [without.calls, List.filter_eq_self]
    intro caller member
    have other := List.find?_eq_none.1 gone caller member
    simpa using other
  replies := without.replies
  nextTicket := without.nextTicket

/-- What is noted for the call itself makes no difference to the cluster without it. -/
theorem noteOwn (without : cluster.Without ticket other) (accounted : cluster.Accounted)
    (numbered : cluster.Numbered) {caller : Caller}
    (isCaller : cluster.caller? ticket = some caller) {node next : Node}
    (isNode : cluster.node? caller.broker = some node) {progress : Progress} {after : Journal}
    (broker : next.broker = node.broker) (link : next.link = node.link)
    (journal : next.journal.Without progress.reader? after) :
    ((cluster.withNode caller.broker next).note ticket caller.broker progress).Without ticket
      { other with journal := after } := by
  obtain ⟨member, rfl⟩ := (caller?_eq_some_iff numbered).1 isCaller
  have unanswered := accounted.reply?_of_mem member
  obtain ⟨isBroker, _⟩ := node?_eq_some isNode
  have sameLink : node.link = cluster.link := by
    obtain ⟨_, _, rfl⟩ := Option.map_eq_some_iff.1 isNode
    rfl
  have brokers : cluster.brokers.set caller.broker next.broker = cluster.brokers := by
    obtain ⟨inside, isNow⟩ := List.getElem?_eq_some_iff.1 isBroker
    rw [broker, ← isNow, List.set_getElem_self]
  have noted := callState_note (cluster.withNode caller.broker next) isCaller unanswered
    caller.broker
  cases progress with
  | replied reply =>
    have gone := caller?_note_replied (cluster.withNode caller.broker next) caller.ticket
      caller.broker reply
    refine ⟨without.now, ?_, ?_, without.nextTicket, ?_, ?_, ?_⟩
    · exact without.link.trans (sameLink.symm.trans link.symm)
    · exact without.brokers.trans brokers.symm
    · rw [readerOf?, gone]
      exact journal
    · simp [Cluster.note, Cluster.withNode, without.calls]
    · simp [Cluster.note, Cluster.withNode, without.replies]
  | pending call =>
    refine ⟨without.now, ?_, ?_, without.nextTicket, ?_, ?_, without.replies⟩
    · exact without.link.trans (sameLink.symm.trans link.symm)
    · exact without.brokers.trans brokers.symm
    · rw [readerOf?, noted.1 call]
      exact journal
    · rw [without.calls]
      exact (filter_calls_note cluster caller.ticket caller.broker call).symm

theorem stepOwn (without : cluster.Without ticket other) (sound : cluster.Sound)
    (numbered : cluster.Numbered) (accounted : cluster.Accounted)
    (subscribing : cluster.Subscribing ticket topic)
    (failing : ∀ subscription,
      (cluster.stepCall ticket).reply? ticket ≠ some (.subscribed (.ok subscription))) :
    (cluster.stepCall ticket).Without ticket (other.provide topic (cluster.stepCall ticket)) := by
  obtain idle | ⟨caller, node, next, progress, member, rfl, isNode, polled, stepped⟩ :=
    cluster.perform_stepCall ticket
  · rw [Cluster.perform] at idle
    rw [idle, without.provide]
    exact without
  · rw [Cluster.perform] at stepped
    have isCaller := (caller?_eq_some_iff numbered).2 ⟨member, rfl⟩
    have unanswered := accounted.reply?_of_mem member
    obtain ⟨reply, answered⟩ | ⟨same, broker, resource, id, scope, stage, isSame, isSubscribe,
      isBroker, isTopic⟩ := subscribing
    · rw [answered] at unanswered
      contradiction
    · obtain rfl := Option.some.inj (isSame.symm.trans isCaller)
      obtain ⟨isNow, journal⟩ := node?_eq_some isNode
      obtain rfl := Option.some.inj (isBroker.symm.trans isNow)
      rw [isSubscribe] at polled
      have held : cluster.readerOf? same.ticket =
          (Call.subscribe resource id scope stage).reader? := by
        rw [readerOf?, isCaller, Option.bind_some, isSubscribe]
      have journalOnly := Node.journalOnly_of_polled polled (journal ▸ sound.counts)
        (fun reader isReader => mem_readersOf_of_readerOf? (held ▸ isReader))
        (by rw [journal, ← held]; exact without.journal) (by
          intro subscription succeeded
          refine failing subscription ?_
          rw [stepped, succeeded]
          exact (callState_note (cluster.withNode same.broker next) isCaller unanswered _).2 _)
      have noted := without.noteOwn accounted numbered isCaller isNode journalOnly.broker
        journalOnly.link journalOnly.journal
      rw [stepped, Cluster.provide, journal_note, ← isTopic]
      exact noted

end Without

/-! ## Runs -/

/-- A call that begins makes no difference but for what it does to its broker. -/
theorem without_begin (numbered : cluster.Numbered) (accounted : cluster.Accounted) {index : Nat}
    {node next : Node} (isNode : cluster.node? index = some node)
    {start : Node → Node × Progress} {progress : Progress} (began : start node = (next, progress))
    (bare : progress.reader? = none) (link : next.link = cluster.link)
    (journal : next.journal = cluster.journal) :
    (cluster.begin index start).Without cluster.nextTicket
      { cluster with
        brokers := cluster.brokers.set index next.broker
        nextTicket := cluster.nextTicket + 1 } := by
  have fresh := caller?_nextTicket numbered
  unfold caller? at fresh
  have calls : cluster.calls.filter (fun caller => caller.ticket ≠ cluster.nextTicket) =
      cluster.calls := List.filter_eq_self.2 fun caller member =>
    decide_eq_true (Nat.ne_of_lt (numbered.old caller member))
  have replies : cluster.replies.filter (fun entry => entry.1 ≠ cluster.nextTicket) =
      cluster.replies := by
    have unused := reply?_eq_none_iff.1 (accounted.reply?_of_le (Nat.le_refl cluster.nextTicket))
    refine List.filter_eq_self.2 fun entry member => decide_eq_true fun same => ?_
    exact unused (List.mem_map.2 ⟨entry, member, same⟩)
  have same : next.journal.Without none cluster.journal := journal ▸ .refl _
  simp only [begin, isNode, began]
  cases progress with
  | replied reply =>
    refine ⟨rfl, link.symm, rfl, rfl, ?_, calls.symm, ?_⟩
    · simp only [readerOf?, caller?, withNode, fresh]
      exact same
    · simp only [withNode, List.filter_append, replies]
      simp
  | pending call =>
    refine ⟨rfl, link.symm, rfl, rfl, ?_, ?_, replies.symm⟩
    · have held : call.reader? = none := bare
      simp only [readerOf?, caller?, withNode, List.find?_append, fresh]
      simpa [held] using same
    · simp only [withNode, List.filter_append, calls]
      simp

theorem without_subscribe (numbered : cluster.Numbered) (accounted : cluster.Accounted)
    {index : Nat} {broker : JournaledBroker} (isBroker : cluster.brokers[index]? = some broker)
    (scope : Scope) (resource : String)
    (failing : ∀ subscription,
      (cluster.perform (.subscribe index scope resource)).reply? cluster.nextTicket ≠
        some (.subscribed (.ok subscription))) :
    (cluster.perform (.subscribe index scope resource)).Without cluster.nextTicket
        (cluster.skipSubscribe index scope) ∧
      (cluster.perform (.subscribe index scope resource)).Subscribing cluster.nextTicket
        broker.identity.topic := by
  have isNode : cluster.node? index =
      some ⟨cluster.now, cluster.journal, cluster.link, broker⟩ := by simp [node?, isBroker]
  obtain ⟨progress, began, outcome⟩ := Node.beginSubscribe_cases
    ⟨cluster.now, cluster.journal, cluster.link, broker⟩ scope resource (by
      intro subscription succeeded
      refine failing subscription ?_
      exact (reply?_begin isNode (·.beginSubscribe scope resource) succeeded
        (accounted.reply?_of_le (Nat.le_refl _))).1)
  have bare : progress.reader? = none := by
    obtain ⟨cause, rfl⟩ | ⟨id, rfl⟩ := outcome <;> rfl
  let start : Node → Node × Progress := (·.beginSubscribe scope resource)
  have started : start ⟨cluster.now, cluster.journal, cluster.link, broker⟩ = (_, progress) := began
  have without := without_begin numbered accounted isNode started bare rfl rfl
  constructor
  · rw [skipSubscribe, modify_eq_set isBroker]
    exact without
  · obtain ⟨cause, rfl⟩ | ⟨id, rfl⟩ := outcome
    · exact Or.inl ⟨_, (begun_of_replied numbered accounted isNode started).2.1⟩
    · obtain ⟨isCaller, _, isNext⟩ := begun_of_pending numbered accounted isNode started rfl
      refine Or.inr ⟨_, _, resource, id, scope, .opening, isCaller, rfl, (node?_eq_some isNext).1,
        ?_⟩
      dsimp only [Node.modifyBroker]
      cases scope.check cluster.now <;> rfl

/-- Whatever happens meanwhile, a subscribe that does not succeed leaves the run without it behind,
where its reader is missing as long as it holds one. -/
theorem without_followAll (actions : List Action) (numbered : cluster.Numbered)
    (sound : cluster.Sound) (accounted : cluster.Accounted) (old : ticket < cluster.nextTicket)
    (subscribing : cluster.Subscribing ticket topic) (without : cluster.Without ticket other)
    (keepsPosition : KeepsPosition ticket cluster actions)
    (failing : ∀ subscription, (cluster.performAll actions).reply? ticket ≠
      some (.subscribed (.ok subscription))) :
    (cluster.performAll actions).Without ticket
        (followAll ticket topic cluster other actions) ∧
      (Unmade ticket topic cluster actions →
        followAll ticket topic cluster other actions = other.performAll actions) := by
  induction actions generalizing cluster other with
  | nil => exact ⟨without, fun _ => rfl⟩
  | cons action actions inductionHypothesis =>
    have later := Nat.lt_of_lt_of_le old (nextTicket_perform_le cluster action)
    have moved : (cluster.perform action).Without ticket
        (follow ticket topic cluster other action) := by
      by_cases own : action = .stepCall ticket
      · subst own
        rw [follow, if_pos rfl]
        refine without.stepOwn sound numbered accounted subscribing fun subscription succeeded => ?_
        exact failing subscription (reply?_performAll succeeded actions)
      · rw [follow_of_ne own]
        exact without.perform sound old own keepsPosition.1
    have same : Unmade ticket topic cluster (action :: actions) →
        follow ticket topic cluster other action = other.perform action := by
      intro unmade
      by_cases own : action = .stepCall ticket
      · subst own
        exact without.follow_own (unmade.1 rfl)
      · exact follow_of_ne own
    obtain ⟨last, plain⟩ := inductionHypothesis (numbered.perform action)
      (sound.perform numbered action) (accounted.perform numbered action) later
      (subscribing.perform numbered accounted action) moved keepsPosition.2 failing
    refine ⟨last, fun unmade => ?_⟩
    rw [followAll, plain unmade.tail, same unmade]
    rfl

/-- In every run, in any order of the steps of calls and loops: a subscribe that failed, whatever
the cause and the point at which it did, has left the cluster as it would be had the call not been
made. The run without it has the same actions; its number and id are used up, and a topic that it
made is there, empty. The condition is that the reader of the call never passes its position on. -/
theorem failed_subscribe_leaves_no_trace (createsOnDemand : Bool) (earlier later : List Action)
    {index : Nat} {broker : JournaledBroker} {scope : Scope} {resource : String}
    {cause : BrokerFailure}
    (isBroker : (reached createsOnDemand earlier).brokers[index]? = some broker)
    (failed : (reached createsOnDemand
        (earlier ++ .subscribe index scope resource :: later)).reply?
      (reached createsOnDemand earlier).nextTicket = some (.subscribed (.error cause)))
    (keepsPosition : KeepsPosition (reached createsOnDemand earlier).nextTicket
      (reached createsOnDemand (earlier ++ [.subscribe index scope resource])) later) :
    let before := reached createsOnDemand earlier
    let begun := reached createsOnDemand (earlier ++ [.subscribe index scope resource])
    let last := reached createsOnDemand (earlier ++ .subscribe index scope resource :: later)
    let skipped := before.skipSubscribe index scope
    AgreeBut before.nextTicket last
        (followAll before.nextTicket broker.identity.topic begun skipped later) ∧
      (Unmade before.nextTicket broker.identity.topic begun later →
        AgreeBut before.nextTicket last (skipped.performAll later)) := by
  intro before begun last skipped
  have numbered := numbered_reached createsOnDemand earlier
  have accounted := accounted_reached createsOnDemand earlier
  have isBegun : begun = before.perform (.subscribe index scope resource) :=
    reached_append createsOnDemand earlier _
  have isLast : last = begun.performAll later := by
    rw [isBegun]
    exact reached_append createsOnDemand earlier _
  have failing : ∀ subscription, (begun.performAll later).reply? before.nextTicket ≠
      some (.subscribed (.ok subscription)) := by
    intro subscription succeeded
    rw [← isLast, failed] at succeeded
    cases succeeded
  obtain ⟨without, subscribing⟩ := without_subscribe numbered accounted isBroker scope resource
    fun subscription succeeded =>
      failing subscription (reply?_performAll (isBegun ▸ succeeded) later)
  rw [← isBegun] at without subscribing
  have nextTicket : begun.nextTicket = before.nextTicket + 1 := without.nextTicket.symm
  have began := numbered_reached createsOnDemand (earlier ++ [.subscribe index scope resource])
  obtain ⟨agree, plain⟩ := without_followAll later began (sound_reached createsOnDemand _)
    (accounted_reached createsOnDemand _) (nextTicket ▸ Nat.lt_succ_self _) subscribing without
    keepsPosition failing
  have gone := caller?_of_answered (accounted_reached createsOnDemand _)
    (numbered_reached createsOnDemand _) failed
  rw [← isLast] at agree
  refine ⟨agree.agreeBut gone, fun unmade => ?_⟩
  rw [← plain unmade]
  exact agree.agreeBut gone

/-- A broker whose topic is there. -/
def topicMade : List Action := [.start ⟨"updates", "relay", "one", 4⟩]

/-- A subscribe opens its reader, another one for the same resource is granted and gets an event,
and then the scope of the first is cancelled. -/
def cancelledSubscribe : List Action :=
  [.stepCall 0, .subscribe 0 .unlimited "door", .stepCall 1, .stepCall 1,
    .publish 0 .unlimited "door" ⟨"door", 1, "opened"⟩, .stepCall 2, .stepLoop 0 1,
    .cancelScope 0, .stepCall 0]

/-- All is as if the first subscribe had not been made. -/
theorem cancelledSubscribe_leaves_no_trace :
    (reached true (topicMade ++ .subscribe 0 .unlimited "door" :: cancelledSubscribe)).reply? 0 =
        some (.subscribed (.error .cancelled)) ∧
      AgreeBut 0 (reached true (topicMade ++ .subscribe 0 .unlimited "door" :: cancelledSubscribe))
        (((reached true topicMade).skipSubscribe 0 .unlimited).performAll cancelledSubscribe) := by
  have failed : (reached true
      (topicMade ++ .subscribe 0 .unlimited "door" :: cancelledSubscribe)).reply? 0 =
        some (.subscribed (.error .cancelled)) := rfl
  have keepsPosition : KeepsPosition 0
      (reached true (topicMade ++ [.subscribe 0 .unlimited "door"]))
      cancelledSubscribe := by decide
  have leaves := failed_subscribe_leaves_no_trace true topicMade cancelledSubscribe rfl failed
    keepsPosition
  refine ⟨failed, leaves.2 ?_⟩
  simp only [cancelledSubscribe, Unmade]
  decide

/-- As in `cancelledSubscribe`, but the event is published before the second subscribe opens its
reader. -/
def positionPassed : List Action :=
  [.stepCall 0, .publish 0 .unlimited "door" ⟨"door", 1, "opened"⟩, .stepCall 1,
    .subscribe 0 .unlimited "door", .stepCall 2, .cancelScope 0, .stepCall 0, .stepCall 2]

/-- The reader of the subscribe that fails has passed its position on, and the other subscriber gets
an event from before its time, which it would not get otherwise. -/
theorem trace_of_failed_subscribe :
    (reached true (topicMade ++ .subscribe 0 .unlimited "door" :: positionPassed)).reply? 0 =
        some (.subscribed (.error .cancelled)) ∧
      ¬AgreeBut 0 (reached true (topicMade ++ .subscribe 0 .unlimited "door" :: positionPassed))
        (((reached true topicMade).skipSubscribe 0 .unlimited).performAll positionPassed) ∧
      (reached true (topicMade ++ .subscribe 0 .unlimited "door" :: positionPassed)).told
        (.stepLoop 0 1) = [(0, 0, .offer ⟨"door", 1, "opened"⟩)] ∧
      (((reached true topicMade).skipSubscribe 0 .unlimited).performAll positionPassed).told
        (.stepLoop 0 1) = [] := by
  refine ⟨rfl, fun agree => ?_, by decide, by decide⟩
  have same := agree.journal.groupOf? ⟨"updates", 1, "relay-project-door-one", 0, false⟩
  revert same
  decide

end Cluster

end UpdateRelay
