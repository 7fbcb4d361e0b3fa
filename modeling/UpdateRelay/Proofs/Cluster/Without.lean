import UpdateRelay.Proofs.Broker.Unnoticed
import UpdateRelay.Proofs.Cluster.Granting

/-!
# Clusters without one of their calls

A cluster in which a subscribe is in progress, and what it would be without the call: the reader
that was opened for it is missing in the journal, and nothing else differs. Whatever others do, the
two clusters do the same, unless the reader passes its position on to another one.
-/

namespace UpdateRelay

/-- The reader that was opened for a call. -/
def Call.reader? (call : Call) : Option Reader := call.claim?.bind (·.reader)

/-- The readers of two parts of a list that share a group are at least two. -/
theorem MemberCounts.several {journal : Journal} {front back : List Reader}
    (counts : MemberCounts journal (front ++ back)) {one other : Reader} (isFront : one ∈ front)
    (isBack : other ∈ back) (reads : other.readsFor one.topic one.epoch one.group = true)
    {topic : Topic} (live : journal.liveTopic? one.topic one.epoch = some topic) {group : Group}
    (joined : topic.groups.get? one.group = some group) : 1 < group.members := by
  obtain ⟨found, epoch⟩ := Journal.liveTopic?_eq_some_iff.1 live
  have counted := counts.counted found one.group
  have first : 0 < front.countP (·.readsFor one.topic topic.epoch one.group) :=
    List.countP_pos_iff.2 ⟨one, isFront, by simp [Reader.readsFor, epoch]⟩
  have second : 0 < back.countP (·.readsFor one.topic topic.epoch one.group) :=
    List.countP_pos_iff.2 ⟨other, isBack, epoch ▸ reads⟩
  rw [List.countP_append, Topic.memberCount, joined, Option.elim_some] at counted
  omega

namespace Cluster

/-- The reader that was opened for a call in progress. -/
def readerOf? (cluster : Cluster) (ticket : Nat) : Option Reader :=
  (cluster.caller? ticket).bind (·.call.reader?)

/-- Whether an action makes the reader of a call pass its position on. -/
def PassesPosition (cluster : Cluster) (ticket : Nat) (action : Action) : Prop :=
  ∃ reader ∈ cluster.readerOf? ticket,
    cluster.journal.PassesPosition reader (cluster.perform action).journal

instance (cluster : Cluster) (ticket : Nat) (action : Action) :
    Decidable (cluster.PassesPosition ticket action) :=
  inferInstanceAs (Decidable (∃ reader ∈ cluster.readerOf? ticket,
    cluster.journal.PassesPosition reader (cluster.perform action).journal))

/-- Whether a cluster is what another one would be without a call. -/
structure Without (ticket : Nat) (cluster other : Cluster) : Prop where
  now : other.now = cluster.now
  link : other.link = cluster.link
  brokers : other.brokers = cluster.brokers
  nextTicket : other.nextTicket = cluster.nextTicket
  journal : cluster.journal.Without (cluster.readerOf? ticket) other.journal
  calls : other.calls = cluster.calls.filter fun caller => caller.ticket ≠ ticket
  replies : other.replies = cluster.replies.filter fun entry => entry.1 ≠ ticket

/-- The readers of calls are among those that are counted. -/
theorem mem_claims_of_readerOf? {cluster : Cluster} {ticket : Nat} {reader : Reader}
    (held : reader ∈ cluster.readerOf? ticket) :
    reader ∈ cluster.claims.filterMap (·.2.reader) := by
  obtain ⟨caller, isCaller, claimed⟩ := Option.bind_eq_some_iff.1 held
  obtain ⟨claim, isClaim, isReader⟩ := Option.bind_eq_some_iff.1 claimed
  have member : (caller.broker, claim) ∈ cluster.claims :=
    List.mem_filterMap.2 ⟨caller, List.mem_of_find?_eq_some isCaller, by simp [isClaim]⟩
  exact List.mem_filterMap.2 ⟨_, member, isReader⟩

theorem mem_readersOf_of_readerOf? {cluster : Cluster} {ticket : Nat} {reader : Reader}
    (held : reader ∈ cluster.readerOf? ticket) :
    reader ∈ readersOf cluster.brokers cluster.claims :=
  List.mem_append_right _ (mem_claims_of_readerOf? held)

theorem journal_note (cluster : Cluster) (ticket index : Nat) (progress : Progress) :
    (cluster.note ticket index progress).journal = cluster.journal := by
  cases progress <;> rfl

theorem readerOf?_cancelScope (cluster : Cluster) (ticket cancelled : Nat) :
    (cluster.perform (.cancelScope cancelled)).readerOf? ticket = cluster.readerOf? ticket := by
  have kept : (fun caller : Caller => decide (caller.ticket = ticket)) ∘
      (fun caller => if caller.ticket = cancelled then
        { caller with call := caller.call.cancelScope } else caller) =
        fun caller => decide (caller.ticket = ticket) := by
    funext caller
    simp only [Function.comp_apply]
    split <;> rfl
  simp only [perform, readerOf?, caller?, List.find?_map, kept]
  cases cluster.calls.find? fun caller => caller.ticket = ticket with
  | none => rfl
  | some caller =>
    simp only [Option.map_some, Option.bind_some]
    split
    next => simp only [Call.reader?, claim?_cancelScope]
    next => rfl

namespace Without

variable {ticket : Nat} {cluster other : Cluster}

/-- Nothing but the readers of the two clusters decides how their journals compare. -/
theorem withJournal (without : cluster.Without ticket other) {one another : Journal}
    (same : one.Without (cluster.readerOf? ticket) another) :
    Without ticket { cluster with journal := one } { other with journal := another } :=
  { without with journal := same }

/-- Both clusters have a node at an index, or neither. -/
theorem node? (without : cluster.Without ticket other) (index : Nat) :
    (cluster.node? index = none ∧ other.node? index = none) ∨
      ∃ one another, cluster.node? index = some one ∧ other.node? index = some another ∧
        one.Without (cluster.readerOf? ticket) another := by
  simp only [Cluster.node?, without.brokers]
  cases cluster.brokers[index]? with
  | none => exact Or.inl ⟨rfl, rfl⟩
  | some broker =>
    exact Or.inr ⟨_, _, rfl, rfl, ⟨without.now, without.link, rfl, without.journal⟩⟩

theorem withNode (without : cluster.Without ticket other) (index : Nat) {one another : Node}
    (same : one.Without (cluster.readerOf? ticket) another) :
    (cluster.withNode index one).Without ticket (other.withNode index another) where
  now := without.now
  link := same.link
  brokers := by rw [Cluster.withNode, Cluster.withNode, same.broker, without.brokers]
  nextTicket := without.nextTicket
  journal := same.journal
  calls := without.calls
  replies := without.replies

theorem modifyBroker (without : cluster.Without ticket other) (index : Nat)
    (change : JournaledBroker → JournaledBroker) :
    (cluster.modifyBroker index change).Without ticket (other.modifyBroker index change) :=
  { without with brokers := congrArg (·.modify index change) without.brokers }

/-! ## Other calls -/

theorem note (without : cluster.Without ticket other) {stepped : Nat} (differ : ticket ≠ stepped)
    (index : Nat) (progress : Progress) :
    (cluster.note stepped index progress).Without ticket (other.note stepped index progress) := by
  have reader : (cluster.note stepped index progress).readerOf? ticket =
      cluster.readerOf? ticket := by
    rw [readerOf?, readerOf?, caller?_note_of_ne differ]
  have journal := without.journal
  rw [← reader] at journal
  cases progress with
  | replied reply =>
    refine ⟨without.now, without.link, without.brokers, without.nextTicket, journal, ?_, ?_⟩
    · simp only [Cluster.note, without.calls, List.filter_filter, Bool.and_comm]
    · simp [Cluster.note, without.replies, Ne.symm differ]
  | pending call =>
    refine ⟨without.now, without.link, without.brokers, without.nextTicket, journal, ?_,
      without.replies⟩
    simp only [Cluster.note, without.calls, List.filter_map]
    congr 1
    refine List.filter_congr fun caller _ => ?_
    simp only [Function.comp_apply]
    split
    next same => simp [same, Ne.symm differ]
    next => rfl

theorem begin (without : cluster.Without ticket other) (old : ticket < cluster.nextTicket)
    (index : Nat) {start : Node → Node × Progress}
    (same : ∀ {one another : Node}, one.Without (cluster.readerOf? ticket) another →
      Node.SameStep (cluster.readerOf? ticket) (start one) (start another)) :
    (cluster.begin index start).Without ticket (other.begin index start) := by
  have reader : (cluster.begin index start).readerOf? ticket = cluster.readerOf? ticket := by
    rw [readerOf?, readerOf?, (callState_begin old index start).1]
  have differ := Nat.ne_of_gt old
  unfold Cluster.begin at reader ⊢
  obtain ⟨isNode, isOther⟩ | ⟨one, another, isNode, isOther, nodes⟩ := without.node? index
  · rw [isNode, isOther]
    exact without
  · obtain ⟨moved, progress⟩ := same nodes
    have entered := without.withNode index moved
    simp only [isNode, isOther, progress] at reader ⊢
    generalize (start one).2 = went at reader ⊢
    cases went with
    | replied reply =>
      refine { entered with nextTicket := ?_, replies := ?_ }
      · exact congrArg Nat.succ without.nextTicket
      · simp [Cluster.withNode, without.replies, without.nextTicket, differ]
    | pending call =>
      dsimp only at reader ⊢
      refine ⟨entered.now, entered.link, entered.brokers, ?_, ?_, ?_, entered.replies⟩
      · exact congrArg Nat.succ without.nextTicket
      · exact reader ▸ moved.journal
      · simp [Cluster.withNode, without.calls, without.nextTicket, differ]

theorem caller? (without : cluster.Without ticket other) {stepped : Nat}
    (differ : stepped ≠ ticket) : other.caller? stepped = cluster.caller? stepped := by
  simp only [Cluster.caller?, without.calls, List.find?_filter]
  congr 1
  funext caller
  by_cases same : caller.ticket = stepped <;> simp [same, differ]

theorem stepCall (without : cluster.Without ticket other) (sound : cluster.Sound) {stepped : Nat}
    (differ : stepped ≠ ticket)
    (keepsPosition : ¬cluster.PassesPosition ticket (.stepCall stepped)) :
    (cluster.stepCall stepped).Without ticket (other.stepCall stepped) := by
  have sameCaller := without.caller? differ
  unfold Cluster.caller? at sameCaller
  simp only [PassesPosition, perform] at keepsPosition
  unfold Cluster.stepCall at keepsPosition ⊢
  rw [sameCaller]
  cases found : cluster.calls.find? fun caller => caller.ticket = stepped with
  | none => exact without
  | some caller =>
    have isStepped : caller.ticket = stepped := by simpa using List.find?_some found
    simp only [found, pollCaller?] at keepsPosition ⊢
    obtain ⟨isNode, isOther⟩ | ⟨one, another, isNode, isOther, nodes⟩ :=
      without.node? caller.broker
    · simp only [isNode, isOther]
      exact without
    · have journal := (node?_eq_some isNode).2
      have polled := nodes.pollCall? (journal ▸ sound.counts)
        (fun reader held => mem_readersOf_of_readerOf? held) caller.call (by
          intro after progress isAfter reader held passesPosition
          refine keepsPosition ⟨reader, held, ?_⟩
          rw [journal] at passesPosition
          simpa [isNode, isAfter, journal_note, Cluster.withNode] using passesPosition)
      simp only [isNode, isOther]
      generalize one.pollCall? caller.call = early, another.pollCall? caller.call = late at polled
      cases polled with
      | none => exact without
      | some polled =>
        have moved := without.withNode caller.broker polled.node
        rw [Option.map_some, Option.map_some, Option.getD_some, Option.getD_some, polled.progress]
        exact moved.note (isStepped ▸ Ne.symm differ) caller.broker _

/-! ## Loops -/

theorem stepLoop (without : cluster.Without ticket other) (sound : cluster.Sound)
    (index generation : Nat) :
    (cluster.stepLoop index generation).Without ticket (other.stepLoop index generation) := by
  unfold Cluster.stepLoop
  obtain ⟨isNode, isOther⟩ | ⟨one, another, isNode, isOther, nodes⟩ := without.node? index
  · rw [isNode, isOther]
    exact without
  · obtain ⟨isBroker, journal⟩ := node?_eq_some isNode
    simp only [isNode, isOther, nodes.broker]
    cases found : one.broker.loop? generation with
    | none => exact without
    | some loop =>
      -- The reader of the loop is in the group beside the missing one.
      have isLoop : loop.reader ∈
          cluster.brokers.flatMap fun broker => broker.loops.map (·.reader) :=
        List.mem_flatMap.2 ⟨one.broker, List.mem_of_getElem? isBroker,
          List.mem_map.2 ⟨loop, mem_of_loop? found, rfl⟩⟩
      have sees : another.journal.peek loop.reader = one.journal.peek loop.reader := by
        refine nodes.journal.peek fun topic present live missing joined => ?_
        obtain ⟨reader, held, reads⟩ := (Option.any_eq_true _ _).1 missing
        rw [journal] at live
        exact MemberCounts.several sound.counts isLoop
          (mem_claims_of_readerOf? held) reads live joined
      have polled := nodes.pollLoop? loop sees
      dsimp only
      generalize one.pollLoop? loop = early, another.pollLoop? loop = late at polled
      cases polled with
      | none => exact without
      | some polled => exact without.withNode index polled

/-! ## All actions of others -/

/-- Whatever happens beside the steps of the call happens in both clusters. -/
theorem perform (without : cluster.Without ticket other) (sound : cluster.Sound)
    (old : ticket < cluster.nextTicket) {action : Action} (beside : action ≠ .stepCall ticket)
    (keepsPosition : ¬cluster.PassesPosition ticket action) :
    (cluster.perform action).Without ticket (other.perform action) := by
  cases action with
  | start identity =>
    have made := (without.journal.makeTopic identity.topic).1
    simp only [Cluster.perform, Cluster.start, Node.start, without.link, without.brokers]
    split
    next => exact { without with link := rfl, brokers := rfl }
    next => exact { without with link := rfl, brokers := rfl, journal := made }
  | publish index scope resource event =>
    exact without.begin old index fun same => same.beginPublish scope resource event
  | subscribe index scope resource =>
    exact without.begin old index fun same => same.beginSubscribe scope resource
  | close index => exact without.begin old index fun same => same.beginClose
  | unsubscribe index resource id => exact without.modifyBroker index _
  | receive index place => exact without.modifyBroker index _
  | drain index place => exact without.modifyBroker index _
  | abandon index place => exact without.modifyBroker index _
  | stepCall stepped =>
    exact without.stepCall sound (fun same => beside (congrArg Action.stepCall same)) keepsPosition
  | stepLoop index generation => exact without.stepLoop sound index generation
  | cancelScope cancelled =>
    have reader := cluster.readerOf?_cancelScope ticket cancelled
    refine ⟨without.now, without.link, without.brokers, without.nextTicket,
      reader ▸ without.journal, ?_, without.replies⟩
    simp only [Cluster.perform, without.calls, List.filter_map]
    congr 1
    refine List.filter_congr fun caller _ => ?_
    simp only [Function.comp_apply]
    split <;> rfl
  | append topic record => exact without.withJournal (without.journal.append topic record).1
  | makeTopic topic => exact without.withJournal (without.journal.makeTopic topic).1
  | removeTopic topic => exact without.withJournal (without.journal.removeTopic topic)
  | breakJournal brokenAppends refusesCreation =>
    exact without.withJournal
      { without.journal with brokenAppends := rfl, refusesCreation := rfl }
  | relink link => exact { without with link := rfl }
  | pass duration => exact { without with now := congrArg (· + duration) without.now }

end Without

end Cluster

end UpdateRelay
