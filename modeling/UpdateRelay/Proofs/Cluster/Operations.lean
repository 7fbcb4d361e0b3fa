import UpdateRelay.Proofs.Cluster.Closing
import UpdateRelay.Proofs.Journal.Content

/-!
# Publishes and subscribes

An operation is a publish or a subscribe that somebody has at a broker. `Operation.Under.moves` says
what a step of its call comes to where the journal serves every request: the content of the topic
decides, and a call that finds its topic missing asks for it and tries once more.
-/

namespace UpdateRelay

/-- The topic of a broker, and whether the broker is closed. -/
def JournaledBroker.topicUse (broker : JournaledBroker) : String × Bool :=
  (broker.identity.topic, broker.closed)

/-- A publish or a subscribe at one of several brokers. -/
inductive Operation
  | publish (broker : Nat) (scope : Scope) (resource : String) (event : Event)
  | subscribe (broker : Nat) (scope : Scope) (resource : String)

namespace Operation

def broker : Operation → Nat
  | publish broker _ _ _ | subscribe broker _ _ => broker

def scope : Operation → Scope
  | publish _ scope _ _ | subscribe _ scope _ => scope

/-- The record that an operation leaves, if it is a publish: it bears the name of the resource and
holds the event. -/
def record? : Operation → Option JournalRecord
  | publish _ _ resource event => some ⟨Bytes.ofText resource, MessagePack.encode event⟩
  | subscribe .. => none

/-- How an operation begins. -/
def start : Operation → Node → Node × Progress
  | publish _ scope resource event, node => node.beginPublish scope resource event
  | subscribe _ scope resource, node => node.beginSubscribe scope resource

/-- Whether a broker has to ask the journal for an operation: a subscribe needs a reader if its
resource has no entry, and no reader helps if its mailbox cannot be made. -/
def NeedsJournal (host : JournaledBroker) : Operation → Prop
  | publish .. => True
  | subscribe _ _ resource =>
      Mailbox.canHold host.identity.capacity = true ∧ host.entries.get? resource = none

instance (host : JournaledBroker) : DecidablePred (NeedsJournal host)
  | publish .. => .isTrue trivial
  | subscribe .. => inferInstanceAs (Decidable (_ ∧ _))

/-- Whether an operation is at an open broker that has to ask the journal for it, and its scope is
not done. -/
structure Admitted (operation : Operation) (node : Node) : Prop where
  live : operation.scope.stop? node.now = none
  isOpen : node.broker.closed = false
  needs : operation.NeedsJournal node.broker

instance (operation : Operation) (node : Node) : Decidable (operation.Admitted node) :=
  decidable_of_iff (operation.scope.stop? node.now = none ∧ node.broker.closed = false ∧
      operation.NeedsJournal node.broker)
    ⟨fun ⟨live, isOpen, needs⟩ => ⟨live, isOpen, needs⟩,
      fun ⟨live, isOpen, needs⟩ => ⟨live, isOpen, needs⟩⟩

/-- Whether a call is one for an operation that has a number of steps left. Past the making of its
topic it is only if the topic is present. -/
inductive Under (present : Bool) : Operation → Call → Nat → Prop
  | writing {broker scope resource event} :
      Under present (.publish broker scope resource event)
        (.publish (Node.recordOf resource event) scope .writing) 3
  | creating {broker scope resource event} :
      Under present (.publish broker scope resource event)
        (.publish (Node.recordOf resource event) scope .creating) 2
  | rewriting {broker scope resource event} (made : present = true) :
      Under present (.publish broker scope resource event)
        (.publish (Node.recordOf resource event) scope .rewriting) 1
  | opening {broker scope resource id} :
      Under present (.subscribe broker scope resource) (.subscribe resource id scope .opening) 4
  | making {broker scope resource id} :
      Under present (.subscribe broker scope resource) (.subscribe resource id scope .creating) 3
  | reopening {broker scope resource id} (made : present = true) :
      Under present (.subscribe broker scope resource) (.subscribe resource id scope .reopening) 2
  | opened {broker scope resource id reader} (made : present = true) :
      Under present (.subscribe broker scope resource)
        (.subscribe resource id scope (.opened reader)) 1

/-- Whether a reply grants what an operation asks for. -/
def Granted : Operation → Reply → Prop
  | publish .., .completed (.ok ()) => True
  | subscribe _ _ resource, .subscribed (.ok subscription) => subscription.resource = resource
  | _, _ => False

end Operation

/-- The record that a publish in progress is to leave. -/
def Call.record? : Call → Option JournalRecord
  | publish record _ _ => some record
  | subscribe .. | close => none

namespace Operation.Under

variable {present : Bool} {operation : Operation} {call : Call} {steps : Nat}

theorem mono {later : Bool} (under : operation.Under present call steps)
    (stays : present = true → later = true) : operation.Under later call steps := by
  cases under with
  | writing => exact .writing
  | creating => exact .creating
  | rewriting made => exact .rewriting (stays made)
  | opening => exact .opening
  | making => exact .making
  | reopening made => exact .reopening (stays made)
  | opened made => exact .opened (stays made)

theorem record (under : operation.Under present call steps) : call.record? = operation.record? := by
  cases under <;> rfl

theorem positive (under : operation.Under present call steps) : 0 < steps := by
  cases under <;> decide

end Operation.Under

/-- Whether a link lets every request have its answer. -/
def Link.serves (link : Link) : Bool := link.answers && !link.hangsAppends

/-! ## One step of a call -/

namespace Node

/-- Whether a step of a call asks for the topic of its broker to be made, and succeeds. -/
def creates (node : Node) (call : Call) : Bool :=
  match node.pollCall? call with
  | some (after, _) =>
      decide (node.journal.makeCount < after.journal.makeCount) &&
        (node.journal.makeTopic node.broker.identity.topic).2.isOk
  | none => false

variable {node : Node} {scope : Scope}

theorem pollCall?_publish (isOpen : node.broker.closed = false)
    (live : scope.stop? node.now = none) (record : JournalRecord) {stage : PublishStage}
    (going : stage ≠ .stuck) :
    node.pollCall? (.publish record scope stage) = some (node.pollPublish record scope stage) := by
  simp [pollCall?, isOpen, Scope.check, live, going]

theorem pollCall?_subscribe (live : scope.stop? node.now = none) (resource : String)
    (id : SubscriberId) {stage : SubscribeStage} (free : holds node.link stage = false) :
    node.pollCall? (.subscribe resource id scope stage) =
      some (node.pollSubscribe resource id scope stage) := by
  simp [pollCall?, Scope.check, live, free]

theorem creates_eq_false {call : Call} {after : Node} {progress : Progress}
    (polled : node.pollCall? call = some (after, progress))
    (same : after.journal.makeCount = node.journal.makeCount) : node.creates call = false := by
  simp [creates, polled, same]

theorem creates_eq {call : Call} {after : Node} {progress : Progress}
    (polled : node.pollCall? call = some (after, progress))
    (more : after.journal.makeCount = node.journal.makeCount + 1) :
    node.creates call = (node.journal.makeTopic node.broker.identity.topic).2.isOk := by
  simp [creates, polled, more]

end Node

namespace Operation

/-- How an operation can begin: with a call in progress if it is admitted, and with its answer at
once if it is not. The journal is not asked yet, and all that the broker may do is to use up a
number or to let a subscriber join. -/
inductive Begins (operation : Operation) (node : Node) : Node × Progress → Prop
  | pending {after call steps} (admitted : operation.Admitted node)
      (topicUse : after.topicUse = node.broker.topicUse) (few : steps ≤ 4)
      (under : operation.Under false call steps) :
      Begins operation node ({ node with broker := after }, .pending call)
  | replied {after reply} (refused : ¬operation.Admitted node)
      (topicUse : after.topicUse = node.broker.topicUse) :
      Begins operation node ({ node with broker := after }, .replied reply)

theorem begins_publish (node : Node) (broker : Nat) (scope : Scope) (resource : String)
    (event : Event) : (publish broker scope resource event).Begins node
      (node.beginPublish scope resource event) := by
  simp only [Node.beginPublish, Scope.check]
  cases stopped : scope.stop? node.now with
  | some reason =>
    exact @Begins.replied _ _ node.broker _
      (fun admitted => Option.some_ne_none _ (stopped.symm.trans admitted.live)) rfl
  | none =>
    cases closed : node.broker.closed with
    | true =>
      exact @Begins.replied _ _ node.broker _
        (fun admitted => absurd (closed.symm.trans admitted.isOpen) (by decide)) rfl
    | false =>
      exact @Begins.pending _ _ node.broker _ 3 ⟨stopped, closed, trivial⟩ rfl (by decide) .writing

theorem begins_subscribe (node : Node) (broker : Nat) (scope : Scope) (resource : String) :
    (subscribe broker scope resource).Begins node (node.beginSubscribe scope resource) := by
  simp only [Node.beginSubscribe, Scope.check]
  cases stopped : scope.stop? node.now with
  | some reason =>
    exact @Begins.replied _ _ node.broker _
      (fun admitted => Option.some_ne_none _ (stopped.symm.trans admitted.live)) rfl
  | none =>
    -- From here on the number is used up.
    let spent : JournaledBroker := { node.broker with nextNumber := node.broker.nextNumber + 1 }
    cases fits : Mailbox.canHold node.broker.identity.capacity with
    | false =>
      exact @Begins.replied _ _ spent _
        (fun admitted => absurd (fits.symm.trans admitted.needs.1) (by decide)) rfl
    | true =>
      cases closed : node.broker.closed with
      | true =>
        exact @Begins.replied _ _ spent _
          (fun admitted => absurd (closed.symm.trans admitted.isOpen) (by decide)) rfl
      | false =>
        cases found : node.broker.entries.get? resource with
        | some entry =>
          exact @Begins.replied _ _ (spent.join resource entry ⟨node.broker.nextNumber⟩) _
            (fun admitted => Option.some_ne_none _ (found.symm.trans admitted.needs.2)) rfl
        | none =>
          exact @Begins.pending _ _ spent _ 4 ⟨stopped, closed, fits, found⟩ rfl (by decide)
            .opening

theorem begins (operation : Operation) (node : Node) :
    operation.Begins node (operation.start node) := by
  cases operation with
  | publish broker scope resource event => exact begins_publish node broker scope resource event
  | subscribe broker scope resource => exact begins_subscribe node broker scope resource

theorem Begins.topicUse {operation : Operation} {node : Node} {begun : Node × Progress}
    (begins : operation.Begins node begun) : begun.1.broker.topicUse = node.broker.topicUse := by
  cases begins with
  | pending _ topicUse | replied _ topicUse => exact topicUse

/-- What a step of a call for an operation comes to: it comes closer to its answer; it makes the
missing topic; or what it asks for is granted, and a publish has left its record. -/
inductive Moves (operation : Operation) (steps : Nat) :
    Option (List JournalRecord) → Progress → Option (List JournalRecord) → Prop
  | cameOn {content call left} (fewer : left < steps)
      (under : operation.Under content.isSome call left) :
      Moves operation steps content (.pending call) content
  | made {call left} (fewer : left < steps) (under : operation.Under true call left) :
      Moves operation steps none (.pending call) (some [])
  | granted {records reply} (granted : operation.Granted reply) :
      Moves operation steps (some records) (.replied reply)
        (some (records ++ operation.record?.toList))

/-- Whoever has asked for the topic goes on, whether it was missing or not. -/
theorem Moves.asked {operation : Operation} {steps left : Nat}
    {content : Option (List JournalRecord)}
    {call : Call} (fewer : left < steps) (under : operation.Under true call left) :
    operation.Moves steps content (.pending call) (some (content.getD [])) := by
  cases content with
  | some records => exact .cameOn fewer under
  | none => exact .made fewer under

/-- A topic that is there stays. -/
theorem Moves.stays {operation : Operation} {steps : Nat}
    {content later : Option (List JournalRecord)}
    {progress : Progress} (moves : operation.Moves steps content progress later)
    (present : content.isSome = true) : later.isSome = true := by
  cases moves with
  | cameOn => exact present
  | made | granted => rfl

/-- A topic that is there was there or has been made. -/
theorem Moves.tally {operation : Operation} {steps : Nat}
    {content later : Option (List JournalRecord)}
    {progress : Progress} (moves : operation.Moves steps content progress later) :
    (content.isNone && later.isSome).toNat + content.isSome.toNat = later.isSome.toNat := by
  cases moves with
  | cameOn => cases content <;> rfl
  | made | granted => rfl

section Moves

variable {node : Node} {content : Option (List JournalRecord)} {records : List JournalRecord}
  {scope : Scope} {broker : Nat} {resource : String} {event : Event} {id : SubscriberId}

/-- A step of a call for an operation, with what it leaves of the journal. -/
def MovesAt (operation : Operation) (node : Node) (call : Call) (steps : Nat)
    (content : Option (List JournalRecord)) : Prop :=
  ∃ after progress later, node.pollCall? call = some (after, progress) ∧
    after.journal.Serviceable node.broker.identity.topic later ∧
    operation.Moves steps content progress later ∧
    node.creates call = (content.isNone && later.isSome)

/-! ### Publishing -/

/-- Where its topic exists, a publish writes its record. -/
theorem moves_write
    (serviceable : node.journal.Serviceable node.broker.identity.topic (some records))
    (isOpen : node.broker.closed = false) (writes : node.link.hangsAppends = false)
    (live : scope.stop? node.now = none) {stage : PublishStage}
    (asks : stage = .writing ∨ stage = .rewriting) (steps : Nat) :
    (publish broker scope resource event).MovesAt node
      (.publish (Node.recordOf resource event) scope stage) steps (some records) := by
  obtain ⟨journal, appended, left, count⟩ :=
    serviceable.append_of_some (Node.recordOf resource event)
  have polled : node.pollCall? (.publish (Node.recordOf resource event) scope stage) =
      some ({ node with journal := journal }, .replied (.completed (.ok ()))) := by
    rcases asks with rfl | rfl
    · rw [Node.pollCall?_publish isOpen live _ (by simp)]
      simp [Node.pollPublish, writes, appended]
    · rw [Node.pollCall?_publish isOpen live _ (by simp)]
      simp [Node.pollPublish, writes, appended]
  exact ⟨_, _, _, polled, left, .granted trivial, Node.creates_eq_false polled count⟩

theorem moves_writing (serviceable : node.journal.Serviceable node.broker.identity.topic content)
    (isOpen : node.broker.closed = false) (writes : node.link.hangsAppends = false)
    (live : scope.stop? node.now = none) :
    (publish broker scope resource event).MovesAt node
      (.publish (Node.recordOf resource event) scope .writing) 3 content := by
  cases content with
  | some records => exact moves_write serviceable isOpen writes live (Or.inl rfl) 3
  | none =>
    obtain ⟨journal, appended, left, count⟩ :=
      serviceable.append_of_none (Node.recordOf resource event)
    have polled : node.pollCall? (.publish (Node.recordOf resource event) scope .writing) =
        some ({ node with journal := journal },
          .pending (.publish (Node.recordOf resource event) scope .creating)) := by
      rw [Node.pollCall?_publish isOpen live _ (by simp)]
      simp [Node.pollPublish, writes, appended]
    exact ⟨_, _, _, polled, left, .cameOn (by decide) .creating,
      Node.creates_eq_false polled count⟩

theorem moves_creating (serviceable : node.journal.Serviceable node.broker.identity.topic content)
    (isOpen : node.broker.closed = false) (creates : node.link.hangsCreations = false)
    (live : scope.stop? node.now = none) :
    (publish broker scope resource event).MovesAt node
      (.publish (Node.recordOf resource event) scope .creating) 2 content := by
  obtain ⟨journal, outcome, made, fine, left, count, told⟩ := serviceable.makeTopic
  have polled : node.pollCall? (.publish (Node.recordOf resource event) scope .creating) =
      some ({ node with journal := journal },
        .pending (.publish (Node.recordOf resource event) scope .rewriting)) := by
    rw [Node.pollCall?_publish isOpen live _ (by simp)]
    rcases fine with rfl | rfl <;> simp [Node.pollPublish, creates, made]
  refine ⟨_, _, _, polled, left, .asked (by decide) (.rewriting rfl), ?_⟩
  rw [Node.creates_eq polled count, made, told, Option.isSome_some, Bool.and_true]

/-! ### Subscribing -/

/-- Where its topic exists, a subscribe gets a reader. -/
theorem moves_attach
    (serviceable : node.journal.Serviceable node.broker.identity.topic (some records))
    (opens : node.link.holdsOpening = false) (live : scope.stop? node.now = none)
    {stage : SubscribeStage} (asks : stage = .opening ∨ stage = .reopening) {steps : Nat}
    (more : 1 < steps) :
    (subscribe broker scope resource).MovesAt node (.subscribe resource id scope stage) steps
      (some records) := by
  obtain ⟨journal, reader, attached, left, count⟩ :=
    serviceable.attach_of_some (node.broker.identity.group resource)
  have free : Node.holds node.link stage = false := by rcases asks with rfl | rfl <;> exact opens
  have polled : node.pollCall? (.subscribe resource id scope stage) =
      some ({ node with journal := journal },
        .pending (.subscribe resource id scope (.opened reader))) := by
    rw [Node.pollCall?_subscribe live resource id free]
    rcases asks with rfl | rfl <;> simp [Node.pollSubscribe, Node.attach, attached]
  exact ⟨_, _, _, polled, left, .cameOn more (.opened rfl), Node.creates_eq_false polled count⟩

theorem moves_opening (serviceable : node.journal.Serviceable node.broker.identity.topic content)
    (opens : node.link.holdsOpening = false) (live : scope.stop? node.now = none) :
    (subscribe broker scope resource).MovesAt node (.subscribe resource id scope .opening) 4
      content := by
  cases content with
  | some records => exact moves_attach serviceable opens live (Or.inl rfl) (by decide)
  | none =>
    have missing := serviceable.attach_of_none (node.broker.identity.group resource)
    have free : Node.holds node.link .opening = false := opens
    have polled : node.pollCall? (.subscribe resource id scope .opening) =
        some (node, .pending (.subscribe resource id scope .creating)) := by
      rw [Node.pollCall?_subscribe live resource id free]
      simp [Node.pollSubscribe, Node.attach, missing]
    exact ⟨_, _, _, polled, serviceable, .cameOn (by decide) .making,
      Node.creates_eq_false polled rfl⟩

theorem moves_making (serviceable : node.journal.Serviceable node.broker.identity.topic content)
    (creates : node.link.hangsCreations = false) (live : scope.stop? node.now = none) :
    (subscribe broker scope resource).MovesAt node (.subscribe resource id scope .creating) 3
      content := by
  obtain ⟨journal, outcome, made, fine, left, count, told⟩ := serviceable.makeTopic
  have polled : node.pollCall? (.subscribe resource id scope .creating) =
      some ({ node with journal := journal },
        .pending (.subscribe resource id scope .reopening)) := by
    rw [Node.pollCall?_subscribe live resource id rfl]
    rcases fine with rfl | rfl <;> simp [Node.pollSubscribe, creates, made]
  refine ⟨_, _, _, polled, left, .asked (by decide) (.reopening rfl), ?_⟩
  rw [Node.creates_eq polled count, made, told, Option.isSome_some, Bool.and_true]

/-- A subscribe that has a reader is registered, with an entry of its own or with one that the
resource has got meanwhile. -/
theorem moves_opened
    (serviceable : node.journal.Serviceable node.broker.identity.topic (some records))
    (isOpen : node.broker.closed = false) (hands : node.link.holdsOpened = false)
    (live : scope.stop? node.now = none) (reader : Reader) :
    (subscribe broker scope resource).MovesAt node
      (.subscribe resource id scope (.opened reader)) 1 (some records) := by
  have free : Node.holds node.link (.opened reader) = false := hands
  have going := Node.pollCall?_subscribe live resource id free
  simp only [Node.pollSubscribe, Node.register, isOpen, Bool.false_eq_true, if_false] at going
  -- Nothing is written, so the content is the same.
  have moves : ∀ place, (subscribe broker scope resource).Moves 1 (some records)
      (.replied (.subscribed (.ok ⟨id, resource, place⟩))) (some records) := by
    intro place
    have moves : (subscribe broker scope resource).Moves 1 (some records)
        (.replied (.subscribed (.ok ⟨id, resource, place⟩)))
        (some (records ++ (subscribe broker scope resource).record?.toList)) := .granted rfl
    rwa [record?, Option.toList_none, List.append_nil] at moves
  cases found : node.broker.entries.get? resource with
  | some entry =>
    simp only [found] at going
    exact ⟨_, _, _, going, serviceable.leave reader, moves _,
      Node.creates_eq_false going (node.journal.makeCount_leave reader)⟩
  | none =>
    simp only [found] at going
    exact ⟨_, _, _, going, serviceable, moves _, Node.creates_eq_false going rfl⟩

end Moves

/-- What a step of a call for an operation comes to, where requests are answered. -/
theorem Under.moves {operation : Operation} {node : Node} {call : Call} {steps : Nat}
    {content : Option (List JournalRecord)} (under : operation.Under content.isSome call steps)
    (serviceable : node.journal.Serviceable node.broker.identity.topic content)
    (isOpen : node.broker.closed = false) (serves : node.link.serves = true)
    (live : operation.scope.stop? node.now = none) : operation.MovesAt node call steps content := by
  simp only [Link.serves, Link.answers, Bool.and_eq_true, Bool.not_eq_true'] at serves
  obtain ⟨⟨⟨creates, opens⟩, hands⟩, writes⟩ := serves
  cases under with
  | writing => exact moves_writing serviceable isOpen writes live
  | creating => exact moves_creating serviceable isOpen creates live
  | rewriting made =>
    obtain ⟨records, rfl⟩ := Option.isSome_iff_exists.1 made
    exact moves_write serviceable isOpen writes live (Or.inr rfl) 1
  | opening => exact moves_opening serviceable opens live
  | making => exact moves_making serviceable creates live
  | reopening made =>
    obtain ⟨records, rfl⟩ := Option.isSome_iff_exists.1 made
    exact moves_attach serviceable opens live (Or.inr rfl) (by decide)
  | @opened _ _ _ _ reader made =>
    obtain ⟨records, rfl⟩ := Option.isSome_iff_exists.1 made
    exact moves_opened serviceable isOpen hands live reader

end Operation

end UpdateRelay
