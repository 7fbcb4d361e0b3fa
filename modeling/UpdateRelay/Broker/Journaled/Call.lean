import UpdateRelay.Broker.Journaled.Loop
import UpdateRelay.Lifetime.Scope

/-!
# Calls of a durable broker

A publish or a subscribe needs several requests to the journal, and a close waits for the loops to
end, so a call that was begun may have to wait, and others go on meanwhile. `Call` says how far one
has come, and `Node.pollCall?` is its next step: at the most one request to the journal.
-/

namespace UpdateRelay

/-- How far a publish has come: it is about to append, to make the missing topic or to append once
more; or its request is never answered. -/
inductive PublishStage
  | writing
  | creating
  | rewriting
  | stuck
  deriving DecidableEq, Repr

/-- How far a subscribe has come: it is about to open a reader, to make the missing topic, to open
once more or to register; or its request is never answered. -/
inductive SubscribeStage
  | opening
  | creating
  | reopening
  | opened (reader : Reader)
  | stuck
  deriving DecidableEq, Repr

/-- A call that is in progress. -/
inductive Call
  | publish (record : JournalRecord) (scope : Scope) (stage : PublishStage)
  | subscribe (resource : String) (id : SubscriberId) (scope : Scope) (stage : SubscribeStage)
  | close
  deriving DecidableEq, Repr

inductive Reply
  | completed (result : Except BrokerFailure Unit)
  | subscribed (result : Except BrokerFailure Subscription)

inductive Progress
  | pending (call : Call)
  | replied (reply : Reply)

/-- The instant by which a call is done anyway, if there is one. -/
def Call.deadline? : Call → Option Nat
  | publish _ scope _ | subscribe _ _ scope _ => scope.deadline
  | close => none

namespace Node

def fail (node : Node) (cause : BrokerFailure) : Node × Progress :=
  (node, .replied (.completed (.error cause)))

def failSubscribe (node : Node) (cause : BrokerFailure) : Node × Progress :=
  (node, .replied (.subscribed (.error cause)))

/-! ## Publishing -/

/-- The record in which an event travels. -/
def recordOf (resource : String) (event : Event) : JournalRecord :=
  ⟨Bytes.ofText resource, MessagePack.encode event⟩

def beginPublish (node : Node) (scope : Scope) (resource : String) (event : Event) :
    Node × Progress :=
  match scope.check node.now with
  | .error cause => node.fail cause
  | .ok () =>
      if node.broker.closed then node.fail .closed
      else (node, .pending (.publish (recordOf resource event) scope .writing))

/-- The next request of a publish that is neither stuck nor to be given up. -/
def pollPublish (node : Node) (record : JournalRecord) (scope : Scope) :
    PublishStage → Node × Progress
  | .writing =>
      if node.link.hangsAppends then (node, .pending (.publish record scope .stuck))
      else
        match node.journal.append node.broker.identity.topic record with
        | (journal, .ok ()) => ({ node with journal := journal }, .replied (.completed (.ok ())))
        | (journal, .error (.unknownTopic _)) =>
            ({ node with journal := journal }, .pending (.publish record scope .creating))
        | (journal, .error cause) => { node with journal := journal }.fail (.journal cause)
  | .creating =>
      if node.link.hangsCreations then (node, .pending (.publish record scope .stuck))
      else
        match node.journal.makeTopic node.broker.identity.topic with
        -- Another call may have made the topic meanwhile, which is as good.
        | (journal, .ok ()) | (journal, .error (.topicExists _)) =>
            ({ node with journal := journal }, .pending (.publish record scope .rewriting))
        | (journal, .error cause) => { node with journal := journal }.fail (.journal cause)
  | .rewriting =>
      if node.link.hangsAppends then (node, .pending (.publish record scope .stuck))
      else
        match node.journal.append node.broker.identity.topic record with
        | (journal, .ok ()) => ({ node with journal := journal }, .replied (.completed (.ok ())))
        | (journal, .error cause) => { node with journal := journal }.fail (.journal cause)
  | .stuck => (node, .pending (.publish record scope .stuck))

/-! ## Subscribing -/

/-- The answer of a subscribe that was registered at the next place. -/
def subscriptionAt (node : Node) (resource : String) (id : SubscriberId) : Progress :=
  .replied (.subscribed (.ok ⟨id, resource, node.broker.room.nextPlace⟩))

/-- Begins a subscribe. Its id is used up even if it fails, unless the scope is done. Where the
resource has an entry already, this is all. -/
def beginSubscribe (node : Node) (scope : Scope) (resource : String) : Node × Progress :=
  match scope.check node.now with
  | .error cause => node.failSubscribe cause
  | .ok () =>
      let id : SubscriberId := ⟨node.broker.nextNumber⟩
      let capacity := node.broker.identity.capacity
      let counted := node.modifyBroker fun broker =>
        { broker with nextNumber := broker.nextNumber + 1 }
      if !Mailbox.canHold capacity then counted.failSubscribe (.mailboxTooLarge capacity)
      else if node.broker.closed then counted.failSubscribe .closed
      else
        match node.broker.entries.get? resource with
        | some entry =>
            (counted.modifyBroker (·.join resource entry id), node.subscriptionAt resource id)
        | none => (counted, .pending (.subscribe resource id scope .opening))

def attach (node : Node) (resource : String) : Node × Except JournalFailure Reader :=
  let (journal, result) :=
    node.journal.attach node.broker.identity.topic (node.broker.identity.group resource)
  ({ node with journal := journal }, result)

/-- The node after a reader that is not needed left its group. -/
def release (node : Node) (reader : Reader) : Node :=
  { node with journal := node.journal.leave reader }

/-- Registers a subscriber for whom a reader was opened. The reader is spare if the resource has
got an entry meanwhile. -/
def register (node : Node) (resource : String) (id : SubscriberId) (reader : Reader) :
    Node × Progress :=
  if node.broker.closed then (node.release reader).failSubscribe .closed
  else
    match node.broker.entries.get? resource with
    | some entry =>
        ((node.modifyBroker (·.join resource entry id)).release reader,
          node.subscriptionAt resource id)
    | none =>
        (node.modifyBroker (·.found resource id reader), node.subscriptionAt resource id)

/-- The next request of a subscribe that need not wait and is not to be given up. -/
def pollSubscribe (node : Node) (resource : String) (id : SubscriberId) (scope : Scope) :
    SubscribeStage → Node × Progress
  | .opening =>
      match node.attach resource with
      | (after, .ok reader) => (after, .pending (.subscribe resource id scope (.opened reader)))
      | (after, .error (.unknownTopic _)) =>
          (after, .pending (.subscribe resource id scope .creating))
      | (after, .error cause) => after.failSubscribe (.journal cause)
  | .creating =>
      if node.link.hangsCreations then (node, .pending (.subscribe resource id scope .stuck))
      else
        match node.journal.makeTopic node.broker.identity.topic with
        -- Another call may have made the topic meanwhile, which is as good.
        | (journal, .ok ()) | (journal, .error (.topicExists _)) =>
            ({ node with journal := journal },
              .pending (.subscribe resource id scope .reopening))
        | (journal, .error cause) =>
            { node with journal := journal }.failSubscribe (.journal cause)
  | .reopening =>
      match node.attach resource with
      | (after, .ok reader) => (after, .pending (.subscribe resource id scope (.opened reader)))
      | (after, .error cause) => after.failSubscribe (.journal cause)
  | .opened reader => node.register resource id reader
  | .stuck => (node, .pending (.subscribe resource id scope .stuck))

/-- The node after a subscribe was given up: a reader that was opened for it leaves its group. -/
def abandon (node : Node) : SubscribeStage → Node
  | .opened reader => node.release reader
  | _ => node

/-- Whether the link keeps a subscribe waiting. -/
def holds (link : Link) : SubscribeStage → Bool
  | .opening | .reopening => link.holdsOpening
  | .opened _ => link.holdsOpened
  | .creating => false
  | .stuck => true

/-! ## Closing -/

/-- Begins a close; a broker that is closed already is left as it is. -/
def beginClose (node : Node) : Node × Progress :=
  if node.broker.closed then (node, .replied (.completed (.ok ())))
  else (node.modifyBroker (·.disband), .pending .close)

/-! ## Steps of calls -/

/-- The next step of a call, if it need not wait. A close of the broker ends publishes, and a scope
that is done ends publishes and subscribes, wherever they are. -/
def pollCall? (node : Node) : Call → Option (Node × Progress)
  | .publish record scope stage =>
      if node.broker.closed then some (node.fail .closed)
      else
        match scope.check node.now with
        | .error cause => some (node.fail cause)
        | .ok () => if stage = .stuck then none else some (node.pollPublish record scope stage)
  | .subscribe resource id scope stage =>
      match scope.check node.now with
      | .error cause => some ((node.abandon stage).failSubscribe cause)
      | .ok () =>
          if holds node.link stage then none
          else some (node.pollSubscribe resource id scope stage)
  | .close =>
      if node.broker.loops.isEmpty then
        some ({ node with journal := node.journal.close }, .replied (.completed (.ok ())))
      else none

/-- Takes a call forward until it has its answer or waits, for some number of steps at the most. -/
def pursue : (steps : Nat) → Node → Progress → Node × Progress
  | 0, node, progress => (node, progress)
  | _, node, .replied reply => (node, .replied reply)
  | steps + 1, node, .pending call =>
      match node.pollCall? call with
      | some (next, progress) => pursue steps next progress
      | none => (node, .pending call)

/-- The most steps that a call takes without waiting. -/
def callSteps : Nat := 5

/-- Takes a call that was just begun as far as it comes without waiting. -/
def callNow (begun : Node × Progress) : Node × Progress := pursue callSteps begun.1 begun.2

/-! ## Starting -/

/-- A new broker that has tried to make its topic; that this failed shows only later. -/
def start (now : Nat) (journal : Journal) (link : Link) (identity : Instance) : Node where
  now := now
  journal := if link.hangsCreations then journal else (journal.makeTopic identity.topic).1
  link := link
  broker := .empty identity

end Node

end UpdateRelay
