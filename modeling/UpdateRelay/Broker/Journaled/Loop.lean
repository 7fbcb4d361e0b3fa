import UpdateRelay.Broker.Journaled.Basic
import UpdateRelay.MessagePack.Event

/-!
# Consumption loops

A node is a durable broker beside the journal that it shares with others, with the faults of its
link to the journal. `Node.pollLoop?` is one step of a consumption loop: a read, with the handing
on of what was read; the removal of subscribers that are gone; the end of a pause; or the end of
the loop. It has no value where the loop can only wait.
-/

namespace UpdateRelay

/-- The faults of the link between brokers and the journal: how many reads are still to fail, and
which requests are never answered or not answered yet. -/
structure Link where
  failingReads : Nat
  hangsAppends : Bool
  hangsCreations : Bool
  holdsOpening : Bool
  holdsOpened : Bool
  deriving DecidableEq, Repr

def Link.sound : Link := ⟨0, false, false, false, false⟩

/-- A durable broker, the journal, the link between them, and the time. -/
structure Node where
  now : Nat
  journal : Journal
  link : Link
  broker : JournaledBroker
  deriving DecidableEq, Repr

/-- For how many milliseconds a loop pauses after a read that failed. -/
def readPause : Nat := 250

namespace Node

def modifyBroker (node : Node) (change : JournaledBroker → JournaledBroker) : Node :=
  { node with broker := change node.broker }

def enter (node : Node) (generation : Nat) (phase : LoopPhase) : Node :=
  node.modifyBroker (·.modifyLoop generation fun loop => { loop with phase := phase })

/-- The node after a loop ended and its reader left its group. -/
def endLoop (node : Node) (loop : ConsumptionLoop) : Node :=
  { node with
    journal := node.journal.leave loop.reader
    broker := node.broker.dropLoop loop.generation }

/-- The event that a record tells the subscribers of a resource, if it tells one. -/
def eventFor? (resource : String) (record : JournalRecord) : Option Event :=
  if record.key = Bytes.ofText resource then MessagePack.decode? record.value else none

/-- Hands a record on to the subscribers of a loop's entry. -/
def handOn (node : Node) (loop : ConsumptionLoop) (record : JournalRecord) : Node :=
  match eventFor? loop.resource record with
  | none => node.enter loop.generation .reading
  | some event =>
      let (broker, gone) := node.broker.offer loop.resource loop.generation event
      { node with broker := broker }.enter loop.generation
        (if gone.isEmpty then .reading else .pruning gone)

/-- What a loop does with a look at its topic. -/
def read (node : Node) (loop : ConsumptionLoop) : Node :=
  match node.journal.peek loop.reader with
  | .ok (some record) => { node with journal := node.journal.take loop.reader }.handOn loop record
  | .ok none =>
      node.modifyBroker (·.modifyLoop loop.generation fun loop =>
        { loop with reader := node.journal.look loop.reader, phase := .waiting })
  | .error .closed =>
      (node.modifyBroker (·.dissolve loop.resource loop.generation)).endLoop loop
  -- Other failures may pass, so the loop tries again later.
  | .error _ => node.enter loop.generation (.pausing (node.now + readPause))

/-- One step of a loop, if it need not wait. -/
def pollLoop? (node : Node) (loop : ConsumptionLoop) : Option Node :=
  match loop.phase with
  -- A loop that was told to stop completes what it has begun first.
  | .pruning gone =>
      some ((node.modifyBroker (·.prune loop.resource gone)).enter loop.generation .reading)
  | .pausing resumption =>
      if loop.cancelled then some (node.endLoop loop)
      else if resumption ≤ node.now then some (node.enter loop.generation .reading)
      else none
  | .reading =>
      if loop.cancelled then some (node.endLoop loop)
      else if 0 < node.link.failingReads then
        some ({ node with link.failingReads := node.link.failingReads - 1 }.enter
          loop.generation (.pausing (node.now + readPause)))
      else some (node.read loop)
  | .waiting =>
      if loop.cancelled then some (node.endLoop loop)
      else if node.journal.mustLook loop.reader then some (node.read loop)
      else none

/-- One step of the first loop that need not wait, if there is one. -/
def nextLoop? (node : Node) : Option Node := node.broker.loops.findSome? node.pollLoop?

/-- Lets the loops go on until they wait, for some number of steps at the most. -/
def runLoops : (steps : Nat) → Node → Node
  | 0, node => node
  | steps + 1, node =>
      match node.nextLoop? with
      | some next => runLoops steps next
      | none => node

def longestTopic (journal : Journal) : Nat :=
  journal.topics.values.foldl (fun longest topic => max longest topic.records.length) 0

/-- A number of steps after which loops wait: each takes at the most two for a record and a few
more. -/
def loopBudget (journal : Journal) (loops : Nat) : Nat := loops * (3 * longestTopic journal + 16)

def settleLoops (node : Node) : Node :=
  runLoops (loopBudget node.journal node.broker.loops.length) node

end Node

end UpdateRelay
