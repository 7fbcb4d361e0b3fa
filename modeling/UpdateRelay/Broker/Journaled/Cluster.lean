import UpdateRelay.Broker.Journaled.Call

/-!
# Clusters

Several durable brokers over one journal, with the calls that are in progress at them. A step of a
cluster is one step of a call or of a loop; a cluster settles by taking steps until all calls and
loops wait. Time moves only from one instant at which something goes on of itself to the next.
-/

namespace UpdateRelay

/-- A call in progress: its number and at which of the brokers it is. -/
structure Caller where
  ticket : Nat
  broker : Nat
  call : Call
  deriving DecidableEq, Repr

/-- Brokers over one journal, their calls in progress in the order in which they were begun, and
the answers that calls have got. -/
structure Cluster where
  now : Nat
  journal : Journal
  link : Link
  brokers : List JournaledBroker
  calls : List Caller
  replies : List (Nat × Reply)
  nextTicket : Nat

namespace Cluster

def empty (createsOnDemand : Bool) : Cluster where
  now := 0
  journal := .empty createsOnDemand
  link := .sound
  brokers := []
  calls := []
  replies := []
  nextTicket := 0

def node? (cluster : Cluster) (index : Nat) : Option Node :=
  cluster.brokers[index]?.map fun broker => ⟨cluster.now, cluster.journal, cluster.link, broker⟩

def withNode (cluster : Cluster) (index : Nat) (node : Node) : Cluster :=
  { cluster with
    journal := node.journal
    link := node.link
    brokers := cluster.brokers.set index node.broker }

def start (cluster : Cluster) (identity : Instance) : Cluster :=
  let node := Node.start cluster.now cluster.journal cluster.link identity
  { cluster with journal := node.journal, brokers := cluster.brokers ++ [node.broker] }

def modifyBroker (cluster : Cluster) (index : Nat) (change : JournaledBroker → JournaledBroker) :
    Cluster :=
  { cluster with brokers := cluster.brokers.modify index change }

/-! ## Calls -/

/-- The cluster after a call came to a point: its answer is kept, or it stays in progress. -/
def note (cluster : Cluster) (ticket broker : Nat) : Progress → Cluster
  | .replied reply =>
      { cluster with
        calls := cluster.calls.filter fun caller => caller.ticket ≠ ticket
        replies := cluster.replies ++ [(ticket, reply)] }
  | .pending call =>
      { cluster with
        calls := cluster.calls.map fun caller =>
          if caller.ticket = ticket then ⟨ticket, broker, call⟩ else caller }

/-- The cluster with one more call at a broker; the number of the call is the next one. -/
def begin (cluster : Cluster) (index : Nat) (start : Node → Node × Progress) : Cluster :=
  match cluster.node? index with
  | none => cluster
  | some node =>
      let (after, progress) := start node
      let ticket := cluster.nextTicket
      let entered := { cluster.withNode index after with nextTicket := ticket + 1 }
      match progress with
      | .replied reply => { entered with replies := entered.replies ++ [(ticket, reply)] }
      | .pending call => { entered with calls := entered.calls ++ [⟨ticket, index, call⟩] }

def reply? (cluster : Cluster) (ticket : Nat) : Option Reply :=
  (cluster.replies.find? fun entry => entry.1 = ticket).map Prod.snd

/-! ## Steps -/

def pollCaller? (cluster : Cluster) (caller : Caller) : Option Cluster :=
  match cluster.node? caller.broker with
  | none => none
  | some node =>
      (node.pollCall? caller.call).map fun (after, progress) =>
        (cluster.withNode caller.broker after).note caller.ticket caller.broker progress

/-- One step of the first loop of a broker that need not wait. -/
def pollBroker? (cluster : Cluster) (index : Nat) : Option Cluster :=
  match cluster.node? index with
  | none => none
  | some node => node.nextLoop?.map (cluster.withNode index)

/-- One step of the first call that need not wait, or else of the first loop. -/
def next? (cluster : Cluster) : Option Cluster :=
  (cluster.calls.findSome? cluster.pollCaller?).or
    ((List.range cluster.brokers.length).findSome? cluster.pollBroker?)

/-- Takes steps until everything waits, but some number of steps at the most. -/
def run : (steps : Nat) → Cluster → Cluster
  | 0, cluster => cluster
  | steps + 1, cluster =>
      match cluster.next? with
      | some next => run steps next
      | none => cluster

def loopCount (cluster : Cluster) : Nat :=
  cluster.brokers.foldl (fun loops broker => loops + broker.loopCount) 0

/-- A number of steps after which everything waits: a call takes a few, adds one record and one
loop at the most, and a loop takes at the most two for a record and a few more. -/
def budget (cluster : Cluster) : Nat :=
  let calls := cluster.calls.length
  calls * 8 +
    (cluster.loopCount + calls) * (3 * (Node.longestTopic cluster.journal + calls) + 16) + 16

def settle (cluster : Cluster) : Cluster := run cluster.budget cluster

/-! ## Time -/

/-- The instant at which a loop goes on of itself, if it pauses. -/
def loopTimer? (loop : ConsumptionLoop) : Option Nat :=
  match loop.phase with
  | .pausing resumption => some resumption
  | _ => none

/-- The next instant at which something goes on of itself. -/
def nextTimer? (cluster : Cluster) : Option Nat :=
  let timers := cluster.calls.filterMap (·.call.deadline?) ++
    cluster.brokers.flatMap fun broker => broker.loops.filterMap loopTimer?
  (timers.filter fun instant => cluster.now < instant).min?

/-- A bound on how often something goes on of itself: each failing read brings one more pause. -/
def timerBudget (cluster : Cluster) : Nat :=
  cluster.calls.length + cluster.loopCount + cluster.link.failingReads + 1

/-- Moves the time on to an instant, letting everything on the way settle. -/
def moveTo (instant : Nat) : (timers : Nat) → Cluster → Cluster
  | 0, cluster => { cluster with now := instant }.settle
  | timers + 1, cluster =>
      match cluster.nextTimer? with
      | some timer =>
          if timer ≤ instant then moveTo instant timers { cluster with now := timer }.settle
          else { cluster with now := instant }
      | none => { cluster with now := instant }

def advance (cluster : Cluster) (duration : Nat) : Cluster :=
  moveTo (cluster.now + duration) cluster.timerBudget cluster.settle

/-- Lets time pass until a call has its answer, and no further. -/
def waitFor (ticket : Nat) : (timers : Nat) → Cluster → Cluster
  | 0, cluster => cluster
  | timers + 1, cluster =>
      if (cluster.reply? ticket).isSome then cluster
      else
        match cluster.nextTimer? with
        | some timer => waitFor ticket timers { cluster with now := timer }.settle
        | none => cluster

/-- Begins a call, waits for its answer and lets everything settle. -/
def call (cluster : Cluster) (index : Nat) (start : Node → Node × Progress) : Cluster :=
  let begun := (cluster.begin index start).settle
  waitFor cluster.nextTicket begun.timerBudget begun

end Cluster

end UpdateRelay
