import UpdateRelay.Broker.Any
import UpdateRelay.Session.Basic
import UpdateRelay.Session.Connection

/-!
# Sessions over a broker

A hub is a broker with the counts of changes and the sessions of its clients. `Hub.move?` is one
step of a session: what it makes of what it sees, or a request to the broker and its answer. A
session's requests can be made to fail or to hang. A hub settles by rounds: what goes on in the
background of the broker first, then each session in turn until it waits.
-/

namespace UpdateRelay

inductive RequestKind
  | subscribe
  | unsubscribe
  | publish
  deriving DecidableEq, Repr

def Request.kind : Request → RequestKind
  | subscribe _ => .subscribe
  | publish _ => .publish
  | unsubscribe _ _ => .unsubscribe

def Request.resource : Request → String
  | subscribe resource => resource
  | publish event => event.resource
  | unsubscribe resource _ => resource

/-- Which requests of a session are to hang, and how many are still to fail. -/
structure Faults where
  hanging : RequestKind → Bool
  failing : RequestKind → Nat

namespace Faults

def none : Faults := ⟨fun _ => false, fun _ => 0⟩

def setHanging (faults : Faults) (kind : RequestKind) (hangs : Bool) : Faults :=
  { faults with hanging := fun asked => if asked = kind then hangs else faults.hanging asked }

def setFailing (faults : Faults) (kind : RequestKind) (count : Nat) : Faults :=
  { faults with failing := fun asked => if asked = kind then count else faults.failing asked }

/-- The failure of a request that was made to fail. -/
def error : BrokerFailure := .journal (.transport "injected")

end Faults

/-- A client's session: its lifetime, how many milliseconds its publishes and releases may take,
its connection, since when its request has been hanging, its faults, and the requests it has made
since they were last looked at. -/
structure Client where
  session : Session
  scope : Scope
  requestTime : Nat
  connection : Connection
  hungSince : Option Nat
  faults : Faults
  requests : List Request

/-- How many milliseconds a publish or a release may take unless another number is set. -/
def defaultRequestTime : Nat := 5000

namespace Client

/-- A client's session at its start. -/
def start (scope : Scope) (requestTime : Nat) (connection : Connection) : Client where
  session := .start
  scope := scope
  requestTime := requestTime
  connection := connection
  hungSince := none
  faults := .none
  requests := []

def isOver (client : Client) (now : Nat) : Bool := (client.scope.stop? now).isSome

/-- The scope of a request that was made at an instant. A release goes on though the session's
lifetime is over. -/
def requestScope (client : Client) (request : Request) (instant : Nat) : Scope :=
  match request.kind with
  | .subscribe => client.scope
  | .publish => client.scope.within instant client.requestTime
  | .unsubscribe => Scope.unlimited.within instant client.requestTime

/-- The client after its connection was taken as far as it goes without the session. -/
def refresh (client : Client) (now : Nat) : Client :=
  if client.isOver now then client
  else
    match client.session.phase with
    | .listening => { client with connection := client.connection.listen }
    | .sending _ => { client with connection := client.connection.push }
    | _ => client

/-- What the mailbox of the held subscription has for the session. -/
def mail (client : Client) (room : Mailroom) : Intake Event :=
  match client.session.held with
  | none => .nothing
  | some subscription =>
      match room.receipt subscription.place with
      | .event event => .item event
      | .empty => .nothing
      | .closed => .ended

def observation (client : Client) (room : Mailroom) (now : Nat) : Observation where
  lifetimeOver := client.isOver now
  command := client.connection.command
  event := client.mail room
  send := client.connection.sent?

/-- The connection after the session took what it turned to. -/
def taken (client : Client) : Stimulus → Connection
  | .command (some _) => client.connection.takeCommand
  | .event (some event) => client.connection.beginSend event
  | .sent (.ok ()) =>
      match client.session.phase with
      | .sending event => client.connection.endSend event
      | _ => client.connection
  | _ => client.connection

/-- The client after its session reacted; a session that has ended leaves its connection. -/
def react (client : Client) (counts : ChangeCounts) (stimulus : Stimulus) : Client :=
  let session := client.session.react counts stimulus
  let connection := client.taken stimulus
  { client with
    session := session
    connection := if session.result?.isSome then connection.leave else connection
    hungSince := none }

def timers (client : Client) : List Nat :=
  match client.session.result?, client.session.request?, client.hungSince with
  | some _, _, _ => []
  | none, some request, some instant => (client.requestScope request instant).deadline.toList
  | none, _, _ => client.scope.deadline.toList

end Client

/-- A broker, the counts of changes, and the sessions in the order in which they were opened. -/
structure Hub where
  now : Nat
  broker : AnyBroker
  counts : ChangeCounts
  clients : List Client

namespace Hub

def start (broker : AnyBroker) : Hub := ⟨0, broker, .empty, []⟩

def modifyClient (hub : Hub) (index : Nat) (change : Client → Client) : Hub :=
  { hub with clients := hub.clients.modify index change }

def addClient (hub : Hub) (client : Client) : Hub :=
  { hub with clients := hub.clients ++ [client] }

/-! ## Requests -/

/-- What a client is told when its request fails before it reaches the broker. -/
def refusal (client : Client) (now : Nat) (cause : BrokerFailure) : Request → Stimulus
  | .subscribe _ => .subscribed (.error cause) (client.isOver now)
  | .publish _ => .published (.error cause)
  | .unsubscribe _ _ => .released (.error cause)

/-- The broker after a request, and its answer if it gives one. -/
def perform (hub : Hub) (client : Client) (request : Request) : AnyBroker × Option Stimulus :=
  let scope := client.requestScope request hub.now
  match request with
  | .subscribe resource =>
      let (broker, answer) := hub.broker.subscribe scope hub.now resource
      (broker, answer.map (.subscribed · (client.isOver hub.now)))
  | .publish event =>
      let (broker, answer) := hub.broker.publish scope hub.now event.resource event
      (broker, answer.map .published)
  | .unsubscribe resource id => (hub.broker.unsubscribe resource id, some (.released (.ok ())))

/-- The broker after a session reacted: the mailbox of a subscription is given up when it was
released, and an event that the session turned to leaves its mailbox. -/
def settleMail (session : Session) (stimulus : Stimulus) (broker : AnyBroker) : AnyBroker :=
  match stimulus, session.phase, session.held with
  | .released _, .releasing subscription _, _ =>
      broker.modifyBox subscription.place Mailbox.abandon
  | .event (some _), _, some subscription =>
      broker.modifyBox subscription.place Mailbox.receive
  | _, _, _ => broker

/-- The hub after something happened to a session. -/
def deliver (hub : Hub) (index : Nat) (client : Client) (stimulus : Stimulus) : Hub :=
  { hub with
    broker := settleMail client.session stimulus hub.broker
    clients := hub.clients.set index (client.react hub.counts stimulus) }

def makeRequest (hub : Hub) (index : Nat) (client : Client) (request : Request) : Hub :=
  let asked := { client with requests := client.requests ++ [request] }
  let kind := request.kind
  if client.faults.hanging kind then
    { hub with clients := hub.clients.set index { asked with hungSince := some hub.now } }
  else if 0 < client.faults.failing kind then
    let faults := client.faults.setFailing kind (client.faults.failing kind - 1)
    hub.deliver index { asked with faults := faults } (refusal client hub.now Faults.error request)
  else
    match hub.perform client request with
    | (broker, some answer) => { hub with broker := broker }.deliver index asked answer
    -- The journal never answers, so only the end of its scope ends the request.
    | (broker, none) =>
        { hub with
          broker := broker
          clients := hub.clients.set index { asked with hungSince := some hub.now } }

/-! ## Steps -/

/-- The hub after a client's connection was taken as far as it goes without the session. -/
def refresh (hub : Hub) (index : Nat) : Hub := hub.modifyClient index (·.refresh hub.now)

/-- One step of a session, if it need not wait. -/
def move? (hub : Hub) (index : Nat) : Option Hub :=
  match hub.clients[index]? with
  | none => none
  | some client =>
      match client.session.request?, client.hungSince with
      | some request, none => some (hub.makeRequest index client request)
      | some request, some instant =>
          ((client.requestScope request instant).stop? hub.now).map fun reason =>
            hub.deliver index client (refusal client hub.now reason.error request)
      | none, _ =>
          (client.session.choose? (client.observation hub.broker.room hub.now)).map
            (hub.deliver index client)

/-- Lets a session go on until it waits, for some number of steps at the most, and tells whether it
went on. -/
def runClient (index : Nat) : (steps : Nat) → Hub → Hub × Bool
  | 0, hub => (hub, false)
  | steps + 1, hub =>
      let refreshed := hub.refresh index
      match refreshed.move? index with
      | some next => ((runClient index steps next).1, true)
      | none => (refreshed, false)

/-- A number of steps after which sessions wait: each command takes a few and brings each
client one event at the most, and each event takes a few. -/
def budget (hub : Hub) : Nat :=
  let items := hub.clients.foldl (fun items client => items + client.connection.pendingItems + 1) 0
  let events := hub.broker.room.boxes.foldl (fun events box => events + box.queue.length) 0
  4 * (items + 1) * (hub.clients.length + 4) + 4 * events + 16

/-- Lets sessions go on in turn. -/
def runEach (steps : Nat) : List Nat → Hub → Hub × Bool
  | [], hub => (hub, false)
  | index :: rest, hub =>
      let (after, moved) := runClient index steps hub
      let (last, others) := runEach steps rest after
      (last, moved || others)

/-- One round: the background of the broker, then each session in turn. -/
def round (hub : Hub) : Hub × Bool :=
  let busy := hub.broker.isBusy
  let settled := { hub with broker := hub.broker.settle }
  let (after, moved) := runEach settled.budget (List.range hub.clients.length) settled
  (after, busy || moved)

/-- Takes rounds until nothing goes on, but some number of rounds at the most. -/
def runRounds : (rounds : Nat) → Hub → Hub
  | 0, hub => hub
  | rounds + 1, hub =>
      let (after, went) := hub.round
      if went then runRounds rounds after else after

def settle (hub : Hub) : Hub := runRounds hub.budget hub

/-! ## Time -/

def nextTimer? (hub : Hub) : Option Nat :=
  ((hub.clients.flatMap Client.timers).filter fun instant => hub.now < instant).min?

/-- Moves the time on to an instant, letting everything on the way settle. -/
def moveTo (instant : Nat) : (timers : Nat) → Hub → Hub
  | 0, hub => { hub with now := instant }.settle
  | timers + 1, hub =>
      match hub.nextTimer? with
      | some timer =>
          if timer ≤ instant then moveTo instant timers { hub with now := timer }.settle
          else { hub with now := instant }
      | none => { hub with now := instant }

/-- Some milliseconds pass. Each request that can hang has its own deadline. -/
def advance (hub : Hub) (duration : Nat) : Hub :=
  moveTo (hub.now + duration) (hub.budget + 2 * hub.clients.length) hub.settle

/-! ## Steps from outside -/

def cancel (hub : Hub) (index : Nat) : Hub :=
  hub.modifyClient index fun client =>
    { client with scope := { client.scope with cancelled := true } }

/-- Publishes events one after another; the last answer counts. -/
def publishAll (resource : String) :
    List Event → Hub → Hub × Option (Except BrokerFailure Unit)
  | [], hub => (hub, none)
  | event :: rest, hub =>
      let (broker, answer) := hub.broker.publish .unlimited hub.now resource event
      let (after, last) := publishAll resource rest { hub with broker := broker }
      (after, last.or answer)

def forgetRequests (hub : Hub) : Hub :=
  { hub with clients := hub.clients.map fun client => { client with requests := [] } }

end Hub

end UpdateRelay
