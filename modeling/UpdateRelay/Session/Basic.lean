import UpdateRelay.Broker.Subscription
import UpdateRelay.Framing
import UpdateRelay.ChangeCounts

/-!
# Sessions

A session relays the events of the subscription it holds to one client and does what the client's
commands ask for. It holds one subscription at the most: before it asks for another, and before it
ends, it releases the one it holds.

A session either waits for something (`Phase.listening`, `Phase.sending`), has a request with the
broker, which `Session.request?` names, or has ended. `Session.choose?` says what a waiting session
turns to first: the end of its lifetime, then commands, then events. `Session.react` is what it
does next.
-/

namespace UpdateRelay

/-- What a session does after it has released a subscription. -/
inductive Sequel
  | subscribe (resource : String)
  | finish (result : Except SessionFailure Unit)

inductive Phase
  | listening
  | sending (event : Event)
  | subscribing (resource : String)
  | publishing (event : Event)
  | releasing (subscription : Subscription) (sequel : Sequel)
  | ended (result : Except SessionFailure Unit)

/-- A session: the subscription it holds and what it is doing. -/
structure Session where
  held : Option Subscription
  phase : Phase

/-- A request that a session has with the broker. -/
inductive Request
  | subscribe (resource : String)
  | publish (event : Event)
  | unsubscribe (resource : String) (id : SubscriberId)
  deriving DecidableEq, Repr

/-- What happens to a session: its lifetime is over; a command came, or the last one has come; an
event came, or the last one has come; an event was sent; or the broker answered. -/
inductive Stimulus
  | lifetimeOver
  | command (item : Option CommandItem)
  | event (event : Option Event)
  | sent (result : Except SessionFailure Unit)
  | subscribed (result : Except BrokerFailure Subscription) (lifetimeOver : Bool)
  | published (result : Except BrokerFailure Unit)
  | released (result : Except BrokerFailure Unit)

/-- What a source has to give now. -/
inductive Intake (α : Type)
  | nothing
  | item (value : α)
  | ended
  deriving DecidableEq, Repr

/-- What a waiting session sees: whether its lifetime is over, what its client and its mailbox have
for it, and what has come of the event it is sending. -/
structure Observation where
  lifetimeOver : Bool
  command : Intake CommandItem
  event : Intake Event
  send : Option (Except SessionFailure Unit)

namespace Session

def start : Session := ⟨none, .listening⟩

def resource? (session : Session) : Option String := session.held.map (·.resource)

def result? (session : Session) : Option (Except SessionFailure Unit) :=
  match session.phase with
  | .ended result => some result
  | _ => none

def request? (session : Session) : Option Request :=
  match session.phase with
  | .subscribing resource => some (.subscribe resource)
  | .publishing event => some (.publish event)
  | .releasing subscription _ => some (.unsubscribe subscription.resource subscription.id)
  | .listening | .sending _ | .ended _ => none

/-! ## What a waiting session turns to -/

/-- What a source gives a session, if it gives anything. -/
def stimulusOf {α : Type} (make : Option α → Stimulus) : Intake α → Option Stimulus
  | .nothing => none
  | .item value => some (make (some value))
  | .ended => some (make none)

/-- What a waiting session turns to: the end of its lifetime before anything else, commands
before events. -/
def choose? (session : Session) (observation : Observation) : Option Stimulus :=
  match session.phase with
  | .listening =>
      if observation.lifetimeOver then some .lifetimeOver
      else
        (stimulusOf .command observation.command).or
          (if session.held.isSome then stimulusOf .event observation.event else none)
  | .sending _ =>
      if observation.lifetimeOver then some .lifetimeOver else observation.send.map .sent
  | _ => none

/-! ## What a session does -/

def enter (session : Session) (phase : Phase) : Session := { session with phase := phase }

/-- Comes to an end, which takes the release of a subscription that is held. -/
def finish (session : Session) (result : Except SessionFailure Unit) : Session :=
  match session.held with
  | some subscription => ⟨none, .releasing subscription (.finish result)⟩
  | none => ⟨none, .ended result⟩

/-- The event that tells the current count of a resource. -/
def stateEvent (resource : String) (count : Int64) : Event :=
  ⟨resource, count, s!"Project {resource} updated"⟩

/-- Does what a command asks for. A subscription to the held resource, an update of any other
resource or of one whose count is unknown, and an unknown action ask for nothing. -/
def apply (session : Session) (counts : ChangeCounts) (command : Command) : Session :=
  match command.action? with
  | some .subscribe =>
      match session.held with
      | some subscription =>
          if subscription.resource = command.resource then session.enter .listening
          -- The held subscription is released before another one is asked for.
          else ⟨none, .releasing subscription (.subscribe command.resource)⟩
      | none => session.enter (.subscribing command.resource)
  | some .update =>
      if session.resource? = some command.resource then
        match counts.get? command.resource with
        | some count => session.enter (.publishing (stateEvent command.resource count))
        | none => session.enter .listening
      else session.enter .listening
  | none => session.enter .listening

/-- What a session does next. What does not fit its phase changes nothing. -/
def react (session : Session) (counts : ChangeCounts) (stimulus : Stimulus) : Session :=
  match session.phase, stimulus with
  | .listening, .lifetimeOver | .sending _, .lifetimeOver => session.finish (.ok ())
  | .listening, .command none => session.finish (.ok ())
  | .listening, .command (some (.error cause)) => session.finish (.error cause)
  | .listening, .command (some (.ok command)) => session.apply counts command
  | .listening, .event none => session.finish (.ok ())
  | .listening, .event (some event) => session.enter (.sending event)
  | .sending _, .sent (.ok ()) => session.enter .listening
  | .sending _, .sent (.error cause) => session.finish (.error cause)
  | .subscribing _, .subscribed (.ok subscription) _ => ⟨some subscription, .listening⟩
  | .subscribing _, .subscribed (.error cause) lifetimeOver =>
      -- The end of the lifetime is no failure; the session sees it when it listens again.
      if lifetimeOver then session.enter .listening else session.finish (.error (.broker cause))
  | .publishing _, .published _ => session.enter .listening
  | .releasing _ (.subscribe resource), .released _ => session.enter (.subscribing resource)
  | .releasing _ (.finish result), .released _ => session.enter (.ended result)
  | _, _ => session

end Session

end UpdateRelay
