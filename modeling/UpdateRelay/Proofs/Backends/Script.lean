import Mathlib.Logic.Relation
import UpdateRelay.Broker.Journaled.Call
import UpdateRelay.Broker.Direct
import UpdateRelay.Notice
import UpdateRelay.Proofs.MessagePack.RoundTrip

/-!
# Requests and answers

What clients ask of a broker, one request after another, and what they hear. An in-process broker
answers at once. At a durable broker the call and the loops take their steps in any order, and the
next request comes when the call has its reply and no loop can go on.
-/

namespace UpdateRelay

/-- What clients ask of a broker. The ends of subscriptions and of the broker look at no scope. -/
inductive BrokerRequest
  | subscribe (scope : Scope) (resource : String)
  | unsubscribe (resource : String) (id : SubscriberId)
  | publish (scope : Scope) (resource : String) (event : Event)
  | notify (notice : Notice)
  | count (resource : String)
  | receive (place : Nat)
  | drain (place : Nat)
  | abandon (place : Nat)
  | close

/-- What clients hear. -/
inductive BrokerAnswer
  | done
  | completed (result : Except BrokerFailure Unit)
  | subscribed (result : Except BrokerFailure Subscription)
  | counted (count : Nat)
  | received (receipt : Receipt)
  | drained (events : List Event)

/-- Whether the event of a request, if it has one, has no text of 2³² bytes or more. -/
def BrokerRequest.Fits : BrokerRequest → Prop
  | publish _ _ event => event.Fits
  | notify notice => notice.event.Fits
  | _ => True

instance : DecidablePred BrokerRequest.Fits
  | .publish _ _ event => inferInstanceAs (Decidable event.Fits)
  | .notify notice => inferInstanceAs (Decidable notice.event.Fits)
  | .subscribe .. | .unsubscribe .. | .count _ | .receive _ | .drain _ | .abandon _ | .close =>
      .isTrue trivial

/-- Requests, each with the instant at which it comes. -/
abbrev Script := List (Nat × BrokerRequest)

namespace DirectBroker

/-- The broker after a request, and what the client hears. -/
def serve (broker : DirectBroker) (now : Nat) : BrokerRequest → DirectBroker × BrokerAnswer
  | .subscribe scope resource =>
      let (after, result) := broker.subscribe scope now resource
      (after, .subscribed result)
  | .unsubscribe resource id => (broker.unsubscribe resource id, .completed (.ok ()))
  | .publish scope resource event =>
      let (after, result) := broker.publish scope now resource event
      (after, .completed result)
  | .notify notice =>
      ((broker.publish (notice.scope now) now notice.resource notice.event).1, .done)
  | .count resource => (broker, .counted (broker.audience resource))
  | .receive place => (broker.modifyBox place .receive, .received (broker.room.receipt place))
  | .drain place => (broker.modifyBox place .drain, .drained (broker.room.queue place))
  | .abandon place => (broker.modifyBox place .abandon, .done)
  | .close => (broker.close, .completed (.ok ()))

/-- What the clients hear, request by request. -/
def answers (broker : DirectBroker) : Script → List BrokerAnswer
  | [] => []
  | (now, request) :: script =>
      let (after, answer) := broker.serve now request
      answer :: after.answers script

end DirectBroker

namespace Node

/-- One loop takes one step. -/
def LoopStep (node after : Node) : Prop :=
  ∃ loop ∈ node.broker.loops, node.pollLoop? loop = some after

/-- No loop can go on. -/
def Rests (node : Node) : Prop := ∀ loop ∈ node.broker.loops, node.pollLoop? loop = none

/-- The loops went on, in any order, until none could. -/
def Settles (node after : Node) : Prop := Relation.ReflTransGen LoopStep node after ∧ after.Rests

/-- A call takes a step, or one loop does. -/
inductive Goes : Node × Progress → Node × Progress → Prop
  | call {node call step} (polled : node.pollCall? call = some step) :
      Goes (node, .pending call) step
  | loop {node after progress} (stepped : LoopStep node after) :
      Goes (node, progress) (after, progress)

/-- A call and the loops went on, in any order, until the call had its reply and no loop could. -/
def Finishes (begun : Node × Progress) (reply : Reply) (after : Node) : Prop :=
  Relation.ReflTransGen Goes begun (after, .replied reply) ∧ after.Rests

/-- A request was served: the client hears the answer, and all loops wait afterwards. -/
inductive Serves (node : Node) : BrokerRequest → BrokerAnswer → Node → Prop
  | subscribe {scope resource result after}
      (finishes : Finishes (node.beginSubscribe scope resource) (.subscribed result) after) :
      Serves node (.subscribe scope resource) (.subscribed result) after
  | unsubscribe {resource id after}
      (settles : (node.modifyBroker (·.unsubscribe resource id)).Settles after) :
      Serves node (.unsubscribe resource id) (.completed (.ok ())) after
  | publish {scope resource event result after}
      (finishes : Finishes (node.beginPublish scope resource event) (.completed result) after) :
      Serves node (.publish scope resource event) (.completed result) after
  | notify {notice result after}
      (finishes : Finishes
        (node.beginPublish (notice.scope node.now) notice.resource notice.event)
        (.completed result) after) :
      Serves node (.notify notice) .done after
  | count {resource after} (settles : node.Settles after) :
      Serves node (.count resource) (.counted (node.broker.audience resource)) after
  | receive {place after}
      (settles : (node.modifyBroker (·.modifyBox place .receive)).Settles after) :
      Serves node (.receive place) (.received (node.broker.room.receipt place)) after
  | drain {place after}
      (settles : (node.modifyBroker (·.modifyBox place .drain)).Settles after) :
      Serves node (.drain place) (.drained (node.broker.room.queue place)) after
  | abandon {place after}
      (settles : (node.modifyBroker (·.modifyBox place .abandon)).Settles after) :
      Serves node (.abandon place) .done after
  | close {result after} (finishes : Finishes node.beginClose (.completed result) after) :
      Serves node .close (.completed result) after

/-- A script was served, and the clients heard the answers. -/
inductive Runs : Node → Script → List BrokerAnswer → Prop
  | nil {node} : Runs node [] []
  | cons {node now request answer after script answers}
      (serves : { node with now := now }.Serves request answer after)
      (runs : after.Runs script answers) :
      Runs node ((now, request) :: script) (answer :: answers)

end Node

end UpdateRelay
