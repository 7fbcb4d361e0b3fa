import UpdateRelay.Broker.Journaled.Call
import UpdateRelay.Broker.Direct

/-!
# Brokers of either kind

What sessions and services are given: a broker that is one of the two kinds, with the operations
that both have. `AnyBroker.connect` makes the one that settings select.
-/

namespace UpdateRelay

/-- A broker of either kind; a durable one comes with its journal. -/
inductive AnyBroker
  | inProcess (broker : DirectBroker)
  | durable (node : Node)

namespace AnyBroker

def kind : AnyBroker → BrokerKind
  | inProcess _ => .inProcess
  | durable _ => .durable

def room : AnyBroker → Mailroom
  | inProcess broker => broker.room
  | durable node => node.broker.room

def audience (resource : String) : AnyBroker → Nat
  | inProcess broker => broker.audience resource
  | durable node => node.broker.audience resource

def servedCount : AnyBroker → Nat
  | inProcess broker => broker.servedCount
  | durable node => node.broker.entryCount

def modifyBox (place : Nat) (change : Mailbox → Mailbox) : AnyBroker → AnyBroker
  | inProcess broker => inProcess (broker.modifyBox place change)
  | durable node => durable (node.modifyBroker (·.modifyBox place change))

/-! ## Operations

Publishing and subscribing give no answer where the journal gives none. -/

def publish (scope : Scope) (now : Nat) (resource : String) (event : Event) :
    AnyBroker → AnyBroker × Option (Except BrokerFailure Unit)
  | inProcess broker =>
      let (after, result) := broker.publish scope now resource event
      (inProcess after, some result)
  | durable node =>
      match Node.callNow ({ node with now := now }.beginPublish scope resource event) with
      | (after, .replied (.completed result)) => (durable after, some result)
      | (after, _) => (durable after, none)

def subscribe (scope : Scope) (now : Nat) (resource : String) :
    AnyBroker → AnyBroker × Option (Except BrokerFailure Subscription)
  | inProcess broker =>
      let (after, result) := broker.subscribe scope now resource
      (inProcess after, some result)
  | durable node =>
      match Node.callNow ({ node with now := now }.beginSubscribe scope resource) with
      | (after, .replied (.subscribed result)) => (durable after, some result)
      | (after, _) => (durable after, none)

def unsubscribe (resource : String) (id : SubscriberId) : AnyBroker → AnyBroker
  | inProcess broker => inProcess (broker.unsubscribe resource id)
  | durable node => durable (node.modifyBroker (·.unsubscribe resource id))

def close : AnyBroker → AnyBroker
  | inProcess broker => inProcess broker.close
  | durable node =>
      let (begun, progress) := node.beginClose
      durable (Node.callNow (begun.settleLoops, progress)).1

/-- Lets everything that goes on in the background go on until it waits. -/
def settle : AnyBroker → AnyBroker
  | inProcess broker => inProcess broker
  | durable node => durable node.settleLoops

/-- Whether anything in the background need not wait. -/
def isBusy : AnyBroker → Bool
  | inProcess _ => false
  | durable node => node.nextLoop?.isSome

/-! ## Making one -/

/-- The broker that settings select. A durable one needs the journal behind one of its
nodes, which may be out of reach. -/
def connect (settings : BrokerSettings) (reach : List String → Option Journal) (name : String) :
    Except BrokerFailure AnyBroker :=
  match settings.accept with
  | .error cause => .error cause
  | .ok () =>
      match settings.kind with
      | .inProcess => .ok (inProcess (.ofCapacity settings.capacity))
      | .durable =>
          match reach settings.nodes with
          | none => .error (.unreachable settings.nodes)
          | some journal =>
              .ok (durable (.start 0 journal .sound (.ofSettings settings name)))

end AnyBroker

end UpdateRelay
