import UpdateRelay.Broker.Subscription
import UpdateRelay.Lifetime.Scope
import UpdateRelay.Table

/-!
# The in-process broker

A broker that hands events straight to the mailboxes of the subscribers of a resource. Nothing
goes on in the background. A publish offers the event first and then removes the subscribers that
turned out to be gone; `DirectBroker.offer` and `DirectBroker.prune` are these two halves.
-/

namespace UpdateRelay

/-- The subscribers of each resource that has any, and all mailboxes. The numbers of subscribers are
whole numbers and are never used twice; a counter of 64 bits stands for this as long as fewer than
2^64 are used. -/
structure DirectBroker where
  capacity : Nat
  resources : Table String Roster
  closed : Bool
  nextNumber : Nat
  room : Mailroom
  deriving DecidableEq, Repr

namespace DirectBroker

/-- A broker whose mailboxes hold some number of events, but at least one. -/
def ofCapacity (capacity : Nat) : DirectBroker where
  capacity := Mailbox.effectiveCapacity capacity
  resources := ∅
  closed := false
  nextNumber := 1
  room := .empty

def roster (broker : DirectBroker) (resource : String) : Roster :=
  (broker.resources.get? resource).getD .empty

def audience (broker : DirectBroker) (resource : String) : Nat :=
  (broker.roster resource).size

def servedCount (broker : DirectBroker) : Nat := broker.resources.size

/-! ## Leaving -/

/-- Removes subscribers from a resource; ids that are none of its subscribers' are passed over. A
resource without subscribers is forgotten. -/
def prune (broker : DirectBroker) (resource : String) (ids : List SubscriberId) :
    DirectBroker :=
  match broker.resources.get? resource with
  | none => broker
  | some roster =>
      let left := roster.withoutAll ids
      { broker with
        resources :=
          if left.isEmpty then broker.resources.erase resource
          else broker.resources.replace resource left
        room := roster.hangUpEach ids broker.room }

/-- Ends a subscription; one that is unknown or was ended before is not an error. -/
def unsubscribe (broker : DirectBroker) (resource : String) (id : SubscriberId) :
    DirectBroker :=
  broker.prune resource [id]

/-- Ends all subscriptions for good. -/
def close (broker : DirectBroker) : DirectBroker :=
  { broker with
    closed := true
    resources := ∅
    room := broker.resources.values.foldl (fun room roster => roster.hangUpAll room) broker.room }

/-! ## Publishing -/

/-- Offers an event to the subscribers of a resource and tells which of them are gone. -/
def offer (broker : DirectBroker) (resource : String) (event : Event) :
    DirectBroker × List SubscriberId :=
  let offered := (broker.roster resource).offerAll event broker.room
  ({ broker with room := offered.1 }, offered.2.gone)

/-- Hands an event to the current subscribers of a resource. -/
def publish (broker : DirectBroker) (scope : Scope) (now : Nat) (resource : String)
    (event : Event) : DirectBroker × Except BrokerFailure Unit :=
  match scope.check now with
  | .error cause => (broker, .error cause)
  | .ok () =>
      if broker.closed then (broker, .error .closed)
      else
        let (offered, gone) := broker.offer resource event
        (offered.prune resource gone, .ok ())

/-! ## Subscribing -/

/-- The broker with one more subscriber, whose mailbox is at the next place. -/
def register (broker : DirectBroker) (resource : String) (id : SubscriberId) :
    DirectBroker :=
  { broker with
    resources :=
      broker.resources.set resource ((broker.roster resource).insert id broker.room.nextPlace)
    room := broker.room.add broker.capacity }

/-- Starts a subscription to a resource. The id is used up even if this fails, unless the scope is
done. -/
def subscribe (broker : DirectBroker) (scope : Scope) (now : Nat) (resource : String) :
    DirectBroker × Except BrokerFailure Subscription :=
  match scope.check now with
  | .error cause => (broker, .error cause)
  | .ok () =>
      let counted := { broker with nextNumber := broker.nextNumber + 1 }
      if !Mailbox.canHold broker.capacity then (counted, .error (.mailboxTooLarge broker.capacity))
      else if broker.closed then (counted, .error .closed)
      else
        (counted.register resource ⟨broker.nextNumber⟩,
          .ok ⟨⟨broker.nextNumber⟩, resource, broker.room.nextPlace⟩)

/-! ## The receiving ends -/

def modifyBox (broker : DirectBroker) (place : Nat) (change : Mailbox → Mailbox) :
    DirectBroker :=
  { broker with room := broker.room.modify place change }

end DirectBroker

end UpdateRelay
