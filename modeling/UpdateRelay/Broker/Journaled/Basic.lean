import UpdateRelay.Broker.Subscription
import UpdateRelay.Settings.Basic
import UpdateRelay.Journal.Basic

/-!
# The durable broker

A broker whose events travel through a topic of the journal. For each resource with local
subscribers it has an entry and one consumption loop, which reads the topic in a consumer group of
its own and hands on the events of its resource. Entries have generations, and a loop acts only on
the entry of its own generation.

This module holds the broker's own registry; what its loops and calls do to the journal is in
`UpdateRelay.Broker.Journaled.Loop` and `UpdateRelay.Broker.Journaled.Call`.
-/

namespace UpdateRelay

/-- One instance among those that share a topic: the topic, the family whose name its consumer
groups bear, its own name, and how many events its mailboxes hold. -/
structure Instance where
  topic : String
  family : String
  name : String
  capacity : Nat
  deriving DecidableEq, Repr

namespace Instance

/-- The instance of a name that settings describe. -/
def ofSettings (settings : BrokerSettings) (name : String) : Instance where
  topic := settings.topic
  family := settings.topicStem
  name := name
  capacity := settings.capacity

/-- The consumer group in which an instance reads for a resource. -/
def group (identity : Instance) (resource : String) : String :=
  identity.family ++ "-project-" ++ resource ++ "-" ++ identity.name

end Instance

/-- The local subscribers of a resource, and the generation that tells this entry from others. -/
structure Entry where
  subscribers : Roster
  generation : Nat
  deriving DecidableEq, Repr

/-- What a consumption loop is about to do: read; wait until its topic changes; remove the
subscribers that turned out to be gone; or pause up to an instant. -/
inductive LoopPhase
  | reading
  | waiting
  | pruning (gone : List SubscriberId)
  | pausing (resumption : Nat)
  deriving DecidableEq, Repr

/-- The consumption loop of a generation, and whether it was told to stop. -/
structure ConsumptionLoop where
  resource : String
  generation : Nat
  reader : Reader
  cancelled : Bool
  phase : LoopPhase
  deriving DecidableEq, Repr

/-- The entries and loops of one instance, and all its mailboxes. The numbers of subscribers and the
generations of entries are whole numbers here and are never used twice; a counter of 64 bits stands
for one of them as long as fewer than 2^64 are used. -/
structure JournaledBroker where
  identity : Instance
  entries : Table String Entry
  closed : Bool
  nextNumber : Nat
  freshGeneration : Nat
  room : Mailroom
  loops : List ConsumptionLoop
  deriving DecidableEq, Repr

namespace JournaledBroker

def empty (identity : Instance) : JournaledBroker where
  identity := identity
  entries := ∅
  closed := false
  nextNumber := 1
  freshGeneration := 1
  room := .empty
  loops := []

def roster (broker : JournaledBroker) (resource : String) : Roster :=
  match broker.entries.get? resource with
  | some entry => entry.subscribers
  | none => .empty

def audience (broker : JournaledBroker) (resource : String) : Nat :=
  (broker.roster resource).size

def entryCount (broker : JournaledBroker) : Nat := broker.entries.size

/-- How many loops have not ended, those included that were told to stop. -/
def loopCount (broker : JournaledBroker) : Nat := broker.loops.length

/-- The entry of a resource, if it still is the one of a generation. -/
def entryAt? (broker : JournaledBroker) (resource : String) (generation : Nat) :
    Option Entry :=
  (broker.entries.get? resource).filter fun entry => entry.generation = generation

/-! ## Loops -/

def loop? (broker : JournaledBroker) (generation : Nat) : Option ConsumptionLoop :=
  broker.loops.find? fun loop => loop.generation = generation

def modifyLoop (broker : JournaledBroker) (generation : Nat)
    (change : ConsumptionLoop → ConsumptionLoop) : JournaledBroker :=
  { broker with
    loops := broker.loops.map fun loop =>
      if loop.generation = generation then change loop else loop }

def dropLoop (broker : JournaledBroker) (generation : Nat) : JournaledBroker :=
  { broker with loops := broker.loops.filter fun loop => loop.generation ≠ generation }

def cancelLoop (broker : JournaledBroker) (generation : Nat) : JournaledBroker :=
  broker.modifyLoop generation fun loop => { loop with cancelled := true }

/-! ## Joining -/

/-- The broker with one more subscriber of an entry, whose mailbox is at the next place. -/
def join (broker : JournaledBroker) (resource : String) (entry : Entry)
    (id : SubscriberId) : JournaledBroker :=
  { broker with
    entries := broker.entries.set resource
      { entry with subscribers := entry.subscribers.insert id broker.room.nextPlace }
    room := broker.room.add broker.identity.capacity }

/-- The broker with a new entry for a resource and the loop that reads for it. -/
def found (broker : JournaledBroker) (resource : String) (id : SubscriberId) (reader : Reader) :
    JournaledBroker :=
  let generation := broker.freshGeneration
  { broker.join resource ⟨.empty, generation⟩ id with
    freshGeneration := generation + 1
    loops := broker.loops ++ [⟨resource, generation, reader, false, .reading⟩] }

/-! ## Leaving -/

/-- Removes subscribers from a resource; ids that are none of its subscribers' are passed over. An
entry without subscribers is forgotten and its loop told to stop. -/
def prune (broker : JournaledBroker) (resource : String) (ids : List SubscriberId) :
    JournaledBroker :=
  match broker.entries.get? resource with
  | none => broker
  | some entry =>
      let left := entry.subscribers.withoutAll ids
      let pruned := { broker with room := entry.subscribers.hangUpEach ids broker.room }
      if left.isEmpty then
        { pruned with entries := pruned.entries.erase resource }.cancelLoop entry.generation
      else
        { pruned with
          entries := pruned.entries.replace resource { entry with subscribers := left } }

/-- Ends a subscription; one that is unknown or was ended before is not an error. -/
def unsubscribe (broker : JournaledBroker) (resource : String) (id : SubscriberId) :
    JournaledBroker :=
  broker.prune resource [id]

/-- Forgets the entry of a generation, whose reader came to an end. -/
def dissolve (broker : JournaledBroker) (resource : String) (generation : Nat) : JournaledBroker :=
  match broker.entryAt? resource generation with
  | none => broker
  | some entry =>
      { broker with
        entries := broker.entries.erase resource
        room := entry.subscribers.hangUpAll broker.room }.cancelLoop generation

/-- Ends all subscriptions for good and tells all loops to stop. -/
def disband (broker : JournaledBroker) : JournaledBroker :=
  { broker with
    closed := true
    entries := ∅
    room := broker.entries.values.foldl
      (fun room entry => entry.subscribers.hangUpAll room) broker.room
    loops := broker.loops.map fun loop => { loop with cancelled := true } }

/-! ## Handing events on -/

/-- Offers an event to the subscribers of the entry of a generation, if it is still there, and
tells which of them are gone. -/
def offer (broker : JournaledBroker) (resource : String) (generation : Nat) (event : Event) :
    JournaledBroker × List SubscriberId :=
  match broker.entryAt? resource generation with
  | none => (broker, [])
  | some entry =>
      let offered := entry.subscribers.offerAll event broker.room
      ({ broker with room := offered.1 }, offered.2.gone)

def modifyBox (broker : JournaledBroker) (place : Nat) (change : Mailbox → Mailbox) :
    JournaledBroker :=
  { broker with room := broker.room.modify place change }

end JournaledBroker

end UpdateRelay
