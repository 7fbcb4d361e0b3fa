import UpdateRelay.Broker.Direct
import UpdateRelay.Proofs.Broker.Registry

/-!
# A durable broker as an in-process one

`JournaledBroker.direct` forgets the generations and loops of a durable broker: what is left is an
in-process broker. Whatever changes the registry of the one changes that of the other alike.
-/

namespace UpdateRelay

namespace Mailbox

@[simp] theorem effectiveCapacity_effectiveCapacity (requested : Nat) :
    effectiveCapacity (effectiveCapacity requested) = effectiveCapacity requested := by
  unfold effectiveCapacity
  omega

theorem fresh_effectiveCapacity (requested : Nat) :
    fresh (effectiveCapacity requested) = fresh requested := by
  unfold fresh
  rw [effectiveCapacity_effectiveCapacity]

theorem canHold_effectiveCapacity (requested : Nat) :
    canHold (effectiveCapacity requested) = canHold requested := by
  unfold canHold
  rw [effectiveCapacity_effectiveCapacity]

/-- Only a request for nothing is not taken as it is. -/
theorem effectiveCapacity_of_not_canHold {requested : Nat} (large : canHold requested = false) :
    effectiveCapacity requested = requested := by
  have above := of_decide_eq_false large
  unfold effectiveCapacity at above ⊢
  simp only [maxCapacity] at above
  omega

end Mailbox

/-- The broker with an event handed to the subscribers of a resource. -/
def DirectBroker.hand (broker : DirectBroker) (resource : String) (event : Event) :
    DirectBroker :=
  (broker.offer resource event).1.prune resource (broker.offer resource event).2

theorem DirectBroker.roster_of_none {broker : DirectBroker} {resource : String}
    (absent : broker.resources.get? resource = none) : broker.roster resource = .empty := by
  rw [roster, absent, Option.getD_none]

/-- An event for a resource without subscribers is lost. -/
theorem DirectBroker.hand_of_none {broker : DirectBroker} {resource : String}
    (absent : broker.resources.get? resource = none) (event : Event) :
    broker.hand resource event = broker := by
  have nobody : (broker.offer resource event).1 = broker := by
    rw [offer, roster_of_none absent]
    rfl
  rw [hand, nobody, prune, absent]

theorem DirectBroker.closed_prune (broker : DirectBroker) (resource : String)
    (ids : List SubscriberId) : (broker.prune resource ids).closed = broker.closed := by
  unfold prune
  split <;> rfl

theorem DirectBroker.closed_hand (broker : DirectBroker) (resource : String) (event : Event) :
    (broker.hand resource event).closed = broker.closed := by
  rw [hand, closed_prune, offer]

namespace JournaledBroker

/-- The in-process broker with the same subscribers. -/
def direct (broker : JournaledBroker) : DirectBroker where
  capacity := Mailbox.effectiveCapacity broker.identity.capacity
  resources := broker.entries.mapValues (·.subscribers)
  closed := broker.closed
  nextNumber := broker.nextNumber
  room := broker.room

variable (broker : JournaledBroker) (resource : String)

theorem get?_direct :
    broker.direct.resources.get? resource =
      (broker.entries.get? resource).map (·.subscribers) :=
  Table.get?_mapValues _ _ _

theorem roster_direct : broker.direct.roster resource = broker.roster resource := by
  rw [DirectBroker.roster, get?_direct, roster]
  cases broker.entries.get? resource <;> rfl

theorem audience_direct : broker.direct.audience resource = broker.audience resource := by
  rw [DirectBroker.audience, roster_direct, audience]

theorem direct_empty (identity : Instance) :
    (empty identity).direct = .ofCapacity identity.capacity := rfl

theorem direct_join {entry : Entry} (same : entry.subscribers = broker.roster resource)
    (id : SubscriberId) :
    (broker.join resource entry id).direct = broker.direct.register resource id := by
  simp only [direct, join, DirectBroker.register, Table.mapValues_set, DirectBroker.mk.injEq,
    true_and]
  refine ⟨?_, ?_⟩
  · rw [same, ← roster_direct]
    rfl
  · simp only [Mailroom.add, Mailbox.fresh_effectiveCapacity]

theorem direct_found (id : SubscriberId) (reader : Reader)
    (absent : broker.entries.get? resource = none) :
    (broker.found resource id reader).direct = broker.direct.register resource id := by
  have nobody : (Entry.mk .empty broker.freshGeneration).subscribers = broker.roster resource := by
    rw [roster, absent]
  rw [← broker.direct_join resource nobody]
  rfl

theorem direct_prune (ids : List SubscriberId) :
    (broker.prune resource ids).direct = broker.direct.prune resource ids := by
  rw [DirectBroker.prune, get?_direct, prune]
  cases found : broker.entries.get? resource with
  | none => rfl
  | some entry =>
    simp only [Option.map_some]
    split
    next =>
      simp only [direct, cancelLoop, modifyLoop, Table.mapValues_erase]
    next =>
      simp only [direct, Table.mapValues_replace]

theorem direct_disband : broker.disband.direct = broker.direct.close := by
  simp only [direct, disband, DirectBroker.close, Table.values_mapValues, List.foldl_map]
  rfl

theorem direct_offerAll {entry : Entry} (found : broker.entries.get? resource = some entry)
    (event : Event) :
    { broker with room := (entry.subscribers.offerAll event broker.room).1 }.direct =
        (broker.direct.offer resource event).1 ∧
      (entry.subscribers.offerAll event broker.room).2.gone =
        (broker.direct.offer resource event).2 := by
  have same : broker.direct.roster resource = entry.subscribers := by
    rw [roster_direct, roster, found]
  simp only [DirectBroker.offer, same]
  exact ⟨rfl, rfl⟩

end JournaledBroker

end UpdateRelay
