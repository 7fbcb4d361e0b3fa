import Mathlib.Data.Set.Card
import UpdateRelay.Proofs.Broker.Confinement
import UpdateRelay.Proofs.Delivery.Direct

/-!
# Operations that register nobody

All that an in-process broker does but for a granted subscribe. `DirectBroker.RegistersNobody` says
what such an operation leaves as it is: who is off a roster stays off it, who has lost its receiver
does not get it back, and no roster is left empty. `DirectBroker.NoEmptyRoster` is the last of
these, and because of it what is served can be told from the registrations.
-/

namespace UpdateRelay

/-! ## Receivers that are gone -/

/-- Whether there is a mailbox at a place and its receiver is gone. -/
def Mailroom.Abandoned (room : Mailroom) (place : Nat) : Prop :=
  ∃ box, room.get? place = some box ∧ box.hasReceiver = false

section Abandoned

variable {room : Mailroom} {place : Nat}

theorem Mailroom.Abandoned.modify (gone : room.Abandoned place) (query : Nat) (feed : Feed) :
    (room.modify query feed.change).Abandoned place := by
  obtain ⟨box, found, lost⟩ := gone
  rw [Abandoned, get?_modify, found]
  split
  next =>
    refine ⟨feed.change box, rfl, ?_⟩
    rw [← Bool.not_eq_true] at lost ⊢
    exact fun held => lost (Feed.hasReceiver_of_change held)
  next => exact ⟨box, rfl, lost⟩

theorem Mailroom.Abandoned.quieter (gone : room.Abandoned place) {after : Mailroom}
    (quieter : room.Quieter after) : after.Abandoned place := by
  obtain ⟨box, found, lost⟩ := gone
  rcases quieter.2 place with same | hung
  · exact ⟨box, same.trans found, lost⟩
  · exact ⟨box.hangUp, by rw [hung, found]; rfl, lost⟩

theorem Mailroom.Abandoned.add (gone : room.Abandoned place) (capacity : Nat) :
    (room.add capacity).Abandoned place := by
  obtain ⟨box, found, lost⟩ := gone
  refine ⟨box, ?_, lost⟩
  rw [get?_add, if_neg (Nat.ne_of_lt (lt_of_get?_eq_some found)), found]

theorem Mailroom.Abandoned.offerEach (gone : room.Abandoned place) (event : Event)
    (entries : List (SubscriberId × Nat)) :
    (Roster.offerEach event entries room).1.Abandoned place := by
  induction entries generalizing room with
  | nil => exact gone
  | cons entry entries inductionHypothesis =>
    exact inductionHypothesis (gone.modify entry.2 (.offer event))

theorem Mailroom.verdict_eq_disconnected_iff (born : place < room.nextPlace) :
    room.verdict place = .disconnected ↔ room.Abandoned place := by
  obtain ⟨box, found⟩ := exists_get?_of_lt born
  simp [verdict, Abandoned, found, Mailbox.verdict_eq_disconnected_iff]

end Abandoned

namespace DirectBroker

variable {broker : DirectBroker} {resource : String} {id : SubscriberId} {place : Nat}

/-- An offer finds just those gone who are on the roster and have lost their receiver. -/
theorem Seated.mem_gone_offer (seated : broker.Seated) (event : Event) :
    id ∈ (broker.offer resource event).2 ↔
      ∃ place, broker.seat? resource id = some place ∧ broker.room.Abandoned place := by
  have listed : (broker.offer resource event).2 = _ :=
    Roster.gone_offerEach (seated.places_nodup resource) broker.room
  rw [listed, Roster.mem_answering]
  exact exists_congr fun place => and_congr_right fun seat =>
    Mailroom.verdict_eq_disconnected_iff (seated.seatOld seat).2

/-! ## Resources without subscribers -/

/-- Whether all rosters have somebody on them. -/
def NoEmptyRoster (broker : DirectBroker) : Prop :=
  ∀ resource roster, broker.resources.get? resource = some roster → roster.isEmpty = false

theorem NoEmptyRoster.prune (noEmptyRoster : broker.NoEmptyRoster) (resource : String)
    (ids : List SubscriberId) : (broker.prune resource ids).NoEmptyRoster := by
  intro query left found
  unfold DirectBroker.prune at found
  split at found
  next => exact noEmptyRoster query left found
  next roster isRoster =>
    dsimp only at found
    split at found
    next =>
      rw [Table.get?_erase] at found
      split at found
      next => contradiction
      next => exact noEmptyRoster query left found
    next some =>
      rw [Table.get?_replace, isRoster] at found
      split at found
      next =>
        obtain rfl := Option.some.inj found
        simpa using some
      next => exact noEmptyRoster query left found

theorem NoEmptyRoster.register (noEmptyRoster : broker.NoEmptyRoster) (resource : String)
    (id : SubscriberId) : (broker.register resource id).NoEmptyRoster := by
  intro query roster found
  rw [DirectBroker.register, Table.get?_set] at found
  split at found
  next =>
    obtain rfl := Option.some.inj found
    exact Roster.isEmpty_insert _ _ _
  next => exact noEmptyRoster query roster found

/-- A resource is served just while somebody is registered for it. -/
theorem NoEmptyRoster.mem_keys_iff (noEmptyRoster : broker.NoEmptyRoster) :
    resource ∈ broker.resources.keys ↔ ∃ id place, broker.seat? resource id = some place := by
  rw [Table.mem_keys_iff]
  constructor
  · rintro ⟨roster, found⟩
    obtain ⟨id, place, isPlace⟩ :=
      Roster.isEmpty_eq_false_iff.1 (noEmptyRoster resource roster found)
    exact ⟨id, place, seat?_eq_some_iff.2 ⟨roster, found, isPlace⟩⟩
  · rintro ⟨id, place, seat⟩
    obtain ⟨roster, found, _⟩ := seat?_eq_some_iff.1 seat
    exact ⟨roster, found⟩

theorem NoEmptyRoster.servedCount (noEmptyRoster : broker.NoEmptyRoster) :
    broker.servedCount = {resource | ∃ id place, broker.seat? resource id = some place}.ncard := by
  have keys : {resource | ∃ id place, broker.seat? resource id = some place} =
      (broker.resources.keys.toFinset : Set String) := by
    ext resource
    simp [noEmptyRoster.mem_keys_iff]
  have distinct : broker.resources.keys.Nodup := broker.resources.distinct
  rw [keys, Set.ncard_coe_finset, List.toFinset_card_of_nodup distinct]
  exact (List.length_map _).symm

/-- Without registrations there are no rosters. -/
theorem NoEmptyRoster.resources_eq_empty (noEmptyRoster : broker.NoEmptyRoster)
    (nobody : ∀ resource id, broker.seat? resource id = none) : broker.resources = ∅ := by
  have noKeys : broker.resources.keys = [] := by
    refine List.eq_nil_iff_forall_not_mem.2 fun resource served => ?_
    obtain ⟨id, place, seat⟩ := noEmptyRoster.mem_keys_iff.1 served
    rw [nobody] at seat
    contradiction
  exact Table.ext (List.map_eq_nil_iff.1 noKeys)

/-- Ending a subscription that is not registered for a resource changes nothing. -/
theorem NoEmptyRoster.unsubscribe_of_absent (noEmptyRoster : broker.NoEmptyRoster)
    (absent : broker.seat? resource id = none) : broker.unsubscribe resource id = broker := by
  unfold unsubscribe DirectBroker.prune
  split
  next => rfl
  next roster found =>
    have nobody : ∀ other ∈ [id], roster.place? other = none := by
      simpa [seat?, roster_of_get? found] using absent
    dsimp only
    rw [Roster.withoutAll_of_absent nobody, Roster.hangUpEach_of_absent nobody,
      noEmptyRoster resource roster found,
      if_neg Bool.false_ne_true, Table.replace_self found]

/-! ## Operations that register nobody -/

/-- Whether a broker became another one without a registration: ids and places are not used again,
nobody gets a receiver back, a closed broker stays closed and no roster is left empty. -/
structure RegistersNobody (broker after : DirectBroker) : Prop where
  seats : ∀ {resource id place}, after.seat? resource id = some place →
    broker.seat? resource id = some place
  number : broker.nextNumber ≤ after.nextNumber
  places : broker.room.nextPlace ≤ after.room.nextPlace
  abandoned : ∀ {place}, broker.room.Abandoned place → after.room.Abandoned place
  closed : broker.closed = true → after.closed = true
  noEmptyRoster : broker.NoEmptyRoster → after.NoEmptyRoster

namespace RegistersNobody

theorem refl (broker : DirectBroker) : broker.RegistersNobody broker :=
  ⟨id, Nat.le_refl _, Nat.le_refl _, id, id, id⟩

theorem trans {middle after : DirectBroker} (first : broker.RegistersNobody middle)
    (last : middle.RegistersNobody after) : broker.RegistersNobody after where
  seats := fun seat => first.seats (last.seats seat)
  number := Nat.le_trans first.number last.number
  places := Nat.le_trans first.places last.places
  abandoned := fun gone => last.abandoned (first.abandoned gone)
  closed := fun isClosed => last.closed (first.closed isClosed)
  noEmptyRoster := fun noEmptyRoster => last.noEmptyRoster (first.noEmptyRoster noEmptyRoster)

theorem prune (broker : DirectBroker) (resource : String) (ids : List SubscriberId) :
    broker.RegistersNobody (broker.prune resource ids) := by
  obtain ⟨number, _, closed, quieter⟩ := broker.prune_same resource ids
  constructor
  case seats =>
    intro query id place seat
    rw [seat?_prune] at seat
    split at seat
    next => contradiction
    next => exact seat
  case number => exact Nat.le_of_eq number.symm
  case places => exact Nat.le_of_eq quieter.1.symm
  case abandoned => exact fun gone => gone.quieter quieter
  case closed => exact fun isClosed => closed.trans isClosed
  case noEmptyRoster => exact fun noEmptyRoster => noEmptyRoster.prune resource ids

theorem offer (broker : DirectBroker) (resource : String) (event : Event) :
    broker.RegistersNobody (broker.offer resource event).1 where
  seats := id
  number := Nat.le_refl _
  places := Nat.le_of_eq (Roster.nextPlace_offerEach _ _ _).symm
  abandoned := fun gone => gone.offerEach event _
  closed := id
  noEmptyRoster := id

theorem modifyBox (broker : DirectBroker) (place : Nat) (feed : Feed) :
    broker.RegistersNobody (broker.modifyBox place feed.change) where
  seats := id
  number := Nat.le_refl _
  places := Nat.le_of_eq (Mailroom.nextPlace_modify _ _ _).symm
  abandoned := fun gone => gone.modify place feed
  closed := id
  noEmptyRoster := id

theorem close (broker : DirectBroker) : broker.RegistersNobody broker.close where
  seats := fun seat => by cases seat
  number := Nat.le_refl _
  places := Nat.le_of_eq broker.quieter_close.1.symm
  abandoned := fun gone => gone.quieter broker.quieter_close
  closed := fun _ => rfl
  noEmptyRoster := fun _ _ _ found => by cases found

theorem spendNumber (broker : DirectBroker) :
    broker.RegistersNobody { broker with nextNumber := broker.nextNumber + 1 } :=
  ⟨id, Nat.le_succ _, Nat.le_refl _, id, id, id⟩

theorem publish (broker : DirectBroker) (scope : Scope) (now : Nat) (resource : String)
    (event : Event) : broker.RegistersNobody (broker.publish scope now resource event).1 := by
  rcases broker.publish_cases scope now resource event with ⟨cause, failed, _⟩ | ⟨done, _⟩
  · rw [failed]
    exact refl broker
  · rw [done]
    exact (offer broker resource event).trans (prune _ resource _)

end RegistersNobody

end DirectBroker

end UpdateRelay
