import UpdateRelay.Broker.Direct
import UpdateRelay.Proofs.Mail.Sending
import UpdateRelay.Proofs.Table

/-!
# The registry of an in-process broker

Where subscribers are after each operation of an in-process broker. `DirectBroker.Seated` says that
ids and places are used once, and that a mailbox has its sending end just while its subscriber is on
a roster. Each operation keeps this.
-/

namespace UpdateRelay.DirectBroker

/-- The place of the mailbox of a subscriber of a resource. -/
def seat? (broker : DirectBroker) (resource : String) (id : SubscriberId) : Option Nat :=
  (broker.roster resource).place? id

/-! ## Who is on which roster -/

theorem roster_of_get? {broker : DirectBroker} {resource : String} {roster : Roster}
    (found : broker.resources.get? resource = some roster) : broker.roster resource = roster := by
  simp [DirectBroker.roster, found]

theorem seat?_eq_some_iff {broker : DirectBroker} {resource : String} {id : SubscriberId}
    {place : Nat} : broker.seat? resource id = some place ↔
      ∃ roster, broker.resources.get? resource = some roster ∧ roster.place? id = some place := by
  unfold seat? roster
  cases found : broker.resources.get? resource <;> simp

theorem seat?_register (broker : DirectBroker) (resource query : String)
    (id other : SubscriberId) : (broker.register resource id).seat? query other =
      if query = resource ∧ other = id then some broker.room.nextPlace
      else broker.seat? query other := by
  simp only [seat?, roster, register, Table.get?_set]
  by_cases here : query = resource
  · simp [here, Roster.place?_insert]
  · simp [here]

theorem seat?_prune (broker : DirectBroker) (resource query : String) (ids : List SubscriberId)
    (id : SubscriberId) : (broker.prune resource ids).seat? query id =
      if query = resource ∧ id ∈ ids then none else broker.seat? query id := by
  unfold prune
  cases found : broker.resources.get? resource with
  | none =>
    have nobody : broker.seat? resource id = none := by simp [seat?, roster, found]
    by_cases here : query = resource <;> simp [here, nobody]
  | some roster =>
    have left := roster.place?_withoutAll ids id
    by_cases here : query = resource
    · subst here
      rw [seat?, seat?, roster_of_get? found]
      by_cases last : (roster.withoutAll ids).isEmpty = true
      · -- Nobody is left, so whoever is asked for was removed or never there.
        have nobody := Roster.isEmpty_eq_true_iff.1 last id
        rw [left] at nobody
        simpa [DirectBroker.roster, last, Table.get?_erase] using nobody.symm
      · simpa [DirectBroker.roster, last, Table.get?_replace, found] using left
    · by_cases last : (roster.withoutAll ids).isEmpty = true
      · simp [seat?, DirectBroker.roster, last, here, Table.get?_erase]
      · simp [seat?, DirectBroker.roster, last, here, Table.get?_replace]

theorem sends_prune (broker : DirectBroker) (resource : String) (ids : List SubscriberId)
    (place : Nat) : (broker.prune resource ids).room.Sends place ↔
      (∀ id ∈ ids, broker.seat? resource id ≠ some place) ∧ broker.room.Sends place := by
  unfold prune
  cases found : broker.resources.get? resource with
  | none => simp [seat?, roster, found]
  | some roster => simp [Roster.sends_hangUpEach, seat?, roster_of_get? found]

theorem sends_close (broker : DirectBroker) (place : Nat) : broker.close.room.Sends place ↔
    (∀ resource id, broker.seat? resource id ≠ some place) ∧ broker.room.Sends place := by
  simp only [close, Roster.sends_foldl_hangUpAll]
  refine and_congr_left fun _ => ⟨fun nobody resource id seat => ?_, fun nobody roster listed => ?_⟩
  · obtain ⟨roster, found, isPlace⟩ := seat?_eq_some_iff.1 seat
    refine nobody roster ?_ (Roster.mem_places_iff.2 ⟨id, isPlace⟩)
    exact List.mem_map.2 ⟨_, Table.get?_eq_some_iff.1 found, rfl⟩
  · obtain ⟨⟨resource, _⟩, member, rfl⟩ := List.mem_map.1 listed
    intro isPlace
    obtain ⟨id, seat⟩ := Roster.mem_places_iff.1 isPlace
    exact nobody resource id (seat?_eq_some_iff.2 ⟨_, Table.get?_eq_some_iff.2 member, seat⟩)

theorem prune_same (broker : DirectBroker) (resource : String) (ids : List SubscriberId) :
    (broker.prune resource ids).nextNumber = broker.nextNumber ∧
      (broker.prune resource ids).capacity = broker.capacity ∧
      (broker.prune resource ids).closed = broker.closed ∧
      broker.room.Quieter (broker.prune resource ids).room := by
  unfold prune
  cases broker.resources.get? resource with
  | none => exact ⟨rfl, rfl, rfl, .refl _⟩
  | some roster => exact ⟨rfl, rfl, rfl, roster.quieter_hangUpEach ids broker.room⟩

theorem quieter_close (broker : DirectBroker) : broker.room.Quieter broker.close.room :=
  Roster.quieter_foldl_hangUpAll broker.resources.values broker.room

/-! ## What every operation keeps -/

/-- Ids and places are used once, a mailbox has its sending end just while its subscriber is on a
roster, and all mailboxes are equally large. -/
structure Seated (broker : DirectBroker) : Prop where
  seatOld : ∀ {resource id place}, broker.seat? resource id = some place →
    id.number < broker.nextNumber ∧ place < broker.room.nextPlace
  onePlace : ∀ {first second firstId secondId place},
    broker.seat? first firstId = some place → broker.seat? second secondId = some place →
      first = second ∧ firstId = secondId
  sends : ∀ place, broker.room.Sends place ↔ ∃ resource id, broker.seat? resource id = some place
  sized : ∀ {place box}, broker.room.get? place = some box → box.capacity = broker.capacity
  capacity : 0 < broker.capacity
  shut : broker.closed = true → ∀ resource id, broker.seat? resource id = none

namespace Seated

variable {broker : DirectBroker}

theorem ofCapacity (capacity : Nat) : (DirectBroker.ofCapacity capacity).Seated where
  seatOld := fun seat => by cases seat
  onePlace := fun seat => by cases seat
  sends := by
    intro place
    constructor
    · exact fun sends => absurd sends (Mailroom.not_sends_empty place)
    · rintro ⟨_, _, seat⟩
      cases seat
  sized := fun found => by simp [DirectBroker.ofCapacity, Mailroom.get?, Mailroom.empty] at found
  capacity := by
    simp only [DirectBroker.ofCapacity, Mailbox.effectiveCapacity]
    omega
  shut := fun _ _ _ => rfl

/-- What happens within mailboxes does not touch the registry. -/
theorem of_room {after : DirectBroker} (seated : broker.Seated)
    (resources : after.resources = broker.resources) (number : after.nextNumber = broker.nextNumber)
    (capacity : after.capacity = broker.capacity) (closed : after.closed = broker.closed)
    (places : after.room.nextPlace = broker.room.nextPlace)
    (sends : ∀ place, after.room.Sends place ↔ broker.room.Sends place)
    (sized : ∀ {place box}, after.room.get? place = some box → box.capacity = broker.capacity) :
    after.Seated := by
  have same : ∀ resource id, after.seat? resource id = broker.seat? resource id := by
    intro resource id
    simp [seat?, roster, resources]
  constructor
  case seatOld =>
    intro resource id place seat
    rw [number, places]
    exact seated.seatOld (same resource id ▸ seat)
  case onePlace =>
    intro first second firstId secondId place isFirst isSecond
    exact seated.onePlace (same _ _ ▸ isFirst) (same _ _ ▸ isSecond)
  case sends =>
    intro place
    simp only [sends, same]
    exact seated.sends place
  case sized =>
    intro place box found
    rw [capacity]
    exact sized found
  case capacity => exact capacity ▸ seated.capacity
  case shut =>
    intro isShut resource id
    rw [same]
    exact seated.shut (closed ▸ isShut) resource id

theorem modifyBox (seated : broker.Seated) (place : Nat) (feed : Feed) :
    (broker.modifyBox place feed.change).Seated := by
  refine seated.of_room rfl rfl rfl rfl (Mailroom.nextPlace_modify _ _ _)
    (Mailroom.sends_modify feed.hasSender_change) fun {query box} found => ?_
  simp only [DirectBroker.modifyBox, Mailroom.get?_modify] at found
  split at found
  next =>
    obtain ⟨earlier, was, rfl⟩ := Option.map_eq_some_iff.1 found
    rw [Feed.capacity_change]
    exact seated.sized was
  next => exact seated.sized found

theorem places_nodup (seated : broker.Seated) (resource : String) :
    (broker.roster resource).places.Nodup :=
  Roster.places_nodup fun isFirst isSecond => (seated.onePlace isFirst isSecond).2

/-- An offer reaches the mailboxes of the subscribers of its resource, once each. -/
theorem get?_offer (seated : broker.Seated) (resource : String) (event : Event) (place : Nat) :
    (broker.offer resource event).1.room.get? place =
      if place ∈ (broker.roster resource).places then (broker.room.get? place).map (·.offer event)
      else broker.room.get? place :=
  Roster.get?_offerEach (seated.places_nodup resource) broker.room place

theorem offer (seated : broker.Seated) (resource : String) (event : Event) :
    (broker.offer resource event).1.Seated := by
  refine seated.of_room rfl rfl rfl rfl (Roster.nextPlace_offerEach _ _ _)
    (Roster.sends_offerEach _ _ _) fun {query box} found => ?_
  rw [seated.get?_offer] at found
  split at found
  next =>
    obtain ⟨earlier, was, rfl⟩ := Option.map_eq_some_iff.1 found
    rw [Mailbox.capacity_offer]
    exact seated.sized was
  next => exact seated.sized found

/-- Subscribers may leave, if just they are hung up on. -/
theorem thin {after : DirectBroker} (seated : broker.Seated)
    (seats : ∀ {resource id place}, after.seat? resource id = some place →
      broker.seat? resource id = some place)
    (number : after.nextNumber = broker.nextNumber) (capacity : after.capacity = broker.capacity)
    (quieter : broker.room.Quieter after.room)
    (sends : ∀ place, after.room.Sends place ↔ ∃ resource id, after.seat? resource id = some place)
    (shut : after.closed = true → ∀ resource id, after.seat? resource id = none) :
    after.Seated where
  seatOld := by
    intro resource id place seat
    rw [number, quieter.1]
    exact seated.seatOld (seats seat)
  onePlace := fun first second => seated.onePlace (seats first) (seats second)
  sends := sends
  sized := by
    intro place box found
    rw [capacity]
    rcases quieter.2 place with same | hung
    · exact seated.sized (same ▸ found)
    · rw [hung] at found
      obtain ⟨earlier, was, rfl⟩ := Option.map_eq_some_iff.1 found
      have sized : earlier.capacity = broker.capacity := seated.sized was
      exact sized
  capacity := capacity ▸ seated.capacity
  shut := shut

theorem prune (seated : broker.Seated) (resource : String) (ids : List SubscriberId) :
    (broker.prune resource ids).Seated := by
  have seats : ∀ {query id place}, (broker.prune resource ids).seat? query id = some place ↔
      ¬(query = resource ∧ id ∈ ids) ∧ broker.seat? query id = some place := by
    intro query id place
    rw [seat?_prune]
    split
    next gone => simp [gone]
    next left => simp [left]
  obtain ⟨number, capacity, closed, quieter⟩ := broker.prune_same resource ids
  refine seated.thin (fun seat => (seats.1 seat).2) number capacity quieter (fun place => ?_)
    fun isShut query id => ?_
  · rw [sends_prune, seated.sends]
    constructor
    · rintro ⟨nobody, query, id, seat⟩
      refine ⟨query, id, seats.2 ⟨?_, seat⟩⟩
      rintro ⟨rfl, member⟩
      exact nobody id member seat
    · rintro ⟨query, id, seat⟩
      obtain ⟨left, was⟩ := seats.1 seat
      refine ⟨fun other member taken => left ?_, query, id, was⟩
      -- A place belongs to one subscriber, so whoever was removed had another one.
      obtain ⟨rfl, rfl⟩ := seated.onePlace was taken
      exact ⟨rfl, member⟩
  · rw [seat?_prune, seated.shut (closed ▸ isShut)]
    split <;> rfl

theorem close (seated : broker.Seated) : broker.close.Seated := by
  refine seated.thin (fun seat => by cases seat) rfl rfl broker.quieter_close (fun place => ?_)
    fun _ _ _ => rfl
  rw [sends_close, seated.sends]
  constructor
  · rintro ⟨nobody, resource, id, seat⟩
    exact absurd seat (nobody resource id)
  · rintro ⟨_, _, seat⟩
    cases seat

/-- Numbers may be skipped. -/
theorem spendNumber (seated : broker.Seated) :
    { broker with nextNumber := broker.nextNumber + 1 }.Seated where
  seatOld := fun seat => ⟨Nat.lt_succ_of_lt (seated.seatOld seat).1, (seated.seatOld seat).2⟩
  onePlace := seated.onePlace
  sends := seated.sends
  sized := seated.sized
  capacity := seated.capacity
  shut := seated.shut

/-- A new subscriber gets an id and a place that nobody had. -/
theorem register (seated : broker.Seated) (isOpen : broker.closed = false) (resource : String) :
    ({ broker with nextNumber := broker.nextNumber + 1 }.register resource
      ⟨broker.nextNumber⟩).Seated := by
  have seats : ∀ query id, ({ broker with nextNumber := broker.nextNumber + 1 }.register resource
      ⟨broker.nextNumber⟩).seat? query id =
        if query = resource ∧ id = ⟨broker.nextNumber⟩ then some broker.room.nextPlace
        else broker.seat? query id := fun query id => seat?_register _ resource query _ id
  have room : ({ broker with nextNumber := broker.nextNumber + 1 }.register resource
      ⟨broker.nextNumber⟩).room = broker.room.add broker.capacity := rfl
  constructor
  case seatOld =>
    intro query id place seat
    rw [room, Mailroom.nextPlace_add]
    rw [seats] at seat
    split at seat
    next new =>
      obtain rfl := Option.some.inj seat
      rw [new.2]
      exact ⟨Nat.lt_succ_self _, Nat.lt_succ_self _⟩
    next =>
      obtain ⟨oldId, oldPlace⟩ := seated.seatOld seat
      exact ⟨Nat.lt_succ_of_lt oldId, Nat.lt_succ_of_lt oldPlace⟩
  case onePlace =>
    intro first second firstId secondId place isFirst isSecond
    rw [seats] at isFirst isSecond
    split at isFirst <;> split at isSecond
    next newFirst newSecond =>
      exact ⟨newFirst.1.trans newSecond.1.symm, newFirst.2.trans newSecond.2.symm⟩
    next =>
      obtain rfl := Option.some.inj isFirst
      exact absurd (seated.seatOld isSecond).2 (Nat.lt_irrefl _)
    next =>
      obtain rfl := Option.some.inj isSecond
      exact absurd (seated.seatOld isFirst).2 (Nat.lt_irrefl _)
    next => exact seated.onePlace isFirst isSecond
  case sends =>
    intro place
    rw [room, Mailroom.sends_add, seated.sends]
    constructor
    · rintro (rfl | ⟨query, id, seat⟩)
      · exact ⟨resource, ⟨broker.nextNumber⟩, by simp [seats]⟩
      · refine ⟨query, id, ?_⟩
        have old : id ≠ ⟨broker.nextNumber⟩ := by
          rintro rfl
          exact Nat.lt_irrefl _ (seated.seatOld seat).1
        simp [seats, old, seat]
    · rintro ⟨query, id, seat⟩
      rw [seats] at seat
      split at seat
      next => exact Or.inl (Option.some.inj seat).symm
      next => exact Or.inr ⟨query, id, seat⟩
  case sized =>
    intro place box found
    rw [room, Mailroom.get?_add] at found
    split at found
    next =>
      obtain rfl := Option.some.inj found
      have some := seated.capacity
      simp only [Mailbox.fresh, Mailbox.effectiveCapacity, DirectBroker.register]
      omega
    next => exact seated.sized found
  case capacity => exact seated.capacity
  case shut =>
    intro isShut
    rw [show broker.closed = true from isShut] at isOpen
    contradiction

end Seated

end UpdateRelay.DirectBroker
