import UpdateRelay.Mail.MailingList
import UpdateRelay.Proofs.Mail.Sending

/-!
# Runs of mailing lists

Anything can happen to a mailing list that a broker does with the subscribers of one resource:
subscribers join, also in place of one of the same id, and leave, events are offered, receivers take
what they have got or give up, and all subscribers are let go at once. `MailingList.Sound` is what
every action keeps.
-/

namespace UpdateRelay

/-! ## How full mailboxes are -/

namespace Feed

theorem length_queue_change_le (feed : Feed) {box : Mailbox}
    (fits : box.queue.length ≤ box.capacity) :
    (feed.change box).queue.length ≤ (feed.change box).capacity := by
  cases feed with
  | offer event => exact box.length_queue_offer_le event fits
  | receive => exact Nat.le_trans (List.length_tail ▸ Nat.sub_le _ _) fits
  | drain | abandon => exact Nat.zero_le _

end Feed

namespace Mailroom

variable {room after : Mailroom}

/-- How many events each mailbox can hold. -/
def capacities (room : Mailroom) : List Nat := room.boxes.map (·.capacity)

/-- Whether no mailbox holds more events than it can. -/
def Bounded (room : Mailroom) : Prop :=
  ∀ place box, room.get? place = some box → box.queue.length ≤ box.capacity

theorem capacities_add (room : Mailroom) (capacity : Nat) :
    (room.add capacity).capacities = room.capacities ++ [Mailbox.effectiveCapacity capacity] := by
  simp [capacities, add, Mailbox.fresh]

theorem capacities_feed (room : Mailroom) (place : Nat) (feed : Feed) :
    (room.modify place feed.change).capacities = room.capacities := by
  refine List.ext_getElem? fun query => ?_
  rw [capacities, capacities, List.getElem?_map, List.getElem?_map]
  change ((room.modify place feed.change).get? query).map _ = (room.get? query).map _
  rw [get?_modify]
  split
  next =>
    rw [Option.map_map]
    exact Option.map_congr fun box _ => feed.capacity_change box
  next => rfl

theorem Quieter.capacities (quieter : room.Quieter after) : after.capacities = room.capacities := by
  refine List.ext_getElem? fun query => ?_
  rw [Mailroom.capacities, Mailroom.capacities, List.getElem?_map, List.getElem?_map]
  change (after.get? query).map _ = (room.get? query).map _
  rcases quieter.2 query with same | hung
  · rw [same]
  · rw [hung, Option.map_map]
    rfl

theorem bounded_empty : empty.Bounded := fun _ _ found => by simp [get?, empty] at found

theorem Bounded.add (bounded : room.Bounded) (capacity : Nat) : (room.add capacity).Bounded := by
  intro place box found
  rw [get?_add] at found
  split at found
  next =>
    rw [← Option.some.inj found]
    exact Nat.zero_le _
  next => exact bounded place box found

theorem Bounded.feed (bounded : room.Bounded) (place : Nat) (feed : Feed) :
    (room.modify place feed.change).Bounded := by
  intro query box found
  rw [get?_modify] at found
  split at found
  next =>
    obtain ⟨before, wasThere, rfl⟩ := Option.map_eq_some_iff.1 found
    exact feed.length_queue_change_le (bounded query before wasThere)
  next => exact bounded query box found

theorem Bounded.quieter (bounded : room.Bounded) (quieter : room.Quieter after) :
    after.Bounded := by
  intro place box found
  rcases quieter.2 place with same | hung
  · exact bounded place box (same ▸ found)
  · rw [hung] at found
    obtain ⟨before, wasThere, rfl⟩ := Option.map_eq_some_iff.1 found
    exact bounded place before wasThere

end Mailroom

namespace Roster

theorem capacities_offerEach (event : Event) (entries : List (SubscriberId × Nat))
    (room : Mailroom) : (offerEach event entries room).1.capacities = room.capacities := by
  induction entries generalizing room with
  | nil => rfl
  | cons entry entries inductionHypothesis =>
    exact (inductionHypothesis _).trans (room.capacities_feed entry.2 (.offer event))

theorem bounded_offerEach (event : Event) (entries : List (SubscriberId × Nat)) {room : Mailroom}
    (bounded : room.Bounded) : (offerEach event entries room).1.Bounded := by
  induction entries generalizing room with
  | nil => exact bounded
  | cons entry entries inductionHypothesis =>
    exact inductionHypothesis (bounded.feed entry.2 (.offer event))

end Roster

/-! ## Mailing lists -/

namespace MailingList

/-- What can happen to a mailing list. Receivers are known by the places of their mailboxes. -/
inductive Action
  | insert (id : SubscriberId) (capacity : Nat)
  | remove (id : SubscriberId)
  | offer (event : Event)
  | close
  | receive (place : Nat)
  | drain (place : Nat)
  | abandon (place : Nat)
  deriving DecidableEq, Repr

def feed (list : MailingList) (place : Nat) (feed : Feed) : MailingList :=
  list.modifyBox place feed.change

/-- The list after something happened. Who joins does so with a new mailbox, if one of this capacity
can be made. -/
def perform (list : MailingList) : Action → MailingList
  | .insert id capacity => if Mailbox.canHold capacity then list.insert id capacity else list
  | .remove id => list.remove id
  | .offer event => (list.offer event).1
  | .close => list.close
  | .receive place => list.feed place .receive
  | .drain place => list.feed place .drain
  | .abandon place => list.feed place .abandon

def performAll (list : MailingList) (actions : List Action) : MailingList :=
  actions.foldl perform list

/-- The list after a run that began with nobody. -/
def reached (actions : List Action) : MailingList := empty.performAll actions

/-- How many events the mailbox holds that an action makes, if it makes one. -/
def Action.opens? : Action → Option Nat
  | .insert _ capacity =>
      if Mailbox.canHold capacity then some (Mailbox.effectiveCapacity capacity) else none
  | .remove _ | .offer _ | .close | .receive _ | .drain _ | .abandon _ => none

/-- What an action feeds to the mailbox at a place. -/
def feedsAt (list : MailingList) (place : Nat) : Action → List Feed
  | .offer event => if place ∈ list.roster.places then [.offer event] else []
  | .receive other => if other = place then [.receive] else []
  | .drain other => if other = place then [.drain] else []
  | .abandon other => if other = place then [.abandon] else []
  | .insert _ _ | .remove _ | .close => []

/-! ## What every action keeps -/

/-- Whether a mailing list is in order: no two subscribers share a mailbox, just the mailboxes of
subscribers have their sending ends, and none holds more events than it can. -/
structure Sound (list : MailingList) : Prop where
  apart : ∀ {first second : SubscriberId} {place : Nat}, list.roster.place? first = some place →
    list.roster.place? second = some place → first = second
  sends : ∀ place, list.room.Sends place ↔ place ∈ list.roster.places
  bounded : list.room.Bounded

variable {list : MailingList}

/-- Subscribers have their mailboxes. -/
theorem Sound.exists_box (sound : list.Sound) {id : SubscriberId} {place : Nat}
    (seat : list.roster.place? id = some place) :
    ∃ box, list.room.get? place = some box ∧ box.hasSender = true :=
  (sound.sends place).2 (Roster.mem_places_iff.2 ⟨id, seat⟩)

/-- The next mailbox that is made is nobody's. -/
theorem Sound.place?_ne_nextPlace (sound : list.Sound) {id : SubscriberId} {place : Nat}
    (seat : list.roster.place? id = some place) : place ≠ list.room.nextPlace := by
  obtain ⟨box, found, _⟩ := sound.exists_box seat
  exact Nat.ne_of_lt (Mailroom.lt_of_get?_eq_some found)

theorem Sound.insert (sound : list.Sound) (id : SubscriberId) (capacity : Nat) :
    (list.insert id capacity).Sound := by
  constructor
  case apart =>
    intro first second place isFirst isSecond
    simp only [MailingList.insert, Roster.place?_insert] at isFirst isSecond
    split at isFirst <;> split at isSecond
    next here there => rw [here, there]
    next => exact absurd (Option.some.inj isFirst).symm (sound.place?_ne_nextPlace isSecond)
    next => exact absurd (Option.some.inj isSecond).symm (sound.place?_ne_nextPlace isFirst)
    next => exact sound.apart isFirst isSecond
  case sends =>
    intro place
    rw [MailingList.insert, Roster.sends_hangUp, Mailroom.sends_add, sound.sends,
      Roster.mem_places_iff, Roster.mem_places_iff]
    simp only [Roster.place?_insert]
    constructor
    · rintro ⟨stays, rfl | ⟨other, seat⟩⟩
      · exact ⟨id, if_pos rfl⟩
      · refine ⟨other, ?_⟩
        rw [if_neg fun same : other = id => stays (same ▸ seat), seat]
    · rintro ⟨other, seat⟩
      split at seat
      next =>
        obtain rfl := Option.some.inj seat
        exact ⟨fun isOld => sound.place?_ne_nextPlace isOld rfl, Or.inl rfl⟩
      next isOther =>
        exact ⟨fun isOld => isOther (sound.apart seat isOld), Or.inr ⟨other, seat⟩⟩
  case bounded =>
    exact (sound.bounded.add capacity).quieter (list.roster.quieter_hangUp id _)

theorem Sound.remove (sound : list.Sound) (id : SubscriberId) :
    (list.remove id).Sound := by
  constructor
  case apart =>
    intro first second place isFirst isSecond
    simp only [MailingList.remove, Roster.place?_without] at isFirst isSecond
    split at isFirst <;> split at isSecond
    next => contradiction
    next => contradiction
    next => contradiction
    next => exact sound.apart isFirst isSecond
  case sends =>
    intro place
    rw [MailingList.remove, Roster.sends_hangUp, sound.sends, Roster.mem_places_iff,
      Roster.mem_places_iff]
    simp only [Roster.place?_without]
    constructor
    · rintro ⟨stays, other, seat⟩
      refine ⟨other, ?_⟩
      rw [if_neg fun same : other = id => stays (same ▸ seat), seat]
    · rintro ⟨other, seat⟩
      split at seat
      next => contradiction
      next isOther => exact ⟨fun isOld => isOther (sound.apart seat isOld), other, seat⟩
  case bounded => exact sound.bounded.quieter (list.roster.quieter_hangUp id _)

theorem Sound.offer (sound : list.Sound) (event : Event) :
    (list.offer event).1.Sound where
  apart := sound.apart
  sends := fun place => (Roster.sends_offerEach event _ _ place).trans (sound.sends place)
  bounded := Roster.bounded_offerEach event _ sound.bounded

theorem Sound.close (sound : list.Sound) : list.close.Sound where
  apart := fun seat => nomatch seat
  sends := by
    intro place
    rw [MailingList.close, Roster.sends_hangUpAll, sound.sends]
    exact ⟨fun both => absurd both.2 both.1, fun member => nomatch member⟩
  bounded := sound.bounded.quieter (list.roster.quieter_hangUpAll _)

theorem Sound.feed (sound : list.Sound) (place : Nat) (feed : Feed) :
    (list.feed place feed).Sound where
  apart := sound.apart
  sends := fun query =>
    (Mailroom.sends_modify feed.hasSender_change query).trans (sound.sends query)
  bounded := sound.bounded.feed place feed

theorem Sound.perform (sound : list.Sound) (action : Action) : (list.perform action).Sound := by
  cases action with
  | insert id capacity =>
    simp only [MailingList.perform]
    split
    next => exact sound.insert id capacity
    next => exact sound
  | remove id => exact sound.remove id
  | offer event => exact sound.offer event
  | close => exact sound.close
  | receive place => exact sound.feed place .receive
  | drain place => exact sound.feed place .drain
  | abandon place => exact sound.feed place .abandon

theorem Sound.performAll (sound : list.Sound) (actions : List Action) :
    (list.performAll actions).Sound := by
  induction actions generalizing list with
  | nil => exact sound
  | cons action actions inductionHypothesis => exact inductionHypothesis (sound.perform action)

theorem sound_reached (actions : List Action) : (reached actions).Sound :=
  have nobody : empty.Sound :=
    ⟨(fun seat => nomatch seat),
      fun place => ⟨fun sends => absurd sends (Mailroom.not_sends_empty place),
        (fun member => nomatch member)⟩,
      Mailroom.bounded_empty⟩
  nobody.performAll actions

/-! ## What becomes of mailboxes -/

/-- Mailboxes stay as large as they were made. -/
theorem capacities_perform (list : MailingList) (action : Action) :
    (list.perform action).room.capacities = list.room.capacities ++ action.opens?.toList := by
  have same : ∀ {after : List Nat}, after = list.room.capacities →
      after = list.room.capacities ++ [] := fun same => same.trans (List.append_nil _).symm
  cases action with
  | insert id capacity =>
    simp only [MailingList.perform, Action.opens?]
    split
    next =>
      exact (list.roster.quieter_hangUp id _).capacities.trans (list.room.capacities_add capacity)
    next => exact same rfl
  | remove id => exact same (list.roster.quieter_hangUp id _).capacities
  | offer event => exact same (Roster.capacities_offerEach event _ _)
  | close => exact same (list.roster.quieter_hangUpAll _).capacities
  | receive place => exact same (list.room.capacities_feed place .receive)
  | drain place => exact same (list.room.capacities_feed place .drain)
  | abandon place => exact same (list.room.capacities_feed place .abandon)

theorem capacities_performAll (list : MailingList) (actions : List Action) :
    (list.performAll actions).room.capacities =
      list.room.capacities ++ actions.filterMap Action.opens? := by
  induction actions generalizing list with
  | nil => exact (List.append_nil _).symm
  | cons action actions inductionHypothesis =>
    refine (inductionHypothesis (list.perform action)).trans ?_
    rw [capacities_perform, List.append_assoc, List.filterMap_cons]
    cases action.opens? <;> rfl

/-- A mailbox changes by what it is fed, and may lose its sending end. -/
theorem Sound.get?_perform (sound : list.Sound) {place : Nat} {box : Mailbox}
    (found : list.room.get? place = some box) (action : Action) :
    let fed := Feed.changeAll (list.feedsAt place action) box
    (list.perform action).room.get? place = some fed ∨
      (list.perform action).room.get? place = some fed.hangUp := by
  have ofQuieter : ∀ {room after : Mailroom}, room.Quieter after → room.get? place = some box →
      after.get? place = some box ∨ after.get? place = some box.hangUp := by
    intro room after quieter isThere
    have either := quieter.2 place
    rwa [isThere] at either
  have ofFeed : ∀ (other : Nat) (feed : Feed), (list.feed other feed).room.get? place =
      some (Feed.changeAll (if other = place then [feed] else []) box) := by
    intro other feed
    simp only [MailingList.feed, MailingList.modifyBox, Mailroom.get?_modify, found]
    split <;> rfl
  cases action with
  | insert id capacity =>
    simp only [MailingList.perform]
    split
    next =>
      refine ofQuieter (list.roster.quieter_hangUp id _) ?_
      rw [Mailroom.get?_add, if_neg (Nat.ne_of_lt (Mailroom.lt_of_get?_eq_some found)), found]
    next => exact Or.inl found
  | remove id => exact ofQuieter (list.roster.quieter_hangUp id _) found
  | offer event =>
    refine Or.inl ((Roster.get?_offerEach (Roster.places_nodup sound.apart) _ _).trans ?_)
    rw [found, feedsAt, Roster.places]
    by_cases member : place ∈ list.roster.entries.map Prod.snd
    · rw [if_pos member, if_pos member]
      rfl
    · rw [if_neg member, if_neg member]
      rfl
  | close => exact ofQuieter (list.roster.quieter_hangUpAll _) found
  | receive other => exact Or.inl (ofFeed other .receive)
  | drain other => exact Or.inl (ofFeed other .drain)
  | abandon other => exact Or.inl (ofFeed other .abandon)

end MailingList

end UpdateRelay
