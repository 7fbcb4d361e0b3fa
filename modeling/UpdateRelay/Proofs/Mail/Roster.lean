import Mathlib.Data.List.Nodup
import UpdateRelay.Mail.Roster

/-!
# Rosters and their mailboxes

Who is left on a roster after some have left it, what an offer to all subscribers does to each
mailbox, and that a hang-up leaves the events of every mailbox alone.
-/

namespace UpdateRelay

namespace Roster

/-! ## Who is on a roster -/

@[simp] theorem place?_empty (id : SubscriberId) : empty.place? id = none := rfl

theorem ids_nodup (roster : Roster) : (roster.entries.map Prod.fst).Nodup := by
  refine List.Pairwise.map _ (fun first second below same => ?_) roster.ordered
  rw [same] at below
  exact Nat.lt_irrefl _ below

theorem place?_eq_some_iff {roster : Roster} {id : SubscriberId} {place : Nat} :
    roster.place? id = some place ↔ (id, place) ∈ roster.entries := by
  constructor
  · intro found
    obtain ⟨entry, hit, rfl⟩ := Option.map_eq_some_iff.1 found
    obtain rfl : entry.1 = id := by simpa using List.find?_some hit
    exact List.mem_of_find?_eq_some hit
  · intro member
    unfold place?
    cases hit : roster.entries.find? fun entry => entry.1 = id with
    | none =>
      have missed := List.find?_eq_none.1 hit (id, place) member
      simp at missed
    | some entry =>
      have same : entry.1 = id := by simpa using List.find?_some hit
      rw [List.inj_on_of_nodup_map roster.ids_nodup (List.mem_of_find?_eq_some hit) member same]
      rfl

theorem mem_places_iff {roster : Roster} {place : Nat} :
    place ∈ roster.places ↔ ∃ id, roster.place? id = some place := by
  constructor
  · intro member
    obtain ⟨⟨id, _⟩, entryMember, rfl⟩ := List.mem_map.1 member
    exact ⟨id, place?_eq_some_iff.2 entryMember⟩
  · rintro ⟨id, found⟩
    exact List.mem_map.2 ⟨(id, place), place?_eq_some_iff.1 found, rfl⟩

/-- Where no two subscribers have one place, no place occurs twice. -/
theorem places_nodup {roster : Roster}
    (distinct : ∀ {first second : SubscriberId} {place : Nat}, roster.place? first = some place →
      roster.place? second = some place → first = second) : roster.places.Nodup := by
  refine (List.Nodup.of_map _ roster.ids_nodup).map_on fun first isFirst second isSecond same => ?_
  obtain ⟨firstId, place⟩ := first
  obtain ⟨secondId, other⟩ := second
  obtain rfl : place = other := same
  rw [distinct (place?_eq_some_iff.2 isFirst) (place?_eq_some_iff.2 isSecond)]

theorem isEmpty_eq_true_iff {roster : Roster} :
    roster.isEmpty = true ↔ ∀ id, roster.place? id = none := by
  constructor
  · intro nobody id
    rw [isEmpty, List.isEmpty_iff] at nobody
    simp [place?, nobody]
  · intro nobody
    rw [isEmpty, List.isEmpty_iff]
    refine List.eq_nil_iff_forall_not_mem.2 fun entry member => ?_
    obtain ⟨id, place⟩ := entry
    rw [← place?_eq_some_iff, nobody id] at member
    contradiction

theorem isEmpty_eq_false_iff {roster : Roster} :
    roster.isEmpty = false ↔ ∃ id place, roster.place? id = some place := by
  rw [← Bool.not_eq_true, isEmpty_eq_true_iff]
  simp only [not_forall, Option.ne_none_iff_exists']

@[simp] theorem isEmpty_insert (roster : Roster) (id : SubscriberId) (place : Nat) :
    (roster.insert id place).isEmpty = false :=
  isEmpty_eq_false_iff.2 ⟨id, place, by rw [place?_insert, if_pos rfl]⟩

theorem place?_withoutAll (roster : Roster) (ids : List SubscriberId) (id : SubscriberId) :
    (roster.withoutAll ids).place? id = if id ∈ ids then none else roster.place? id := by
  induction ids generalizing roster with
  | nil => simp [withoutAll]
  | cons first ids inductionHypothesis =>
    have step : roster.withoutAll (first :: ids) = (roster.without first).withoutAll ids := rfl
    rw [step, inductionHypothesis, place?_without]
    by_cases same : id = first <;> simp [same]

end Roster

/-! ## Offers -/

namespace Mailroom

@[simp] theorem nextPlace_modify (room : Mailroom) (place : Nat) (change : Mailbox → Mailbox) :
    (room.modify place change).nextPlace = room.nextPlace :=
  List.length_modify change _ place

@[simp] theorem nextPlace_add (room : Mailroom) (capacity : Nat) :
    (room.add capacity).nextPlace = room.nextPlace + 1 := by
  simp [nextPlace, add]

theorem get?_eq_none_of_le {room : Mailroom} {place : Nat} (unborn : room.nextPlace ≤ place) :
    room.get? place = none :=
  List.getElem?_eq_none unborn

theorem lt_of_get?_eq_some {room : Mailroom} {place : Nat} {box : Mailbox}
    (found : room.get? place = some box) : place < room.nextPlace :=
  (List.getElem?_eq_some_iff.1 found).1

theorem exists_get?_of_lt {room : Mailroom} {place : Nat} (born : place < room.nextPlace) :
    ∃ box, room.get? place = some box :=
  ⟨_, List.getElem?_eq_getElem born⟩

end Mailroom

namespace Roster

@[simp] theorem nextPlace_offerEach (event : Event) (entries : List (SubscriberId × Nat))
    (room : Mailroom) : (offerEach event entries room).1.nextPlace = room.nextPlace := by
  induction entries generalizing room with
  | nil => rfl
  | cons entry entries inductionHypothesis =>
    rw [offerEach, inductionHypothesis, Mailroom.nextPlace_modify]

/-- An offer to subscribers in turn reaches each of their mailboxes once, and no other. -/
theorem get?_offerEach {event : Event} {entries : List (SubscriberId × Nat)}
    (distinct : (entries.map Prod.snd).Nodup) (room : Mailroom) (place : Nat) :
    (offerEach event entries room).1.get? place =
      if place ∈ entries.map Prod.snd then (room.get? place).map (·.offer event)
      else room.get? place := by
  induction entries generalizing room with
  | nil => simp [offerEach]
  | cons entry entries inductionHypothesis =>
    obtain ⟨id, first⟩ := entry
    rw [List.map_cons, List.nodup_cons] at distinct
    simp only [offerEach, inductionHypothesis distinct.2, Mailroom.get?_modify, List.map_cons,
      List.mem_cons]
    by_cases same : first = place
    · subst same
      simp [distinct.1]
    · have other : place ≠ first := Ne.symm same
      simp only [if_neg same, other, false_or]

/-- Those of some subscribers for whose mailboxes an offer comes to the same. -/
def answering (entries : List (SubscriberId × Nat)) (room : Mailroom) (outcome : Offer) :
    List SubscriberId :=
  (entries.filter fun entry => room.verdict entry.2 = outcome).map Prod.fst

theorem answering_cons (entry : SubscriberId × Nat) (entries : List (SubscriberId × Nat))
    (room : Mailroom) (outcome : Offer) :
    answering (entry :: entries) room outcome =
      if room.verdict entry.2 = outcome then entry.1 :: answering entries room outcome
      else answering entries room outcome := by
  unfold answering
  by_cases same : room.verdict entry.2 = outcome <;> simp [same]

theorem mem_answering {roster : Roster} {room : Mailroom} {outcome : Offer} {id : SubscriberId} :
    id ∈ answering roster.entries room outcome ↔
      ∃ place, roster.place? id = some place ∧ room.verdict place = outcome := by
  constructor
  · intro member
    obtain ⟨⟨_, place⟩, isEntry, rfl⟩ := List.mem_map.1 member
    obtain ⟨isOn, verdict⟩ := List.mem_filter.1 isEntry
    exact ⟨place, place?_eq_some_iff.2 isOn, of_decide_eq_true verdict⟩
  · rintro ⟨place, seat, verdict⟩
    exact List.mem_map.2 ⟨(id, place),
      List.mem_filter.2 ⟨place?_eq_some_iff.1 seat, decide_eq_true verdict⟩, rfl⟩

/-- An offer comes to one of three things for each subscriber. -/
theorem answering_perm (entries : List (SubscriberId × Nat)) (room : Mailroom) :
    (answering entries room .delivered ++ answering entries room .dropped ++
      answering entries room .disconnected).Perm (entries.map Prod.fst) := by
  induction entries with
  | nil => exact .nil
  | cons entry entries inductionHypothesis =>
    simp only [answering_cons, List.map_cons]
    cases room.verdict entry.2 with
    | delivered => exact inductionHypothesis.cons entry.1
    | dropped =>
      -- The id stands behind those who got the event.
      refine .trans ?_ (inductionHypothesis.cons entry.1)
      simp
    | disconnected => exact List.perm_middle.trans (inductionHypothesis.cons entry.1)

/-- An offer to subscribers in turn counts those who got the event and those who had no room for it,
and lists those whose receiving end is gone. -/
theorem tally_offerEach {event : Event} {entries : List (SubscriberId × Nat)}
    (distinct : (entries.map Prod.snd).Nodup) (room : Mailroom) :
    (offerEach event entries room).2 =
      ⟨(answering entries room .delivered).length, (answering entries room .dropped).length,
        answering entries room .disconnected⟩ := by
  induction entries generalizing room with
  | nil => rfl
  | cons entry entries inductionHypothesis =>
    obtain ⟨id, place⟩ := entry
    rw [List.map_cons, List.nodup_cons] at distinct
    -- An offer at one place does not change what the later ones will find.
    have kept : ∀ other ∈ entries,
        (room.modify place (·.offer event)).verdict other.2 = room.verdict other.2 := by
      intro other member
      have elsewhere : place ≠ other.2 := fun same =>
        distinct.1 (List.mem_map.2 ⟨other, member, same.symm⟩)
      simp [Mailroom.verdict, Mailroom.get?_modify, elsewhere]
    have rest : ∀ outcome, answering entries (room.modify place (·.offer event)) outcome =
        answering entries room outcome := fun outcome =>
      congrArg (List.map Prod.fst)
        (List.filter_congr fun other member => by rw [kept other member])
    simp only [offerEach, inductionHypothesis distinct.2, rest, answering_cons]
    cases room.verdict place <;> rfl

/-- The subscribers that an offer finds gone are those whose receiving end is gone. -/
theorem gone_offerEach {event : Event} {entries : List (SubscriberId × Nat)}
    (distinct : (entries.map Prod.snd).Nodup) (room : Mailroom) :
    (offerEach event entries room).2.gone = answering entries room .disconnected :=
  congrArg Tally.gone (tally_offerEach distinct room)

end Roster

/-! ## Hang-ups -/

namespace Mailroom

/-- The mailboxes of a room after some lost their sending ends. -/
def Quieter (room after : Mailroom) : Prop :=
  after.nextPlace = room.nextPlace ∧ ∀ place, after.get? place = room.get? place ∨
    after.get? place = (room.get? place).map Mailbox.hangUp

theorem Quieter.refl (room : Mailroom) : Quieter room room := ⟨rfl, fun _ => Or.inl rfl⟩

theorem Quieter.trans {room middle after : Mailroom} (first : Quieter room middle)
    (last : Quieter middle after) : Quieter room after := by
  refine ⟨last.1.trans first.1, fun place => ?_⟩
  rcases first.2 place with same | hung <;> rcases last.2 place with kept | quiet
  · exact Or.inl (kept.trans same)
  · exact Or.inr (by rw [quiet, same])
  · exact Or.inr (kept.trans hung)
  · refine Or.inr ?_
    rw [quiet, hung, Option.map_map]
    rfl

theorem Quieter.modify (room : Mailroom) (place : Nat) :
    Quieter room (room.modify place Mailbox.hangUp) := by
  refine ⟨nextPlace_modify _ _ _, fun query => ?_⟩
  rw [get?_modify]
  split
  next => exact Or.inr rfl
  next => exact Or.inl rfl

end Mailroom

namespace Roster

theorem quieter_hangUp (roster : Roster) (id : SubscriberId) (room : Mailroom) :
    room.Quieter (roster.hangUp id room) := by
  unfold hangUp
  split
  next place _ => exact .modify room place
  next => exact .refl room

/-- A hang-up leaves the mailboxes of all others alone. -/
theorem get?_hangUp_of_ne {roster : Roster} {id : SubscriberId} {place : Nat}
    (other : roster.place? id ≠ some place) (room : Mailroom) :
    (roster.hangUp id room).get? place = room.get? place := by
  unfold hangUp
  split
  next here seat => rw [Mailroom.get?_modify, if_neg fun same : here = place => other (same ▸ seat)]
  next => rfl

theorem quieter_hangUpEach (roster : Roster) (ids : List SubscriberId) (room : Mailroom) :
    room.Quieter (roster.hangUpEach ids room) := by
  induction ids generalizing room with
  | nil => exact .refl room
  | cons id ids inductionHypothesis =>
    exact (roster.quieter_hangUp id room).trans (inductionHypothesis (roster.hangUp id room))

theorem quieter_hangUpAll (roster : Roster) (room : Mailroom) :
    room.Quieter (roster.hangUpAll room) := by
  unfold hangUpAll
  induction roster.places generalizing room with
  | nil => exact .refl room
  | cons place places inductionHypothesis =>
    exact (Mailroom.Quieter.modify room place).trans (inductionHypothesis _)

theorem quieter_foldl_hangUpAll (rosters : List Roster) (room : Mailroom) :
    room.Quieter (rosters.foldl (fun room roster => roster.hangUpAll room) room) := by
  induction rosters generalizing room with
  | nil => exact .refl room
  | cons roster rosters inductionHypothesis =>
    exact (roster.quieter_hangUpAll room).trans (inductionHypothesis _)

end Roster

end UpdateRelay
