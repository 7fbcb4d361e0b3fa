import UpdateRelay.Proofs.Broker.Seats
import UpdateRelay.Proofs.Broker.EntryLoops

/-!
# What belongs to one entry

`JournaledBroker.ActsWithin` says that all that changed at a durable broker belongs to the entry of
one generation and to the loop of that generation. What a loop does to its broker is of this kind:
offering an event and forgetting an entry are, because they look for the generation first. Removing
subscribers looks for nothing but ids, and is of this kind where the ids have no seat elsewhere.
-/

namespace UpdateRelay

/-! ## Rosters -/

namespace Roster

variable {roster : Roster} {ids : List SubscriberId}

theorem without_of_absent {id : SubscriberId} (absent : roster.place? id = none) :
    roster.without id = roster := by
  have others : roster.entries.filter (fun entry => entry.1 ≠ id) = roster.entries := by
    refine List.filter_eq_self.2 fun entry member => decide_eq_true fun same => ?_
    obtain ⟨other, place⟩ := entry
    obtain rfl : other = id := same
    rw [place?_eq_some_iff.2 member] at absent
    contradiction
  obtain ⟨entries, ordered⟩ := roster
  simp only [without, Roster.mk.injEq]
  exact others

/-- Nobody leaves a roster if none of those who should are on it. -/
theorem withoutAll_of_absent (absent : ∀ id ∈ ids, roster.place? id = none) :
    roster.withoutAll ids = roster := by
  induction ids with
  | nil => rfl
  | cons first ids inductionHypothesis =>
    have step : roster.withoutAll (first :: ids) = (roster.without first).withoutAll ids := rfl
    rw [step, without_of_absent (absent first List.mem_cons_self)]
    exact inductionHypothesis fun id member => absent id (List.mem_cons_of_mem _ member)

theorem hangUpEach_of_absent (absent : ∀ id ∈ ids, roster.place? id = none) (room : Mailroom) :
    roster.hangUpEach ids room = room := by
  induction ids generalizing room with
  | nil => rfl
  | cons first ids inductionHypothesis =>
    have step : roster.hangUpEach (first :: ids) room =
        roster.hangUpEach ids (roster.hangUp first room) := rfl
    have idle : roster.hangUp first room = room := by
      simp [hangUp, absent first List.mem_cons_self]
    rw [step, idle]
    exact inductionHypothesis (fun id member => absent id (List.mem_cons_of_mem _ member)) room

variable {place : Nat}

theorem get?_hangUpEach (elsewhere : place ∉ roster.places) (ids : List SubscriberId)
    (room : Mailroom) : (roster.hangUpEach ids room).get? place = room.get? place := by
  induction ids generalizing room with
  | nil => rfl
  | cons first ids inductionHypothesis =>
    have step : roster.hangUpEach (first :: ids) room =
        roster.hangUpEach ids (roster.hangUp first room) := rfl
    rw [step, inductionHypothesis]
    exact get?_hangUp_of_ne (fun seat => elsewhere (mem_places_iff.2 ⟨first, seat⟩)) room

theorem get?_hangUpAll (elsewhere : place ∉ roster.places) (room : Mailroom) :
    (roster.hangUpAll room).get? place = room.get? place := by
  unfold hangUpAll
  generalize roster.places = places at elsewhere
  induction places generalizing room with
  | nil => rfl
  | cons first places inductionHypothesis =>
    rw [List.mem_cons, not_or] at elsewhere
    rw [List.foldl_cons, inductionHypothesis _ elsewhere.2, Mailroom.get?_modify,
      if_neg (Ne.symm elsewhere.1)]

/-- An offer changes no mailbox but those of subscribers. -/
theorem get?_offerAll (elsewhere : place ∉ roster.places) (event : Event) (room : Mailroom) :
    (roster.offerAll event room).1.get? place = room.get? place := by
  unfold offerAll
  unfold places at elsewhere
  generalize roster.entries = entries at elsewhere
  induction entries generalizing room with
  | nil => rfl
  | cons entry entries inductionHypothesis =>
    rw [List.map_cons, List.mem_cons, not_or] at elsewhere
    rw [offerEach, inductionHypothesis _ elsewhere.2, Mailroom.get?_modify,
      if_neg (Ne.symm elsewhere.1)]

theorem mem_of_gone_offerEach {id : SubscriberId} {event : Event}
    {entries : List (SubscriberId × Nat)} {room : Mailroom}
    (gone : id ∈ (offerEach event entries room).2.gone) : ∃ seat, (id, seat) ∈ entries := by
  induction entries generalizing room with
  | nil => simp [offerEach, Tally.blank] at gone
  | cons entry entries inductionHypothesis =>
    have rest : id ∈ (offerEach event entries (room.modify entry.2 (·.offer event))).2.gone →
        ∃ seat, (id, seat) ∈ entry :: entries := by
      intro later
      obtain ⟨seat, member⟩ := inductionHypothesis later
      exact ⟨seat, List.mem_cons_of_mem _ member⟩
    simp only [offerEach] at gone
    cases verdict : room.verdict entry.2 with
    | delivered | dropped =>
      rw [verdict] at gone
      exact rest gone
    | disconnected =>
      rw [verdict] at gone
      rcases List.mem_cons.1 gone with rfl | later
      · exact ⟨entry.2, List.mem_cons_self⟩
      · exact rest later

/-- Only subscribers are found gone by an offer. -/
theorem place?_of_gone {id : SubscriberId} {event : Event} {room : Mailroom}
    (gone : id ∈ (roster.offerAll event room).2.gone) :
    ∃ seat, roster.place? id = some seat := by
  obtain ⟨seat, member⟩ := mem_of_gone_offerEach gone
  exact ⟨seat, place?_eq_some_iff.2 member⟩

end Roster

/-! ## Changes within one entry -/

namespace JournaledBroker

/-- All that changed from one state of a broker to another belongs to the entry of one generation
and to its loop: the mailboxes that changed are those of its subscribers, nobody else was removed,
no other entry was forgotten, and no other loop was told anything. -/
structure ActsWithin (before after : JournaledBroker) (resource : String) (generation : Nat) :
    Prop where
  delivers : ∀ place, after.room.get? place ≠ before.room.get? place →
    ∃ entry id, before.entryAt? resource generation = some entry ∧
      entry.subscribers.place? id = some place
  removes : ∀ {query id place}, before.seat? query id = some place →
    after.seat? query id = none →
      query = resource ∧ (before.entryAt? resource generation).isSome
  retires : ∀ {query entry}, before.entries.get? query = some entry →
    after.entries.get? query = none → query = resource ∧ entry.generation = generation
  keeps : ∀ {query entry}, after.entries.get? query = some entry →
    ∃ earlier, before.entries.get? query = some earlier ∧
      earlier.generation = entry.generation ∧
      ∀ id place, entry.subscribers.place? id = some place →
        earlier.subscribers.place? id = some place
  tells : ∀ loop : ConsumptionLoop, loop.generation ≠ generation →
    (loop ∈ after.loops ↔ loop ∈ before.loops)
  spares : before.entryAt? resource generation = none →
    after.entries = before.entries ∧ after.room = before.room

variable {before after : JournaledBroker} {resource : String} {generation : Nat}

/-- What happens to no more than the loop of the generation. -/
theorem ActsWithin.of_same (entries : after.entries = before.entries)
    (room : after.room = before.room)
    (tells : ∀ loop : ConsumptionLoop, loop.generation ≠ generation →
      (loop ∈ after.loops ↔ loop ∈ before.loops)) :
    before.ActsWithin after resource generation where
  delivers := fun place changed => absurd (by rw [room]) changed
  removes := by
    intro query id place found lost
    rw [seat?, entries] at lost
    rw [seat?, lost] at found
    contradiction
  retires := by
    intro query entry found lost
    rw [entries, found] at lost
    contradiction
  keeps := fun found => ⟨_, entries ▸ found, rfl, fun _ _ => id⟩
  tells := tells
  spares := fun _ => ⟨entries, room⟩

theorem ActsWithin.refl (broker : JournaledBroker) (resource : String) (generation : Nat) :
    broker.ActsWithin broker resource generation :=
  .of_same rfl rfl fun _ _ => Iff.rfl

/-- A change within an entry after which something happens to its loop. -/
theorem ActsWithin.andThen {last : JournaledBroker}
    (acts : before.ActsWithin after resource generation) (entries : last.entries = after.entries)
    (room : last.room = after.room)
    (tells : ∀ loop : ConsumptionLoop, loop.generation ≠ generation →
      (loop ∈ last.loops ↔ loop ∈ after.loops)) :
    before.ActsWithin last resource generation where
  delivers := room ▸ acts.delivers
  removes := by
    intro query id place found lost
    rw [seat?, entries] at lost
    exact acts.removes found lost
  retires := entries ▸ acts.retires
  keeps := entries ▸ acts.keeps
  tells := fun loop other => (tells loop other).trans (acts.tells loop other)
  spares := by
    rw [entries, room]
    exact acts.spares

theorem mem_modifyLoop_of_ne {broker : JournaledBroker} {change : ConsumptionLoop → ConsumptionLoop}
    (kept : ∀ loop, (change loop).generation = loop.generation) (loop : ConsumptionLoop)
    (other : loop.generation ≠ generation) :
    loop ∈ (broker.modifyLoop generation change).loops ↔ loop ∈ broker.loops := by
  constructor
  · intro member
    obtain ⟨earlier, isEarlier, rfl⟩ := mem_loops_modifyLoop member
    split at other
    next same => exact absurd ((kept earlier).trans same) other
    next differs =>
      rw [if_neg differs]
      exact isEarlier
  · intro member
    exact List.mem_map.2 ⟨loop, member, if_neg other⟩

theorem mem_cancelLoop_of_ne (broker : JournaledBroker) (loop : ConsumptionLoop)
    (other : loop.generation ≠ generation) :
    loop ∈ (broker.cancelLoop generation).loops ↔ loop ∈ broker.loops := by
  refine mem_modifyLoop_of_ne (fun _ => ?_) loop other
  rfl

theorem ActsWithin.thenModifyLoop (acts : before.ActsWithin after resource generation)
    {change : ConsumptionLoop → ConsumptionLoop}
    (kept : ∀ loop, (change loop).generation = loop.generation) :
    before.ActsWithin (after.modifyLoop generation change) resource generation :=
  acts.andThen rfl rfl (mem_modifyLoop_of_ne kept)

theorem ActsWithin.thenDropLoop (acts : before.ActsWithin after resource generation) :
    before.ActsWithin (after.dropLoop generation) resource generation :=
  acts.andThen rfl rfl fun _ other => by simp [mem_loops_dropLoop, other]

/-! ## What loops do to their broker -/

/-- A change to an entry that takes nothing from others. -/
theorem ActsWithin.ofOwn {entry : Entry} (found : before.entryAt? resource generation = some entry)
    (boxes : ∀ place, place ∉ entry.subscribers.places →
      after.room.get? place = before.room.get? place)
    (elsewhere : ∀ query, query ≠ resource →
      after.entries.get? query = before.entries.get? query)
    (here : ∀ left, after.entries.get? resource = some left → left.generation = generation ∧
      ∀ id place, left.subscribers.place? id = some place →
        entry.subscribers.place? id = some place)
    (tells : ∀ loop : ConsumptionLoop, loop.generation ≠ generation →
      (loop ∈ after.loops ↔ loop ∈ before.loops)) :
    before.ActsWithin after resource generation where
  delivers := by
    intro place changed
    have present : place ∈ entry.subscribers.places := by
      by_contra absent
      exact changed (boxes place absent)
    obtain ⟨id, seat⟩ := Roster.mem_places_iff.1 present
    exact ⟨entry, id, found, seat⟩
  removes := by
    intro query id place seat lost
    refine ⟨?_, Option.isSome_iff_exists.2 ⟨entry, found⟩⟩
    by_contra other
    rw [seat?, elsewhere query other] at lost
    rw [seat?, lost] at seat
    contradiction
  retires := by
    intro query current isCurrent lost
    have same : query = resource := by
      by_contra other
      rw [elsewhere query other, isCurrent] at lost
      contradiction
    obtain ⟨isEntry, generation⟩ := entryAt?_eq_some_iff.1 found
    rw [same, isEntry] at isCurrent
    obtain rfl := Option.some.inj isCurrent
    exact ⟨same, generation⟩
  keeps := by
    intro query current isCurrent
    by_cases same : query = resource
    · subst same
      obtain ⟨isEntry, rfl⟩ := entryAt?_eq_some_iff.1 found
      obtain ⟨sameGeneration, seats⟩ := here current isCurrent
      exact ⟨entry, isEntry, sameGeneration.symm, seats⟩
    · exact ⟨current, elsewhere query same ▸ isCurrent, rfl, fun _ _ => id⟩
  tells := tells
  spares := by
    intro absent
    rw [found] at absent
    contradiction

variable (broker : JournaledBroker)

theorem actsWithin_offer (resource : String) (generation : Nat) (event : Event) :
    broker.ActsWithin (broker.offer resource generation event).1 resource generation := by
  unfold offer
  cases found : broker.entryAt? resource generation with
  | none => exact .refl broker resource generation
  | some entry =>
    obtain ⟨isEntry, sameGeneration⟩ := entryAt?_eq_some_iff.1 found
    refine .ofOwn found (fun place elsewhere => ?_) (fun _ _ => rfl) (fun left isLeft => ?_)
      fun _ _ => Iff.rfl
    · exact Roster.get?_offerAll elsewhere event broker.room
    · obtain rfl : entry = left := Option.some.inj (isEntry.symm.trans isLeft)
      exact ⟨sameGeneration, fun _ _ => id⟩

theorem actsWithin_dissolve (resource : String) (generation : Nat) :
    broker.ActsWithin (broker.dissolve resource generation) resource generation := by
  unfold dissolve
  cases found : broker.entryAt? resource generation with
  | none => exact .refl broker resource generation
  | some entry =>
    refine .ofOwn found (fun place elsewhere => ?_) (fun query other => ?_) (fun left isLeft => ?_)
      fun loop other => ?_
    · exact Roster.get?_hangUpAll elsewhere broker.room
    · exact (Table.get?_erase _ _ _).trans (if_neg other)
    · have erased : (broker.entries.erase resource).get? resource = some left := isLeft
      rw [Table.get?_erase, if_pos rfl] at erased
      contradiction
    · exact mem_cancelLoop_of_ne { broker with
        entries := broker.entries.erase resource
        room := entry.subscribers.hangUpAll broker.room } loop other

/-- Removing subscribers who have no seats leaves everything as it is. -/
theorem prune_of_absent {broker : JournaledBroker} {resource : String} {ids : List SubscriberId}
    (entryLoops : broker.EntryLoops) (absent : ∀ id ∈ ids, broker.seat? resource id = none) :
    broker.prune resource ids = broker := by
  unfold prune
  cases found : broker.entries.get? resource with
  | none => rfl
  | some entry =>
    have nobody : ∀ id ∈ ids, entry.subscribers.place? id = none := by
      intro id member
      rw [← seat?_of_get? found]
      exact absent id member
    -- An entry without subscribers would be forgotten here, whoever leaves; there is none.
    simp only [Roster.withoutAll_of_absent nobody, Roster.hangUpEach_of_absent nobody,
      entryLoops.inhabited found, Bool.false_eq_true, if_false, Table.replace_self found]

/-- Removing subscribers touches only the entry in which they have their seats. -/
theorem actsWithin_prune {broker : JournaledBroker} {resource : String} {generation : Nat}
    {ids : List SubscriberId} (entryLoops : broker.EntryLoops)
    (seated : ∀ id ∈ ids, ∀ place, broker.seat? resource id = some place →
      (broker.entryAt? resource generation).isSome) :
    broker.ActsWithin (broker.prune resource ids) resource generation := by
  cases found : broker.entryAt? resource generation with
  | none =>
    rw [prune_of_absent entryLoops fun id member => ?_]
    · exact .refl broker resource generation
    · refine Option.eq_none_iff_forall_ne_some.2 fun place seat => ?_
      have present := seated id member place seat
      rw [found] at present
      contradiction
  | some entry =>
    obtain ⟨isEntry, sameGeneration⟩ := entryAt?_eq_some_iff.1 found
    refine .ofOwn found (fun place elsewhere => ?_) (fun query other => ?_) (fun left isLeft => ?_)
      fun loop other => ?_
    · have hung := Roster.get?_hangUpEach elsewhere ids broker.room
      unfold prune
      simp only [isEntry]
      split
      next => exact hung
      next => exact hung
    · rw [get?_prune, if_neg other]
    · rw [get?_prune, if_pos rfl, isEntry, Option.bind_some] at isLeft
      split at isLeft
      next => contradiction
      next =>
        obtain rfl := Option.some.inj isLeft
        refine ⟨sameGeneration, fun id place seat => ?_⟩
        rw [Roster.place?_withoutAll] at seat
        split at seat
        next => contradiction
        next => exact seat
    · rcases broker.loops_prune resource ids with same | ⟨current, isCurrent, _, same⟩
      · rw [same]
      · obtain rfl := Option.some.inj (isEntry.symm.trans isCurrent)
        rw [same, sameGeneration]
        exact broker.mem_cancelLoop_of_ne loop other

end JournaledBroker

end UpdateRelay
