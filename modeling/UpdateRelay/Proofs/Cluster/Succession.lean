import UpdateRelay.Proofs.Cluster.Effect

/-!
# What becomes of loops, entries and seats

`Effect.loop_source`, `Effect.entry_source` and `Effect.seat_source` trace whatever a broker has
after a step to what it had before. `JournaledBroker.Continues` puts this together for any number
of steps: whoever has an id, a place or a generation later has had it before, or has got one that
nobody had.
-/

namespace UpdateRelay

/-! ## Loops -/

/-- Whether one loop is what became of another, which may have been told to stop since. -/
structure ConsumptionLoop.Succeeds (loop earlier : ConsumptionLoop) : Prop where
  resource : loop.resource = earlier.resource
  generation : loop.generation = earlier.generation
  reader : loop.reader.membership = earlier.reader.membership
  cancelled : earlier.cancelled = true → loop.cancelled = true

namespace ConsumptionLoop.Succeeds

theorem refl (loop : ConsumptionLoop) : loop.Succeeds loop := ⟨rfl, rfl, rfl, id⟩

theorem trans {last loop earlier : ConsumptionLoop} (second : last.Succeeds loop)
    (first : loop.Succeeds earlier) : last.Succeeds earlier where
  resource := second.resource.trans first.resource
  generation := second.generation.trans first.generation
  reader := second.reader.trans first.reader
  cancelled := second.cancelled ∘ first.cancelled

end ConsumptionLoop.Succeeds

namespace JournaledBroker

/-- All loops of a broker come from loops of another. -/
def Succession (before after : JournaledBroker) : Prop :=
  ∀ loop ∈ after.loops, ∃ earlier ∈ before.loops, loop.Succeeds earlier

theorem Succession.refl (broker : JournaledBroker) : Succession broker broker :=
  fun loop member => ⟨loop, member, .refl loop⟩

theorem Succession.trans {before middle after : JournaledBroker}
    (first : Succession before middle) (second : Succession middle after) :
    Succession before after := by
  intro loop member
  obtain ⟨between, isBetween, later⟩ := second loop member
  obtain ⟨earlier, isEarlier, sooner⟩ := first between isBetween
  exact ⟨earlier, isEarlier, later.trans sooner⟩

theorem succession_modifyLoop (broker : JournaledBroker) (generation : Nat)
    {change : ConsumptionLoop → ConsumptionLoop} (kept : ∀ loop, (change loop).Succeeds loop) :
    Succession broker (broker.modifyLoop generation change) := by
  intro loop member
  obtain ⟨earlier, isEarlier, rfl⟩ := mem_loops_modifyLoop member
  refine ⟨earlier, isEarlier, ?_⟩
  split
  next => exact kept earlier
  next => exact .refl earlier

theorem succession_cancelLoop (broker : JournaledBroker) (generation : Nat) :
    Succession broker (broker.cancelLoop generation) :=
  broker.succession_modifyLoop generation fun _ => ⟨rfl, rfl, rfl, fun _ => rfl⟩

theorem succession_enter (broker : JournaledBroker) (loop : ConsumptionLoop) (phase : LoopPhase) :
    Succession broker (broker.enter loop phase) :=
  broker.succession_modifyLoop loop.generation fun _ => ⟨rfl, rfl, rfl, id⟩

theorem succession_look (broker : JournaledBroker) (journal : Journal) (generation : Nat) :
    Succession broker (broker.modifyLoop generation fun loop =>
      { loop with reader := journal.look loop.reader, phase := .waiting }) :=
  broker.succession_modifyLoop generation fun loop =>
    ⟨rfl, rfl, journal.membership_look loop.reader, id⟩

theorem succession_dropLoop (broker : JournaledBroker) (generation : Nat) :
    Succession broker (broker.dropLoop generation) :=
  fun loop member => ⟨loop, (mem_loops_dropLoop.1 member).1, .refl loop⟩

theorem succession_prune (broker : JournaledBroker) (resource : String)
    (ids : List SubscriberId) : Succession broker (broker.prune resource ids) := by
  intro loop member
  rcases broker.loops_prune resource ids with same | ⟨entry, _, _, same⟩
  · rw [same] at member
    exact ⟨loop, member, .refl loop⟩
  · rw [same] at member
    exact broker.succession_cancelLoop entry.generation loop member

theorem succession_dissolve (broker : JournaledBroker) (resource : String) (generation : Nat) :
    Succession broker (broker.dissolve resource generation) := by
  unfold dissolve
  split
  next => exact .refl broker
  next => exact broker.succession_cancelLoop generation

theorem succession_disband (broker : JournaledBroker) : Succession broker broker.disband := by
  intro loop member
  obtain ⟨earlier, isEarlier, rfl⟩ := List.mem_map.1 member
  exact ⟨earlier, isEarlier, rfl, rfl, rfl, fun _ => rfl⟩

end JournaledBroker

namespace Effect

variable {before after : Footprint} {feeds : List (Nat × Feed)}

/-- Where loops come from: only a subscribe that makes an entry adds one. -/
theorem loop_source (effect : Effect before feeds after) {loop : ConsumptionLoop}
    (member : loop ∈ after.broker.loops) :
    (∃ earlier ∈ before.broker.loops, loop.Succeeds earlier) ∨
      ∃ claim reader, before.claim = some claim ∧ claim.reader = some reader ∧
        loop = ⟨claim.resource, before.broker.freshGeneration, reader, false, .reading⟩ := by
  cases effect with
  | grew | gaveUp | numbered | wasted | joined | attached | released | joinedLate | shut | fed =>
    exact Or.inl ⟨loop, member, .refl loop⟩
  | withEntry held =>
    rcases List.mem_append.1 member with old | new
    · exact Or.inl ⟨loop, old, .refl loop⟩
    · exact Or.inr ⟨_, _, rfl, held, List.mem_singleton.1 new⟩
  | disbanded => exact Or.inl (JournaledBroker.succession_disband _ loop member)
  | pruned resource ids => exact Or.inl (JournaledBroker.succession_prune _ _ _ loop member)
  | @tidied _ broker _ last ids =>
    have pruned := broker.succession_prune last.resource ids
    exact Or.inl (pruned.trans (JournaledBroker.succession_enter _ _ _) loop member)
  | entered | passed => exact Or.inl (JournaledBroker.succession_enter _ _ _ loop member)
  | waited => exact Or.inl (JournaledBroker.succession_look _ _ _ loop member)
  | ended => exact Or.inl (JournaledBroker.succession_dropLoop _ _ loop member)
  | @retired _ broker _ last =>
    have dissolved := broker.succession_dissolve last.resource last.generation
    exact Or.inl (dissolved.trans (JournaledBroker.succession_dropLoop _ _) loop member)
  | handed => exact Or.inl (JournaledBroker.succession_enter _ _ _ loop member)

theorem identity (effect : Effect before feeds after) :
    after.broker.identity = before.broker.identity := by
  cases effect with
  | pruned resource ids => exact (JournaledBroker.prune_same _ resource ids).1
  | tidied => exact (JournaledBroker.prune_same _ _ _).1
  | retired => exact (JournaledBroker.dissolve_same _ _ _).1
  | _ => rfl

/-! ## Entries and seats -/

/-- Where entries come from: only a subscribe that makes an entry adds one. -/
theorem entry_source (effect : Effect before feeds after) {resource : String} {entry : Entry}
    (found : after.broker.entries.get? resource = some entry) :
    (∃ earlier, before.broker.entries.get? resource = some earlier ∧
      earlier.generation = entry.generation) ∨
      (before.broker.entries.get? resource = none ∧
        entry.generation = before.broker.freshGeneration) := by
  -- Several kinds of steps prune or join, so each of the two is taken up once, for any broker.
  have pruned : ∀ {broker : JournaledBroker} {target : String} {ids : List SubscriberId},
      (broker.prune target ids).entries.get? resource = some entry →
        ∃ earlier, broker.entries.get? resource = some earlier ∧
          earlier.generation = entry.generation := by
    intro broker target ids left
    rw [JournaledBroker.get?_prune] at left
    split at left
    next same =>
      obtain ⟨earlier, isEarlier, kept⟩ := Option.bind_eq_some_iff.1 left
      split at kept
      next => contradiction
      next =>
        obtain rfl := Option.some.inj kept
        exact ⟨earlier, same ▸ isEarlier, rfl⟩
    next => exact ⟨entry, left, rfl⟩
  have joined : ∀ {broker : JournaledBroker} {target : String} {current : Entry}
      {id : SubscriberId}, (broker.join target current id).entries.get? resource = some entry →
        (resource = target ∧ entry.generation = current.generation) ∨
          broker.entries.get? resource = some entry := by
    intro broker target current id isEntry
    rw [JournaledBroker.get?_join] at isEntry
    split at isEntry
    next same =>
      obtain rfl := Option.some.inj isEntry
      exact Or.inl ⟨same, rfl⟩
    next => exact Or.inr isEntry
  cases effect with
  | grew | gaveUp | numbered | wasted | attached | released | shut | fed | entered | waited
  | ended | passed | handed => exact Or.inl ⟨entry, found, rfl⟩
  | joined isEntry | joinedLate _ isEntry =>
    rcases joined found with ⟨rfl, same⟩ | old
    · exact Or.inl ⟨_, isEntry, same.symm⟩
    · exact Or.inl ⟨entry, old, rfl⟩
  | withEntry _ _ absent =>
    rcases joined found with ⟨rfl, same⟩ | old
    · exact Or.inr ⟨absent, same⟩
    · exact Or.inl ⟨entry, old, rfl⟩
  | disbanded => cases found
  | pruned | tidied => exact Or.inl (pruned found)
  | retired =>
    have left := JournaledBroker.get?_dissolve _ _ resource _ ▸ found
    split at left
    next => contradiction
    next => exact Or.inl ⟨entry, left, rfl⟩

/-- Where seats come from: only a subscribe that is registered gets one, at the next place and
with the id that it has claimed or just got. -/
theorem seat_source (effect : Effect before feeds after) {resource : String} {id : SubscriberId}
    {place : Nat} (found : after.broker.seat? resource id = some place) :
    before.broker.seat? resource id = some place ∨
      (place = before.broker.room.nextPlace ∧ (id.number = before.broker.nextNumber ∨
        ∃ claim, before.claim = some claim ∧ claim.resource = resource ∧ claim.id = id)) := by
  -- The three kinds of joins differ in where the entry comes from; its roster is all that matters.
  have joined : ∀ {broker : JournaledBroker} {target : String} {entry : Entry}
      {newcomer : SubscriberId},
      (∀ other, entry.subscribers.place? other = broker.seat? target other) →
      (broker.join target entry newcomer).seat? resource id = some place →
        broker.seat? resource id = some place ∨
          (resource = target ∧ id = newcomer ∧ place = broker.room.nextPlace) := by
    intro broker target entry newcomer same seated
    rw [JournaledBroker.seat?_join same] at seated
    split at seated
    next new => exact Or.inr ⟨new.1, new.2, (Option.some.inj seated).symm⟩
    next => exact Or.inl seated
  have pruned : ∀ {broker : JournaledBroker} {target : String} {ids : List SubscriberId},
      (broker.prune target ids).seat? resource id = some place →
        broker.seat? resource id = some place := by
    intro broker target ids left
    rw [JournaledBroker.seat?_prune] at left
    split at left
    next => contradiction
    next => exact left
  cases effect with
  | grew | gaveUp | numbered | wasted | attached | released | shut | fed | entered | waited
  | ended | passed | handed => exact Or.inl found
  | @joined _ broker _ _ isEntry =>
    have same := fun other => (JournaledBroker.seat?_of_get? isEntry other).symm
    rcases joined same found with old | ⟨_, rfl, new⟩
    · exact Or.inl old
    · exact Or.inr ⟨new, Or.inl rfl⟩
  | @joinedLate _ broker _ _ _ _ isEntry =>
    have same := fun other => (JournaledBroker.seat?_of_get? isEntry other).symm
    rcases joined same found with old | ⟨rfl, rfl, new⟩
    · exact Or.inl old
    · exact Or.inr ⟨new, Or.inr ⟨_, rfl, rfl, rfl⟩⟩
  | @withEntry _ broker claim _ _ _ absent =>
    -- There is no entry yet, so nobody has a seat to keep.
    have same : ∀ other, (Entry.mk .empty broker.freshGeneration).subscribers.place? other =
        broker.seat? claim.resource other := by
      intro other
      rw [JournaledBroker.seat?, absent]
      exact Roster.place?_empty other
    rcases joined same found with old | ⟨rfl, rfl, new⟩
    · exact Or.inl old
    · exact Or.inr ⟨new, Or.inr ⟨_, rfl, rfl, rfl⟩⟩
  | disbanded => cases found
  | pruned | tidied => exact Or.inl (pruned found)
  | retired =>
    unfold JournaledBroker.seat? at found ⊢
    have left := JournaledBroker.get?_dissolve _ _ resource _ ▸ found
    split at left
    next => contradiction
    next => exact Or.inl left

/-- Where claims come from: a subscribe that begins gets the next number. -/
theorem claim_source (effect : Effect before feeds after) {claim : Claim}
    (claimed : after.claim = some claim) :
    claim.id.number = before.broker.nextNumber ∨ ∃ earlier, before.claim = some earlier ∧
      earlier.resource = claim.resource ∧ earlier.id = claim.id := by
  cases effect with
  | grew | disbanded | shut | pruned | fed | tidied | entered | waited | ended | retired | passed
  | handed => exact Or.inr ⟨claim, claimed, rfl, rfl⟩
  | gaveUp | wasted | joined | released | joinedLate | withEntry => contradiction
  | numbered =>
    obtain rfl := Option.some.inj claimed
    exact Or.inl rfl
  | attached =>
    obtain rfl := Option.some.inj claimed
    exact Or.inr ⟨_, rfl, rfl, rfl⟩

/-- Numbers, generations and places are handed out in order. -/
theorem counters (effect : Effect before feeds after) :
    before.broker.nextNumber ≤ after.broker.nextNumber ∧
      before.broker.freshGeneration ≤ after.broker.freshGeneration ∧
      before.broker.room.nextPlace ≤ after.broker.room.nextPlace := by
  have pruned : ∀ (broker : JournaledBroker) (resource : String) (ids : List SubscriberId),
      broker.nextNumber ≤ (broker.prune resource ids).nextNumber ∧
        broker.freshGeneration ≤ (broker.prune resource ids).freshGeneration ∧
        broker.room.nextPlace ≤ (broker.prune resource ids).room.nextPlace := by
    intro broker resource ids
    obtain ⟨_, numbers, generations⟩ := broker.prune_same resource ids
    exact ⟨Nat.le_of_eq numbers.symm, Nat.le_of_eq generations.symm,
      Nat.le_of_eq (broker.quieter_prune resource ids).1.symm⟩
  have added : ∀ (room : Mailroom) (capacity : Nat),
      room.nextPlace ≤ (room.add capacity).nextPlace := by
    intro room capacity
    rw [Mailroom.nextPlace_add]
    exact Nat.le_succ _
  cases effect with
  | grew | gaveUp | attached | released | shut | entered | waited | ended | passed =>
    exact ⟨Nat.le_refl _, Nat.le_refl _, Nat.le_refl _⟩
  | numbered | wasted => exact ⟨Nat.le_succ _, Nat.le_refl _, Nat.le_refl _⟩
  | joined => exact ⟨Nat.le_succ _, Nat.le_refl _, added _ _⟩
  | joinedLate => exact ⟨Nat.le_refl _, Nat.le_refl _, added _ _⟩
  | withEntry => exact ⟨Nat.le_refl _, Nat.le_succ _, added _ _⟩
  | @disbanded _ broker =>
    exact ⟨Nat.le_refl _, Nat.le_refl _, Nat.le_of_eq broker.quieter_disband.1.symm⟩
  | pruned resource ids => exact pruned _ resource ids
  | tidied => exact pruned _ _ _
  | fed => exact ⟨Nat.le_refl _, Nat.le_refl _, Nat.le_of_eq (Mailroom.nextPlace_modify _ _ _).symm⟩
  | @retired _ broker _ loop =>
    obtain ⟨_, numbers, generations⟩ := broker.dissolve_same loop.resource loop.generation
    exact ⟨Nat.le_of_eq numbers.symm, Nat.le_of_eq generations.symm,
      Nat.le_of_eq (broker.quieter_dissolve loop.resource loop.generation).1.symm⟩
  | handed =>
    exact ⟨Nat.le_refl _, Nat.le_refl _, Nat.le_of_eq (Roster.nextPlace_offerEach _ _ _).symm⟩

end Effect

/-! ## From one state to a later one -/

/-- How a broker with some claims becomes another: nothing that was given up comes back, and what
is new has a number, a place or a generation that nobody had before. -/
structure JournaledBroker.Continues (before : JournaledBroker) (claims : List Claim)
    (after : JournaledBroker) (later : List Claim) : Prop where
  identity : after.identity = before.identity
  nextNumber : before.nextNumber ≤ after.nextNumber
  freshGeneration : before.freshGeneration ≤ after.freshGeneration
  nextPlace : before.room.nextPlace ≤ after.room.nextPlace
  claim : ∀ claim ∈ later, before.nextNumber ≤ claim.id.number ∨
    ∃ earlier ∈ claims, earlier.resource = claim.resource ∧ earlier.id = claim.id
  seat : ∀ {resource id place}, after.seat? resource id = some place →
    before.seat? resource id = some place ∨ (before.room.nextPlace ≤ place ∧
      (before.nextNumber ≤ id.number ∨
        ∃ earlier ∈ claims, earlier.resource = resource ∧ earlier.id = id))
  entry : ∀ {resource entry}, after.entries.get? resource = some entry →
    before.freshGeneration ≤ entry.generation ∨ ∃ earlier,
      before.entries.get? resource = some earlier ∧ earlier.generation = entry.generation
  loop : ∀ loop ∈ after.loops, before.freshGeneration ≤ loop.generation ∨
    ∃ earlier ∈ before.loops, loop.Succeeds earlier

namespace JournaledBroker.Continues

theorem refl (broker : JournaledBroker) (claims : List Claim) :
    broker.Continues claims broker claims where
  identity := rfl
  nextNumber := Nat.le_refl _
  freshGeneration := Nat.le_refl _
  nextPlace := Nat.le_refl _
  claim := fun claim member => Or.inr ⟨claim, member, rfl, rfl⟩
  seat := Or.inl
  entry := fun found => Or.inr ⟨_, found, rfl⟩
  loop := fun loop member => Or.inr ⟨loop, member, .refl loop⟩

/-- The order of claims does not matter. -/
theorem of_perm {before after : JournaledBroker} {claims later : List Claim}
    {claims' later' : List Claim} (continues : before.Continues claims after later)
    (same : claims.Perm claims') (sameLater : later.Perm later') :
    before.Continues claims' after later' where
  identity := continues.identity
  nextNumber := continues.nextNumber
  freshGeneration := continues.freshGeneration
  nextPlace := continues.nextPlace
  claim := by
    intro claim member
    rcases continues.claim claim (sameLater.mem_iff.2 member) with new | ⟨earlier, isEarlier, kept⟩
    · exact Or.inl new
    · exact Or.inr ⟨earlier, same.mem_iff.1 isEarlier, kept⟩
  seat := by
    intro resource id place found
    rcases continues.seat found with old | ⟨newPlace, new | ⟨earlier, isEarlier, kept⟩⟩
    · exact Or.inl old
    · exact Or.inr ⟨newPlace, Or.inl new⟩
    · exact Or.inr ⟨newPlace, Or.inr ⟨earlier, same.mem_iff.1 isEarlier, kept⟩⟩
  entry := continues.entry
  loop := continues.loop

theorem trans {before middle after : JournaledBroker} {claims between later : List Claim}
    (first : before.Continues claims middle between)
    (second : middle.Continues between after later) : before.Continues claims after later where
  identity := second.identity.trans first.identity
  nextNumber := Nat.le_trans first.nextNumber second.nextNumber
  freshGeneration := Nat.le_trans first.freshGeneration second.freshGeneration
  nextPlace := Nat.le_trans first.nextPlace second.nextPlace
  claim := by
    intro claim member
    rcases second.claim claim member with new | ⟨earlier, isEarlier, sameResource, sameId⟩
    · exact Or.inl (Nat.le_trans first.nextNumber new)
    · rw [← sameResource, ← sameId]
      exact first.claim earlier isEarlier
  seat := by
    intro resource id place found
    rcases second.seat found with old | ⟨newPlace, owner⟩
    · exact first.seat old
    -- Whoever claimed the seat in between had its claim at the start, or its number is new.
    · refine Or.inr ⟨Nat.le_trans first.nextPlace newPlace, ?_⟩
      rcases owner with new | ⟨earlier, isEarlier, rfl, rfl⟩
      · exact Or.inl (Nat.le_trans first.nextNumber new)
      · exact first.claim earlier isEarlier
  entry := by
    intro resource entry found
    rcases second.entry found with new | ⟨between, isBetween, same⟩
    · exact Or.inl (Nat.le_trans first.freshGeneration new)
    · rw [← same]
      exact first.entry isBetween
  loop := by
    intro loop member
    rcases second.loop loop member with new | ⟨between, isBetween, succeeds⟩
    · exact Or.inl (Nat.le_trans first.freshGeneration new)
    · rcases first.loop between isBetween with new | ⟨earlier, isEarlier, before⟩
      · exact Or.inl (succeeds.generation ▸ new)
      · exact Or.inr ⟨earlier, isEarlier, succeeds.trans before⟩

end JournaledBroker.Continues

/-- Every effect leads from a state of a broker to one that continues it. -/
theorem Effect.continues {before after : Footprint} {feeds : List (Nat × Feed)}
    (effect : Effect before feeds after) (others : List Claim) :
    before.broker.Continues (before.claim.toList ++ others) after.broker
      (after.claim.toList ++ others) where
  identity := effect.identity
  nextNumber := effect.counters.1
  freshGeneration := effect.counters.2.1
  nextPlace := effect.counters.2.2
  claim := by
    intro claim member
    rcases List.mem_append.1 member with own | other
    · rcases effect.claim_source (Option.mem_toList.1 own) with new | ⟨earlier, isEarlier, same⟩
      · exact Or.inl (Nat.le_of_eq new.symm)
      · exact Or.inr ⟨earlier, by simp [isEarlier], same⟩
    · exact Or.inr ⟨claim, List.mem_append_right _ other, rfl, rfl⟩
  seat := by
    intro resource id place found
    rcases effect.seat_source found with old | ⟨new, number | ⟨claim, isClaim, same⟩⟩
    · exact Or.inl old
    · exact Or.inr ⟨Nat.le_of_eq new.symm, Or.inl (Nat.le_of_eq number.symm)⟩
    · exact Or.inr ⟨Nat.le_of_eq new.symm, Or.inr ⟨claim, by simp [isClaim], same⟩⟩
  entry := by
    intro resource entry found
    rcases effect.entry_source found with old | ⟨_, new⟩
    · exact Or.inr old
    · exact Or.inl (Nat.le_of_eq new.symm)
  loop := by
    intro loop member
    rcases effect.loop_source member with old | ⟨claim, reader, _, _, rfl⟩
    · exact Or.inr old
    · exact Or.inl (Nat.le_refl _)

end UpdateRelay
