import UpdateRelay.Proofs.Broker.Registry

/-!
# Seats

`JournaledBroker.Seated` says that ids and places are used once, where the subscribes in progress
have claimed ids of their own. Each operation of a durable broker keeps this.
-/

namespace UpdateRelay

/-- Ids and places are used once, and the ids that subscribes in progress have claimed are not
used yet. -/
structure JournaledBroker.Seated (broker : JournaledBroker) (claims : List Claim) : Prop where
  seatOld : ∀ {resource id place}, broker.seat? resource id = some place →
    id.number < broker.nextNumber ∧ place < broker.room.nextPlace
  oneEntry : ∀ {first second id firstPlace secondPlace},
    broker.seat? first id = some firstPlace → broker.seat? second id = some secondPlace →
      first = second
  onePlace : ∀ {first second firstId secondId place},
    broker.seat? first firstId = some place → broker.seat? second secondId = some place →
      first = second ∧ firstId = secondId
  claimOld : ∀ claim ∈ claims, claim.id.number < broker.nextNumber
  claimUnseated : ∀ claim ∈ claims, ∀ resource, broker.seat? resource claim.id = none
  claimsDistinct : (claims.map (·.id)).Nodup

namespace JournaledBroker.Seated

variable {broker : JournaledBroker} {claims : List Claim}

theorem ofEmpty (identity : Instance) : (JournaledBroker.empty identity).Seated [] where
  seatOld := fun found => by cases found
  oneEntry := fun found => by cases found
  onePlace := fun found => by cases found
  claimOld := by simp
  claimUnseated := by simp
  claimsDistinct := List.nodup_nil

theorem of_perm {others : List Claim} (seated : broker.Seated claims)
    (same : claims.Perm others) : broker.Seated others where
  seatOld := seated.seatOld
  oneEntry := seated.oneEntry
  onePlace := seated.onePlace
  claimOld := fun claim member => seated.claimOld claim (same.mem_iff.2 member)
  claimUnseated := fun claim member => seated.claimUnseated claim (same.mem_iff.2 member)
  claimsDistinct := (same.map _).nodup_iff.1 seated.claimsDistinct

/-- Seats may be given up, and numbers and places skipped. -/
theorem mono {after : JournaledBroker} (seated : broker.Seated claims)
    (seats : ∀ {resource id place}, after.seat? resource id = some place →
      broker.seat? resource id = some place)
    (nextNumber : broker.nextNumber ≤ after.nextNumber)
    (nextPlace : broker.room.nextPlace ≤ after.room.nextPlace) : after.Seated claims where
  seatOld := by
    intro resource id place found
    obtain ⟨oldId, oldPlace⟩ := seated.seatOld (seats found)
    exact ⟨Nat.lt_of_lt_of_le oldId nextNumber, Nat.lt_of_lt_of_le oldPlace nextPlace⟩
  oneEntry := fun first second => seated.oneEntry (seats first) (seats second)
  onePlace := fun first second => seated.onePlace (seats first) (seats second)
  claimOld := fun claim member => Nat.lt_of_lt_of_le (seated.claimOld claim member) nextNumber
  claimUnseated := by
    intro claim member resource
    refine Option.eq_none_iff_forall_ne_some.2 fun place found => ?_
    have old := seats found
    rw [seated.claimUnseated claim member resource] at old
    contradiction
  claimsDistinct := seated.claimsDistinct

theorem dropClaim {claim : Claim} (seated : broker.Seated (claim :: claims)) :
    broker.Seated claims where
  seatOld := seated.seatOld
  oneEntry := seated.oneEntry
  onePlace := seated.onePlace
  claimOld := fun other member => seated.claimOld other (List.mem_cons_of_mem _ member)
  claimUnseated := fun other member => seated.claimUnseated other (List.mem_cons_of_mem _ member)
  claimsDistinct := (List.nodup_cons.1 seated.claimsDistinct).2

/-- It does not matter here which reader a subscribe has got. -/
theorem of_cons {claim other : Claim} (seated : broker.Seated (claim :: claims))
    (same : other.id = claim.id) : broker.Seated (other :: claims) where
  seatOld := seated.seatOld
  oneEntry := seated.oneEntry
  onePlace := seated.onePlace
  claimOld := List.forall_mem_cons.2
    ⟨same ▸ seated.claimOld claim List.mem_cons_self, seated.dropClaim.claimOld⟩
  claimUnseated := List.forall_mem_cons.2
    ⟨same ▸ seated.claimUnseated claim List.mem_cons_self, seated.dropClaim.claimUnseated⟩
  claimsDistinct := by
    have distinct := seated.claimsDistinct
    rw [List.map_cons] at distinct ⊢
    rwa [same]

theorem prune (seated : broker.Seated claims) (resource : String) (ids : List SubscriberId) :
    (broker.prune resource ids).Seated claims := by
  refine seated.mono (fun {query id place} found => ?_) ?_ ?_
  · rw [seat?_prune] at found
    split at found
    next => contradiction
    next => exact found
  · exact Nat.le_of_eq (broker.prune_same resource ids).2.1.symm
  · exact Nat.le_of_eq (broker.quieter_prune resource ids).1.symm

theorem dissolve (seated : broker.Seated claims) (resource : String) (generation : Nat) :
    (broker.dissolve resource generation).Seated claims := by
  refine seated.mono (fun {query id place} found => ?_) ?_ ?_
  · unfold seat? at found ⊢
    rw [get?_dissolve] at found
    split at found
    next => contradiction
    next => exact found
  · exact Nat.le_of_eq (broker.dissolve_same resource generation).2.1.symm
  · exact Nat.le_of_eq (broker.quieter_dissolve resource generation).1.symm

theorem disband (seated : broker.Seated claims) : broker.disband.Seated claims :=
  seated.mono (fun found => by cases found) (Nat.le_refl _)
    (Nat.le_of_eq broker.quieter_disband.1.symm)

/-- A subscribe that begins claims the next number. -/
theorem spendNumber (seated : broker.Seated claims) (resource : String) :
    broker.spendNumber.Seated (⟨resource, ⟨broker.nextNumber⟩, none⟩ :: claims) := by
  have later : broker.spendNumber.Seated claims :=
    seated.mono (fun found => found) (Nat.le_succ _) (Nat.le_refl _)
  refine ⟨later.seatOld, later.oneEntry, later.onePlace, ?_, ?_, ?_⟩
  · exact List.forall_mem_cons.2 ⟨Nat.lt_succ_self _, later.claimOld⟩
  · refine List.forall_mem_cons.2 ⟨fun query => ?_, later.claimUnseated⟩
    refine Option.eq_none_iff_forall_ne_some.2 fun place found => ?_
    have taken : broker.seat? query ⟨broker.nextNumber⟩ = some place := found
    exact Nat.lt_irrefl _ (seated.seatOld taken).1
  · refine List.nodup_cons.2 ⟨fun member => ?_, later.claimsDistinct⟩
    obtain ⟨claim, isClaim, same⟩ := List.mem_map.1 member
    have old := seated.claimOld claim isClaim
    rw [same] at old
    exact Nat.lt_irrefl _ old

/-- A subscribe that is registered takes a seat with the id that it has claimed. -/
theorem join {claim : Claim} {resource : String} {entry : Entry}
    (seated : broker.Seated (claim :: claims))
    (same : ∀ id, entry.subscribers.place? id = broker.seat? resource id) :
    (broker.join resource entry claim.id).Seated claims := by
  have seats := seat?_join same claim.id
  have unseated := seated.claimUnseated claim List.mem_cons_self
  have grown : (broker.join resource entry claim.id).room.nextPlace =
      broker.room.nextPlace + 1 := Mailroom.nextPlace_add _ _
  -- The new seat is the only one of its id and the only one at its place.
  have source : ∀ {query other place},
      (broker.join resource entry claim.id).seat? query other = some place →
        (query = resource ∧ other = claim.id ∧ place = broker.room.nextPlace) ∨
          (other ≠ claim.id ∧ place < broker.room.nextPlace ∧
            broker.seat? query other = some place) := by
    intro query other place found
    rw [seats] at found
    split at found
    next isNew => exact Or.inl ⟨isNew.1, isNew.2, (Option.some.inj found).symm⟩
    next =>
      refine Or.inr ⟨?_, (seated.seatOld found).2, found⟩
      rintro rfl
      simp [unseated query] at found
  constructor
  case seatOld =>
    intro query other place found
    rw [grown]
    rcases source found with ⟨_, rfl, rfl⟩ | ⟨_, _, old⟩
    · exact ⟨seated.claimOld claim List.mem_cons_self, Nat.lt_succ_self _⟩
    · obtain ⟨oldId, oldPlace⟩ := seated.seatOld old
      exact ⟨oldId, Nat.lt_succ_of_lt oldPlace⟩
  case oneEntry =>
    intro first second id firstPlace secondPlace firstFound secondFound
    rcases source firstFound with ⟨rfl, rfl, _⟩ | ⟨other, _, firstOld⟩
    · rcases source secondFound with ⟨rfl, _⟩ | ⟨other, _⟩
      · rfl
      · exact absurd rfl other
    · rcases source secondFound with ⟨_, same, _⟩ | ⟨_, _, secondOld⟩
      · exact absurd same other
      · exact seated.oneEntry firstOld secondOld
  case onePlace =>
    intro first second firstId secondId place firstFound secondFound
    rcases source firstFound with ⟨rfl, rfl, rfl⟩ | ⟨_, firstBelow, firstOld⟩
    · rcases source secondFound with ⟨rfl, rfl, _⟩ | ⟨_, below, _⟩
      · exact ⟨rfl, rfl⟩
      · exact absurd below (Nat.lt_irrefl _)
    · rcases source secondFound with ⟨_, _, rfl⟩ | ⟨_, _, secondOld⟩
      · exact absurd firstBelow (Nat.lt_irrefl _)
      · exact seated.onePlace firstOld secondOld
  case claimOld =>
    exact seated.dropClaim.claimOld
  case claimUnseated =>
    intro other member query
    have differs : other.id ≠ claim.id := by
      intro equal
      refine (List.nodup_cons.1 seated.claimsDistinct).1 ?_
      exact List.mem_map.2 ⟨other, member, equal⟩
    rw [seats, if_neg fun both => differs both.2]
    exact seated.dropClaim.claimUnseated other member query
  case claimsDistinct =>
    exact seated.dropClaim.claimsDistinct

end JournaledBroker.Seated

end UpdateRelay
