import UpdateRelay.Proofs.Cluster.Succession

/-!
# What every step keeps in order

`Footprint.Sound` puts together what is in order at one broker between steps: its registry, the
claims of its subscribes, and the counts of all readers, its own and those elsewhere. Every effect
keeps it.
-/

namespace UpdateRelay

/-- Within one instance, different resources are read in different groups. -/
theorem Instance.group_injective (identity : Instance) {first second : String}
    (same : identity.group first = identity.group second) : first = second := by
  unfold Instance.group at same
  rw [String.append_left_inj, String.append_left_inj, String.append_right_inj] at same
  exact same

/-- Whether a reader reads for a resource of an instance. -/
def Reader.ReadsOf (reader : Reader) (identity : Instance) (resource : String) : Prop :=
  reader.topic = identity.topic ∧ reader.group = identity.group resource

namespace Footprint

/-- The readers that the loops and the claim of a footprint hold. -/
def readers (footprint : Footprint) : List Reader :=
  footprint.broker.loops.map (·.reader) ++ footprint.claim.toList.filterMap (·.reader)

/-- One broker and the journal are in order, where the broker has other claims and there are
readers elsewhere. -/
structure Sound (footprint : Footprint) (others : List Claim) (elsewhere : List Reader) : Prop where
  entryLoops : footprint.broker.EntryLoops
  seated : footprint.broker.Seated (footprint.claim.toList ++ others)
  counts : MemberCounts footprint.journal (footprint.readers ++ elsewhere)
  loopReads : ∀ loop ∈ footprint.broker.loops,
    loop.reader.ReadsOf footprint.broker.identity loop.resource
  claimReads : ∀ claim ∈ footprint.claim, ∀ reader ∈ claim.reader,
    reader.ReadsOf footprint.broker.identity claim.resource

end Footprint

namespace Effect

variable {before after : Footprint} {feeds : List (Nat × Feed)}

/-! ## The registry -/

theorem entryLoops (effect : Effect before feeds after) (entryLoops : before.broker.EntryLoops) :
    after.broker.EntryLoops := by
  have phases : ∀ (broker : JournaledBroker) (loop : ConsumptionLoop) (phase : LoopPhase),
      broker.EntryLoops → (broker.enter loop phase).EntryLoops := fun broker loop phase sound =>
    sound.frame rfl rfl rfl (JournaledBroker.sameLoops_modifyLoop fun _ => rfl)
  have spent : before.broker.spendNumber.EntryLoops := entryLoops.frame rfl rfl rfl rfl
  cases effect with
  | grew | gaveUp | attached | released | shut => exact entryLoops
  | numbered | wasted => exact spent
  | joined found => exact spent.join found _
  | joinedLate _ found => exact entryLoops.join found _
  | withEntry _ isOpen absent => exact entryLoops.found absent isOpen _ _
  | disbanded => exact entryLoops.disband
  | pruned resource ids => exact entryLoops.prune resource ids
  | fed => exact entryLoops.frame rfl rfl rfl rfl
  | tidied => exact phases _ _ _ (entryLoops.prune _ _)
  | entered | passed => exact phases _ _ _ entryLoops
  | waited => exact entryLoops.frame rfl rfl rfl (JournaledBroker.sameLoops_modifyLoop fun _ => rfl)
  | ended member cancelled => exact entryLoops.dropLoop member cancelled
  | @retired _ broker _ loop member live _ =>
    obtain ⟨entry, found, generation⟩ := entryLoops.serving loop member live
    have isEntry := JournaledBroker.entryAt?_eq_some_iff.2 ⟨found, generation⟩
    have cancelled : { loop with cancelled := true } ∈
        (broker.dissolve loop.resource loop.generation).loops := by
      simp only [JournaledBroker.dissolve, isEntry]
      exact List.mem_map.2 ⟨loop, member, if_pos rfl⟩
    have ended := (entryLoops.dissolve loop.resource loop.generation).dropLoop cancelled rfl
    exact ended
  | handed =>
    refine phases _ _ _ (entryLoops.frame rfl rfl rfl rfl)

theorem seated {others : List Claim} (effect : Effect before feeds after)
    (seated : before.broker.Seated (before.claim.toList ++ others)) :
    after.broker.Seated (after.claim.toList ++ others) := by
  cases effect with
  | grew | shut => exact seated
  | gaveUp | released => exact seated.dropClaim
  | numbered resource => exact seated.spendNumber resource
  | wasted => exact (seated.spendNumber "").dropClaim
  | @joined _ broker resource entry found =>
    have claimed := seated.spendNumber resource
    exact claimed.join fun id => (JournaledBroker.seat?_of_get? found id).symm
  | attached => exact seated.of_cons rfl
  | joinedLate _ found => exact seated.join fun id => (JournaledBroker.seat?_of_get? found id).symm
  | @withEntry _ broker claim _ _ _ absent =>
    have same : ∀ id, (Entry.mk .empty broker.freshGeneration).subscribers.place? id =
        broker.seat? claim.resource id := by
      intro id
      rw [JournaledBroker.seat?, absent]
      exact Roster.place?_empty id
    exact (seated.join same).mono (fun found => found) (Nat.le_refl _) (Nat.le_refl _)
  | disbanded => exact seated.disband
  | pruned resource ids => exact seated.prune resource ids
  | tidied => exact (seated.prune _ _).mono (fun found => found) (Nat.le_refl _) (Nat.le_refl _)
  | fed =>
    exact seated.mono (fun found => found) (Nat.le_refl _)
      (Nat.le_of_eq (Mailroom.nextPlace_modify _ _ _).symm)
  | entered | waited | ended | passed =>
    exact seated.mono (fun found => found) (Nat.le_refl _) (Nat.le_refl _)
  | retired =>
    exact (seated.dissolve _ _).mono (fun found => found) (Nat.le_refl _) (Nat.le_refl _)
  | handed =>
    exact seated.mono (fun found => found) (Nat.le_refl _)
      (Nat.le_of_eq (Roster.nextPlace_offerEach _ _ _).symm)

/-! ## Member counts -/

theorem readers_enter (broker : JournaledBroker) (loop : ConsumptionLoop) (phase : LoopPhase) :
    (broker.enter loop phase).loops.map (·.reader) = broker.loops.map (·.reader) := by
  unfold JournaledBroker.enter JournaledBroker.modifyLoop
  rw [List.map_map]
  refine List.map_congr_left fun other _ => ?_
  simp only [Function.comp_apply]
  split <;> rfl

theorem readers_cancelLoop (broker : JournaledBroker) (generation : Nat) :
    (broker.cancelLoop generation).loops.map (·.reader) = broker.loops.map (·.reader) := by
  unfold JournaledBroker.cancelLoop JournaledBroker.modifyLoop
  rw [List.map_map]
  refine List.map_congr_left fun other _ => ?_
  simp only [Function.comp_apply]
  split <;> rfl

theorem readers_prune (broker : JournaledBroker) (resource : String) (ids : List SubscriberId) :
    (broker.prune resource ids).loops.map (·.reader) = broker.loops.map (·.reader) := by
  rcases broker.loops_prune resource ids with same | ⟨_, _, _, same⟩
  · rw [same]
  · rw [same, readers_cancelLoop]

theorem readers_disband (broker : JournaledBroker) :
    broker.disband.loops.map (·.reader) = broker.loops.map (·.reader) := by
  simp [JournaledBroker.disband, Function.comp_def]

theorem perm_readers_dropLoop {broker : JournaledBroker} {loop : ConsumptionLoop}
    (distinct : (broker.loops.map (·.generation)).Nodup) (member : loop ∈ broker.loops) :
    (broker.loops.map (·.reader)).Perm
      (loop.reader :: (broker.dropLoop loop.generation).loops.map (·.reader)) := by
  have split := (perm_cons_filter distinct member).map (·.reader)
  exact split

theorem readers_dropLoop_dissolve (broker : JournaledBroker) (resource : String)
    (generation : Nat) :
    ((broker.dissolve resource generation).dropLoop generation).loops.map (·.reader) =
      (broker.dropLoop generation).loops.map (·.reader) := by
  unfold JournaledBroker.dissolve
  split
  next => rfl
  next =>
    simp only [JournaledBroker.dropLoop, JournaledBroker.cancelLoop, JournaledBroker.modifyLoop,
      List.filter_map, List.map_map]
    have kept : (fun loop : ConsumptionLoop => decide (loop.generation ≠ generation)) ∘
        (fun loop => if loop.generation = generation then { loop with cancelled := true }
          else loop) = fun loop => decide (loop.generation ≠ generation) := by
      funext loop
      simp only [Function.comp_apply]
      split <;> rfl
    rw [kept]
    refine List.map_congr_left fun loop _ => ?_
    simp only [Function.comp_apply]
    split <;> rfl

theorem counts {elsewhere : List Reader} (effect : Effect before feeds after)
    (entryLoops : before.broker.EntryLoops)
    (counts : MemberCounts before.journal (before.readers ++ elsewhere)) :
    MemberCounts after.journal (after.readers ++ elsewhere) := by
  unfold Footprint.readers at counts ⊢
  cases effect with
  | grew growth => exact counts.grows growth
  | gaveUp growth bare =>
    simp only [Option.toList_some, List.filterMap_cons, bare] at counts
    exact counts.grows growth
  | numbered | wasted | joined | fed => exact counts
  | @attached _ _ _ _ topic bare _ growth found =>
    simp only [Option.toList_some, List.filterMap_cons, bare, List.filterMap_nil,
      List.append_nil] at counts ⊢
    refine ((counts.grows growth).join found topic.records.length).of_perm ?_
    rw [List.append_assoc]
    exact List.perm_middle.symm
  | released held | joinedLate held =>
    simp only [Option.toList_some, Option.toList_none, List.filterMap_cons, held,
      List.filterMap_nil, List.append_nil, List.append_assoc] at counts ⊢
    exact (counts.of_perm List.perm_middle).leave
  | withEntry held =>
    simp only [Option.toList_some, Option.toList_none, List.filterMap_cons, held,
      List.filterMap_nil, List.append_nil, JournaledBroker.found, List.map_append, List.map_cons,
      List.map_nil] at counts ⊢
    exact counts
  | disbanded =>
    simp only [readers_disband]
    exact counts
  | shut => exact counts.close
  | pruned resource ids =>
    simp only [readers_prune]
    exact counts
  | tidied =>
    simp only [readers_enter, readers_prune]
    exact counts
  | entered =>
    simp only [readers_enter]
    exact counts
  | @waited journal broker _ loop =>
    refine counts.of_map ?_
    simp only [JournaledBroker.modifyLoop, List.map_append, List.map_map]
    congr 2
    refine List.map_congr_left fun other _ => ?_
    simp only [Function.comp_apply]
    split
    next => exact journal.membership_look other.reader
    next => rfl
  | ended member =>
    have perm := perm_readers_dropLoop entryLoops.loopsDistinct member
    rw [List.append_assoc] at counts ⊢
    exact (counts.of_perm (perm.append_right _)).leave
  | retired member =>
    have perm := perm_readers_dropLoop entryLoops.loopsDistinct member
    simp only [readers_dropLoop_dissolve]
    rw [List.append_assoc] at counts ⊢
    exact (counts.of_perm (perm.append_right _)).leave
  | passed | handed =>
    simp only [readers_enter]
    exact counts.take _

/-! ## Together -/

theorem readsOf_of_membership {reader earlier : Reader}
    (same : reader.membership = earlier.membership) {identity : Instance} {resource : String}
    (reads : earlier.ReadsOf identity resource) : reader.ReadsOf identity resource := by
  simp only [Reader.membership, Prod.mk.injEq] at same
  exact ⟨same.1.trans reads.1, same.2.2.1.trans reads.2⟩

/-- Every effect keeps everything in order. -/
theorem sound {others : List Claim} {elsewhere : List Reader}
    (effect : Effect before feeds after) (sound : before.Sound others elsewhere) :
    after.Sound others elsewhere where
  entryLoops := effect.entryLoops sound.entryLoops
  seated := effect.seated sound.seated
  counts := effect.counts sound.entryLoops sound.counts
  loopReads := by
    intro loop member
    rw [effect.identity]
    rcases effect.loop_source member with ⟨earlier, isEarlier, later⟩ | ⟨claim, reader, isClaim,
      held, rfl⟩
    · rw [later.resource]
      exact readsOf_of_membership later.reader (sound.loopReads earlier isEarlier)
    · exact sound.claimReads claim isClaim reader held
  claimReads := by
    rw [effect.identity]
    cases effect with
    | grew | disbanded | shut | pruned | fed | tidied | entered | waited | ended | retired
    | passed | handed => exact sound.claimReads
    | gaveUp | wasted | joined | released | joinedLate | withEntry => simp
    | numbered => simp
    | attached => simp [JournaledBroker.readerOf, Reader.ReadsOf]

end Effect

end UpdateRelay
