import UpdateRelay.Proofs.Cluster.Run

/-!
# What every run keeps in order

`Cluster.Sound` puts together what is in order between steps at all brokers and the journal.
`Cluster.sound_performAll` says that this is so in every state of every run, and
`Cluster.continues_performAll` how each broker goes on from one state to a later one.
-/

namespace UpdateRelay.Cluster

/-- All brokers and the journal are in order. -/
structure Sound (cluster : Cluster) : Prop where
  entryLoops : ∀ {index : Nat} {broker : JournaledBroker}, cluster.brokers[index]? = some broker →
    broker.EntryLoops
  seated : ∀ {index : Nat} {broker : JournaledBroker}, cluster.brokers[index]? = some broker →
    broker.Seated (claimsAt cluster.claims index)
  settled : ∀ entry ∈ cluster.claims, entry.1 < cluster.brokers.length
  counts : MemberCounts cluster.journal (readersOf cluster.brokers cluster.claims)
  loopReads : ∀ {index : Nat} {broker : JournaledBroker}, cluster.brokers[index]? = some broker →
    ∀ loop ∈ broker.loops, loop.reader.ReadsOf broker.identity loop.resource
  claimReads : ∀ {index : Nat} {broker : JournaledBroker}, cluster.brokers[index]? = some broker →
    ∀ claim ∈ claimsAt cluster.claims index, ∀ reader ∈ claim.reader,
      reader.ReadsOf broker.identity claim.resource

/-! ## Claims and readers at one broker -/

theorem claimsAt_perm {claims others : List (Nat × Claim)} (same : claims.Perm others)
    (index : Nat) : (claimsAt claims index).Perm (claimsAt others index) :=
  same.filterMap _

theorem claimsAt_own (claim : Option Claim) (rest : List (Nat × Claim)) (index : Nat) :
    claimsAt (claim.toList.map (index, ·) ++ rest) index =
      claim.toList ++ claimsAt rest index := by
  cases claim <;> simp [claimsAt]

theorem claimsAt_other (claim : Option Claim) (rest : List (Nat × Claim)) {index query : Nat}
    (other : index ≠ query) :
    claimsAt (claim.toList.map (index, ·) ++ rest) query = claimsAt rest query := by
  cases claim <;> simp [claimsAt, other]

theorem mem_readersOf_of_loop {cluster : Cluster} {index : Nat} {broker : JournaledBroker}
    (isBroker : cluster.brokers[index]? = some broker) {loop : ConsumptionLoop}
    (member : loop ∈ broker.loops) :
    loop.reader ∈ readersOf cluster.brokers cluster.claims :=
  List.mem_append_left _ (List.mem_flatMap.2
    ⟨broker, List.mem_of_getElem? isBroker, List.mem_map.2 ⟨loop, member, rfl⟩⟩)

/-- The readers of one broker and one claim beside all the others. -/
theorem perm_readersOf {brokers : List JournaledBroker} {claims rest : List (Nat × Claim)}
    {index : Nat} {broker : JournaledBroker} {claim : Option Claim} (journal : Journal)
    (isBroker : brokers[index]? = some broker)
    (claimed : claims.Perm (claim.toList.map (index, ·) ++ rest)) :
    (readersOf brokers claims).Perm
      ((Footprint.mk journal broker claim).readers ++ readersOf (brokers.eraseIdx index) rest) := by
  obtain ⟨inside, rfl⟩ := List.getElem?_eq_some_iff.1 isBroker
  have brokersSplit : (brokers.flatMap fun broker => broker.loops.map (·.reader)).Perm
      (brokers[index].loops.map (·.reader) ++
        (brokers.eraseIdx index).flatMap fun broker => broker.loops.map (·.reader)) :=
    (List.getElem_cons_eraseIdx_perm inside).symm.flatMap_right _
  have claimsSplit : (claims.filterMap (·.2.reader)).Perm
      (claim.toList.filterMap (·.reader) ++ rest.filterMap (·.2.reader)) := by
    refine (claimed.filterMap _).trans (List.Perm.of_eq ?_)
    cases claim with
    | none => rfl
    | some claim => cases held : claim.reader <;> simp [held]
  refine (brokersSplit.append claimsSplit).trans ?_
  simp only [Footprint.readers, readersOf, List.append_assoc]
  exact (List.perm_append_comm_assoc _ _ _).append_left _

/-- What is in order at a cluster, as one of its brokers and one claim there see it. -/
theorem Sound.footprint {cluster : Cluster} (sound : cluster.Sound) {index : Nat}
    {broker : JournaledBroker} {claim : Option Claim} {rest : List (Nat × Claim)}
    (isBroker : cluster.brokers[index]? = some broker)
    (claimed : cluster.claims.Perm (claim.toList.map (index, ·) ++ rest)) :
    (Footprint.mk cluster.journal broker claim).Sound (claimsAt rest index)
      (readersOf (cluster.brokers.eraseIdx index) rest) := by
  have here := claimsAt_perm claimed index
  rw [claimsAt_own] at here
  refine ⟨sound.entryLoops isBroker, (sound.seated isBroker).of_perm here,
    sound.counts.of_perm (perm_readersOf _ isBroker claimed), sound.loopReads isBroker, ?_⟩
  intro own isOwn
  refine sound.claimReads isBroker own (here.mem_iff.2 ?_)
  exact List.mem_append_left _ (Option.mem_toList.2 isOwn)

/-! ## One step -/

section Sound

variable {before after : Cluster}

/-- One broker and one claim there have changed, and whatever is elsewhere has not. -/
theorem Sound.happened (sound : before.Sound) {index : Nat} {broker next : JournaledBroker}
    {claim later : Option Claim} {rest : List (Nat × Claim)} {feeds : List (Nat × Feed)}
    (isBroker : before.brokers[index]? = some broker)
    (effect : Effect ⟨before.journal, broker, claim⟩ feeds ⟨after.journal, next, later⟩)
    (brokers : after.brokers = before.brokers.set index next)
    (claimsBefore : before.claims.Perm (claim.toList.map (index, ·) ++ rest))
    (claimsAfter : after.claims.Perm (later.toList.map (index, ·) ++ rest)) : after.Sound := by
  obtain ⟨inside, _⟩ := List.getElem?_eq_some_iff.1 isBroker
  have there := effect.sound (sound.footprint isBroker claimsBefore)
  have isNext : after.brokers[index]? = some next := by
    rw [brokers, List.getElem?_set_self inside]
  -- Every broker is the one of the effect, or has the claims and the state that it had.
  have source : ∀ {query : Nat} {current : JournaledBroker},
      after.brokers[query]? = some current → (query = index ∧ current = next) ∨
        (before.brokers[query]? = some current ∧
          (claimsAt before.claims query).Perm (claimsAt after.claims query)) := by
    intro query current found
    rw [brokers, List.getElem?_set] at found
    split at found
    next same => exact Or.inl ⟨same.symm, (Option.some.inj found).symm⟩
    next other =>
      refine Or.inr ⟨found, ?_⟩
      have first := claimsAt_perm claimsBefore query
      have second := claimsAt_perm claimsAfter query
      rw [claimsAt_other _ _ other] at first second
      exact first.trans second.symm
  have here := claimsAt_perm claimsAfter index
  rw [claimsAt_own] at here
  constructor
  case entryLoops =>
    intro query current found
    rcases source found with ⟨_, rfl⟩ | ⟨old, _⟩
    · exact there.entryLoops
    · exact sound.entryLoops old
  case seated =>
    intro query current found
    rcases source found with ⟨rfl, rfl⟩ | ⟨old, same⟩
    · exact there.seated.of_perm here.symm
    · exact (sound.seated old).of_perm same
  case settled =>
    intro entry member
    rw [brokers, List.length_set]
    rcases List.mem_append.1 (claimsAfter.mem_iff.1 member) with own | resting
    · obtain ⟨_, _, rfl⟩ := List.mem_map.1 own
      exact inside
    · exact sound.settled entry (claimsBefore.mem_iff.2 (List.mem_append_right _ resting))
  case counts =>
    have perm := perm_readersOf after.journal isNext claimsAfter
    rw [brokers, List.eraseIdx_set_eq] at perm
    rw [brokers]
    exact there.counts.of_perm perm.symm
  case loopReads =>
    intro query current found
    rcases source found with ⟨_, rfl⟩ | ⟨old, _⟩
    · exact there.loopReads
    · exact sound.loopReads old
  case claimReads =>
    intro query current found other isOther
    rcases source found with ⟨rfl, rfl⟩ | ⟨old, same⟩
    · rcases List.mem_append.1 (here.mem_iff.1 isOther) with own | resting
      · exact there.claimReads other (Option.mem_toList.1 own)
      · rw [effect.identity]
        refine sound.claimReads isBroker other ?_
        rw [(claimsAt_perm claimsBefore query).mem_iff, claimsAt_own]
        exact List.mem_append_right _ resting
    · exact sound.claimReads old other (same.mem_iff.2 isOther)

theorem Sound.started (sound : before.Sound) {identity : Instance}
    (growth : before.journal.Grows after.journal)
    (brokers : after.brokers = before.brokers ++ [.empty identity])
    (claims : after.claims = before.claims) : after.Sound := by
  -- Every broker is the new one, at which there are no claims, or was there before.
  have source : ∀ {query : Nat} {current : JournaledBroker},
      after.brokers[query]? = some current → before.brokers[query]? = some current ∨
        (current = .empty identity ∧ claimsAt after.claims query = []) := by
    intro query current found
    rw [brokers, List.getElem?_append] at found
    split at found
    next => exact Or.inl found
    next beyond =>
      refine Or.inr ⟨?_, ?_⟩
      · obtain ⟨_, isCurrent⟩ := List.getElem?_eq_some_iff.1 found
        simpa using isCurrent.symm
      · refine List.filterMap_eq_nil_iff.2 fun entry member => if_neg ?_
        have inside := sound.settled entry (claims ▸ member)
        rintro rfl
        exact beyond inside
  constructor
  case entryLoops =>
    intro query current found
    rcases source found with old | ⟨rfl, _⟩
    · exact sound.entryLoops old
    · exact .ofEmpty identity
  case seated =>
    intro query current found
    rcases source found with old | ⟨rfl, nobody⟩
    · rw [claims]
      exact sound.seated old
    · rw [nobody]
      exact .ofEmpty identity
  case settled =>
    intro entry member
    rw [brokers, List.length_append]
    exact Nat.lt_add_right _ (sound.settled entry (claims ▸ member))
  case counts =>
    have readers : readersOf after.brokers after.claims =
        readersOf before.brokers before.claims := by
      simp [readersOf, brokers, claims, JournaledBroker.empty]
    rw [readers]
    exact sound.counts.grows growth
  case loopReads =>
    intro query current found
    rcases source found with old | ⟨rfl, _⟩
    · exact sound.loopReads old
    · simp [JournaledBroker.empty]
  case claimReads =>
    intro query current found
    rcases source found with old | ⟨rfl, nobody⟩
    · rw [claims]
      exact sound.claimReads old
    · simp [nobody]

/-- Only the journal has changed. -/
theorem Sound.rejournaled (sound : before.Sound) (brokers : after.brokers = before.brokers)
    (claims : after.claims = before.claims)
    (counts : MemberCounts after.journal (readersOf before.brokers before.claims)) :
    after.Sound where
  entryLoops := brokers ▸ sound.entryLoops
  seated := by
    rw [brokers, claims]
    exact sound.seated
  settled := by
    rw [brokers, claims]
    exact sound.settled
  counts := by
    rw [brokers, claims]
    exact counts
  loopReads := brokers ▸ sound.loopReads
  claimReads := by
    rw [brokers, claims]
    exact sound.claimReads

theorem Step.sound {action : Action} (step : Step before action after) (sound : before.Sound) :
    after.Sound := by
  cases step with
  | happened isBroker effect _ brokers claimsBefore claimsAfter =>
    exact sound.happened isBroker effect brokers claimsBefore claimsAfter
  | started growth brokers claims => exact sound.started growth brokers claims
  | grew growth _ brokers claims =>
    exact sound.rejournaled brokers claims (sound.counts.grows growth)
  | removed journal brokers claims =>
    refine sound.rejournaled brokers claims ?_
    rw [journal]
    exact sound.counts.removeTopic _

end Sound

/-- How the broker at an index goes on in one step. -/
theorem Step.continues {before after : Cluster} {action : Action}
    (step : Step before action after) {index : Nat} {broker : JournaledBroker}
    (isBroker : before.brokers[index]? = some broker) :
    ∃ later, after.brokers[index]? = some later ∧
      broker.Continues (claimsAt before.claims index) later (claimsAt after.claims index) := by
  have inside := (List.getElem?_eq_some_iff.1 isBroker).1
  -- A broker that is not touched keeps its claims, up to their order.
  have kept : ∀ {claims others : List (Nat × Claim)},
      (claimsAt claims index).Perm (claimsAt others index) →
        broker.Continues (claimsAt claims index) broker (claimsAt others index) :=
    fun same => (JournaledBroker.Continues.refl broker _).of_perm (.refl _) same
  cases step with
  | @happened _ _ there current next claim later rest feeds isCurrent effect _ brokers
      claimsBefore claimsAfter =>
    have first := claimsAt_perm claimsBefore index
    have second := claimsAt_perm claimsAfter index
    by_cases here : there = index
    · subst here
      rw [isBroker] at isCurrent
      obtain rfl := Option.some.inj isCurrent
      rw [claimsAt_own] at first second
      refine ⟨next, by rw [brokers, List.getElem?_set_self inside], ?_⟩
      exact (effect.continues _).of_perm first.symm second.symm
    · rw [claimsAt_other _ _ here] at first second
      refine ⟨broker, ?_, kept (first.trans second.symm)⟩
      rw [brokers, List.getElem?_set_ne here, isBroker]
  | started growth brokers claims =>
    refine ⟨broker, ?_, kept (by rw [claims])⟩
    rw [brokers, List.getElem?_append_left inside, isBroker]
  | grew growth _ brokers claims => exact ⟨broker, brokers ▸ isBroker, kept (by rw [claims])⟩
  | removed journal brokers claims =>
    exact ⟨broker, brokers ▸ isBroker, kept (by rw [claims])⟩

/-! ## Runs -/

theorem sound_empty (createsOnDemand : Bool) : (Cluster.empty createsOnDemand).Sound where
  entryLoops := by simp [Cluster.empty]
  seated := by simp [Cluster.empty]
  settled := by simp [Cluster.empty, Cluster.claims]
  counts := MemberCounts.ofEmpty createsOnDemand
  loopReads := by simp [Cluster.empty]
  claimReads := by simp [Cluster.empty]

theorem Sound.perform {cluster : Cluster} (sound : cluster.Sound) (numbered : cluster.Numbered)
    (action : Action) : (cluster.perform action).Sound :=
  (step_perform numbered action).sound sound

theorem numbered_performAll {cluster : Cluster} (numbered : cluster.Numbered)
    (actions : List Action) : (cluster.performAll actions).Numbered := by
  induction actions generalizing cluster with
  | nil => exact numbered
  | cons action actions inductionHypothesis => exact inductionHypothesis (numbered.perform action)

/-- What each action keeps is kept by a run. -/
theorem keeps_performAll {holds : Cluster → Prop}
    (kept : ∀ {cluster : Cluster}, cluster.Numbered → holds cluster →
      ∀ action, holds (cluster.perform action))
    {cluster : Cluster} (numbered : cluster.Numbered) (initial : holds cluster)
    (actions : List Action) : holds (cluster.performAll actions) := by
  induction actions generalizing cluster with
  | nil => exact initial
  | cons action actions inductionHypothesis =>
    exact inductionHypothesis (numbered.perform action) (kept numbered initial action)

/-- Every state of every run is in order. -/
theorem sound_performAll {cluster : Cluster} (sound : cluster.Sound)
    (numbered : cluster.Numbered) (actions : List Action) :
    (cluster.performAll actions).Sound :=
  keeps_performAll (fun numbered sound action => sound.perform numbered action) numbered sound
    actions

/-- How the broker at an index goes on in a run. -/
theorem continues_performAll {cluster : Cluster} (numbered : cluster.Numbered)
    (actions : List Action) {index : Nat} {broker : JournaledBroker}
    (isBroker : cluster.brokers[index]? = some broker) :
    ∃ later, (cluster.performAll actions).brokers[index]? = some later ∧
      broker.Continues (claimsAt cluster.claims index) later
        (claimsAt (cluster.performAll actions).claims index) := by
  induction actions generalizing cluster broker with
  | nil => exact ⟨broker, isBroker, .refl _ _⟩
  | cons action actions inductionHypothesis =>
    obtain ⟨middle, isMiddle, first⟩ := (step_perform numbered action).continues isBroker
    obtain ⟨later, isLater, second⟩ := inductionHypothesis (numbered.perform action) isMiddle
    exact ⟨later, isLater, first.trans second⟩

end UpdateRelay.Cluster
