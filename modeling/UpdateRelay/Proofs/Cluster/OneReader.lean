import UpdateRelay.Proofs.Cluster.Issue

/-!
# One reader and one loop for each resource

What the order at a single broker comes to: each entry has exactly one loop, no id and no
generation is used again, and once everything waits the consumer groups of the journal are just
those of the resources that have subscribers, with one member each.
-/

namespace UpdateRelay

/-- How many members a group of a topic has, if it exists. -/
def Journal.members? (journal : Journal) (name group : String) : Option Nat :=
  (journal.topics.get? name).bind fun topic => (topic.groups.get? group).map (·.members)

/-! ## Entries and their loops -/

theorem Roster.contains_iff (roster : Roster) (id : SubscriberId) :
    roster.contains id = true ↔ ∃ place, roster.place? id = some place := by
  rw [contains, List.any_eq_true]
  constructor
  · rintro ⟨⟨other, place⟩, member, same⟩
    obtain rfl : other = id := by simpa using same
    exact ⟨place, place?_eq_some_iff.2 member⟩
  · rintro ⟨place, found⟩
    exact ⟨(id, place), place?_eq_some_iff.1 found, by simp⟩

namespace JournaledBroker

theorem contains_roster_iff {broker : JournaledBroker} {resource : String} {id : SubscriberId} :
    (broker.roster resource).contains id = true ↔
      ∃ place, broker.seat? resource id = some place := by
  rw [Roster.contains_iff, roster, seat?]
  cases broker.entries.get? resource with
  | none => simp
  | some entry => rfl

/-- Each entry has subscribers and exactly one loop of its generation that was not told to stop,
each such loop has its entry, and no id is on two rosters, no generation that of two entries or of
two loops. -/
structure Matched (broker : JournaledBroker) : Prop where
  inhabited : ∀ {resource : String} {entry : Entry},
    broker.entries.get? resource = some entry → 0 < entry.subscribers.size
  oneLoop : ∀ {resource : String} {entry : Entry}, broker.entries.get? resource = some entry →
    broker.loops.countP
      (fun loop => loop.generation = entry.generation ∧ loop.cancelled = false) = 1
  hasEntry : ∀ loop ∈ broker.loops, loop.cancelled = false →
    ∃ entry, broker.entries.get? loop.resource = some entry ∧ entry.generation = loop.generation
  oneEntry : ∀ {first second : String} {id : SubscriberId},
    (broker.roster first).contains id = true → (broker.roster second).contains id = true →
      first = second
  oneGeneration : ∀ {first second : String} {firstEntry secondEntry : Entry},
    broker.entries.get? first = some firstEntry →
      broker.entries.get? second = some secondEntry →
        firstEntry.generation = secondEntry.generation → first = second
  loopsDistinct : (broker.loops.map (·.generation)).Nodup

/-- The loops of one generation are one loop at the most. -/
theorem countP_generation {broker : JournaledBroker} (entryLoops : broker.EntryLoops)
    {loop : ConsumptionLoop} (member : loop ∈ broker.loops) {wanted : ConsumptionLoop → Bool}
    (isWanted : wanted loop = true)
    (only : ∀ other ∈ broker.loops, wanted other = true → other = loop) :
    broker.loops.countP wanted = 1 := by
  rw [(perm_cons_filter entryLoops.loopsDistinct member).countP_eq,
    List.countP_cons_of_pos isWanted, List.countP_eq_zero.2]
  intro other isOther isWantedToo
  obtain ⟨isLoop, differs⟩ := List.mem_filter.1 isOther
  rw [only other isLoop isWantedToo] at differs
  simp at differs

theorem matched {broker : JournaledBroker} {claims : List Claim} (entryLoops : broker.EntryLoops)
    (seated : broker.Seated claims) : broker.Matched where
  inhabited := by
    intro resource entry found
    have some := entryLoops.inhabited found
    rw [Roster.isEmpty, List.isEmpty_eq_false_iff] at some
    exact List.length_pos_iff.2 some
  oneLoop := by
    intro resource entry found
    obtain ⟨loop, member, _, generation, live⟩ := entryLoops.served found
    refine countP_generation entryLoops member (by simp [generation, live])
      fun other isOther same => ?_
    rw [decide_eq_true_eq] at same
    exact entryLoops.loop_unique isOther member (same.1.trans generation.symm)
  hasEntry := entryLoops.serving
  oneEntry := by
    intro first second id isFirst isSecond
    obtain ⟨_, firstSeat⟩ := contains_roster_iff.1 isFirst
    obtain ⟨_, secondSeat⟩ := contains_roster_iff.1 isSecond
    exact seated.oneEntry firstSeat secondSeat
  oneGeneration := by
    intro first second firstEntry secondEntry isFirst isSecond same
    obtain ⟨loop, member, loopResource, generation, _⟩ := entryLoops.served isFirst
    obtain ⟨other, isOther, otherResource, otherGeneration, _⟩ := entryLoops.served isSecond
    obtain rfl := entryLoops.loop_unique member isOther
      (generation.trans (same.trans otherGeneration.symm))
    exact loopResource.symm.trans otherResource
  loopsDistinct := entryLoops.loopsDistinct

/-! ## Nothing is used again -/

/-- Whether an id is a subscriber's or was claimed by a subscribe in progress. -/
def UsesId (broker : JournaledBroker) (claims : List Claim) (id : SubscriberId) : Prop :=
  (∃ resource place, broker.seat? resource id = some place) ∨ ∃ claim ∈ claims, claim.id = id

/-- Whether a generation is an entry's or a loop's. -/
def UsesGeneration (broker : JournaledBroker) (generation : Nat) : Prop :=
  (∃ resource entry, broker.entries.get? resource = some entry ∧ entry.generation = generation) ∨
    ∃ loop ∈ broker.loops, loop.generation = generation

/-- From one state of a broker to a later one, ids and generations that were handed out are never
handed out again: those that are used later were used throughout, and ids by the same subscriber. -/
structure NothingReused (before : JournaledBroker) (claims : List Claim)
    (after : JournaledBroker) (later : List Claim) : Prop where
  idBound : ∀ {id : SubscriberId}, before.UsesId claims id → id.number < before.nextNumber
  idCounter : before.nextNumber ≤ after.nextNumber
  idGone : ∀ {id : SubscriberId}, id.number < before.nextNumber → ¬before.UsesId claims id →
    ¬after.UsesId later id
  idOwner : ∀ {first second : String} {id : SubscriberId} {firstPlace secondPlace : Nat},
    before.seat? first id = some firstPlace → after.seat? second id = some secondPlace →
      first = second ∧ firstPlace = secondPlace
  generationBound : ∀ {generation : Nat}, before.UsesGeneration generation →
    generation < before.freshGeneration
  generationCounter : before.freshGeneration ≤ after.freshGeneration
  generationGone : ∀ {generation : Nat}, generation < before.freshGeneration →
    ¬before.UsesGeneration generation → ¬after.UsesGeneration generation

theorem nothingReused {before after : JournaledBroker} {claims later : List Claim}
    (entryLoops : before.EntryLoops) (seated : before.Seated claims)
    (continues : before.Continues claims after later) :
    before.NothingReused claims after later where
  idBound := by
    rintro id (⟨resource, place, found⟩ | ⟨claim, member, rfl⟩)
    · exact (seated.seatOld found).1
    · exact seated.claimOld claim member
  idCounter := continues.nextNumber
  idGone := by
    rintro id old gone (⟨resource, place, found⟩ | ⟨claim, member, rfl⟩)
    · rcases continues.seat found with seat | ⟨_, new | ⟨claim, member, _, same⟩⟩
      · exact gone (Or.inl ⟨resource, place, seat⟩)
      · exact Nat.not_lt_of_le new old
      · exact gone (Or.inr ⟨claim, member, same⟩)
    · rcases continues.claim claim member with new | ⟨earlier, isEarlier, _, same⟩
      · exact Nat.not_lt_of_le new old
      · exact gone (Or.inr ⟨earlier, isEarlier, same⟩)
  idOwner := by
    intro first second id firstPlace secondPlace isFirst isSecond
    rcases continues.seat isSecond with seat | ⟨_, new | ⟨claim, member, _, rfl⟩⟩
    · obtain rfl := seated.oneEntry isFirst seat
      rw [isFirst] at seat
      exact ⟨rfl, Option.some.inj seat⟩
    · exact absurd (seated.seatOld isFirst).1 (Nat.not_lt_of_le new)
    -- An id that is still claimed has no seat, so it cannot have had one before.
    · rw [seated.claimUnseated claim member first] at isFirst
      contradiction
  generationBound := by
    rintro generation (⟨resource, entry, found, rfl⟩ | ⟨loop, member, rfl⟩)
    · exact entryLoops.entryOld found
    · exact entryLoops.loopOld loop member
  generationCounter := continues.freshGeneration
  generationGone := by
    rintro generation old gone (⟨resource, entry, found, rfl⟩ | ⟨loop, member, rfl⟩)
    · rcases continues.entry found with new | ⟨earlier, isEarlier, same⟩
      · exact Nat.not_lt_of_le new old
      · exact gone (Or.inl ⟨resource, earlier, isEarlier, same⟩)
    · rcases continues.loop loop member with new | ⟨earlier, isEarlier, succeeds⟩
      · exact Nat.not_lt_of_le new old
      · exact gone (Or.inr ⟨earlier, isEarlier, succeeds.generation.symm⟩)

end JournaledBroker

/-! ## When everything waits -/

/-- Whether a loop waits for a record: it has been told nothing and its topic has not changed. -/
def Node.Awaits (node : Node) (loop : ConsumptionLoop) : Prop :=
  loop.phase = .waiting ∧ node.pollLoop? loop = none

instance (node : Node) (loop : ConsumptionLoop) : Decidable (node.Awaits loop) :=
  inferInstanceAs (Decidable (_ ∧ _))

namespace Node

theorem Awaits.live {node : Node} {loop : ConsumptionLoop} (awaits : node.Awaits loop) :
    loop.cancelled = false := by
  obtain ⟨phase, waits⟩ := awaits
  unfold pollLoop? at waits
  simp only [phase] at waits
  split at waits
  next => contradiction
  next live => exact Bool.eq_false_iff.2 live

/-- A loop that waits has a topic to wait for, of which it has seen every record. -/
theorem Awaits.topic {node : Node} {loop : ConsumptionLoop} (awaits : node.Awaits loop) :
    ∃ topic, node.journal.liveTopic? loop.reader.topic loop.reader.epoch = some topic ∧
      topic.records.length = loop.reader.seen := by
  have live := awaits.live
  obtain ⟨phase, waits⟩ := awaits
  unfold pollLoop? at waits
  simp only [phase, live, Bool.false_eq_true, if_false] at waits
  split at waits
  next => contradiction
  next calm =>
    unfold Journal.mustLook at calm
    split at calm
    next topic isLive => exact ⟨topic, isLive, by simpa using calm⟩
    next => simp at calm

/-- Where all loops wait, each resource with subscribers is read by one member of its group, and
the groups of other resources do not exist. -/
theorem members?_of_awaits {node : Node} (entryLoops : node.broker.EntryLoops)
    (counts : MemberCounts node.journal (node.broker.loops.map (·.reader)))
    (reads : ∀ loop ∈ node.broker.loops, loop.reader.ReadsOf node.broker.identity loop.resource)
    (calm : ∀ loop ∈ node.broker.loops, node.Awaits loop) (resource : String) :
    node.journal.members? node.broker.identity.topic (node.broker.identity.group resource) =
      if node.broker.entries.contains resource then some 1 else none := by
  rw [Table.contains_eq_isSome]
  cases found : node.broker.entries.get? resource with
  | some entry =>
    obtain ⟨loop, member, rfl, generation, live⟩ := entryLoops.served found
    obtain ⟨readsTopic, readsGroup⟩ := reads loop member
    obtain ⟨topic, isLive, _⟩ := (calm loop member).topic
    obtain ⟨group, joined, _⟩ := counts.exists_group (List.mem_map.2 ⟨loop, member, rfl⟩) isLive
    obtain ⟨isTopic, epoch⟩ := Journal.liveTopic?_eq_some_iff.1 isLive
    rw [readsTopic] at isTopic
    rw [readsGroup] at joined
    -- The members of the group are the loops that read for it, and only one live loop does.
    have counted := counts.counted isTopic (node.broker.identity.group loop.resource)
    rw [List.countP_map, JournaledBroker.countP_generation entryLoops member] at counted
    · simp only [Topic.memberCount, joined, Option.elim_some] at counted
      simp [Journal.members?, isTopic, joined, counted]
    · simp [Reader.readsFor, readsTopic, readsGroup, epoch]
    · intro other isOther wanted
      simp only [Function.comp_apply, Reader.readsFor, decide_eq_true_eq] at wanted
      refine entryLoops.live_loop_unique isOther member (calm other isOther).live live ?_
      exact node.broker.identity.group_injective
        ((reads other isOther).2.symm.trans wanted.2.2)
  | none =>
    cases isTopic : node.journal.topics.get? node.broker.identity.topic with
    | none => simp [Journal.members?, isTopic]
    | some topic =>
      -- A loop that waits has not been told to stop and so has an entry; there is none here.
      have nobody : (node.broker.loops.map (·.reader)).countP (·.readsFor
          node.broker.identity.topic topic.epoch (node.broker.identity.group resource)) = 0 := by
        refine List.countP_eq_zero.2 fun reader member wanted => ?_
        obtain ⟨loop, isLoop, rfl⟩ := List.mem_map.1 member
        simp only [Reader.readsFor, decide_eq_true_eq] at wanted
        have same := node.broker.identity.group_injective
          ((reads loop isLoop).2.symm.trans wanted.2.2)
        obtain ⟨entry, isEntry, _⟩ := entryLoops.serving loop isLoop (calm loop isLoop).live
        rw [same, found] at isEntry
        contradiction
      simp [Journal.members?, isTopic, counts.get?_group_eq_none isTopic nobody]

/-- Where all loops wait, there are as many as there are entries. -/
theorem loopCount_of_awaits {node : Node} (entryLoops : node.broker.EntryLoops)
    (calm : ∀ loop ∈ node.broker.loops, node.Awaits loop) :
    node.broker.loopCount = node.broker.entryCount := by
  have resources : (node.broker.loops.map (·.resource)).Nodup := by
    refine (List.Nodup.of_map _ entryLoops.loopsDistinct).map_on
      fun first isFirst second isSecond => ?_
    exact entryLoops.live_loop_unique isFirst isSecond (calm first isFirst).live
      (calm second isSecond).live
  -- Loops and entries have the same resources, and each resource once.
  have same : (node.broker.loops.map (·.resource)).Perm node.broker.entries.keys := by
    refine (List.perm_ext_iff_of_nodup resources node.broker.entries.distinct).2 fun resource => ?_
    rw [List.mem_map]
    constructor
    · rintro ⟨loop, member, rfl⟩
      obtain ⟨entry, found, _⟩ := entryLoops.serving loop member (calm loop member).live
      exact Table.mem_keys_iff.2 ⟨entry, found⟩
    · intro isKey
      obtain ⟨entry, found⟩ := Table.mem_keys_iff.1 isKey
      obtain ⟨loop, member, isServed, _⟩ := entryLoops.served found
      exact ⟨loop, member, isServed⟩
  have lengths := same.length_eq
  rw [List.length_map, Table.keys, List.length_map] at lengths
  exact lengths

end Node

/-! ## Runs -/

namespace Cluster

/-- Whether every loop of every broker waits for a record. -/
def Calm (cluster : Cluster) : Prop :=
  ∀ {index : Nat} {node : Node}, cluster.node? index = some node →
    ∀ loop ∈ node.broker.loops, node.Awaits loop

theorem calm_iff {cluster : Cluster} : cluster.Calm ↔ ∀ index < cluster.brokers.length,
    ∀ node ∈ cluster.node? index, ∀ loop ∈ node.broker.loops, node.Awaits loop := by
  constructor
  · intro calm index _ node isNode
    exact calm isNode
  · intro calm index node isNode
    exact calm index (List.getElem?_eq_some_iff.1 (node?_eq_some isNode).1).1 node isNode

instance (cluster : Cluster) : Decidable cluster.Calm := decidable_of_iff _ calm_iff.symm

/-- The cluster that some actions lead to from a new journal. -/
def reached (createsOnDemand : Bool) (actions : List Action) : Cluster :=
  (Cluster.empty createsOnDemand).performAll actions

theorem reached_append (createsOnDemand : Bool) (earlier later : List Action) :
    reached createsOnDemand (earlier ++ later) =
      (reached createsOnDemand earlier).performAll later :=
  List.foldl_append

theorem numbered_reached (createsOnDemand : Bool) (actions : List Action) :
    (reached createsOnDemand actions).Numbered :=
  numbered_performAll (numbered_empty createsOnDemand) actions

theorem sound_reached (createsOnDemand : Bool) (actions : List Action) :
    (reached createsOnDemand actions).Sound :=
  sound_performAll (sound_empty createsOnDemand) (numbered_empty createsOnDemand) actions

/-- In every run with a single broker its entries and loops match, nothing that was given up is
used again, and no two subscribes are given the same id. Once no call is in progress and all loops
wait, there are as many loops as entries, and each resource with an entry is read by exactly one
member of its group, while the groups of other resources do not exist. -/
theorem one_reader_per_resource (createsOnDemand : Bool) (earlier later : List Action)
    {before after : JournaledBroker}
    (wasAlone : (reached createsOnDemand earlier).brokers = [before])
    (isAlone : (reached createsOnDemand (earlier ++ later)).brokers = [after]) :
    let first := reached createsOnDemand earlier
    let last := reached createsOnDemand (earlier ++ later)
    after.Matched ∧
      before.NothingReused (claimsAt first.claims 0) after (claimsAt last.claims 0) ∧
      last.issued.Nodup ∧
      (last.calls = [] → last.Calm →
        after.loopCount = after.entryCount ∧
        ∀ resource, last.journal.members? after.identity.topic (after.identity.group resource) =
          if after.entries.contains resource then some 1 else none) := by
  intro first last
  have sound : last.Sound := sound_reached createsOnDemand (earlier ++ later)
  have wasSound : first.Sound := sound_reached createsOnDemand earlier
  have isBroker : last.brokers[0]? = some after := by simp [last, isAlone]
  have wasBroker : first.brokers[0]? = some before := by simp [first, wasAlone]
  have continues : before.Continues (claimsAt first.claims 0) after (claimsAt last.claims 0) := by
    obtain ⟨next, isNext, continues⟩ :=
      continues_performAll (numbered_reached createsOnDemand earlier) later wasBroker
    rw [← reached_append] at isNext continues
    obtain rfl : after = next := Option.some.inj (isBroker.symm.trans isNext)
    exact continues
  refine ⟨JournaledBroker.matched (sound.entryLoops isBroker) (sound.seated isBroker),
    JournaledBroker.nothingReused (wasSound.entryLoops wasBroker) (wasSound.seated wasBroker)
      continues, ?_, fun idle calm => ?_⟩
  · exact (issuedOnce_performAll (issuedOnce_empty createsOnDemand)
      (numbered_empty createsOnDemand) (earlier ++ later)).distinct isAlone
  · have isNode : last.node? 0 = some ⟨last.now, last.journal, last.link, after⟩ := by
      simp [node?, isBroker]
    have noClaims : last.claims = [] := by simp [claims, idle]
    have counts : MemberCounts last.journal (after.loops.map (·.reader)) := by
      have all := sound.counts
      simpa [readersOf, noClaims, last, isAlone] using all
    exact ⟨Node.loopCount_of_awaits (sound.entryLoops isBroker) (calm isNode),
      Node.members?_of_awaits (sound.entryLoops isBroker) counts (sound.loopReads isBroker)
        (calm isNode)⟩

/-- Two subscribes race for the first reader of a resource. -/
def racingSubscribes : List Action :=
  [.subscribe 0 .unlimited "door", .subscribe 0 .unlimited "door", .stepCall 0, .stepCall 1,
    .stepCall 0, .stepCall 1, .stepLoop 0 1]

/-- Both are on the roster in the end, and the spare reader has left the group. -/
theorem one_reader_after_race :
    ∃ before after,
      (reached true [.start ⟨"updates", "relay", "one", 4⟩]).brokers = [before] ∧
        (reached true ([.start ⟨"updates", "relay", "one", 4⟩] ++ racingSubscribes)).brokers =
          [after] ∧
        after.audience "door" = 2 ∧ after.loopCount = after.entryCount ∧
        (reached true ([.start ⟨"updates", "relay", "one", 4⟩] ++
          racingSubscribes)).journal.members?
          after.identity.topic (after.identity.group "door") = some 1 := by
  have waits :
      (reached true ([.start ⟨"updates", "relay", "one", 4⟩] ++ racingSubscribes)).Calm := by
    decide
  obtain ⟨_, _, _, matching⟩ := one_reader_per_resource true
    [.start ⟨"updates", "relay", "one", 4⟩] racingSubscribes rfl rfl
  obtain ⟨loops, members⟩ := matching rfl waits
  exact ⟨_, _, rfl, rfl, rfl, loops, members "door"⟩

end Cluster

end UpdateRelay
