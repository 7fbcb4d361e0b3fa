import UpdateRelay.Proofs.Backends.Projection
import UpdateRelay.Proofs.Cluster.Lasting
import UpdateRelay.Proofs.Journal.Records

/-!
# Transitions of loops

A lone broker over a journal without faults. `Node.Ready` says what is in order there whenever loops
may go on, and `Node.Transition` what one step of a loop can be: it exchanges one loop for what
becomes of it and leaves what all others have to read as it is.
-/

namespace UpdateRelay

namespace Journal

theorem brokenAppends_leave (journal : Journal) (reader : Reader) :
    (journal.leave reader).brokenAppends = journal.brokenAppends := by
  unfold leave
  split
  next => rfl
  next => split <;> rfl

theorem brokenAppends_take (journal : Journal) (reader : Reader) :
    (journal.take reader).brokenAppends = journal.brokenAppends := by
  unfold take
  split <;> rfl

end Journal

namespace Node

/-- The records that a loop has not read yet. -/
def unread (node : Node) (loop : ConsumptionLoop) : List JournalRecord :=
  (node.journal.records loop.reader.topic).drop
    (node.journal.position loop.reader.topic loop.reader.group)

/-- A look at the topic does not change what there is to read. -/
theorem unread_look {node after : Node} (journal : after.journal = node.journal)
    (loop : ConsumptionLoop) :
    after.unread { loop with reader := node.journal.look loop.reader, phase := .waiting } =
      node.unread loop := by
  have membership := node.journal.membership_look loop.reader
  simp only [Reader.membership, Prod.mk.injEq] at membership
  simp only [unread, membership.1, membership.2.2.1, journal]

/-- What is in order at a lone broker without faults whenever its loops may go on. -/
structure Ready (node : Node) : Prop where
  sound : (node.footprint none).Sound [] []
  link : node.link = .sound
  isOpen : node.journal.closed = false
  brokenAppends : node.journal.brokenAppends = 0
  hasTopic : (node.journal.topics.get? node.broker.identity.topic).isSome
  live : ∀ loop ∈ node.broker.loops,
    (node.journal.liveTopic? loop.reader.topic loop.reader.epoch).isSome
  phase : ∀ loop ∈ node.broker.loops, loop.phase = .reading ∨ loop.phase = .waiting ∨
    ∃ gone, loop.phase = .pruning gone ∧ loop.cancelled = false
  seen : ∀ loop ∈ node.broker.loops, loop.cancelled = false → loop.phase = .waiting →
    loop.reader.seen = node.journal.position loop.reader.topic loop.reader.group

namespace Ready

variable {node : Node}

theorem entryLoops (ready : node.Ready) : node.broker.EntryLoops := ready.sound.entryLoops

theorem failingReads (ready : node.Ready) : node.link.failingReads = 0 := by
  rw [ready.link, Link.sound]

theorem counts (ready : node.Ready) :
    MemberCounts node.journal (node.broker.loops.map (·.reader)) := by
  have counts := ready.sound.counts
  simpa [Footprint.readers, footprint] using counts

theorem group? (ready : node.Ready) {loop : ConsumptionLoop} (member : loop ∈ node.broker.loops) :
    ∃ topic group, node.journal.liveTopic? loop.reader.topic loop.reader.epoch = some topic ∧
      topic.groups.get? loop.reader.group = some group ∧
      node.journal.group? loop.reader.topic loop.reader.group = some group := by
  obtain ⟨topic, isLive⟩ := Option.isSome_iff_exists.1 (ready.live loop member)
  obtain ⟨group, joined, _⟩ :=
    ready.counts.exists_group (List.mem_map.2 ⟨loop, member, rfl⟩) isLive
  refine ⟨topic, group, isLive, joined, ?_⟩
  rw [Journal.group?, (Journal.liveTopic?_eq_some_iff.1 isLive).1]
  exact joined

theorem peek (ready : node.Ready) {loop : ConsumptionLoop} (member : loop ∈ node.broker.loops) :
    node.journal.peek loop.reader = .ok (node.unread loop).head? := by
  obtain ⟨topic, group, isLive, joined, isGroup⟩ := ready.group? member
  have unreleased := ready.counts.unreleased loop.reader (List.mem_map.2 ⟨loop, member, rfl⟩)
  have found := (Journal.liveTopic?_eq_some_iff.1 isLive).1
  simp only [Journal.peek, unreleased, ready.isOpen, isLive, joined, unread, Journal.records, found,
    Journal.position, isGroup, Option.elim_some, List.head?_drop, Bool.false_eq_true, or_self,
    if_false]

/-- A loop that waits has to look again just if it has something to read. -/
theorem mustLook (ready : node.Ready) {loop : ConsumptionLoop}
    (member : loop ∈ node.broker.loops) (live : loop.cancelled = false)
    (waiting : loop.phase = .waiting) :
    node.journal.mustLook loop.reader = true ↔ node.unread loop ≠ [] := by
  obtain ⟨topic, group, isLive, joined, isGroup⟩ := ready.group? member
  have found := (Journal.liveTopic?_eq_some_iff.1 isLive).1
  have placed := Journal.position_le_of_counts ready.counts loop.reader.topic loop.reader.group
  have seen := ready.seen loop member live waiting
  simp only [Journal.records, found] at placed
  simp only [Journal.mustLook, isLive, unread, Journal.records, found, ne_eq,
    List.drop_eq_nil_iff, decide_eq_true_eq]
  omega

/-- A loop that has subscribers to remove was not told to stop. -/
theorem live_of_pruning (ready : node.Ready) {loop : ConsumptionLoop}
    (member : loop ∈ node.broker.loops) {gone : List SubscriberId}
    (pruning : loop.phase = .pruning gone) : loop.cancelled = false := by
  rcases ready.phase loop member with reading | waiting | ⟨_, _, live⟩
  · rw [reading] at pruning
    contradiction
  · rw [waiting] at pruning
    contradiction
  · exact live

end Ready

/-! ## Moves -/

/-- Whether a step has exchanged one loop of a broker, or ended it. -/
structure Replaces (node after : Node) (loop : ConsumptionLoop) (next : Option ConsumptionLoop) :
    Prop where
  loops : after.broker.loops = match next with
    | some next => node.broker.loops.map fun other =>
        if other.generation = loop.generation then next else other
    | none => node.broker.loops.filter fun other => other.generation ≠ loop.generation
  link : after.link = node.link

/-- What one step of a loop can be. -/
inductive Transition (node : Node) (loop : ConsumptionLoop) (after : Node) :
    Option ConsumptionLoop → Prop
  | ended (cancelled : loop.cancelled = true)
      (journal : after.journal = node.journal.leave loop.reader)
      (direct : after.broker.direct = node.broker.direct) : Transition node loop after none
  | tidied {gone} (cancelled : Bool) (phase : loop.phase = .pruning gone)
      (journal : after.journal = node.journal)
      (direct : after.broker.direct = node.broker.direct.prune loop.resource gone) :
      Transition node loop after (some { loop with cancelled := cancelled, phase := .reading })
  | looked (live : loop.cancelled = false) (awake : loop.phase = .reading)
      (nothing : node.unread loop = []) (journal : after.journal = node.journal)
      (direct : after.broker.direct = node.broker.direct) :
      Transition node loop after
        (some { loop with reader := node.journal.look loop.reader, phase := .waiting })
  | passed {record} (live : loop.cancelled = false) (awake : ∀ gone, loop.phase ≠ .pruning gone)
      (first : (node.unread loop).head? = some record)
      (mute : eventFor? loop.resource record = none)
      (journal : after.journal = node.journal.take loop.reader)
      (direct : after.broker.direct = node.broker.direct) :
      Transition node loop after (some { loop with phase := .reading })
  | handed {record event} (live : loop.cancelled = false)
      (awake : ∀ gone, loop.phase ≠ .pruning gone)
      (first : (node.unread loop).head? = some record)
      (telling : eventFor? loop.resource record = some event)
      (journal : after.journal = node.journal.take loop.reader)
      (direct : after.broker.direct = (node.broker.direct.offer loop.resource event).1) :
      Transition node loop after (some { loop with
        phase := if (node.broker.direct.offer loop.resource event).2.isEmpty then .reading
          else .pruning (node.broker.direct.offer loop.resource event).2 })

namespace Replaces

variable {node after : Node} {loop other : ConsumptionLoop} {next : Option ConsumptionLoop}

theorem mem_iff (replaces : node.Replaces after loop next) (member : loop ∈ node.broker.loops) :
    other ∈ after.broker.loops ↔
      next = some other ∨ (other ∈ node.broker.loops ∧ other.generation ≠ loop.generation) := by
  rw [replaces.loops]
  cases next with
  | none => simp
  | some next =>
    simp only [List.mem_map, Option.some.injEq]
    constructor
    · rintro ⟨earlier, isEarlier, rfl⟩
      split
      next => exact Or.inl rfl
      next different => exact Or.inr ⟨isEarlier, different⟩
    · rintro (rfl | ⟨isOther, different⟩)
      · exact ⟨loop, member, if_pos rfl⟩
      · exact ⟨other, isOther, if_neg different⟩

end Replaces

theorem replaces_modifyLoop {node : Node} (entryLoops : node.broker.EntryLoops)
    {loop : ConsumptionLoop} (member : loop ∈ node.broker.loops)
    (change : ConsumptionLoop → ConsumptionLoop) {after : Node}
    (loops : after.broker.loops = (node.broker.modifyLoop loop.generation change).loops)
    (link : after.link = node.link) : node.Replaces after loop (some (change loop)) where
  link := link
  loops := by
    rw [loops]
    refine List.map_congr_left fun other isOther => ?_
    by_cases same : other.generation = loop.generation
    · rw [if_pos same, if_pos same, entryLoops.loop_unique isOther member same]
    · rw [if_neg same, if_neg same]

/-- Pruning through a loop that was not told to stop tells at the most this loop to stop. -/
theorem replaces_prune {node : Node} (entryLoops : node.broker.EntryLoops) {loop : ConsumptionLoop}
    (member : loop ∈ node.broker.loops) (live : loop.cancelled = false)
    (gone : List SubscriberId) {after : Node}
    (changed : after = (node.modifyBroker (·.prune loop.resource gone)).enter loop.generation
      .reading) :
    ∃ cancelled, node.Replaces after loop
      (some { loop with cancelled := cancelled, phase := .reading }) := by
  subst changed
  rcases node.broker.loops_prune loop.resource gone with same | ⟨entry, found, _, same⟩
  · refine ⟨loop.cancelled, replaces_modifyLoop entryLoops member
      (fun loop => { loop with phase := .reading }) ?_ rfl⟩
    simp only [enter, modifyBroker, JournaledBroker.modifyLoop, same]
  · -- The entry that is left without subscribers is that of the loop itself.
    obtain ⟨serving, isServing, generation⟩ := entryLoops.serving loop member live
    obtain rfl := Option.some.inj (found.symm.trans isServing)
    refine ⟨true, replaces_modifyLoop entryLoops member
      (fun loop => { loop with cancelled := true, phase := .reading }) ?_ rfl⟩
    simp only [enter, modifyBroker, JournaledBroker.modifyLoop, same, JournaledBroker.cancelLoop,
      generation, List.map_map]
    refine List.map_congr_left fun other _ => ?_
    by_cases own : other.generation = loop.generation <;> simp [own]

theorem transition_handOn {node : Node} (ready : node.Ready) {loop : ConsumptionLoop}
    (member : loop ∈ node.broker.loops) (live : loop.cancelled = false)
    (awake : ∀ gone, loop.phase ≠ .pruning gone) {record : JournalRecord}
    (first : (node.unread loop).head? = some record) {after : Node}
    (handed : after = { node with journal := node.journal.take loop.reader }.handOn loop record) :
    ∃ next, node.Replaces after loop next ∧ node.Transition loop after next := by
  have entryLoops := ready.entryLoops
  subst handed
  cases telling : eventFor? loop.resource record with
  | none =>
    rw [handOn_of_mute _ telling]
    exact ⟨_, replaces_modifyLoop entryLoops member
      (fun loop => { loop with phase := .reading }) rfl
      rfl, .passed live awake first telling rfl rfl⟩
  | some event =>
    obtain ⟨entry, found, generation⟩ := entryLoops.serving loop member live
    have isEntry := JournaledBroker.entryAt?_eq_some_iff.2 ⟨found, generation⟩
    obtain ⟨room, gone⟩ := node.broker.direct_offerAll loop.resource found event
    have handed : { node with journal := node.journal.take loop.reader }.handOn loop record =
        { node with
          journal := node.journal.take loop.reader
          broker :=
            { node.broker with
              room := (entry.subscribers.offerAll event node.broker.room).1 } }.enter
          loop.generation
            (if (node.broker.direct.offer loop.resource event).2.isEmpty then .reading
              else .pruning (node.broker.direct.offer loop.resource event).2) := by
      rw [← gone]
      simp [handOn, telling, JournaledBroker.offer, isEntry]
    rw [handed]
    exact ⟨_, replaces_modifyLoop entryLoops member (fun other => { other with
      phase := if (node.broker.direct.offer loop.resource event).2.isEmpty then .reading
        else .pruning (node.broker.direct.offer loop.resource event).2 }) rfl rfl,
      .handed live awake first telling rfl room⟩

theorem transition_read {node : Node} (ready : node.Ready) {loop : ConsumptionLoop}
    (member : loop ∈ node.broker.loops) (live : loop.cancelled = false)
    (awake : loop.phase = .reading ∨ (loop.phase = .waiting ∧ node.unread loop ≠ [])) :
    ∃ next, node.Replaces (node.read loop) loop next ∧
      node.Transition loop (node.read loop) next := by
  have seen := ready.peek member
  cases first : (node.unread loop).head? with
  | none =>
    have nothing := List.head?_eq_none_iff.1 first
    rcases awake with reading | ⟨_, something⟩
    · rw [first] at seen
      refine ⟨_, replaces_modifyLoop ready.entryLoops member
        (fun loop => { loop with reader := node.journal.look loop.reader, phase := .waiting })
        ?_ ?_, .looked live reading nothing ?_ ?_⟩
      all_goals
        rw [read, seen]
        rfl
    · exact absurd nothing something
  | some record =>
    rw [first] at seen
    have notPruning : ∀ gone, loop.phase ≠ .pruning gone := by
      rintro gone phase
      rcases awake with reading | ⟨waiting, _⟩
      · rw [reading] at phase
        contradiction
      · rw [waiting] at phase
        contradiction
    refine transition_handOn ready member live notPruning first ?_
    rw [read, seen]

/-- A step of a loop is one of the moves. -/
theorem transition_pollLoop? {node after : Node} (ready : node.Ready) {loop : ConsumptionLoop}
    (member : loop ∈ node.broker.loops) (stepped : node.pollLoop? loop = some after) :
    ∃ next, node.Replaces after loop next ∧ node.Transition loop after next := by
  cases loopTurn stepped with
  | @tidied gone phase =>
    have live := ready.live_of_pruning member phase
    obtain ⟨cancelled, replaces⟩ := replaces_prune ready.entryLoops member live gone rfl
    exact ⟨_, replaces, .tidied cancelled phase rfl
      (node.broker.direct_prune loop.resource gone)⟩
  | ended cancelled => exact ⟨none, ⟨rfl, rfl⟩, .ended cancelled rfl rfl⟩
  | resumed _ phase =>
    -- Loops pause after reads that failed, and none does at a node that is ready.
    rcases ready.phase loop member with other | other | ⟨_, other, _⟩
    all_goals cases phase.symm.trans other
  | failed _ _ fails => simp [ready.failingReads] at fails
  | read live awake =>
    refine transition_read ready member live
      (awake.imp (fun reading => reading.1) fun waiting => ?_)
    exact ⟨waiting.1, (ready.mustLook member live waiting.1).1 waiting.2⟩

/-- A loop that cannot go on waits and has nothing to read. -/
theorem Ready.waits {node : Node} (ready : node.Ready) {loop : ConsumptionLoop}
    (member : loop ∈ node.broker.loops) (stuck : node.pollLoop? loop = none) :
    loop.cancelled = false ∧ loop.phase = .waiting ∧ node.unread loop = [] := by
  unfold pollLoop? at stuck
  rcases ready.phase loop member with phase | phase | ⟨gone, phase, live⟩
  · simp only [phase] at stuck
    split at stuck
    next => contradiction
    next => simp [ready.failingReads] at stuck
  · simp only [phase] at stuck
    split at stuck
    next => contradiction
    next live =>
      have isLive := Bool.eq_false_iff.2 live
      split at stuck
      next => contradiction
      next calm =>
        have mustLook := ready.mustLook member isLive phase
        exact ⟨isLive, phase, Classical.not_not.1 fun something => calm (mustLook.2 something)⟩
  · simp [phase] at stuck

/-- Loops at rest stay so where nothing stirs them. -/
theorem Ready.rests_of_calm {node after : Node} (ready : node.Ready)
    (rests : ∀ loop ∈ node.broker.loops, node.pollLoop? loop = none)
    (loops : after.broker.loops = node.broker.loops)
    (calm : ∀ reader, after.journal.mustLook reader = node.journal.mustLook reader) :
    ∀ loop ∈ after.broker.loops, after.pollLoop? loop = none := by
  intro loop member
  rw [loops] at member
  obtain ⟨live, waiting, nothing⟩ := ready.waits member (rests loop member)
  simp only [pollLoop?, waiting, live, Bool.false_eq_true, if_false, calm]
  exact if_neg fun mustLook => (ready.mustLook member live waiting).1 mustLook nothing

end Node

end UpdateRelay
