import UpdateRelay.Proofs.Backends.Answering

/-!
# What requests leave

A request finds the loops of a lone broker at rest. `Node.Follows` says what the broker is like
after it: every loop is one that was there before, or was just started.
-/

namespace UpdateRelay

/-- Whether a loop is one of some loops, told to stop or not. -/
def ConsumptionLoop.CameFrom (loop : ConsumptionLoop) (loops : List ConsumptionLoop) : Prop :=
  ∃ earlier ∈ loops, ∃ cancelled, loop = { earlier with cancelled := cancelled }

theorem ConsumptionLoop.CameFrom.of_mem {loop : ConsumptionLoop} {loops : List ConsumptionLoop}
    (member : loop ∈ loops) : loop.CameFrom loops :=
  ⟨loop, member, loop.cancelled, rfl⟩

namespace Node

/-- Whether a broker is what a request has left of one that was at rest. -/
structure Follows (node after : Node) : Prop where
  sound : (after.footprint none).Sound [] []
  link : after.link = node.link
  brokenAppends : after.journal.brokenAppends = node.journal.brokenAppends
  identity : after.broker.identity = node.broker.identity
  steady : node.journal.Steady after.journal
  loops : ∀ loop ∈ after.broker.loops,
    loop.CameFrom node.broker.loops ∨
      (loop.phase = .reading ∧
        (after.journal.liveTopic? loop.reader.topic loop.reader.epoch).isSome)

section Standing

variable {node after : Node}

theorem Follows.counts (follows : node.Follows after) :
    MemberCounts after.journal (after.broker.loops.map (·.reader)) := by
  have counts := follows.sound.counts
  simpa [Footprint.readers, footprint] using counts

/-- A loop that was there before has the records to read that were added. -/
theorem Follows.position (follows : node.Follows after) (ready : node.Ready)
    {loop earlier : ConsumptionLoop} (member : loop ∈ after.broker.loops)
    (isEarlier : earlier ∈ node.broker.loops) (same : loop.reader = earlier.reader) :
    after.journal.position loop.reader.topic loop.reader.group =
        node.journal.position loop.reader.topic loop.reader.group ∧
      ∃ more, after.journal.records loop.reader.topic =
        node.journal.records loop.reader.topic ++ more := by
  -- The reader is open before and after, so its group is there before and after.
  obtain ⟨topic, group, isLive, joined, was⟩ := ready.group? isEarlier
  have stillLive := follows.steady.liveTopic? (Option.isSome_of_eq_some isLive)
  obtain ⟨later, laterLive⟩ := Option.isSome_iff_exists.1 stillLive
  rw [← same] at laterLive was
  obtain ⟨current, stillJoined, _⟩ :=
    follows.counts.exists_group (List.mem_map.2 ⟨loop, member, rfl⟩) laterLive
  have is : after.journal.group? loop.reader.topic loop.reader.group = some current := by
    rw [Journal.group?, (Journal.liveTopic?_eq_some_iff.1 laterLive).1]
    exact stillJoined
  exact follows.steady.position_eq was is

theorem Follows.ready (follows : node.Follows after) (ready : node.Ready) (rests : node.Rests) :
    after.Ready where
  sound := follows.sound
  link := follows.link.trans ready.link
  isOpen := follows.steady.closed.trans ready.isOpen
  brokenAppends := follows.brokenAppends.trans ready.brokenAppends
  hasTopic := by
    obtain ⟨topic, found⟩ := Option.isSome_iff_exists.1 ready.hasTopic
    obtain ⟨later, isLater, _⟩ := follows.steady.kept found
    rw [follows.identity, isLater]
    rfl
  live := by
    intro loop member
    rcases follows.loops loop member with ⟨earlier, isEarlier, _, rfl⟩ | ⟨_, live⟩
    · exact follows.steady.liveTopic? (ready.live earlier isEarlier)
    · exact live
  phase := by
    intro loop member
    rcases follows.loops loop member with ⟨earlier, isEarlier, _, rfl⟩ | ⟨reading, _⟩
    · exact Or.inr (Or.inl (ready.waits isEarlier (rests earlier isEarlier)).2.1)
    · exact Or.inl reading
  seen := by
    intro loop member live waiting
    rcases follows.loops loop member with ⟨earlier, isEarlier, cancelled, same⟩ | ⟨reading, _⟩
    · have reader : loop.reader = earlier.reader := by rw [same]
      obtain ⟨earlierLive, earlierWaiting, _⟩ := ready.waits isEarlier (rests earlier isEarlier)
      rw [(follows.position ready member isEarlier reader).1, reader]
      exact ready.seen earlier isEarlier earlierLive earlierWaiting
    · rw [reading] at waiting
      contradiction

/-- A loop that was there before has nothing to read but what was added. -/
theorem Follows.unread (follows : node.Follows after) (ready : node.Ready) (rests : node.Rests)
    {loop earlier : ConsumptionLoop} (member : loop ∈ after.broker.loops)
    (isEarlier : earlier ∈ node.broker.loops) (same : loop.reader = earlier.reader)
    {more : List JournalRecord} (records : after.journal.records loop.reader.topic =
      node.journal.records loop.reader.topic ++ more) :
    after.unread loop = more := by
  have nothing := (ready.waits isEarlier (rests earlier isEarlier)).2.2
  have placed := Journal.position_le_of_counts ready.counts loop.reader.topic loop.reader.group
  rw [Node.unread, ← same, List.drop_eq_nil_iff] at nothing
  have reached := Nat.le_antisymm nothing placed
  rw [Node.unread, (follows.position ready member isEarlier same).1, records, ← reached,
    List.drop_left]

/-- A request that leaves the journal alone and starts no loop leaves nothing to be done. -/
theorem Follows.owes (follows : node.Follows after) (ready : node.Ready) (rests : node.Rests)
    (journal : after.journal = node.journal)
    (loops : ∀ loop ∈ after.broker.loops, loop.CameFrom node.broker.loops) :
    after.Owes after.broker.direct := by
  refine .nothing (fun loop member _ => ?_) rfl
  obtain ⟨earlier, isEarlier, cancelled, same⟩ := loops loop member
  have reader : loop.reader = earlier.reader := by rw [same]
  have records : after.journal.records loop.reader.topic =
      node.journal.records loop.reader.topic ++ [] := by
    rw [journal, List.append_nil]
  refine ⟨?_, ?_⟩
  · intro gone phase
    have waiting := (ready.waits isEarlier (rests earlier isEarlier)).2.1
    rw [same, waiting] at phase
    contradiction
  · rw [follows.unread ready rests member isEarlier reader records]
    rfl

end Standing

end Node

end UpdateRelay
