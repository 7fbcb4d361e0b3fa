import UpdateRelay.Proofs.Journal.Growth

/-!
# Member counts of consumer groups

Which readers belong to which group of which topic. `MemberCounts journal readers` says that the
readers listed are exactly the open ones: each group of each topic has as many members as there are
readers listed for it, and a group exists just while it has some. Everything that happens to a
journal keeps these counts, where opening a reader adds it to the list and leaving takes it off.
-/

namespace UpdateRelay

/-- How many readers share a group of a topic. -/
def Topic.memberCount (topic : Topic) (group : String) : Nat :=
  (topic.groups.get? group).elim 0 (·.members)

/-- Whether a reader reads a topic of some epoch for a group. -/
def Reader.readsFor (reader : Reader) (name : String) (epoch : Nat) (group : String) : Bool :=
  reader.topic = name ∧ reader.epoch = epoch ∧ reader.group = group

/-- What of a reader says which group it is a member of. -/
def Reader.membership (reader : Reader) : String × Nat × String × Bool :=
  (reader.topic, reader.epoch, reader.group, reader.released)

/-- The readers listed are the open ones of a journal, and the groups of its topics count them. -/
structure MemberCounts (journal : Journal) (readers : List Reader) : Prop where
  unreleased : ∀ reader ∈ readers, reader.released = false
  readerEpoch : ∀ reader ∈ readers, reader.epoch ≤ journal.epochs
  topicEpoch : ∀ {name topic}, journal.topics.get? name = some topic →
    topic.epoch ≤ journal.epochs
  counted : ∀ {name topic}, journal.topics.get? name = some topic → ∀ group,
    topic.memberCount group = readers.countP (·.readsFor name topic.epoch group)
  inhabited : ∀ {name topic group present}, journal.topics.get? name = some topic →
    topic.groups.get? group = some present → 0 < present.members
  placed : ∀ {name topic group present}, journal.topics.get? name = some topic →
    topic.groups.get? group = some present → present.offset ≤ topic.records.length

namespace MemberCounts

variable {journal : Journal} {readers : List Reader}

theorem of_perm {others : List Reader} (counts : MemberCounts journal readers)
    (same : readers.Perm others) : MemberCounts journal others where
  unreleased := fun reader member => counts.unreleased reader (same.mem_iff.2 member)
  readerEpoch := fun reader member => counts.readerEpoch reader (same.mem_iff.2 member)
  topicEpoch := counts.topicEpoch
  counted := fun found group => (counts.counted found group).trans (same.countP_eq _)
  inhabited := counts.inhabited
  placed := counts.placed

/-- What readers have seen of their topics does not matter. -/
theorem of_map {others : List Reader} (counts : MemberCounts journal readers)
    (same : others.map Reader.membership = readers.map Reader.membership) :
    MemberCounts journal others := by
  have source : ∀ other ∈ others, ∃ reader ∈ readers, other.membership = reader.membership := by
    intro other member
    have listed : other.membership ∈ readers.map Reader.membership :=
      same ▸ List.mem_map.2 ⟨other, member, rfl⟩
    obtain ⟨reader, isReader, equal⟩ := List.mem_map.1 listed
    exact ⟨reader, isReader, equal.symm⟩
  refine ⟨?_, ?_, counts.topicEpoch, ?_, counts.inhabited, counts.placed⟩
  · intro other member
    obtain ⟨reader, isReader, equal⟩ := source other member
    simp only [Reader.membership, Prod.mk.injEq] at equal
    rw [equal.2.2.2]
    exact counts.unreleased reader isReader
  · intro other member
    obtain ⟨reader, isReader, equal⟩ := source other member
    simp only [Reader.membership, Prod.mk.injEq] at equal
    rw [equal.2.1]
    exact counts.readerEpoch reader isReader
  · intro name topic found group
    -- The count depends on the memberships alone, which are the same in both lists.
    have asked : ∀ list : List Reader, list.countP (·.readsFor name topic.epoch group) =
        (list.map Reader.membership).countP fun membership =>
          membership.1 = name ∧ membership.2.1 = topic.epoch ∧ membership.2.2.1 = group := by
      intro list
      rw [List.countP_map]
      rfl
    rw [counts.counted found, asked, asked, same]

theorem ofEmpty (createsOnDemand : Bool) : MemberCounts (.empty createsOnDemand) [] where
  unreleased := by simp
  readerEpoch := by simp
  topicEpoch := fun found => by cases found
  counted := fun found => by cases found
  inhabited := fun found => by cases found
  placed := fun found => by cases found

/-- A journal that was closed has no group left to count. -/
theorem close (counts : MemberCounts journal readers) : MemberCounts journal.close readers where
  unreleased := counts.unreleased
  readerEpoch := counts.readerEpoch
  topicEpoch := fun found => by cases found
  counted := fun found => by cases found
  inhabited := fun found => by cases found
  placed := fun found => by cases found

theorem removeTopic (counts : MemberCounts journal readers) (name : String) :
    MemberCounts (journal.removeTopic name) readers := by
  have kept : ∀ {query topic}, (journal.removeTopic name).topics.get? query = some topic →
      journal.topics.get? query = some topic := by
    intro query topic found
    rw [Journal.removeTopic, Table.get?_erase] at found
    split at found
    next => contradiction
    next => exact found
  exact {
    unreleased := counts.unreleased
    readerEpoch := counts.readerEpoch
    topicEpoch := fun found => counts.topicEpoch (kept found)
    counted := fun found => counts.counted (kept found)
    inhabited := fun found => counts.inhabited (kept found)
    placed := fun found => counts.placed (kept found) }

/-- Nobody reads a topic that is younger than all readers. -/
theorem countP_eq_zero (counts : MemberCounts journal readers) {epoch : Nat}
    (younger : journal.epochs < epoch) (name group : String) :
    readers.countP (·.readsFor name epoch group) = 0 := by
  refine List.countP_eq_zero.2 fun reader member reads => ?_
  have old := counts.readerEpoch reader member
  simp only [Reader.readsFor, decide_eq_true_eq] at reads
  omega

theorem grows (counts : MemberCounts journal readers) {after : Journal}
    (growth : journal.Grows after) : MemberCounts after readers := by
  -- A topic found later was there before, or is younger than all readers and has no groups.
  have source : ∀ {name topic}, after.topics.get? name = some topic →
      (∃ before more, journal.topics.get? name = some before ∧
        topic = { before with records := before.records ++ more }) ∨
      (journal.epochs < topic.epoch ∧ topic.epoch ≤ after.epochs ∧ topic.groups = ∅) := by
    intro name topic found
    cases foundBefore : journal.topics.get? name with
    | none => exact Or.inr (growth.made foundBefore found)
    | some before =>
      obtain ⟨more, foundAfter⟩ := growth.kept foundBefore
      exact Or.inl ⟨before, more, rfl, Option.some.inj (found.symm.trans foundAfter)⟩
  refine ⟨counts.unreleased, ?_, ?_, ?_, ?_, ?_⟩
  · intro reader member
    exact Nat.le_trans (counts.readerEpoch reader member) growth.epochs
  · intro name topic found
    rcases source found with ⟨before, more, foundBefore, rfl⟩ | ⟨_, old, _⟩
    · have old : before.epoch ≤ journal.epochs := counts.topicEpoch foundBefore
      exact Nat.le_trans old growth.epochs
    · exact old
  · intro name topic found group
    rcases source found with ⟨before, more, foundBefore, rfl⟩ | ⟨younger, _, bare⟩
    · exact counts.counted foundBefore group
    · rw [counts.countP_eq_zero younger, Topic.memberCount, bare]
      rfl
  · intro name topic group present found joined
    rcases source found with ⟨before, more, foundBefore, rfl⟩ | ⟨_, _, bare⟩
    · exact counts.inhabited foundBefore joined
    · rw [bare] at joined
      cases joined
  · intro name topic group present found joined
    rcases source found with ⟨before, more, foundBefore, rfl⟩ | ⟨_, _, bare⟩
    · have placed := counts.placed foundBefore joined
      simp only [List.length_append]
      omega
    · rw [bare] at joined
      cases joined

end MemberCounts

/-! ## One topic changed -/

/-- What a change of one topic does to the counts: it suffices to look at this topic. -/
theorem MemberCounts.modifyTopic {journal : Journal} {readers others : List Reader} {name : String}
    {topic : Topic} {change : Topic → Topic} (counts : MemberCounts journal readers)
    (found : journal.topics.get? name = some topic)
    (unreleased : ∀ reader ∈ others, reader.released = false)
    (readerEpoch : ∀ reader ∈ others, reader.epoch ≤ journal.epochs)
    (epoch : (change topic).epoch = topic.epoch)
    (elsewhere : ∀ query epoch group, (query = name → epoch ≠ topic.epoch) →
      others.countP (·.readsFor query epoch group) = readers.countP (·.readsFor query epoch group))
    (counted : ∀ group, (change topic).memberCount group =
      others.countP (·.readsFor name topic.epoch group))
    (groups : ∀ {group present}, (change topic).groups.get? group = some present →
      0 < present.members ∧ present.offset ≤ (change topic).records.length) :
    MemberCounts (journal.modifyTopic name change) others := by
  -- A topic found later is the changed one, or one that was there under another name.
  have source : ∀ {query current},
      (journal.modifyTopic name change).topics.get? query = some current →
      (query = name ∧ current = change topic) ∨
        (query ≠ name ∧ journal.topics.get? query = some current) := by
    intro query current foundAfter
    rw [Journal.get?_modifyTopic, found] at foundAfter
    split at foundAfter
    next same => exact Or.inl ⟨same, (Option.some.inj foundAfter).symm⟩
    next other => exact Or.inr ⟨other, foundAfter⟩
  refine ⟨unreleased, readerEpoch, ?_, ?_, ?_, ?_⟩
  · intro query current foundAfter
    rcases source foundAfter with ⟨rfl, rfl⟩ | ⟨_, foundBefore⟩
    · rw [epoch]
      exact counts.topicEpoch found
    · exact counts.topicEpoch foundBefore
  · intro query current foundAfter group
    rcases source foundAfter with ⟨rfl, rfl⟩ | ⟨other, foundBefore⟩
    · rw [counted, epoch]
    · rw [counts.counted foundBefore, elsewhere query _ group fun same => absurd same other]
  · intro query current group present foundAfter joined
    rcases source foundAfter with ⟨rfl, rfl⟩ | ⟨_, foundBefore⟩
    · exact (groups joined).1
    · exact counts.inhabited foundBefore joined
  · intro query current group present foundAfter joined
    rcases source foundAfter with ⟨rfl, rfl⟩ | ⟨_, foundBefore⟩
    · exact (groups joined).2
    · exact counts.placed foundBefore joined

namespace Journal.Topic

theorem get?_join (topic : UpdateRelay.Topic) (group query : String) :
    (join topic group).groups.get? query =
      if query = group then
        some (match topic.groups.get? group with
          | some present => { present with members := present.members + 1 }
          | none => ⟨topic.records.length, 1⟩)
      else topic.groups.get? query :=
  Table.get?_set _ _ _ _

theorem memberCount_join (topic : UpdateRelay.Topic) (group query : String) :
    (join topic group).memberCount query =
      topic.memberCount query + if query = group then 1 else 0 := by
  unfold UpdateRelay.Topic.memberCount
  rw [get?_join]
  by_cases same : query = group
  · subst same
    cases topic.groups.get? query <;> simp
  · simp [same]

theorem get?_leave (topic : UpdateRelay.Topic) (group query : String) :
    (leave topic group).groups.get? query =
      if query = group then
        (topic.groups.get? group).bind fun present =>
          if present.members ≤ 1 then none
          else some { present with members := present.members - 1 }
      else topic.groups.get? query := by
  unfold leave
  cases found : topic.groups.get? group with
  | none =>
    by_cases same : query = group
    · simp [same, found]
    · simp [same]
  | some present =>
    by_cases last : present.members ≤ 1
    · simp [last, Table.get?_erase]
    · by_cases same : query = group
      · simp [last, Table.get?_replace, same, found]
      · simp [last, Table.get?_replace, same]

theorem epoch_leave (topic : UpdateRelay.Topic) (group : String) :
    (leave topic group).epoch = topic.epoch := by
  unfold leave
  split <;> rfl

theorem records_leave (topic : UpdateRelay.Topic) (group : String) :
    (leave topic group).records = topic.records := by
  unfold leave
  split <;> rfl

theorem memberCount_leave (topic : UpdateRelay.Topic) (group query : String) :
    (leave topic group).memberCount query =
      topic.memberCount query - if query = group then 1 else 0 := by
  unfold UpdateRelay.Topic.memberCount
  rw [get?_leave]
  by_cases same : query = group
  · subst same
    cases topic.groups.get? query with
    | none => simp
    | some present =>
      by_cases last : present.members ≤ 1
      · simp [last]
      · simp [last]
  · simp [same]

theorem get?_advance (topic : UpdateRelay.Topic) (group query : String) :
    (advance topic group).groups.get? query =
      if query = group then
        (topic.groups.get? group).map fun present =>
          if present.offset < topic.records.length then
            { present with offset := present.offset + 1 }
          else present
      else topic.groups.get? query :=
  Table.get?_modify _ _ _ _

theorem memberCount_advance (topic : UpdateRelay.Topic) (group query : String) :
    (advance topic group).memberCount query = topic.memberCount query := by
  unfold UpdateRelay.Topic.memberCount
  rw [get?_advance]
  by_cases same : query = group
  · subst same
    cases topic.groups.get? query with
    | none => simp
    | some present =>
      simp only [if_true, Option.map_some, Option.elim_some]
      split <;> rfl
  · simp [same]

end Journal.Topic

/-! ## What a reader sees -/

namespace Journal

theorem liveTopic?_eq_some_iff {journal : Journal} {name : String} {epoch : Nat} {topic : Topic} :
    journal.liveTopic? name epoch = some topic ↔
      journal.topics.get? name = some topic ∧ topic.epoch = epoch := by
  unfold liveTopic?
  rw [Option.filter_eq_some_iff, decide_eq_true_eq]

theorem peek_eq_ok {journal : Journal} {reader : Reader} {result : Option JournalRecord}
    (seen : journal.peek reader = .ok result) :
    ∃ topic group, journal.liveTopic? reader.topic reader.epoch = some topic ∧
      topic.groups.get? reader.group = some group ∧ result = topic.records[group.offset]? := by
  unfold peek at seen
  split at seen
  next => contradiction
  next =>
    split at seen
    next => contradiction
    next topic live =>
      split at seen
      next => contradiction
      next group joined => exact ⟨topic, group, live, joined, (Except.ok.inj seen).symm⟩

/-- Reading fails only because it has come to its end. -/
theorem peek_eq_error {journal : Journal} {reader : Reader} {cause : JournalFailure}
    (failed : journal.peek reader = .error cause) : cause = .closed := by
  unfold peek at failed
  split at failed
  next => exact (Except.error.inj failed).symm
  next =>
    split at failed
    next => exact (Except.error.inj failed).symm
    next =>
      split at failed
      next => exact (Except.error.inj failed).symm
      next => contradiction

theorem take_of_peek {journal : Journal} {reader : Reader} {record : JournalRecord}
    (seen : journal.peek reader = .ok (some record)) :
    journal.take reader = journal.modifyTopic reader.topic (Topic.advance · reader.group) := by
  unfold take
  rw [seen]

theorem membership_look (journal : Journal) (reader : Reader) :
    (journal.look reader).membership = reader.membership := by
  unfold look
  split <;> rfl

end Journal

/-! ## Joining, leaving and reading -/

namespace MemberCounts

variable {journal : Journal} {readers : List Reader}

theorem join {name group : String} {topic : Topic} (counts : MemberCounts journal readers)
    (found : journal.topics.get? name = some topic) (seen : Nat) :
    MemberCounts (journal.modifyTopic name (Journal.Topic.join · group))
      (⟨name, topic.epoch, group, seen, false⟩ :: readers) := by
  refine counts.modifyTopic found ?_ ?_ rfl ?_ ?_ ?_
  · exact List.forall_mem_cons.2 ⟨rfl, counts.unreleased⟩
  · exact List.forall_mem_cons.2 ⟨counts.topicEpoch found, counts.readerEpoch⟩
  · intro query epoch asked elsewhere
    -- Elsewhere the new reader does not count.
    have other : ¬(name = query ∧ topic.epoch = epoch ∧ group = asked) := by
      rintro ⟨rfl, rfl, _⟩
      exact elsewhere rfl rfl
    simp [Reader.readsFor, other]
  · intro query
    rw [Journal.Topic.memberCount_join, counts.counted found, List.countP_cons]
    simp [Reader.readsFor, eq_comm]
  · intro query present joined
    rw [Journal.Topic.get?_join] at joined
    split at joined
    next same =>
      obtain rfl := Option.some.inj joined
      cases before : topic.groups.get? group with
      | none => exact ⟨Nat.zero_lt_one, Nat.le_refl _⟩
      | some old =>
        have placed := counts.placed found before
        exact ⟨Nat.succ_pos _, placed⟩
    next =>
      have placed := counts.placed found joined
      exact ⟨counts.inhabited found joined, placed⟩

theorem leave {reader : Reader} (counts : MemberCounts journal (reader :: readers)) :
    MemberCounts (journal.leave reader) readers := by
  have held := counts.unreleased reader List.mem_cons_self
  have unreleased : ∀ other ∈ readers, other.released = false := fun other member =>
    counts.unreleased other (List.mem_cons_of_mem _ member)
  have readerEpoch : ∀ other ∈ readers, other.epoch ≤ journal.epochs := fun other member =>
    counts.readerEpoch other (List.mem_cons_of_mem _ member)
  unfold Journal.leave
  rw [held]
  simp only [Bool.false_eq_true, if_false]
  cases live : journal.liveTopic? reader.topic reader.epoch with
  | none =>
    refine ⟨unreleased, readerEpoch, counts.topicEpoch, ?_, counts.inhabited, counts.placed⟩
    intro name topic found group
    -- The topic of the reader was removed; a new one of its name has another epoch.
    have stale : ¬(reader.topic = name ∧ reader.epoch = topic.epoch ∧ reader.group = group) := by
      rintro ⟨rfl, same, _⟩
      have alive := Journal.liveTopic?_eq_some_iff.2 ⟨found, same.symm⟩
      rw [live] at alive
      contradiction
    rw [counts.counted found group, List.countP_cons]
    simp [Reader.readsFor, stale]
  | some topic =>
    obtain ⟨found, epochSame⟩ := Journal.liveTopic?_eq_some_iff.1 live
    refine counts.modifyTopic found unreleased readerEpoch
      (Journal.Topic.epoch_leave topic reader.group) ?_ ?_ ?_
    · intro query epoch asked elsewhere
      have other : ¬(reader.topic = query ∧ reader.epoch = epoch ∧ reader.group = asked) := by
        rintro ⟨rfl, rfl, _⟩
        exact elsewhere rfl epochSame.symm
      simp [Reader.readsFor, other]
    · intro query
      rw [Journal.Topic.memberCount_leave, counts.counted found, List.countP_cons]
      by_cases same : query = reader.group
      · simp [Reader.readsFor, same, epochSame]
      · simp [Reader.readsFor, same, Ne.symm same]
    · intro query present joined
      rw [Journal.Topic.records_leave]
      rw [Journal.Topic.get?_leave] at joined
      split at joined
      next same =>
        obtain ⟨old, before, shrunk⟩ := Option.bind_eq_some_iff.1 joined
        split at shrunk
        next => contradiction
        next several =>
          obtain rfl := Option.some.inj shrunk
          have placed := counts.placed found before
          exact ⟨by simp only; omega, placed⟩
      next => exact ⟨counts.inhabited found joined, counts.placed found joined⟩

theorem take (counts : MemberCounts journal readers) (reader : Reader) :
    MemberCounts (journal.take reader) readers := by
  cases seen : journal.peek reader with
  | error cause =>
    have same : journal.take reader = journal := by simp [Journal.take, seen]
    rwa [same]
  | ok result =>
    cases result with
    | none =>
      have same : journal.take reader = journal := by simp [Journal.take, seen]
      rwa [same]
    | some record =>
      obtain ⟨topic, group, live, _, _⟩ := Journal.peek_eq_ok seen
      obtain ⟨found, _⟩ := Journal.liveTopic?_eq_some_iff.1 live
      rw [Journal.take_of_peek seen]
      refine counts.modifyTopic found counts.unreleased counts.readerEpoch rfl
        (fun _ _ _ _ => rfl) ?_ ?_
      · intro query
        rw [Journal.Topic.memberCount_advance, counts.counted found]
      · intro query present joined
        rw [Journal.Topic.get?_advance] at joined
        split at joined
        next same =>
          obtain ⟨old, before, rfl⟩ := Option.map_eq_some_iff.1 joined
          have placed := counts.placed found before
          have some := counts.inhabited found before
          split
          next => exact ⟨some, by simpa [Journal.Topic.advance] using Nat.succ_le_of_lt ‹_›⟩
          next => exact ⟨some, placed⟩
        next =>
          have placed := counts.placed found joined
          exact ⟨counts.inhabited found joined, placed⟩

/-! ## Which groups exist -/

/-- The group of an open reader exists as long as its topic does. -/
theorem exists_group (counts : MemberCounts journal readers) {reader : Reader} {topic : Topic}
    (member : reader ∈ readers)
    (live : journal.liveTopic? reader.topic reader.epoch = some topic) :
    ∃ group, topic.groups.get? reader.group = some group ∧
      group.offset ≤ topic.records.length := by
  obtain ⟨found, epoch⟩ := Journal.liveTopic?_eq_some_iff.1 live
  have counted := counts.counted found reader.group
  have reads : 0 < readers.countP (·.readsFor reader.topic topic.epoch reader.group) :=
    List.countP_pos_iff.2 ⟨reader, member, by simp [Reader.readsFor, epoch]⟩
  cases joined : topic.groups.get? reader.group with
  | none => simp [Topic.memberCount, joined] at counted; omega
  | some group => exact ⟨group, rfl, counts.placed found joined⟩

/-- A group that no open reader belongs to does not exist. -/
theorem get?_group_eq_none (counts : MemberCounts journal readers) {name group : String}
    {topic : Topic} (found : journal.topics.get? name = some topic)
    (nobody : readers.countP (·.readsFor name topic.epoch group) = 0) :
    topic.groups.get? group = none := by
  have counted := counts.counted found group
  cases joined : topic.groups.get? group with
  | none => rfl
  | some present =>
    have some := counts.inhabited found joined
    simp [Topic.memberCount, joined] at counted
    omega

end MemberCounts

end UpdateRelay
