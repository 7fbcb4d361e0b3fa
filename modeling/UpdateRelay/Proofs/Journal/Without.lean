import UpdateRelay.Proofs.Journal.Related
import UpdateRelay.Proofs.Journal.Writing

/-!
# A journal without one of its readers

What a reader that joined a group and left it again has changed for others: nothing, but for one
case. `Journal.Without` relates a journal in which a reader is open to what it would be without the
reader, where only the attempts to make topics are not compared. Everything that happens keeps the
two related; one that reads notices no difference as long as it is in the group too. The exception
is another reader that joins while the first one is alone in the group: it takes over the position,
where it would have begun at the end of the topic.
-/

namespace UpdateRelay

/-- A group with one member less, if that leaves any. -/
def Group.withoutOne (group : Group) : Option Group :=
  if group.members ≤ 1 then none else some { group with members := group.members - 1 }

/-- How many share a position does not matter to how it moves on. -/
theorem Group.map_withoutOne (group : Option Group) (size : Nat) :
    (group.bind Group.withoutOne).map
        (fun present =>
          if present.offset < size then { present with offset := present.offset + 1 }
          else present) =
      (group.map fun present =>
        if present.offset < size then { present with offset := present.offset + 1 }
        else present).bind Group.withoutOne := by
  cases group with
  | none => rfl
  | some present =>
    simp only [Option.bind_some, Option.map_some, Group.withoutOne]
    by_cases last : present.members ≤ 1 <;> by_cases more : present.offset < size <;>
      simp [last, more]

/-- Whether a topic is what another one of its name would be without a reader, if there is one to
leave out. -/
structure Topic.Without (absent : Option Reader) (name : String) (first second : Topic) :
    Prop where
  epoch : second.epoch = first.epoch
  records : second.records = first.records
  group : ∀ group, second.groups.get? group =
    if absent.any (·.readsFor name first.epoch group) then
      (first.groups.get? group).bind Group.withoutOne
    else first.groups.get? group

/-- Whether a journal is what another one would be without a reader, if there is one to leave out;
without none, they have the same topics, records and groups. -/
structure Journal.Without (absent : Option Reader) (first second : Journal) : Prop extends
    Journal.Related (Topic.Without absent) first second where
  appendCount : second.appendCount = first.appendCount

/-- Whether a reader that joins a group of a topic does not notice that another one is missing: the
group is not that of the missing one, has further members, or is at the end of the topic. -/
def Topic.Joinable (absent : Option Reader) (name : String) (topic : Topic) (group : String) :
    Prop :=
  absent.any (·.readsFor name topic.epoch group) = true →
    ∃ present, topic.groups.get? group = some present ∧ 0 < present.members ∧
      (present.members = 1 → present.offset = topic.records.length)

namespace Topic.Without

variable {absent : Option Reader} {name : String} {first second : Topic}

theorem refl (topic : Topic) : topic.Without none name topic := ⟨rfl, rfl, fun _ => rfl⟩

/-- A topic that nobody reads yet. -/
theorem fresh (epoch : Nat) : Topic.Without absent name ⟨epoch, [], ∅⟩ ⟨epoch, [], ∅⟩ :=
  ⟨rfl, rfl, fun _ => (ite_self none).symm⟩

/-- In a topic that a reader does not read it is not missing. -/
theorem elsewhere (without : first.Without absent name second) {other : Option Reader}
    (same : ∀ group, other.any (·.readsFor name first.epoch group) =
      absent.any (·.readsFor name first.epoch group)) : first.Without other name second :=
  { without with group := fun group => by rw [same]; exact without.group group }

theorem append (without : first.Without absent name second) (record : JournalRecord) :
    Topic.Without absent name { first with records := first.records ++ [record] }
      { second with records := second.records ++ [record] } where
  epoch := without.epoch
  records := by rw [without.records]
  group := without.group

theorem leave (without : first.Without absent name second) (group : String) :
    (Journal.Topic.leave first group).Without absent name (Journal.Topic.leave second group) where
  epoch := by rw [Journal.Topic.epoch_leave, Journal.Topic.epoch_leave, without.epoch]
  records := by rw [Journal.Topic.records_leave, Journal.Topic.records_leave, without.records]
  group := by
    intro query
    rw [Journal.Topic.get?_leave, Journal.Topic.get?_leave, Journal.Topic.epoch_leave,
      without.group query]
    by_cases same : query = group
    · subst same
      rw [if_pos rfl, if_pos rfl, without.group query]
      split <;> rfl
    · rw [if_neg same, if_neg same]

theorem advance (without : first.Without absent name second) (group : String) :
    (Journal.Topic.advance first group).Without absent name
      (Journal.Topic.advance second group) where
  epoch := without.epoch
  records := without.records
  group := by
    intro query
    have before := without.group query
    have epoch : (Journal.Topic.advance first group).epoch = first.epoch := rfl
    rw [Journal.Topic.get?_advance, Journal.Topic.get?_advance, without.records, epoch]
    by_cases same : query = group
    · subst same
      rw [if_pos rfl, if_pos rfl, before]
      cases absent.any (·.readsFor name first.epoch query) with
      | true => exact Group.map_withoutOne _ _
      | false => rfl
    · rw [if_neg same, if_neg same, before]

theorem join (without : first.Without absent name second) {group : String}
    (joinable : first.Joinable absent name group) :
    (Journal.Topic.join first group).Without absent name (Journal.Topic.join second group) where
  epoch := without.epoch
  records := without.records
  group := by
    intro query
    have before := without.group query
    have epoch : (Journal.Topic.join first group).epoch = first.epoch := rfl
    rw [Journal.Topic.get?_join, Journal.Topic.get?_join, without.records, epoch]
    by_cases same : query = group
    · subst same
      rw [if_pos rfl, if_pos rfl, before]
      cases missing : absent.any (·.readsFor name first.epoch query) with
      | true =>
        obtain ⟨present, found, inhabited, atEnd⟩ := joinable missing
        by_cases alone : present.members = 1
        · have last := atEnd alone
          simp [found, Group.withoutOne, alone, ← last]
        · have several : ¬present.members ≤ 1 := by omega
          simp [found, Group.withoutOne, several, Nat.sub_add_cancel inhabited,
            Nat.ne_of_gt inhabited]
      | false => rfl
    · rw [if_neg same, if_neg same, before]

/-- The reader that joined is the one that is missing in the topic that was left as it is. -/
theorem of_join (without : first.Without none name second) {group : String} (seen : Nat)
    (inhabited : ∀ present, first.groups.get? group = some present → 0 < present.members) :
    (Journal.Topic.join first group).Without (some ⟨name, first.epoch, group, seen, false⟩) name
      second where
  epoch := without.epoch
  records := without.records
  group := by
    intro query
    have before := without.group query
    rw [Option.any_none, if_neg Bool.false_ne_true] at before
    rw [before, Journal.Topic.get?_join]
    by_cases same : query = group
    · subst same
      simp only [Option.any_some, Reader.readsFor, Journal.Topic.join, decide_true, and_self,
        if_true, Option.bind_some, Group.withoutOne]
      cases found : first.groups.get? query with
      | none => rfl
      | some present =>
        have some := inhabited present found
        simp [Nat.ne_of_gt some]
    · simp [Reader.readsFor, same, Ne.symm same]

/-- Nobody is missing once the reader has left the other topic too. -/
theorem of_leave {reader : Reader} (without : first.Without (some reader) name second)
    (isTopic : reader.topic = name) (epoch : reader.epoch = first.epoch) :
    (Journal.Topic.leave first reader.group).Without none name second where
  epoch := by rw [Journal.Topic.epoch_leave, without.epoch]
  records := by rw [Journal.Topic.records_leave, without.records]
  group := by
    intro query
    rw [Journal.Topic.get?_leave, without.group query]
    by_cases same : query = reader.group
    · subst same
      simp only [Option.any_some, Reader.readsFor, isTopic, epoch, decide_true, and_self, if_true]
      rfl
    · simp [Reader.readsFor, same, Ne.symm same]

end Topic.Without

/-- That a reader is missing is kept by all that a journal does to a topic. -/
theorem Topic.Fits.without (absent : Option Reader) : Topic.Fits (Topic.Without absent) where
  epoch := Topic.Without.epoch
  records := Topic.Without.records
  fresh := fun _ _ => .fresh _
  append := Topic.Without.append
  leave := Topic.Without.leave
  advance := Topic.Without.advance

/-- Whether a reader that was alone in its group, at a record that is there, is not alone any more:
another one has joined it and got its position. -/
def Journal.PassesPosition (before : Journal) (reader : Reader) (after : Journal) : Prop :=
  ∃ alone ∈ before.groupOf? reader, ∃ both ∈ after.groupOf? reader, alone.members = 1 ∧
    alone.offset < (before.records reader.topic).length ∧ both.members = 2

instance (before : Journal) (reader : Reader) (after : Journal) :
    Decidable (before.PassesPosition reader after) :=
  inferInstanceAs (Decidable (∃ alone ∈ before.groupOf? reader, ∃ both ∈ after.groupOf? reader,
    alone.members = 1 ∧ alone.offset < (before.records reader.topic).length ∧ both.members = 2))

/-- Whoever joins a group with a single member that is behind gets the position of that one. -/
theorem Journal.passesPosition_attach {journal : Journal} {reader : Reader} {topic : Topic}
    {alone : Group} (isOpen : journal.closed = false)
    (live : journal.liveTopic? reader.topic reader.epoch = some topic)
    (joined : topic.groups.get? reader.group = some alone) (single : alone.members = 1)
    (behind : alone.offset < topic.records.length) :
    journal.PassesPosition reader (journal.attach reader.topic reader.group).1 := by
  obtain ⟨found, epoch⟩ := liveTopic?_eq_some_iff.1 live
  have there : journal.hasTopic reader.topic = true := by simp [hasTopic_eq_isSome, found]
  have attached : (journal.attach reader.topic reader.group).1 =
      journal.modifyTopic reader.topic (Topic.join · reader.group) := by
    simp [attach, isOpen, ensureTopic, there, found]
  have moved : (journal.modifyTopic reader.topic (Topic.join · reader.group)).liveTopic?
      reader.topic reader.epoch = some (Topic.join topic reader.group) := by
    rw [liveTopic?_eq_some_iff, get?_modifyTopic, if_pos rfl, found]
    exact ⟨rfl, epoch⟩
  refine ⟨alone, ?_, ⟨alone.offset, 2⟩, ?_, single, ?_, rfl⟩
  · simp [groupOf?, live, joined]
  · rw [attached, groupOf?, moved, Option.bind_some, Topic.get?_join, if_pos rfl, joined]
    simp [single]
  · simpa [records, found] using behind

/-! ## Appends that have been counted -/

namespace Journal

theorem appendCount_ensureTopic {journal ready : Journal} {name : String}
    (ensured : journal.ensureTopic name = .ok ready) :
    ready.appendCount = journal.appendCount := by
  unfold ensureTopic at ensured
  split at ensured
  next => rw [Except.ok.inj ensured]
  next =>
    split at ensured
    next =>
      obtain rfl := Except.ok.inj ensured
      rfl
    next => contradiction

theorem appendCount_makeTopic (journal : Journal) (name : String) :
    (journal.makeTopic name).1.appendCount = journal.appendCount := by
  simp only [makeTopic]
  split
  next => rfl
  next =>
    split
    next => rfl
    next => split <;> rfl

theorem appendCount_attach (journal : Journal) (name group : String) :
    (journal.attach name group).1.appendCount = journal.appendCount := by
  unfold attach
  split
  next => rfl
  next =>
    split
    next => rfl
    next ready ensured =>
      have kept := appendCount_ensureTopic ensured
      split
      next => rfl
      next => exact kept

theorem appendCount_leave (journal : Journal) (reader : Reader) :
    (journal.leave reader).appendCount = journal.appendCount := by
  unfold leave
  split
  next => rfl
  next => split <;> rfl

theorem appendCount_take (journal : Journal) (reader : Reader) :
    (journal.take reader).appendCount = journal.appendCount := by
  unfold take
  split <;> rfl

end Journal

namespace Journal.Without

variable {absent : Option Reader} {first second : Journal}

theorem refl (journal : Journal) : journal.Without none journal :=
  ⟨.refl (fun _ topic => .refl topic) journal, rfl⟩

/-! ## Topics -/

theorem addTopic (without : first.Without absent second) (name : String) :
    (first.addTopic name).Without absent (second.addTopic name) :=
  ⟨without.toRelated.addTopic (.without absent) name, without.appendCount⟩

theorem removeTopic (without : first.Without absent second) (name : String) :
    (first.removeTopic name).Without absent (second.removeTopic name) :=
  ⟨without.toRelated.removeTopic name, without.appendCount⟩

theorem close (without : first.Without absent second) : first.close.Without absent second.close :=
  ⟨without.toRelated.close, without.appendCount⟩

theorem makeTopic (without : first.Without absent second) (name : String) :
    (first.makeTopic name).1.Without absent (second.makeTopic name).1 ∧
      (second.makeTopic name).2 = (first.makeTopic name).2 := by
  obtain ⟨made, answer⟩ := without.toRelated.makeTopic (.without absent) name
  refine ⟨⟨made, ?_⟩, answer⟩
  rw [appendCount_makeTopic, appendCount_makeTopic, without.appendCount]

theorem append (without : first.Without absent second) (name : String) (record : JournalRecord) :
    (first.append name record).1.Without absent (second.append name record).1 ∧
      (second.append name record).2 = (first.append name record).2 := by
  obtain ⟨written, answer⟩ := without.toRelated.append (.without absent) name record
  refine ⟨⟨written, ?_⟩, answer⟩
  rw [(second.write_append name record).counts.1, (first.write_append name record).counts.1,
    without.appendCount]

/-! ## Readers that are in both journals -/

theorem liveTopic? (without : first.Without absent second) (name : String) (epoch : Nat) :
    Option.Rel (Topic.Without absent name) (first.liveTopic? name epoch)
      (second.liveTopic? name epoch) :=
  without.toRelated.liveTopic? (.without absent) name epoch

theorem look (without : first.Without absent second) (reader : Reader) :
    second.look reader = first.look reader :=
  without.toRelated.look (.without absent) reader

theorem mustLook (without : first.Without absent second) (reader : Reader) :
    second.mustLook reader = first.mustLook reader :=
  without.toRelated.mustLook (.without absent) reader

theorem leave (without : first.Without absent second) (reader : Reader) :
    (first.leave reader).Without absent (second.leave reader) := by
  refine ⟨without.toRelated.leave (.without absent) reader, ?_⟩
  rw [appendCount_leave, appendCount_leave, without.appendCount]

theorem take (without : first.Without absent second) {reader : Reader}
    (sees : second.peek reader = first.peek reader) :
    (first.take reader).Without absent (second.take reader) := by
  refine ⟨without.toRelated.take (.without absent) sees, ?_⟩
  rw [appendCount_take, appendCount_take, without.appendCount]

/-- Journals in which nobody is missing have the same groups. -/
theorem groupOf? (without : first.Without none second) (reader : Reader) :
    second.groupOf? reader = first.groupOf? reader := by
  have same := without.liveTopic? reader.topic reader.epoch
  unfold Journal.groupOf?
  generalize first.liveTopic? reader.topic reader.epoch = one,
    second.liveTopic? reader.topic reader.epoch = other at same ⊢
  cases same with
  | none => rfl
  | some same => exact same.group reader.group

/-- A reader does not notice that another one is missing if it is in the group itself. -/
theorem peek (without : first.Without absent second) {reader : Reader}
    (shared : ∀ topic present, first.liveTopic? reader.topic reader.epoch = some topic →
      absent.any (·.readsFor reader.topic reader.epoch reader.group) = true →
      topic.groups.get? reader.group = some present → 1 < present.members) :
    second.peek reader = first.peek reader := by
  have same := without.liveTopic? reader.topic reader.epoch
  have live : ∀ {topic}, first.liveTopic? reader.topic reader.epoch = some topic →
      topic.epoch = reader.epoch := fun isLive => (liveTopic?_eq_some_iff.1 isLive).2
  unfold Journal.peek
  rw [without.closed]
  generalize first.liveTopic? reader.topic reader.epoch = one,
    second.liveTopic? reader.topic reader.epoch = other at same shared live ⊢
  cases same with
  | none => rfl
  | @some one other same =>
    have group := same.group reader.group
    rw [live rfl] at group
    dsimp only
    rw [group, same.records]
    cases missing : absent.any (·.readsFor reader.topic reader.epoch reader.group) with
    | false => rfl
    | true =>
      cases found : one.groups.get? reader.group with
      | none => rfl
      | some present =>
        have several := shared one present rfl missing found
        simp [Group.withoutOne, Nat.not_le_of_lt several]

/-- A topic that is there or was just made can be joined, unless the missing reader passes its
position. -/
theorem joinable {readers : List Reader} (counts : MemberCounts first readers)
    (listed : ∀ reader ∈ absent, reader ∈ readers) {name group : String}
    (isOpen : first.closed = false)
    (keepsPosition : ∀ reader ∈ absent, ¬first.PassesPosition reader (first.attach name group).1)
    {ready : Journal} (ensured : first.ensureTopic name = .ok ready) {topic : Topic}
    (found : ready.topics.get? name = some topic) : topic.Joinable absent name group := by
  intro missing
  obtain ⟨reader, isAbsent, reads⟩ := (Option.any_eq_true _ _).1 missing
  have isListed := listed reader isAbsent
  obtain ⟨rfl, epoch, rfl⟩ := of_decide_eq_true reads
  by_cases there : first.hasTopic reader.topic = true
  · rw [Journal.ensureTopic, if_pos there] at ensured
    cases ensured
    have live := liveTopic?_eq_some_iff.2 ⟨found, epoch.symm⟩
    obtain ⟨present, joined, placed⟩ := counts.exists_group isListed live
    refine ⟨present, joined, counts.inhabited found joined, fun alone => ?_⟩
    by_contra other
    exact keepsPosition reader isAbsent
      (passesPosition_attach isOpen live joined alone (Nat.lt_of_le_of_ne placed other))
  · -- In a topic that was just made nobody is missing.
    have stale := counts.readerEpoch reader isListed
    rw [Journal.ensureTopic, if_neg there] at ensured
    split at ensured
    next =>
      cases ensured
      rw [Journal.addTopic, Table.get?_set, if_pos rfl] at found
      cases found
      dsimp only at epoch
      omega
    next => cases ensured

/-- Both journals open the same reader, or none. -/
theorem attach (without : first.Without absent second) {readers : List Reader}
    (counts : MemberCounts first readers) (listed : ∀ reader ∈ absent, reader ∈ readers)
    {name group : String}
    (keepsPosition : ∀ reader ∈ absent, ¬first.PassesPosition reader (first.attach name group).1) :
    (first.attach name group).1.Without absent (second.attach name group).1 ∧
      (second.attach name group).2 = (first.attach name group).2 := by
  obtain ⟨attached, answer⟩ :=
    without.toRelated.attach (.without absent) fun isOpen _ _ _ ensured found same =>
      same.join (joinable counts listed isOpen keepsPosition ensured found)
  refine ⟨⟨attached, ?_⟩, answer⟩
  rw [appendCount_attach, appendCount_attach, without.appendCount]

/-! ## The reader that is missing -/

/-- A reader that joins is missing in the journal that is left as it is. -/
theorem of_join (without : first.Without none second) {name group : String} {topic : Topic}
    (found : first.topics.get? name = some topic) (seen : Nat)
    (inhabited : ∀ present, topic.groups.get? group = some present → 0 < present.members) :
    (first.modifyTopic name (Topic.join · group)).Without
      (some ⟨name, topic.epoch, group, seen, false⟩) second where
  epochs := without.epochs
  createsOnDemand := without.createsOnDemand
  brokenAppends := without.brokenAppends
  refusesCreation := without.refusesCreation
  closed := without.closed
  appendCount := without.appendCount
  topics := by
    intro query
    have same := without.topics query
    rw [get?_modifyTopic]
    split
    next here =>
      subst here
      rw [found] at same ⊢
      generalize second.topics.get? query = there at same ⊢
      cases same with
      | some same => exact .some (same.of_join seen inhabited)
    next other =>
      generalize first.topics.get? query = here, second.topics.get? query = there at same ⊢
      cases same with
      | none => exact .none
      | some same => exact .some (same.elsewhere fun _ => by simp [Reader.readsFor, Ne.symm other])

/-- Once it has left, nobody is missing. -/
theorem of_leave {reader : Reader} (without : first.Without (some reader) second)
    (unreleased : reader.released = false) : (first.leave reader).Without none second := by
  have topics := without.topics
  have plain : ∀ {name one other}, first.topics.get? name = some one →
      one.Without (some reader) name other →
      (name = reader.topic → first.liveTopic? name reader.epoch = none) →
      one.Without none name other := by
    intro name one other found same dead
    refine same.elsewhere fun group => ?_
    -- A reader of the topic would find it alive.
    by_cases reads : reader.readsFor name one.epoch group = true
    · obtain ⟨isTopic, epoch, _⟩ := of_decide_eq_true reads
      have gone := dead isTopic.symm
      rw [liveTopic?_eq_some_iff.2 ⟨found, epoch.symm⟩] at gone
      contradiction
    · simp [Bool.eq_false_iff.2 reads]
  unfold Journal.leave
  rw [unreleased, if_neg Bool.false_ne_true]
  cases live : first.liveTopic? reader.topic reader.epoch with
  | none =>
    refine { without with topics := fun name => ?_ }
    have same := topics name
    generalize found : first.topics.get? name = here, second.topics.get? name = there at same ⊢
    cases same with
    | none => exact .none
    | some same => exact .some (plain found same fun here => by rw [here, live])
  | some topic =>
    obtain ⟨isTopic, epoch⟩ := liveTopic?_eq_some_iff.1 live
    refine { without with topics := fun name => ?_ }
    have same := topics name
    dsimp only
    rw [get?_modifyTopic]
    split
    next here =>
      subst here
      rw [isTopic] at same ⊢
      generalize second.topics.get? reader.topic = there at same ⊢
      cases same with
      | some same => exact .some (same.of_leave rfl epoch.symm)
    next other =>
      generalize found : first.topics.get? name = here, second.topics.get? name = there at same ⊢
      cases same with
      | none => exact .none
      | some same => exact .some (plain found same fun here => absurd here other)

end Journal.Without

/-! ## Topics that the missing reader brought about -/

namespace Journal

/-- The journal with a topic that another one has. -/
def provide (journal : Journal) (name : String) (model : Journal) : Journal :=
  if model.hasTopic name && !journal.hasTopic name then journal.addTopic name else journal

theorem provide_of_same {journal model : Journal} {name : String}
    (same : journal.hasTopic name = model.hasTopic name) :
    journal.provide name model = journal := by
  simp [provide, same]

namespace Without

variable {absent : Option Reader} {first second : Journal}

theorem provide_addTopic (without : first.Without absent second) {name : String}
    (missing : first.hasTopic name = false) {model : Journal} (made : model.hasTopic name = true) :
    (first.addTopic name).Without absent (second.provide name model) := by
  have absentToo := (without.hasTopic name).trans missing
  rw [provide, made, absentToo]
  exact without.addTopic name

/-- An attempt to make a topic comes to no more than the topic. -/
theorem provide_makeTopic (without : first.Without absent second) (name : String) :
    (first.makeTopic name).1.Without absent (second.provide name (first.makeTopic name).1) := by
  have counted : Journal.Without absent { first with makeCount := first.makeCount + 1 } second :=
    { without with }
  have kept : second.provide name { first with makeCount := first.makeCount + 1 } = second :=
    provide_of_same (without.hasTopic name)
  simp only [Journal.makeTopic]
  split
  next => rwa [kept]
  next =>
    split
    next => rwa [kept]
    next =>
      split
      next => rwa [kept]
      next missing =>
        exact counted.provide_addTopic (Bool.eq_false_iff.2 missing) (hasTopic_addTopic _ name)

/-- A reader that was opened brings about no more than the topic and itself. -/
theorem provide_attach (without : first.Without none second) {readers : List Reader}
    (counts : MemberCounts first readers) {name group : String} {after : Journal} {reader : Reader}
    (attached : first.attach name group = (after, .ok reader)) :
    after.Without (some reader) (second.provide name after) := by
  unfold Journal.attach at attached
  split at attached
  next => simp at attached
  next =>
    split at attached
    next => simp at attached
    next ready ensured =>
      split at attached
      next => simp at attached
      next topic found =>
        obtain ⟨rfl, same⟩ := Prod.mk.inj attached
        obtain rfl := Except.ok.inj same
        have has : (ready.modifyTopic name (Topic.join · group)).hasTopic name = true := by
          simp [hasTopic_eq_isSome, get?_modifyTopic, found]
        unfold Journal.ensureTopic at ensured
        split at ensured
        next there =>
          cases ensured
          rw [provide_of_same (((without.hasTopic name).trans there).trans has.symm)]
          exact without.of_join found _ fun present => counts.inhabited found
        next missing =>
          split at ensured
          next =>
            cases ensured
            have made := without.provide_addTopic (Bool.eq_false_iff.2 missing) has
            refine made.of_join found _ fun present isPresent => ?_
            rw [Journal.addTopic, Table.get?_set, if_pos rfl] at found
            cases found
            cases isPresent
          next => cases ensured

end Without

end Journal

end UpdateRelay
