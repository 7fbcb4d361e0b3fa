import UpdateRelay.Proofs.Journal.Isolation
import UpdateRelay.Proofs.Journal.Records

/-!
# What a consumer group is handed

From the moment in which a reader makes a group until its last reader leaves, its topic is removed
or the journal is closed, the group is handed the records of its topic one after the other,
beginning behind the records that there were at first. `ReaderSystem.Progress` is what every action
keeps.
-/

namespace UpdateRelay.ReaderSystem

variable {system after : ReaderSystem} {groupId : GroupId}

/-! ## Groups that are there -/

/-- A group is there just as long as its topic counts it among its groups. -/
theorem hosts_iff (sound : system.Sound) : system.hosts groupId = true ↔
    system.journal.closed = false ∧ ∃ topic present,
      system.journal.liveTopic? groupId.topic groupId.epoch = some topic ∧
        topic.groups.get? groupId.group = some present := by
  unfold hosts
  rw [Bool.and_eq_true, Bool.and_eq_true, Bool.not_eq_true', and_assoc]
  refine and_congr_right fun _ => ⟨?_, ?_⟩
  · rintro ⟨live, inhabited⟩
    obtain ⟨reader, member, reads⟩ := List.any_eq_true.1 inhabited
    obtain ⟨isTopic, epoch, group⟩ := of_decide_eq_true reads
    obtain ⟨topic, isLive⟩ := Option.isSome_iff_exists.1 live
    rw [← isTopic, ← epoch, ← group] at *
    obtain ⟨present, joined, _⟩ := sound.counts.exists_group member isLive
    exact ⟨topic, present, isLive, joined⟩
  · rintro ⟨topic, present, live, joined⟩
    obtain ⟨found, epoch⟩ := Journal.liveTopic?_eq_some_iff.1 live
    refine ⟨Option.isSome_of_eq_some live, ?_⟩
    by_contra nobody
    have absent : topic.groups.get? groupId.group = none := sound.counts.get?_group_eq_none found
      (List.countP_eq_zero.2 fun reader member reads => nobody ?_)
    · rw [absent] at joined
      contradiction
    · rw [epoch] at reads
      exact List.any_eq_true.2 ⟨reader, member, reads⟩

theorem hosts_of_hostsAll {actions : List Action} (lasts : system.hostsAll groupId actions = true) :
    system.hosts groupId = true := by
  cases actions with
  | nil => exact lasts
  | cons action actions => exact (Bool.and_eq_true_iff.1 lasts).1

theorem hosts_performAll {actions : List Action} (lasts : system.hostsAll groupId actions = true) :
    (system.performAll actions).hosts groupId = true := by
  induction actions generalizing system with
  | nil => exact lasts
  | cons action actions inductionHypothesis =>
    exact inductionHypothesis (Bool.and_eq_true_iff.1 lasts).2

/-- How far a group has come since it was made: what it was handed are the records from where it
started, and its position is behind them. -/
structure Progress (system : ReaderSystem) (groupId : GroupId) (start : Nat)
    (given : List JournalRecord) : Prop where
  position : system.journal.position groupId.topic groupId.group = start + given.length
  records : given <+: (system.journal.records groupId.topic).drop start

namespace Progress

variable {start : Nat} {given : List JournalRecord}

theorem group?_of_hosts (sound : system.Sound) (hosts : system.hosts groupId = true) :
    ∃ present, system.journal.group? groupId.topic groupId.group = some present := by
  obtain ⟨_, topic, present, live, joined⟩ := (hosts_iff sound).1 hosts
  refine ⟨present, ?_⟩
  rw [Journal.group?, (Journal.liveTopic?_eq_some_iff.1 live).1]
  exact joined

/-- Whatever is steady keeps the progress of a group that stays. -/
theorem of_steady (progress : system.Progress groupId start given) (sound : system.Sound)
    (hosts : system.hosts groupId = true) (soundAfter : after.Sound)
    (hostsAfter : after.hosts groupId = true) (steady : system.journal.Steady after.journal) :
    after.Progress groupId start given := by
  obtain ⟨present, was⟩ := group?_of_hosts sound hosts
  obtain ⟨current, is⟩ := group?_of_hosts soundAfter hostsAfter
  obtain ⟨position, more, records⟩ := steady.position_eq was is
  refine ⟨position.trans progress.position, progress.records.trans ?_⟩
  rw [records, List.drop_append]
  exact List.prefix_append _ _

/-- The record at its position is the next that a group is handed. -/
theorem concat {records : List JournalRecord} {record : JournalRecord}
    (early : given <+: records.drop start)
    (next : records[start + given.length]? = some record) :
    given ++ [record] <+: records.drop start := by
  obtain ⟨rest, split⟩ := early
  rw [← List.getElem?_drop, ← split, List.getElem?_append_right (Nat.le_refl _), Nat.sub_self]
    at next
  cases rest with
  | nil => contradiction
  | cons first rest =>
    obtain rfl : first = record := Option.some.inj next
    exact ⟨rest, by rw [List.append_assoc, ← split]; rfl⟩

/-- A reader that takes a record takes it for its own group only. -/
theorem take (progress : system.Progress groupId start given) (sound : system.Sound)
    (hosts : system.hosts groupId = true) {index : Nat} {reader : Reader} {record : JournalRecord}
    (seen : system.journal.peek reader = .ok (some record))
    (journal : after.journal = system.journal.take reader) :
    after.Progress groupId start
      (given ++ (groupId.share (some (index, reader, record))).map Prod.snd) := by
  obtain ⟨_, topic, _, live, _⟩ := (hosts_iff sound).1 hosts
  obtain ⟨current, _, isLive, _, _⟩ := Journal.peek_eq_ok seen
  obtain ⟨topicName, epoch, group⟩ := groupId
  cases member : GroupId.hasReader ⟨topicName, epoch, group⟩ reader with
  | true =>
    obtain ⟨rfl, rfl, rfl⟩ := of_decide_eq_true member
    obtain ⟨next, moved⟩ := Journal.position_take seen
    have position := progress.position
    have records := progress.records
    simp only at position next moved records
    simp only [GroupId.share, member, if_true, List.map_cons, List.map_nil]
    refine ⟨?_, ?_⟩
    · rw [journal, moved, position, List.length_append]
      rfl
    · rw [journal, Journal.records_take seen]
      exact concat records (position ▸ next)
  | false =>
    simp only [GroupId.share, member, Bool.false_eq_true, if_false, List.map_nil, List.append_nil]
    refine ⟨?_, ?_⟩
    · rw [journal, ← progress.position]
      by_cases isGroup : group = reader.group
      · -- A reader of a group of this name reads another topic.
        have elsewhere : topicName ≠ reader.topic := by
          rintro rfl
          have same := (Journal.liveTopic?_eq_some_iff.1 live).1.symm.trans
            (Journal.liveTopic?_eq_some_iff.1 isLive).1
          have epochs := (Journal.liveTopic?_eq_some_iff.1 live).2
          rw [Option.some.inj same, (Journal.liveTopic?_eq_some_iff.1 isLive).2] at epochs
          exact of_decide_eq_false member ⟨rfl, epochs, isGroup.symm⟩
        simp only [Journal.position, Journal.group?, Journal.get?_take seen, if_neg elsewhere]
      · exact system.journal.position_take_of_ne reader isGroup
    · rw [journal, Journal.records_take seen]
      exact progress.records

/-- Removing a topic does nothing to a group that stays. -/
theorem removeTopic (progress : system.Progress groupId start given) {name : String}
    {states : List ReaderState} (sound : Sound ⟨system.journal.removeTopic name, states⟩)
    (hosts : hosts ⟨system.journal.removeTopic name, states⟩ groupId = true) :
    Progress ⟨system.journal.removeTopic name, states⟩ groupId start given := by
  obtain ⟨_, topic, _, live, _⟩ := (hosts_iff sound).1 hosts
  have found := (Journal.liveTopic?_eq_some_iff.1 live).1
  have same : (system.journal.removeTopic name).topics.get? groupId.topic =
      system.journal.topics.get? groupId.topic := by
    simp only [Journal.removeTopic, Table.get?_erase] at found ⊢
    split at found
    next => contradiction
    next other => rw [if_neg other]
  obtain ⟨position, records⟩ := progress
  exact ⟨by simpa only [Journal.position, Journal.group?, same] using position,
    by simpa only [Journal.records, same] using records⟩

/-- What a group is handed by an action is its next record. -/
theorem change (progress : system.Progress groupId start given) (sound : system.Sound)
    (hosts : system.hosts groupId = true) {taken : Option (Nat × Reader × JournalRecord)}
    (change : system.Change taken after) (hostsAfter : after.hosts groupId = true) :
    after.Progress groupId start (given ++ (groupId.share taken).map Prod.snd) := by
  have soundAfter := change.sound sound
  have steady : system.journal.Steady after.journal → after.Progress groupId start (given ++ []) :=
    fun steady => by
      rw [List.append_nil]
      exact progress.of_steady sound hosts soundAfter hostsAfter steady
  cases change with
  | grew growth => exact steady growth.steady
  | removed name =>
    simp only [GroupId.share, List.map_nil, List.append_nil]
    exact progress.removeTopic soundAfter hostsAfter
  | closed => simp [ReaderSystem.hosts, Journal.close] at hostsAfter
  | attached growth => exact steady (Journal.steady_join growth _ _)
  | asked => exact steady (.refl _)
  | took _ seen => exact progress.take sound hosts seen rfl
  | left => exact steady (Journal.steady_leave _ _)

theorem performAll (progress : system.Progress groupId start given) (sound : system.Sound)
    {actions : List Action} (lasts : system.hostsAll groupId actions = true) :
    (system.performAll actions).Progress groupId start
      (given ++ (system.handed groupId actions).map Prod.snd) := by
  induction actions generalizing system given with
  | nil => simpa [handed, ReaderSystem.performAll] using progress
  | cons action actions inductionHypothesis =>
    obtain ⟨hosts, rest⟩ := Bool.and_eq_true_iff.1 lasts
    have change := change_perform system action
    have next := progress.change sound hosts change (hosts_of_hostsAll rest)
    have last := inductionHypothesis next (change.sound sound) rest
    simpa [handed, ReaderSystem.performAll] using last

end Progress

/-! ## The life of a group -/

/-- A group that is made begins at the end of its topic. -/
theorem progress_attach (sound : system.Sound) (absent : system.hosts groupId = false)
    (hosts : (system.perform (.attach groupId.topic groupId.group)).hosts groupId = true) :
    (system.perform (.attach groupId.topic groupId.group)).Progress groupId
      (system.journal.records groupId.topic).length [] := by
  have soundAfter := (change_attach system groupId.topic groupId.group).sound sound
  have records := system.journal.records_attach groupId.topic groupId.group groupId.topic
  cases attached : system.journal.attach groupId.topic groupId.group with
  | mk journal result =>
    simp only [perform, attached] at hosts soundAfter records ⊢
    cases result with
    | error cause =>
      rw [Journal.attach_eq_error attached, absent] at hosts
      contradiction
    | ok reader =>
      obtain ⟨isOpen, ready, topic, growth, found, rfl, rfl⟩ := Journal.attach_eq_ok attached
      obtain ⟨_, current, _, live, _⟩ := (hosts_iff soundAfter).1 hosts
      have joined : (ready.modifyTopic groupId.topic
          (Journal.Topic.join · groupId.group)).topics.get?
          groupId.topic = some (Journal.Topic.join topic groupId.group) := by
        rw [Journal.get?_modifyTopic, if_pos rfl, found]
        rfl
      obtain ⟨isCurrent, epoch⟩ := Journal.liveTopic?_eq_some_iff.1 live
      obtain rfl := Option.some.inj (joined.symm.trans isCurrent)
      have new : topic.groups.get? groupId.group = none := by
        cases before : system.journal.topics.get? groupId.topic with
        | none =>
          rw [(growth.made before found).2.2]
          rfl
        | some earlier =>
          obtain ⟨more, isReady⟩ := growth.kept before
          obtain rfl := Option.some.inj (found.symm.trans isReady)
          by_contra present
          obtain ⟨present, isPresent⟩ := Option.ne_none_iff_exists'.1 present
          have hosted := (hosts_iff sound).2 ⟨isOpen, earlier, present,
            Journal.liveTopic?_eq_some_iff.2 ⟨before, epoch⟩, isPresent⟩
          rw [absent] at hosted
          contradiction
      have length : (system.journal.records groupId.topic).length = topic.records.length := by
        rw [← records, Journal.records, joined]
        rfl
      refine ⟨?_, List.nil_prefix⟩
      simp only [Journal.position, Journal.group?, joined, Option.bind_some,
        Journal.Topic.get?_join, if_true, new, length]
      rfl

/-- What an open reader of a group looks up is the record at the position of the group. -/
theorem peek_of_hosts (sound : system.Sound) (hosts : system.hosts groupId = true) {reader : Reader}
    (member : groupId.hasReader reader = true) (unreleased : reader.released = false) :
    system.journal.peek reader = .ok (system.journal.records groupId.topic)[
      system.journal.position groupId.topic groupId.group]? := by
  obtain ⟨isOpen, topic, present, live, joined⟩ := (hosts_iff sound).1 hosts
  obtain ⟨isTopic, epoch, group⟩ := of_decide_eq_true member
  have found := (Journal.liveTopic?_eq_some_iff.1 live).1
  rw [Journal.peek, unreleased, isOpen, isTopic, epoch, live]
  simp only [group, joined, Journal.records, Journal.position, Journal.group?, found,
    Option.bind_some, Option.elim_some, Bool.false_eq_true, or_self, if_false]

/-- A reader that waits for its topic to change, while it does not, misses nothing. -/
theorem length_le_of_waiting (sound : system.Sound) (hosts : system.hosts groupId = true)
    {state : ReaderState} (listed : state ∈ system.states)
    (member : groupId.hasReader state.reader = true) (waiting : state.asking = .waiting)
    (quiet : system.journal.mustLook state.reader = false) :
    (system.journal.records groupId.topic).length ≤
      system.journal.position groupId.topic groupId.group := by
  obtain ⟨_, topic, present, live, joined⟩ := (hosts_iff sound).1 hosts
  obtain ⟨isTopic, epoch, group⟩ := of_decide_eq_true member
  have found := (Journal.liveTopic?_eq_some_iff.1 live).1
  have read := sound.read state listed waiting
  rw [Journal.mustLook, isTopic, epoch, live] at quiet
  have seen : topic.records.length = state.reader.seen := by simpa using quiet
  simp only [Journal.records, Journal.position, Journal.group?, found, Option.bind_some, joined,
    Option.elim_some]
  by_contra beyond
  have missed := (read present.offset (by omega)).missed (isTopic ▸ epoch ▸ live)
  exact Nat.lt_irrefl _ (missed.behind (group ▸ joined))

/-- A reader that gives up takes nothing. -/
theorem journal_abandon (system : ReaderSystem) (index : Nat) :
    (system.perform (.abandon index)).journal = system.journal := by
  simp only [perform]
  split <;> rfl

/-- A reader that looks and is handed nothing takes nothing. -/
theorem journal_ask {index : Nat} (nothing : system.handout? (.ask index) = none) :
    (system.perform (.ask index)).journal = system.journal := by
  simp only [perform]
  cases found : system.states[index]? with
  | none => rfl
  | some state =>
    refine ReaderState.journal_step fun record got => ?_
    simp only [handout?, found, got] at nothing
    contradiction

/-- In every run of a journal and its readers, from the moment in which a group is made and as long
as it is there: its readers together are handed the records of the topic behind those that there
were at first, in order, each once. A reader that looks for a record gets the next of these, and one
that waits undisturbed waits because all were handed out. Who gives up or finds nothing takes
nothing, and the group is handed the same, by the same readers, whether others read or not. -/
theorem group_handed_each_record_once (createsOnDemand : Bool) (earlier later : List Action)
    (groupId : GroupId) (absent : (reached createsOnDemand earlier).hosts groupId = false)
    (lasts : ((reached createsOnDemand earlier).perform
      (.attach groupId.topic groupId.group)).hostsAll groupId later = true) :
    let before := reached createsOnDemand earlier
    let opened := before.perform (.attach groupId.topic groupId.group)
    let now := opened.performAll later
    let start := (before.journal.records groupId.topic).length
    let given := opened.handed groupId later
    given.map Prod.snd = ((now.journal.records groupId.topic).drop start).take given.length ∧
      (∀ state ∈ now.states, groupId.hasReader state.reader = true →
        state.reader.released = false →
          (state.asking = .marked → (state.step now.journal).2.2 =
            (now.journal.records groupId.topic)[start + given.length]?.map .ok) ∧
          (state.asking = .waiting → now.journal.mustLook state.reader = false →
            given.map Prod.snd = (now.journal.records groupId.topic).drop start)) ∧
      (∀ index, (now.perform (.abandon index)).journal = now.journal) ∧
      (∀ index, now.handout? (.ask index) = none →
        (now.perform (.ask index)).journal = now.journal) ∧
      ∀ less, FewerAsks groupId opened later less → opened.handed groupId less = given := by
  intro before opened now start given
  have sound : before.Sound := sound_reached createsOnDemand earlier
  have soundOpened : opened.Sound := (change_attach before _ _).sound sound
  have soundNow : now.Sound := sound_performAll soundOpened later
  have hosts : now.hosts groupId = true := hosts_performAll lasts
  have progress : now.Progress groupId start (given.map Prod.snd) :=
    (progress_attach sound absent (hosts_of_hostsAll lasts)).performAll soundOpened lasts
  have position : now.journal.position groupId.topic groupId.group = start + given.length := by
    rw [progress.position, List.length_map]
  have taken : given.map Prod.snd =
      ((now.journal.records groupId.topic).drop start).take given.length := by
    rw [← List.length_map Prod.snd]
    exact List.prefix_iff_eq_take.1 progress.records
  refine ⟨taken, ?_, journal_abandon now, fun _ => journal_ask, fun _ fewerAsks =>
    handed_eq_of_fewerAsks fewerAsks (.refl opened)⟩
  · intro state listed member unreleased
    refine ⟨fun marked => ?_, fun waiting quiet => ?_⟩
    · have peeked := peek_of_hosts soundNow hosts member unreleased
      rw [position] at peeked
      simp only [ReaderState.step, marked, peeked]
      cases (now.journal.records groupId.topic)[start + given.length]? <;> rfl
    · have all := length_le_of_waiting soundNow hosts listed member waiting quiet
      rw [taken, List.take_of_length_le]
      rw [List.length_drop]
      omega

/-- A topic with one record, and a reader of one group. -/
def earlierGroup : List Action := [.append "updates" ⟨[112], [1]⟩, .attach "updates" "second"]

/-- Another group gets two readers, which both wait. One gives up; the other gets the next record
and the first the one after it. The reader of the other group reads in between. -/
def sharedReading : List Action :=
  [.attach "updates" "first", .ask 1, .ask 1, .ask 2, .ask 2, .append "updates" ⟨[112], [2]⟩,
    .ask 0, .ask 0, .abandon 1, .ask 2, .ask 2, .ask 1, .append "updates" ⟨[112], [3]⟩, .ask 1,
    .leave 2]

/-- The same without what the reader of the other group asks. -/
def undisturbedReading : List Action :=
  [.attach "updates" "first", .ask 1, .ask 1, .ask 2, .ask 2, .append "updates" ⟨[112], [2]⟩,
    .abandon 1, .ask 2, .ask 2, .ask 1, .append "updates" ⟨[112], [3]⟩, .ask 1, .leave 2]

/-- Both records that came after the group was made are handed out, each to one reader. -/
theorem sharedReading_handed :
    let opened := (reached true earlierGroup).perform (.attach "updates" "first")
    let groupId : GroupId := ⟨"updates", 1, "first"⟩
    (reached true earlierGroup).hosts groupId = false ∧
      opened.hostsAll groupId sharedReading = true ∧
      opened.handed groupId sharedReading = [(2, ⟨[112], [2]⟩), (1, ⟨[112], [3]⟩)] ∧
      (opened.handed groupId sharedReading).map Prod.snd =
        (((opened.performAll sharedReading).journal.records "updates").drop 1).take 2 ∧
      opened.handed groupId undisturbedReading = opened.handed groupId sharedReading := by
  intro opened groupId
  have absent : (reached true earlierGroup).hosts groupId = false := by decide
  have lasts : opened.hostsAll groupId sharedReading = true := by decide
  obtain ⟨taken, _, _, _, isolated⟩ :=
    group_handed_each_record_once true earlierGroup sharedReading groupId absent lasts
  have handed : opened.handed groupId sharedReading =
      [(2, ⟨[112], [2]⟩), (1, ⟨[112], [3]⟩)] := by decide
  have start : ((reached true earlierGroup).journal.records "updates").length = 1 := by decide
  have length : (opened.handed groupId sharedReading).length = 2 := by rw [handed]; rfl
  refine ⟨absent, lasts, handed, ?_, isolated undisturbedReading ?_⟩
  · rw [start, length] at taken
    exact taken
  refine .keep _ <| .keep _ <| .keep _ <| .keep _ <| .keep _ <| .keep _ ?_
  refine @FewerAsks.skip _ _ _ _ _ ⟨⟨"updates", 1, "second", 1, false⟩, .no⟩ (by decide) rfl ?_
  refine @FewerAsks.skip _ _ _ _ _ ⟨⟨"updates", 1, "second", 2, false⟩, .marked⟩ (by decide) rfl ?_
  exact .keep _ <| .keep _ <| .keep _ <| .keep _ <| .keep _ <| .keep _ <| .keep _ <| .nil _

end UpdateRelay.ReaderSystem
