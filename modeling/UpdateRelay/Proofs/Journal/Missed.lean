import UpdateRelay.Proofs.Journal.Position

/-!
# Records that a consumer group never gets

A group that does not exist while a record is in its topic starts behind the record when it is made.
`Journal.Misses` says that a group is behind a record or does not exist, and whatever happens to the
journal keeps this: topics that are made later are other topics, groups that are made later start at
the end, and no group ever goes back.
-/

namespace UpdateRelay

/-- Which record: the name and the epoch of its topic, and its number there. -/
structure RecordId where
  topic : String
  epoch : Nat
  number : Nat
  deriving DecidableEq, Repr

/-- Whether a topic has a record of some number and no position of a group is before it. -/
structure Topic.Misses (topic : Topic) (number : Nat) (group : String) : Prop where
  held : number < topic.records.length
  behind : ∀ {present : Group}, topic.groups.get? group = some present → number < present.offset

namespace Topic.Misses

variable {topic : Topic} {number : Nat} {group : String}

theorem append (misses : topic.Misses number group) (more : List JournalRecord) :
    { topic with records := topic.records ++ more }.Misses number group where
  held := by
    rw [List.length_append]
    exact Nat.lt_add_right _ misses.held
  behind := misses.behind

/-- Whoever makes a group starts it at the end. -/
theorem join (misses : topic.Misses number group) (joined : String) :
    (Journal.Topic.join topic joined).Misses number group where
  held := misses.held
  behind := by
    intro present isPresent
    rw [Journal.Topic.get?_join] at isPresent
    split at isPresent
    next same =>
      subst same
      obtain rfl := Option.some.inj isPresent
      cases before : topic.groups.get? group with
      | none => exact misses.held
      | some old =>
        have passed := misses.behind before
        exact passed
    next => exact misses.behind isPresent

theorem leave (misses : topic.Misses number group) (left : String) :
    (Journal.Topic.leave topic left).Misses number group where
  held := by
    rw [Journal.Topic.records_leave]
    exact misses.held
  behind := by
    intro present isPresent
    rw [Journal.Topic.get?_leave] at isPresent
    split at isPresent
    next same =>
      subst same
      obtain ⟨old, before, shrunk⟩ := Option.bind_eq_some_iff.1 isPresent
      have passed := misses.behind before
      split at shrunk
      next => contradiction
      next =>
        obtain rfl := Option.some.inj shrunk
        exact passed
    next => exact misses.behind isPresent

theorem advance (misses : topic.Misses number group) (read : String) :
    (Journal.Topic.advance topic read).Misses number group where
  held := misses.held
  behind := by
    intro present isPresent
    rw [Journal.Topic.get?_advance] at isPresent
    split at isPresent
    next same =>
      obtain ⟨old, before, rfl⟩ := Option.map_eq_some_iff.1 isPresent
      have passed := misses.behind (same ▸ before)
      split
      next => exact Nat.lt_succ_of_lt passed
      next => exact passed
    next => exact misses.behind isPresent

end Topic.Misses

namespace Journal

/-- Whether a record is in the journal. -/
def Holds (journal : Journal) (source : RecordId) : Prop :=
  ∃ topic, journal.liveTopic? source.topic source.epoch = some topic ∧
    source.number < topic.records.length

/-- Whether no reader of a group can get a record any more. -/
structure Misses (journal : Journal) (source : RecordId) (group : String) : Prop where
  old : source.epoch ≤ journal.epochs
  missed : ∀ {topic : Topic}, journal.liveTopic? source.topic source.epoch = some topic →
    topic.Misses source.number group

namespace Misses

variable {journal : Journal} {source : RecordId} {group : String}

/-- A group that nobody reads for misses all that the journal holds. -/
theorem ofNobody {readers : List Reader} (counts : MemberCounts journal readers)
    (holds : journal.Holds source)
    (nobody : ∀ reader ∈ readers, reader.topic = source.topic → reader.group ≠ group) :
    journal.Misses source group := by
  obtain ⟨topic, live, inside⟩ := holds
  obtain ⟨found, epoch⟩ := liveTopic?_eq_some_iff.1 live
  have absent : topic.groups.get? group = none := by
    refine counts.get?_group_eq_none found (List.countP_eq_zero.2 fun reader member reads => ?_)
    simp only [Reader.readsFor, decide_eq_true_eq] at reads
    exact nobody reader member reads.1 reads.2.2
  refine ⟨epoch ▸ counts.topicEpoch found, fun {current} isCurrent => ?_⟩
  obtain rfl : topic = current := Option.some.inj (live.symm.trans isCurrent)
  refine ⟨inside, fun {present} isPresent => ?_⟩
  rw [absent] at isPresent
  contradiction

/-- What becomes of one topic is all that matters. -/
theorem of_source {after : Journal} (misses : journal.Misses source group)
    (epochs : journal.epochs ≤ after.epochs)
    (kept : ∀ {topic : Topic}, after.liveTopic? source.topic source.epoch = some topic →
      ∃ earlier, journal.liveTopic? source.topic source.epoch = some earlier ∧
        (earlier.Misses source.number group → topic.Misses source.number group)) :
    after.Misses source group where
  old := Nat.le_trans misses.old epochs
  missed := by
    intro topic live
    obtain ⟨earlier, wasLive, keeps⟩ := kept live
    exact keeps (misses.missed wasLive)

theorem grows {after : Journal} (misses : journal.Misses source group)
    (growth : journal.Grows after) : after.Misses source group := by
  refine misses.of_source growth.epochs fun {topic} live => ?_
  obtain ⟨found, epoch⟩ := liveTopic?_eq_some_iff.1 live
  cases before : journal.topics.get? source.topic with
  | none =>
    -- A topic made since is younger than the record.
    have younger := (growth.made before found).1
    have := misses.old
    omega
  | some earlier =>
    obtain ⟨more, isAfter⟩ := growth.kept before
    obtain rfl := Option.some.inj (found.symm.trans isAfter)
    exact ⟨earlier, liveTopic?_eq_some_iff.2 ⟨before, epoch⟩, fun missed => missed.append more⟩

theorem modifyTopic (misses : journal.Misses source group) (name : String)
    {change : Topic → Topic} (epoch : ∀ topic, (change topic).epoch = topic.epoch)
    (keeps : ∀ {topic : Topic}, topic.Misses source.number group →
      (change topic).Misses source.number group) :
    (journal.modifyTopic name change).Misses source group := by
  refine misses.of_source (Nat.le_refl _) fun {topic} live => ?_
  obtain ⟨found, same⟩ := liveTopic?_eq_some_iff.1 live
  rw [get?_modifyTopic] at found
  split at found
  next here =>
    obtain ⟨earlier, before, rfl⟩ := Option.map_eq_some_iff.1 found
    rw [epoch] at same
    exact ⟨earlier, liveTopic?_eq_some_iff.2 ⟨here ▸ before, same⟩, keeps⟩
  next => exact ⟨topic, liveTopic?_eq_some_iff.2 ⟨found, same⟩, id⟩

theorem leave (misses : journal.Misses source group) (reader : Reader) :
    (journal.leave reader).Misses source group := by
  unfold Journal.leave
  split
  next => exact misses
  next =>
    split
    next => exact misses
    next =>
      exact misses.modifyTopic _ (fun topic => Topic.epoch_leave topic reader.group)
        fun missed => missed.leave reader.group

theorem take (misses : journal.Misses source group) (reader : Reader) :
    (journal.take reader).Misses source group := by
  unfold Journal.take
  split
  next => exact misses.modifyTopic _ (fun _ => rfl) fun missed => missed.advance reader.group
  next => exact misses

theorem close (misses : journal.Misses source group) : journal.close.Misses source group :=
  ⟨misses.old, fun live => nomatch (liveTopic?_eq_some_iff.1 live).1⟩

theorem removeTopic (misses : journal.Misses source group) (name : String) :
    (journal.removeTopic name).Misses source group := by
  refine misses.of_source (Nat.le_refl _) fun {topic} live => ?_
  obtain ⟨found, same⟩ := liveTopic?_eq_some_iff.1 live
  rw [Journal.removeTopic, Table.get?_erase] at found
  split at found
  next => contradiction
  next => exact ⟨topic, liveTopic?_eq_some_iff.2 ⟨found, same⟩, id⟩

/-- What a reader of the group gets comes after the record. -/
theorem lt_position (misses : journal.Misses source group) {reader : Reader}
    {result : Option JournalRecord} (seen : journal.peek reader = .ok result)
    (topic : reader.topic = source.topic) (epoch : reader.epoch = source.epoch)
    (isGroup : reader.group = group) :
    source.number < journal.position reader.topic reader.group := by
  obtain ⟨current, present, live, joined, _⟩ := peek_eq_ok seen
  obtain ⟨found, _⟩ := liveTopic?_eq_some_iff.1 live
  have missed := misses.missed (topic ▸ epoch ▸ live)
  rw [position, group?, found, Option.bind_some, joined, Option.elim_some]
  exact missed.behind (isGroup ▸ joined)

end Misses

end Journal

end UpdateRelay
