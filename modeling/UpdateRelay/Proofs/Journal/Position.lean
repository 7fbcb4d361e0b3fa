import UpdateRelay.Proofs.Journal.MemberCounts

/-!
# Positions of consumer groups

How far a group has come in its topic. Everything that happens to a journal short of the end of a
topic is `Journal.Steady`: records are only added at the end, and a group that is there before and
after has the same position. Only reading moves a group on, by one record.
-/

namespace UpdateRelay.Journal

/-- A group of the topic of a name. -/
def group? (journal : Journal) (name group : String) : Option Group :=
  (journal.topics.get? name).bind fun topic => topic.groups.get? group

/-- The position of the next record of a group. -/
def position (journal : Journal) (name group : String) : Nat :=
  (journal.group? name group).elim 0 (·.offset)

/-- Topics stay with all their records, and groups that stay keep their positions. -/
structure Steady (journal after : Journal) : Prop where
  closed : after.closed = journal.closed
  kept : ∀ {name : String} {topic : Topic}, journal.topics.get? name = some topic →
    ∃ later, after.topics.get? name = some later ∧ later.epoch = topic.epoch ∧
      (∃ more, later.records = topic.records ++ more) ∧
      ∀ {group : String} {present current : Group}, topic.groups.get? group = some present →
        later.groups.get? group = some current → current.offset = present.offset

/-- No consumer group comes past the end of its topic. -/
theorem position_le_of_counts {journal : Journal} {readers : List Reader}
    (counts : MemberCounts journal readers) (name group : String) :
    journal.position name group ≤ (journal.records name).length := by
  unfold position group? records
  cases found : journal.topics.get? name with
  | none => exact Nat.le_refl _
  | some topic =>
    cases joined : topic.groups.get? group with
    | none => simp [joined]
    | some present =>
      simp only [Option.bind_some, joined, Option.elim_some]
      exact counts.placed found joined

/-! ## What is steady -/

theorem Grows.steady {journal after : Journal} (growth : journal.Grows after) :
    journal.Steady after where
  closed := growth.closed
  kept := by
    intro name topic found
    obtain ⟨more, foundAfter⟩ := growth.kept found
    refine ⟨_, foundAfter, rfl, ⟨more, rfl⟩, fun isPresent isCurrent => ?_⟩
    rw [isPresent] at isCurrent
    rw [Option.some.inj isCurrent]

theorem Steady.refl (journal : Journal) : journal.Steady journal := (Grows.refl journal).steady

/-- A new member starts where its group is. -/
theorem steady_join {journal ready : Journal} (growth : journal.Grows ready) (name group : String) :
    journal.Steady (ready.modifyTopic name (Topic.join · group)) where
  closed := growth.closed
  kept := by
    intro query topic found
    obtain ⟨more, isReady⟩ := growth.kept found
    rw [get?_modifyTopic]
    by_cases here : query = name
    · subst here
      rw [if_pos rfl, isReady]
      refine ⟨_, rfl, rfl, ⟨more, rfl⟩, fun {asked present current} isPresent isCurrent => ?_⟩
      rw [Topic.get?_join] at isCurrent
      split at isCurrent
      next same =>
        subst same
        simp only [isPresent, Option.some.injEq] at isCurrent
        rw [← isCurrent]
      next =>
        rw [isPresent] at isCurrent
        rw [Option.some.inj isCurrent]
    · rw [if_neg here]
      refine ⟨_, isReady, rfl, ⟨more, rfl⟩, fun isPresent isCurrent => ?_⟩
      rw [isPresent] at isCurrent
      rw [Option.some.inj isCurrent]

theorem steady_leave (journal : Journal) (reader : Reader) :
    journal.Steady (journal.leave reader) := by
  unfold leave
  split
  next => exact .refl journal
  next =>
    split
    next => exact .refl journal
    next left isLive =>
      refine ⟨rfl, fun {query topic} found => ?_⟩
      rw [get?_modifyTopic]
      by_cases here : query = reader.topic
      · subst here
        rw [if_pos rfl, found]
        refine ⟨_, rfl, Topic.epoch_leave topic reader.group, ⟨[], ?_⟩,
          fun {asked present current} isPresent isCurrent => ?_⟩
        · rw [Topic.records_leave, List.append_nil]
        · rw [Topic.get?_leave] at isCurrent
          split at isCurrent
          next same =>
            subst same
            -- Who leaves last takes the group along, so a group that is left had other members.
            rw [isPresent, Option.bind_some] at isCurrent
            split at isCurrent
            next => contradiction
            next => rw [← Option.some.inj isCurrent]
          next =>
            rw [isPresent] at isCurrent
            rw [Option.some.inj isCurrent]
      · rw [if_neg here]
        refine ⟨topic, found, rfl, ⟨[], by simp⟩, fun isPresent isCurrent => ?_⟩
        rw [isPresent] at isCurrent
        rw [Option.some.inj isCurrent]

/-- Leaving a group does nothing to the others. -/
theorem group?_leave_of_ne (journal : Journal) (reader : Reader) {name group : String}
    (other : group ≠ reader.group) :
    (journal.leave reader).group? name group = journal.group? name group := by
  unfold leave
  split
  next => rfl
  next =>
    split
    next => rfl
    next =>
      unfold group?
      rw [get?_modifyTopic]
      by_cases here : name = reader.topic
      · subst here
        rw [if_pos rfl]
        cases journal.topics.get? reader.topic with
        | none => rfl
        | some topic =>
          simp only [Option.map_some, Option.bind_some, Topic.get?_leave, if_neg other]
      · rw [if_neg here]

/-- A group that is there after a topic was removed is one of another topic, which is as it was. -/
theorem get?_removeTopic_of_group {journal : Journal} {name query group : String} {current : Group}
    (is : (journal.removeTopic name).group? query group = some current) :
    (journal.removeTopic name).topics.get? query = journal.topics.get? query := by
  obtain ⟨topic, found, _⟩ := Option.bind_eq_some_iff.1 is
  rw [removeTopic, Table.get?_erase] at found ⊢
  split at found
  next => contradiction
  next other => rw [if_neg other]

/-! ## What steadiness keeps -/

namespace Steady

variable {journal after : Journal}

theorem liveTopic? (steady : journal.Steady after) {name : String} {epoch : Nat}
    (live : (journal.liveTopic? name epoch).isSome) : (after.liveTopic? name epoch).isSome := by
  obtain ⟨topic, isLive⟩ := Option.isSome_iff_exists.1 live
  obtain ⟨found, same⟩ := liveTopic?_eq_some_iff.1 isLive
  obtain ⟨later, isLater, epochs, _⟩ := steady.kept found
  rw [liveTopic?_eq_some_iff.2 ⟨isLater, epochs.trans same⟩]
  rfl

/-- A group that is there before and after has the same position in the same records. -/
theorem position_eq (steady : journal.Steady after) {name group : String} {present current : Group}
    (was : journal.group? name group = some present)
    (is : after.group? name group = some current) :
    after.position name group = journal.position name group ∧
      ∃ more, after.records name = journal.records name ++ more := by
  obtain ⟨topic, found, joined⟩ := Option.bind_eq_some_iff.1 was
  obtain ⟨later, isLater, _, ⟨more, records⟩, offsets⟩ := steady.kept found
  have stillJoined := is
  rw [group?, isLater, Option.bind_some] at stillJoined
  refine ⟨?_, more, ?_⟩
  · rw [position, position, was, is]
    exact offsets joined stillJoined
  · rw [Journal.records, Journal.records, found, isLater]
    exact records

end Steady

/-! ## Reading -/

section Take

variable {journal : Journal} {reader : Reader} {record : JournalRecord}

theorem get?_take (seen : journal.peek reader = .ok (some record)) (query : String) :
    (journal.take reader).topics.get? query =
      if query = reader.topic then
        (journal.topics.get? reader.topic).map (Topic.advance · reader.group)
      else journal.topics.get? query := by
  rw [take_of_peek seen, get?_modifyTopic]

theorem closed_take (journal : Journal) (reader : Reader) :
    (journal.take reader).closed = journal.closed := by
  unfold take
  split <;> rfl

theorem records_take (seen : journal.peek reader = .ok (some record)) (name : String) :
    (journal.take reader).records name = journal.records name := by
  unfold records
  rw [get?_take seen]
  by_cases here : name = reader.topic
  · subst here
    rw [if_pos rfl]
    cases journal.topics.get? reader.topic <;> rfl
  · rw [if_neg here]

theorem liveTopic?_take (seen : journal.peek reader = .ok (some record)) {name : String}
    {epoch : Nat} (live : (journal.liveTopic? name epoch).isSome) :
    ((journal.take reader).liveTopic? name epoch).isSome := by
  obtain ⟨topic, isLive⟩ := Option.isSome_iff_exists.1 live
  obtain ⟨found, same⟩ := liveTopic?_eq_some_iff.1 isLive
  rw [Option.isSome_iff_exists]
  by_cases here : name = reader.topic
  · subst here
    refine ⟨Topic.advance topic reader.group, liveTopic?_eq_some_iff.2 ⟨?_, same⟩⟩
    rw [get?_take seen, if_pos rfl, found]
    rfl
  · refine ⟨topic, liveTopic?_eq_some_iff.2 ⟨?_, same⟩⟩
    rw [get?_take seen, if_neg here, found]

/-- Reading moves the group of the reader past the record that it gets. -/
theorem position_take (seen : journal.peek reader = .ok (some record)) :
    (journal.records reader.topic)[journal.position reader.topic reader.group]? = some record ∧
      (journal.take reader).position reader.topic reader.group =
        journal.position reader.topic reader.group + 1 := by
  obtain ⟨topic, group, live, joined, isRecord⟩ := peek_eq_ok seen
  obtain ⟨found, _⟩ := liveTopic?_eq_some_iff.1 live
  have below : group.offset < topic.records.length := (List.getElem?_eq_some_iff.1 isRecord.symm).1
  constructor
  · simp only [records, position, group?, found, Option.bind_some, joined, Option.elim_some]
    exact isRecord.symm
  · simp only [position, group?, get?_take seen, if_true, found, Option.map_some,
      Option.bind_some, Topic.get?_advance, joined, Option.elim_some, below]

/-- Reading leaves every other group as it is. -/
theorem group?_take_of_ne (journal : Journal) (reader : Reader) {name group : String}
    (other : group ≠ reader.group) :
    (journal.take reader).group? name group = journal.group? name group := by
  unfold take
  split
  next =>
    unfold group?
    rw [get?_modifyTopic]
    by_cases here : name = reader.topic
    · subst here
      rw [if_pos rfl]
      cases journal.topics.get? reader.topic with
      | none => rfl
      | some topic =>
        simp only [Option.map_some, Option.bind_some, Topic.get?_advance, if_neg other]
    · rw [if_neg here]
  next => rfl

theorem position_take_of_ne (journal : Journal) (reader : Reader) {name group : String}
    (other : group ≠ reader.group) :
    (journal.take reader).position name group = journal.position name group := by
  rw [position, position, journal.group?_take_of_ne reader other]

/-- A reader that finds nothing has come to the end of its topic. -/
theorem length_le_of_peek (seen : journal.peek reader = .ok none) :
    (journal.look reader).seen = (journal.records reader.topic).length ∧
      (journal.records reader.topic).length ≤ journal.position reader.topic reader.group := by
  obtain ⟨topic, group, live, joined, isNothing⟩ := peek_eq_ok seen
  obtain ⟨found, _⟩ := liveTopic?_eq_some_iff.1 live
  constructor
  · simp only [look, live, records, found]
  · simp only [records, position, group?, found, Option.bind_some, joined, Option.elim_some]
    exact List.getElem?_eq_none_iff.1 isNothing.symm

end Take

end UpdateRelay.Journal
