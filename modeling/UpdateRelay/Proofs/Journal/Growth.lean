import UpdateRelay.Journal.Basic
import UpdateRelay.Proofs.Table

/-!
# Growth of a journal

Writing and the making of topics only let a journal grow: `Journal.Grows` says that topics keep
their groups and the records that they have, and that new topics are younger than all before them.
Opening a reader is growth followed by one more member of a group.
-/

namespace UpdateRelay.Journal

/-- A journal after writes and the making of topics. -/
structure Grows (journal after : Journal) : Prop where
  closed : after.closed = journal.closed
  epochs : journal.epochs ≤ after.epochs
  kept : ∀ {name topic}, journal.topics.get? name = some topic →
    ∃ more, after.topics.get? name = some { topic with records := topic.records ++ more }
  made : ∀ {name topic}, journal.topics.get? name = none → after.topics.get? name = some topic →
    journal.epochs < topic.epoch ∧ topic.epoch ≤ after.epochs ∧ topic.groups = ∅

theorem get?_modifyTopic (journal : Journal) (name query : String) (change : Topic → Topic) :
    (journal.modifyTopic name change).topics.get? query =
      if query = name then (journal.topics.get? name).map change
      else journal.topics.get? query :=
  Table.get?_modify journal.topics name query change

theorem hasTopic_eq_isSome (journal : Journal) (name : String) :
    journal.hasTopic name = (journal.topics.get? name).isSome :=
  Table.contains_eq_isSome journal.topics name

/-! ## What lets a journal grow -/

/-- Counting attempts and showing faults does not touch the topics. -/
theorem Grows.of_same {journal after : Journal} (closed : after.closed = journal.closed)
    (epochs : after.epochs = journal.epochs) (topics : after.topics = journal.topics) :
    Grows journal after where
  closed := closed
  epochs := Nat.le_of_eq epochs.symm
  kept := fun {name topic} found => ⟨[], by simp [topics, found]⟩
  made := fun absent found => by simp [topics, absent] at found

theorem Grows.refl (journal : Journal) : Grows journal journal := .of_same rfl rfl rfl

theorem Grows.trans {journal middle after : Journal} (first : Grows journal middle)
    (last : Grows middle after) : Grows journal after where
  closed := last.closed.trans first.closed
  epochs := Nat.le_trans first.epochs last.epochs
  kept := by
    intro name topic found
    obtain ⟨early, foundMiddle⟩ := first.kept found
    obtain ⟨late, foundAfter⟩ := last.kept foundMiddle
    exact ⟨early ++ late, by simpa using foundAfter⟩
  made := by
    intro name topic absent found
    cases foundMiddle : middle.topics.get? name with
    | none =>
      obtain ⟨younger, old, bare⟩ := last.made foundMiddle found
      exact ⟨Nat.lt_of_le_of_lt first.epochs younger, old, bare⟩
    | some early =>
      obtain ⟨younger, old, bare⟩ := first.made absent foundMiddle
      obtain ⟨more, foundAfter⟩ := last.kept foundMiddle
      obtain rfl := Option.some.inj (foundAfter.symm.trans found)
      exact ⟨younger, Nat.le_trans old last.epochs, bare⟩

theorem Grows.addTopic {journal : Journal} {name : String}
    (absent : journal.topics.get? name = none) : Grows journal (journal.addTopic name) where
  closed := rfl
  epochs := Nat.le_succ _
  kept := by
    intro query topic found
    refine ⟨[], ?_⟩
    have other : query ≠ name := by
      rintro rfl
      simp [absent] at found
    simp [Journal.addTopic, Table.get?_set, other, found]
  made := by
    intro query topic missing found
    rw [Journal.addTopic, Table.get?_set] at found
    split at found
    next =>
      obtain rfl := Option.some.inj found
      exact ⟨Nat.lt_succ_self _, Nat.le_refl _, rfl⟩
    next => simp [missing] at found

theorem Grows.ensureTopic {journal ready : Journal} {name : String}
    (ensured : journal.ensureTopic name = .ok ready) : Grows journal ready := by
  unfold Journal.ensureTopic at ensured
  split at ensured
  next =>
    obtain rfl := Except.ok.inj ensured
    exact .refl journal
  next absent =>
    split at ensured
    next =>
      obtain rfl := Except.ok.inj ensured
      refine .addTopic ?_
      simpa [hasTopic_eq_isSome] using absent
    next => contradiction

theorem Grows.addRecord (journal : Journal) (name : String) (record : JournalRecord) :
    Grows journal (journal.modifyTopic name fun topic =>
      { topic with records := topic.records ++ [record] }) where
  closed := rfl
  epochs := Nat.le_refl _
  kept := by
    intro query topic found
    rw [get?_modifyTopic]
    split
    next same => exact ⟨[record], by rw [← same, found]; rfl⟩
    next => exact ⟨[], by simp [found]⟩
  made := by
    intro query topic absent found
    rw [get?_modifyTopic] at found
    split at found
    next same => simp [← same, absent] at found
    next => simp [absent] at found

theorem grows_append (journal : Journal) (name : String) (record : JournalRecord) :
    Grows journal (journal.append name record).1 := by
  have counted : Grows journal { journal with appendCount := journal.appendCount + 1 } :=
    .of_same rfl rfl rfl
  simp only [append]
  split
  next => exact counted
  next =>
    split
    next => exact .of_same rfl rfl rfl
    next =>
      split
      next => exact counted
      next ready ensured => exact (counted.trans (.ensureTopic ensured)).trans (.addRecord _ _ _)

theorem grows_makeTopic (journal : Journal) (name : String) :
    Grows journal (journal.makeTopic name).1 := by
  have counted : Grows journal { journal with makeCount := journal.makeCount + 1 } :=
    .of_same rfl rfl rfl
  simp only [makeTopic]
  split
  next => exact counted
  next =>
    split
    next => exact counted
    next =>
      split
      next => exact counted
      next absent =>
        refine counted.trans (.addTopic ?_)
        simpa [hasTopic_eq_isSome] using absent

/-! ## Opening a reader -/

/-- A reader that was opened joined its group in a topic that may have been made for it. -/
theorem attach_eq_ok {journal after : Journal} {name group : String} {reader : Reader}
    (attached : journal.attach name group = (after, .ok reader)) :
    journal.closed = false ∧ ∃ ready topic, Grows journal ready ∧
      ready.topics.get? name = some topic ∧ after = ready.modifyTopic name (Topic.join · group) ∧
      reader = ⟨name, topic.epoch, group, topic.records.length, false⟩ := by
  unfold attach at attached
  split at attached
  next => simp at attached
  next notClosed =>
    split at attached
    next => simp at attached
    next ready ensured =>
      split at attached
      next => simp at attached
      next topic found =>
        obtain ⟨rfl, same⟩ := Prod.mk.inj attached
        obtain rfl := Except.ok.inj same
        exact ⟨by simpa using notClosed, ready, topic, .ensureTopic ensured, found, rfl, rfl⟩

/-- A reader that could not be opened leaves the journal as it was. -/
theorem attach_eq_error {journal after : Journal} {name group : String} {cause : JournalFailure}
    (failed : journal.attach name group = (after, .error cause)) : after = journal := by
  unfold attach at failed
  split at failed
  next => exact (Prod.mk.inj failed).1.symm
  next =>
    split at failed
    next => exact (Prod.mk.inj failed).1.symm
    next =>
      split at failed
      next => exact (Prod.mk.inj failed).1.symm
      next => simp at failed

end UpdateRelay.Journal
