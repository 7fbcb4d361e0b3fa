import UpdateRelay.Proofs.Journal.Content

/-!
# What writing does to a journal

`Journal.Write` lists what a write can come to, in the order in which a journal looks for it. A
record that is written stands at the end of its topic and no other topic changes: `Journal.Added`.
A write that fails changes no topic, so that `Journal.Settled` is all that is left of it.
-/

namespace UpdateRelay.Journal

variable {journal after : Journal} {name : String} {record : JournalRecord}

/-! ## One record more -/

theorem records_eq_getD (journal : Journal) (name : String) :
    journal.records name = (journal.content? name).getD [] := by
  unfold records content?
  cases journal.topics.get? name <;> rfl

/-- A topic got one record more, at its end, and the others stayed as they were. -/
structure Added (journal after : Journal) (name : String) (record : JournalRecord) : Prop where
  written : after.content? name = some (journal.records name ++ [record])
  elsewhere : ∀ other, other ≠ name → after.content? other = journal.content? other

theorem Added.records (added : journal.Added after name record) (query : String) :
    after.records query =
      if query = name then journal.records name ++ [record] else journal.records query := by
  rw [records_eq_getD after]
  split
  next same =>
    rw [same, added.written]
    rfl
  next other => rw [added.elsewhere query other, records_eq_getD]

/-- A topic that was made just before the record was added does not matter to the others. -/
theorem Added.of_records {ready : Journal} (added : ready.Added after name record)
    (records : ready.records name = journal.records name)
    (elsewhere : ∀ other, other ≠ name → ready.content? other = journal.content? other) :
    journal.Added after name record where
  written := records ▸ added.written
  elsewhere := fun other isOther =>
    (added.elsewhere other isOther).trans (elsewhere other isOther)

/-- Topics that did not change have no record more. -/
theorem not_added_of_topics (same : after.topics = journal.topics) :
    ¬journal.Added after name record := by
  intro added
  have more := added.records name
  have kept : after.records name = journal.records name := by
    rw [Journal.records, Journal.records, same]
  rw [kept, if_pos rfl, List.self_eq_append_right] at more
  contradiction

theorem added_addRecord (has : journal.hasTopic name = true) (record : JournalRecord) :
    journal.Added (journal.modifyTopic name fun topic =>
      { topic with records := topic.records ++ [record] }) name record where
  written := by
    rw [hasTopic_eq_isSome] at has
    obtain ⟨topic, found⟩ := Option.isSome_iff_exists.1 has
    rw [content?, get?_modifyTopic, if_pos rfl, Journal.records, found]
    rfl
  elsewhere := fun other isOther => by rw [content?, content?, get?_modifyTopic, if_neg isOther]

/-! ## Topics that are made -/

theorem content?_addTopic (journal : Journal) (name query : String) :
    (journal.addTopic name).content? query =
      if query = name then some [] else journal.content? query := by
  rw [content?, addTopic, Table.get?_set]
  split <;> rfl

theorem ensureTopic_cases (journal : Journal) (name : String) :
    (journal.hasTopic name = true ∧ journal.ensureTopic name = .ok journal) ∨
      (journal.hasTopic name = false ∧ journal.createsOnDemand = true ∧
        journal.ensureTopic name = .ok (journal.addTopic name)) ∨
      (journal.hasTopic name = false ∧ journal.createsOnDemand = false ∧
        journal.ensureTopic name = .error (.unknownTopic name)) := by
  unfold ensureTopic
  cases journal.hasTopic name with
  | true => exact Or.inl ⟨rfl, rfl⟩
  | false =>
    cases journal.createsOnDemand with
    | true => exact Or.inr (Or.inl ⟨rfl, rfl, rfl⟩)
    | false => exact Or.inr (Or.inr ⟨rfl, rfl, rfl⟩)

/-- A record that is added to a topic just made is its first. -/
theorem added_addTopic (absent : journal.hasTopic name = false)
    (added : (journal.addTopic name).Added after name record) :
    journal.Added after name record :=
  added.of_records (journal.records_addTopic absent name) fun other isOther => by
    rw [content?_addTopic, if_neg isOther]

/-! ## How a write can go -/

/-- What a write can come to. -/
inductive Write (journal : Journal) (name : String) (record : JournalRecord) :
    Journal → Except JournalFailure Unit → Prop
  | closed (ended : journal.closed = true) :
      Write journal name record { journal with appendCount := journal.appendCount + 1 }
        (.error .closed)
  | broken (isOpen : journal.closed = false) (fault : 0 < journal.brokenAppends) :
      Write journal name record
        { journal with
          appendCount := journal.appendCount + 1
          brokenAppends := journal.brokenAppends - 1 }
        (.error (.transport "write failed"))
  | missing (isOpen : journal.closed = false) (sound : journal.brokenAppends = 0)
      (strict : journal.createsOnDemand = false) (absent : journal.hasTopic name = false) :
      Write journal name record { journal with appendCount := journal.appendCount + 1 }
        (.error (.unknownTopic name))
  | written {after : Journal} (isOpen : journal.closed = false)
      (sound : journal.brokenAppends = 0) (added : journal.Added after name record)
      (appendCount : after.appendCount = journal.appendCount + 1)
      (makeCount : after.makeCount = journal.makeCount) :
      Write journal name record after (.ok ())

theorem write_append (journal : Journal) (name : String) (record : JournalRecord) :
    Write journal name record (journal.append name record).1 (journal.append name record).2 := by
  simp only [append]
  split
  next ended => exact .closed ended
  next isOpen =>
    rw [Bool.not_eq_true] at isOpen
    split
    next fault => exact .broken isOpen fault
    next sound =>
      have sound := Nat.eq_zero_of_not_pos sound
      -- The count of writes does not show in the topics.
      let counted := { journal with appendCount := journal.appendCount + 1 }
      obtain ⟨has, ensured⟩ | ⟨absent, _, ensured⟩ | ⟨absent, strict, ensured⟩ :=
        counted.ensureTopic_cases name
      · rw [ensured]
        have added := added_addRecord has record
        exact .written isOpen sound ⟨added.written, added.elsewhere⟩ rfl rfl
      · rw [ensured]
        have added := added_addTopic absent
          (added_addRecord (counted.hasTopic_addTopic name) record)
        exact .written isOpen sound ⟨added.written, added.elsewhere⟩ rfl rfl
      · rw [ensured]
        exact .missing isOpen sound strict absent

theorem Write.counts {result : Except JournalFailure Unit}
    (write : Write journal name record after result) :
    after.appendCount = journal.appendCount + 1 ∧ after.makeCount = journal.makeCount := by
  cases write with
  | closed | broken | missing => exact ⟨rfl, rfl⟩
  | written _ _ _ appendCount makeCount => exact ⟨appendCount, makeCount⟩

/-! ## What is left of a write -/

/-- Asking for a record to be added has added it, or it has failed and left all topics alone. -/
inductive Settled (journal : Journal) (name : String) (record : JournalRecord) :
    Journal → Except JournalFailure Unit → Prop
  | added {after : Journal} (added : journal.Added after name record) :
      Settled journal name record after (.ok ())
  | kept {after : Journal} {cause : JournalFailure} (topics : after.topics = journal.topics) :
      Settled journal name record after (.error cause)

theorem Write.settled {result : Except JournalFailure Unit}
    (write : Write journal name record after result) :
    journal.Settled name record after result := by
  cases write with
  | closed | broken | missing => exact .kept rfl
  | written _ _ added => exact .added added

theorem Settled.added_iff {result : Except JournalFailure Unit}
    (settled : journal.Settled name record after result) :
    result = .ok () ↔ journal.Added after name record := by
  cases settled with
  | added added => exact ⟨fun _ => added, fun _ => rfl⟩
  | kept topics => exact ⟨nofun, fun added => absurd added (not_added_of_topics topics)⟩

theorem Settled.topics {result : Except JournalFailure Unit}
    (settled : journal.Settled name record after result) (failed : result ≠ .ok ()) :
    after.topics = journal.topics := by
  cases settled with
  | added => contradiction
  | kept topics => exact topics

end UpdateRelay.Journal
