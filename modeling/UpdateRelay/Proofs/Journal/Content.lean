import UpdateRelay.Proofs.Journal.Records

/-!
# What is asked of a topic that may be missing

`Journal.content?` are the records of a topic, if there is one. `Journal.Serviceable` says that a
journal serves every request and makes no topic unless asked to; then the content alone decides how
a request for its topic is answered, and requests for other topics leave the content as it is.
-/

namespace UpdateRelay.Journal

/-- The records of a topic, if it exists. -/
def content? (journal : Journal) (name : String) : Option (List JournalRecord) :=
  (journal.topics.get? name).map (·.records)

/-- A journal is open, shows no fault and makes no topic on demand, and a topic has some records or
does not exist. -/
structure Serviceable (journal : Journal) (name : String) (content : Option (List JournalRecord)) :
    Prop where
  isOpen : journal.closed = false
  sound : journal.brokenAppends = 0
  willing : journal.refusesCreation = false
  strict : journal.createsOnDemand = false
  content : journal.content? name = content

instance (journal : Journal) (name : String) (content : Option (List JournalRecord)) :
    Decidable (journal.Serviceable name content) :=
  decidable_of_iff (journal.closed = false ∧ journal.brokenAppends = 0 ∧
      journal.refusesCreation = false ∧ journal.createsOnDemand = false ∧
      journal.content? name = content)
    ⟨fun ⟨isOpen, sound, willing, strict, content⟩ => ⟨isOpen, sound, willing, strict, content⟩,
      fun ⟨isOpen, sound, willing, strict, content⟩ => ⟨isOpen, sound, willing, strict, content⟩⟩

theorem makeCount_leave (journal : Journal) (reader : Reader) :
    (journal.leave reader).makeCount = journal.makeCount := by
  unfold leave
  split
  next => rfl
  next => split <;> rfl

namespace Serviceable

variable {journal : Journal} {name : String} {content : Option (List JournalRecord)}

theorem hasTopic (serviceable : journal.Serviceable name content) :
    journal.hasTopic name = content.isSome := by
  rw [hasTopic_eq_isSome, ← serviceable.content, content?, Option.isSome_map]

/-! ## Requests that leave all records alone -/

theorem modifyTopic (serviceable : journal.Serviceable name content) (query : String)
    {change : Topic → Topic} (kept : ∀ topic, (change topic).records = topic.records) :
    (journal.modifyTopic query change).Serviceable name content where
  isOpen := serviceable.isOpen
  sound := serviceable.sound
  willing := serviceable.willing
  strict := serviceable.strict
  content := by
    rw [← serviceable.content, content?, content?, get?_modifyTopic]
    split
    next same =>
      rw [same, Option.map_map]
      exact Option.map_congr fun topic _ => kept topic
    next => rfl

theorem leave (serviceable : journal.Serviceable name content) (reader : Reader) :
    (journal.leave reader).Serviceable name content := by
  unfold Journal.leave
  split
  next => exact serviceable
  next =>
    split
    next => exact serviceable
    next => exact serviceable.modifyTopic _ fun topic => Topic.records_leave topic reader.group

theorem take (serviceable : journal.Serviceable name content) (reader : Reader) :
    (journal.take reader).Serviceable name content := by
  unfold Journal.take
  split
  next => exact serviceable.modifyTopic _ fun _ => rfl
  next => exact serviceable

/-! ## Opening a reader -/

theorem attach_of_some {records : List JournalRecord}
    (serviceable : journal.Serviceable name (some records)) (group : String) :
    ∃ after reader, journal.attach name group = (after, .ok reader) ∧
      after.Serviceable name (some records) ∧ after.makeCount = journal.makeCount := by
  have has : journal.hasTopic name = true := serviceable.hasTopic
  obtain ⟨topic, found, _⟩ := Option.map_eq_some_iff.1 serviceable.content
  refine ⟨journal.modifyTopic name (Topic.join · group),
    ⟨name, topic.epoch, group, topic.records.length, false⟩, ?_,
    serviceable.modifyTopic name fun _ => rfl, rfl⟩
  simp [attach, ensureTopic, serviceable.isOpen, has, found]

theorem attach_of_none (serviceable : journal.Serviceable name none) (group : String) :
    journal.attach name group = (journal, .error (.unknownTopic name)) := by
  have absent : journal.hasTopic name = false := serviceable.hasTopic
  simp [attach, ensureTopic, serviceable.isOpen, absent, serviceable.strict]

/-- Opening a reader of any topic leaves the content of each topic alone. -/
theorem attach (serviceable : journal.Serviceable name content) (query group : String) :
    (journal.attach query group).1.Serviceable name content := by
  have here : journal.Serviceable query (journal.content? query) :=
    ⟨serviceable.isOpen, serviceable.sound, serviceable.willing, serviceable.strict, rfl⟩
  cases found : journal.topics.get? query with
  | none =>
    rw [content?, found] at here
    rw [here.attach_of_none]
    exact serviceable
  | some topic =>
    have has : journal.hasTopic query = true := by rw [hasTopic_eq_isSome, found]; rfl
    have attached : (journal.attach query group).1 =
        journal.modifyTopic query (Topic.join · group) := by
      simp [Journal.attach, ensureTopic, serviceable.isOpen, has, found]
    rw [attached]
    exact serviceable.modifyTopic query fun _ => rfl

/-! ## Making a topic -/

theorem counted (serviceable : journal.Serviceable name content) (appends makes : Nat) :
    { journal with appendCount := appends, makeCount := makes }.Serviceable name content :=
  ⟨serviceable.isOpen, serviceable.sound, serviceable.willing, serviceable.strict,
    serviceable.content⟩

/-- A topic is made unless it exists. -/
theorem makeTopic_eq (serviceable : journal.Serviceable name content) (query : String) :
    journal.makeTopic query =
      if journal.hasTopic query then
        ({ journal with makeCount := journal.makeCount + 1 }, .error (.topicExists query))
      else ({ journal with makeCount := journal.makeCount + 1 }.addTopic query, .ok ()) := by
  have notClosed : ¬journal.closed = true := by simp [serviceable.isOpen]
  have allowed : ¬journal.refusesCreation = true := by simp [serviceable.willing]
  simp only [Journal.makeTopic]
  rw [if_neg notClosed, if_neg allowed]

/-- Whoever asks for a topic finds it there afterwards, and is told whether it was missing. -/
theorem makeTopic (serviceable : journal.Serviceable name content) :
    ∃ after outcome, journal.makeTopic name = (after, outcome) ∧
      (outcome = .ok () ∨ outcome = .error (.topicExists name)) ∧
      after.Serviceable name (some (content.getD [])) ∧ after.makeCount = journal.makeCount + 1 ∧
      outcome.isOk = content.isNone := by
  have made := serviceable.makeTopic_eq name
  have counted := serviceable.counted journal.appendCount (journal.makeCount + 1)
  cases content with
  | some records =>
    have has : journal.hasTopic name = true := serviceable.hasTopic
    rw [if_pos has] at made
    exact ⟨_, _, made, Or.inr rfl, counted, rfl, rfl⟩
  | none =>
    have absent : ¬journal.hasTopic name = true := by simp [serviceable.hasTopic]
    rw [if_neg absent] at made
    refine ⟨_, _, made, Or.inl rfl,
      ⟨counted.isOpen, counted.sound, counted.willing, counted.strict, ?_⟩, rfl, rfl⟩
    simp [content?, addTopic, Table.get?_set]

/-- Asking for another topic leaves the content of a topic alone. -/
theorem makeTopic_of_ne (serviceable : journal.Serviceable name content) {query : String}
    (other : query ≠ name) : (journal.makeTopic query).1.Serviceable name content := by
  have counted := serviceable.counted journal.appendCount (journal.makeCount + 1)
  rw [serviceable.makeTopic_eq]
  split
  next => exact counted
  next =>
    refine ⟨counted.isOpen, counted.sound, counted.willing, counted.strict, ?_⟩
    rw [← serviceable.content, content?, content?, addTopic, Table.get?_set, if_neg (Ne.symm other)]

/-! ## Writing -/

/-- A record is added to a topic that exists, and to no other. -/
theorem append_eq (serviceable : journal.Serviceable name content) (query : String)
    (record : JournalRecord) :
    journal.append query record =
      if journal.hasTopic query then
        ({ journal with appendCount := journal.appendCount + 1 }.modifyTopic query fun topic =>
          { topic with records := topic.records ++ [record] }, .ok ())
      else
        ({ journal with appendCount := journal.appendCount + 1 },
          .error (.unknownTopic query)) := by
  have notClosed : ¬journal.closed = true := by simp [serviceable.isOpen]
  have sound : ¬0 < journal.brokenAppends := by simp [serviceable.sound]
  have strict : ¬journal.createsOnDemand = true := by simp [serviceable.strict]
  have ensured : { journal with appendCount := journal.appendCount + 1 }.ensureTopic query =
      if journal.hasTopic query then
        .ok { journal with appendCount := journal.appendCount + 1 }
      else .error (.unknownTopic query) := by
    unfold ensureTopic
    rw [if_neg strict]
    rfl
  simp only [append]
  rw [if_neg notClosed, if_neg sound, ensured]
  by_cases has : journal.hasTopic query = true
  · rw [if_pos has, if_pos has]
  · rw [if_neg has, if_neg has]

theorem append_of_some {records : List JournalRecord}
    (serviceable : journal.Serviceable name (some records)) (record : JournalRecord) :
    ∃ after, journal.append name record = (after, .ok ()) ∧
      after.Serviceable name (some (records ++ [record])) ∧
        after.makeCount = journal.makeCount := by
  have has : journal.hasTopic name = true := serviceable.hasTopic
  obtain ⟨topic, found, rfl⟩ := Option.map_eq_some_iff.1 serviceable.content
  refine ⟨{ journal with appendCount := journal.appendCount + 1 }.modifyTopic name fun topic =>
    { topic with records := topic.records ++ [record] }, ?_,
    ⟨serviceable.isOpen, serviceable.sound, serviceable.willing, serviceable.strict, ?_⟩, rfl⟩
  · rw [serviceable.append_eq, if_pos has]
  · simp [content?, get?_modifyTopic, found]

theorem append_of_none (serviceable : journal.Serviceable name none) (record : JournalRecord) :
    ∃ after, journal.append name record = (after, .error (.unknownTopic name)) ∧
      after.Serviceable name none ∧ after.makeCount = journal.makeCount := by
  have absent : ¬journal.hasTopic name = true := by simp [serviceable.hasTopic]
  refine ⟨_, ?_, serviceable.counted (journal.appendCount + 1) journal.makeCount, rfl⟩
  rw [serviceable.append_eq, if_neg absent]

/-- Writing to another topic leaves the content of a topic alone. -/
theorem append_of_ne (serviceable : journal.Serviceable name content) {query : String}
    (other : query ≠ name) (record : JournalRecord) :
    (journal.append query record).1.Serviceable name content := by
  have counted := serviceable.counted (journal.appendCount + 1) journal.makeCount
  rw [serviceable.append_eq]
  split
  next =>
    refine ⟨counted.isOpen, counted.sound, counted.willing, counted.strict, ?_⟩
    rw [← serviceable.content, content?, content?, get?_modifyTopic, if_neg (Ne.symm other)]
  next => exact counted

theorem removeTopic_of_ne (serviceable : journal.Serviceable name content) {query : String}
    (other : query ≠ name) : (journal.removeTopic query).Serviceable name content := by
  refine ⟨serviceable.isOpen, serviceable.sound, serviceable.willing, serviceable.strict, ?_⟩
  rw [← serviceable.content, content?, content?, removeTopic, Table.get?_erase,
    if_neg (Ne.symm other)]

end Serviceable

end UpdateRelay.Journal
