import UpdateRelay.Proofs.Journal.Position

/-!
# Requests that add no record

Only writing adds a record to a topic. Topics that are made have none, and opening a reader or
leaving a group leaves all records as they are.
-/

namespace UpdateRelay.Journal

theorem records_modifyTopic (journal : Journal) (name : String) {change : Topic → Topic}
    (kept : ∀ topic, (change topic).records = topic.records) (query : String) :
    (journal.modifyTopic name change).records query = journal.records query := by
  unfold records
  rw [get?_modifyTopic]
  by_cases here : query = name
  · rw [if_pos here, here]
    cases journal.topics.get? name with
    | none => rfl
    | some topic => exact kept topic
  · rw [if_neg here]

/-- Leaving a group takes no record away. -/
theorem records_leave (journal : Journal) (reader : Reader) (name : String) :
    (journal.leave reader).records name = journal.records name := by
  unfold leave
  split
  next => rfl
  next =>
    split
    next => rfl
    next =>
      exact journal.records_modifyTopic _ (fun topic => Topic.records_leave topic reader.group) name

theorem records_join (journal : Journal) (name group query : String) :
    (journal.modifyTopic name (Topic.join · group)).records query = journal.records query :=
  journal.records_modifyTopic name
    (fun topic => (rfl : (Topic.join topic group).records = topic.records)) query

theorem hasTopic_addTopic (journal : Journal) (name : String) :
    (journal.addTopic name).hasTopic name = true := by
  rw [hasTopic_eq_isSome, addTopic, Table.get?_set, if_pos rfl, Option.isSome_some]

theorem records_addTopic (journal : Journal) {name : String}
    (absent : journal.hasTopic name = false) (query : String) :
    (journal.addTopic name).records query = journal.records query := by
  rw [hasTopic_eq_isSome, Option.isSome_eq_false_iff, Option.isNone_iff_eq_none] at absent
  simp only [records, addTopic, Table.get?_set]
  by_cases here : query = name
  · simp [here, absent]
  · simp [here]

theorem records_makeTopic (journal : Journal) (name query : String) :
    (journal.makeTopic name).1.records query = journal.records query := by
  simp only [makeTopic]
  split
  next => rfl
  next =>
    split
    next => rfl
    next =>
      split
      next => rfl
      next absent =>
        exact records_addTopic { journal with makeCount := journal.makeCount + 1 }
          (Bool.eq_false_iff.2 absent) query

theorem records_ensureTopic {journal ready : Journal} {name : String}
    (ensured : journal.ensureTopic name = .ok ready) (query : String) :
    ready.records query = journal.records query := by
  unfold ensureTopic at ensured
  split at ensured
  next => rw [Except.ok.inj ensured]
  next absent =>
    split at ensured
    next =>
      obtain rfl := Except.ok.inj ensured
      exact journal.records_addTopic (Bool.eq_false_iff.2 absent) query
    next => contradiction

theorem records_attach (journal : Journal) (name group query : String) :
    (journal.attach name group).1.records query = journal.records query := by
  unfold attach
  split
  next => rfl
  next =>
    split
    next => rfl
    next ready ensured =>
      split
      next => rfl
      next => rw [records_join, records_ensureTopic ensured]

end UpdateRelay.Journal
