import UpdateRelay.Proofs.Journal.MemberCounts

/-!
# Journals that are related topic by topic

Two journals that show the same faults and have topics of the same names, which are related one by
one. Requests take the same course in both and leave them related, for each relation of topics that
has the same records in both and is kept by what a journal does to a topic. Only readers that are
opened, and what readers see, take further facts about the relation.
-/

namespace UpdateRelay

/-- Whether a relation of topics of a name fits what journals do: related topics have the same
records, and what is done to both keeps them related. -/
structure Topic.Fits (same : String → Topic → Topic → Prop) : Prop where
  epoch : ∀ {name first second}, same name first second → second.epoch = first.epoch
  records : ∀ {name first second}, same name first second → second.records = first.records
  fresh : ∀ name epoch, same name ⟨epoch, [], ∅⟩ ⟨epoch, [], ∅⟩
  append : ∀ {name first second}, same name first second → ∀ record,
    same name { first with records := first.records ++ [record] }
      { second with records := second.records ++ [record] }
  leave : ∀ {name first second}, same name first second → ∀ group,
    same name (Journal.Topic.leave first group) (Journal.Topic.leave second group)
  advance : ∀ {name first second}, same name first second → ∀ group,
    same name (Journal.Topic.advance first group) (Journal.Topic.advance second group)

/-- Whether two journals have related topics and differ in nothing else but what they have counted.
-/
structure Journal.Related (same : String → Topic → Topic → Prop) (first second : Journal) :
    Prop where
  epochs : second.epochs = first.epochs
  createsOnDemand : second.createsOnDemand = first.createsOnDemand
  brokenAppends : second.brokenAppends = first.brokenAppends
  refusesCreation : second.refusesCreation = first.refusesCreation
  closed : second.closed = first.closed
  topics : ∀ name, Option.Rel (same name) (first.topics.get? name) (second.topics.get? name)

namespace Journal.Related

variable {same : String → Topic → Topic → Prop} {first second : Journal}

theorem refl (sameTopic : ∀ name topic, same name topic topic) (journal : Journal) :
    Related same journal journal := by
  refine ⟨rfl, rfl, rfl, rfl, rfl, fun name => ?_⟩
  cases journal.topics.get? name with
  | none => exact .none
  | some topic => exact .some (sameTopic name topic)

theorem hasTopic (related : Related same first second) (name : String) :
    second.hasTopic name = first.hasTopic name := by
  have topics := related.topics name
  rw [hasTopic_eq_isSome, hasTopic_eq_isSome]
  generalize first.topics.get? name = one, second.topics.get? name = other at topics ⊢
  cases topics <;> rfl

theorem modifyTopic (related : Related same first second) (name : String)
    (change : Topic → Topic) (keeps : ∀ {one other : Topic}, first.topics.get? name = some one →
      same name one other → same name (change one) (change other)) :
    Related same (first.modifyTopic name change) (second.modifyTopic name change) where
  epochs := related.epochs
  createsOnDemand := related.createsOnDemand
  brokenAppends := related.brokenAppends
  refusesCreation := related.refusesCreation
  closed := related.closed
  topics := by
    intro query
    rw [get?_modifyTopic, get?_modifyTopic]
    split
    next here =>
      have topics := related.topics name
      subst here
      generalize found : first.topics.get? query = one,
        second.topics.get? query = other at topics keeps ⊢
      cases topics with
      | none => exact .none
      | some topics => exact .some (keeps rfl topics)
    next => exact related.topics query

theorem removeTopic (related : Related same first second) (name : String) :
    Related same (first.removeTopic name) (second.removeTopic name) where
  epochs := related.epochs
  createsOnDemand := related.createsOnDemand
  brokenAppends := related.brokenAppends
  refusesCreation := related.refusesCreation
  closed := related.closed
  topics := by
    intro query
    simp only [Journal.removeTopic, Table.get?_erase]
    split
    next => exact .none
    next => exact related.topics query

theorem close (related : Related same first second) : Related same first.close second.close :=
  { related with closed := rfl, topics := fun _ => .none }

section Fits

variable (related : Related same first second) (fits : Topic.Fits same)

include related fits

/-! ## Topics -/

theorem addTopic (name : String) : Related same (first.addTopic name) (second.addTopic name) where
  epochs := congrArg Nat.succ related.epochs
  createsOnDemand := related.createsOnDemand
  brokenAppends := related.brokenAppends
  refusesCreation := related.refusesCreation
  closed := related.closed
  topics := by
    intro query
    simp only [Journal.addTopic, Table.get?_set, related.epochs]
    split
    next => exact .some (fits.fresh _ _)
    next => exact related.topics query

theorem makeTopic (name : String) :
    Related same (first.makeTopic name).1 (second.makeTopic name).1 ∧
      (second.makeTopic name).2 = (first.makeTopic name).2 := by
  have present := related.hasTopic name
  have counted : Related same { first with makeCount := first.makeCount + 1 }
    { second with makeCount := second.makeCount + 1 } := { related with }
  have added := counted.addTopic fits name
  obtain ⟨_, _, _, _, _, _, _, _⟩ := second
  obtain ⟨rfl, rfl, rfl, rfl, rfl, _⟩ := related
  simp only [Journal.makeTopic, present]
  split
  next => exact ⟨counted, rfl⟩
  next =>
    split
    next => exact ⟨counted, rfl⟩
    next =>
      split
      next => exact ⟨counted, rfl⟩
      next => exact ⟨added, rfl⟩

/-- A topic is made for both journals, is there in both, or cannot be had in either. -/
theorem ensureTopic (name : String) :
    (∃ cause, first.ensureTopic name = .error cause ∧ second.ensureTopic name = .error cause) ∨
      ∃ one other, first.ensureTopic name = .ok one ∧ second.ensureTopic name = .ok other ∧
        Related same one other := by
  simp only [Journal.ensureTopic, related.hasTopic, related.createsOnDemand]
  split
  next => exact Or.inr ⟨first, second, rfl, rfl, related⟩
  next =>
    split
    next => exact Or.inr ⟨_, _, rfl, rfl, related.addTopic fits name⟩
    next => exact Or.inl ⟨_, rfl, rfl⟩

theorem append (name : String) (record : JournalRecord) :
    Related same (first.append name record).1 (second.append name record).1 ∧
      (second.append name record).2 = (first.append name record).2 := by
  have counted : Related same { first with appendCount := first.appendCount + 1 }
    { second with appendCount := second.appendCount + 1 } := { related with }
  have ensured := counted.ensureTopic fits name
  obtain ⟨_, _, _, _, _, _, _, _⟩ := second
  obtain ⟨rfl, rfl, rfl, rfl, rfl, _⟩ := related
  simp only [Journal.append]
  split
  next => exact ⟨counted, rfl⟩
  next =>
    split
    next => exact ⟨{ counted with brokenAppends := rfl }, rfl⟩
    next =>
      obtain ⟨cause, isFirst, isSecond⟩ | ⟨one, other, isFirst, isSecond, ready⟩ := ensured
      · rw [isFirst, isSecond]
        exact ⟨counted, rfl⟩
      · rw [isFirst, isSecond]
        exact ⟨ready.modifyTopic name _ fun _ topics => fits.append topics record, rfl⟩

/-- Both journals open the same reader, or none. -/
theorem attach {name group : String}
    (joins : first.closed = false → ∀ {ready : Journal} {one other : Topic},
      first.ensureTopic name = .ok ready → ready.topics.get? name = some one →
      same name one other → same name (Topic.join one group) (Topic.join other group)) :
    Related same (first.attach name group).1 (second.attach name group).1 ∧
      (second.attach name group).2 = (first.attach name group).2 := by
  simp only [Journal.attach, related.closed]
  split
  next => exact ⟨related, rfl⟩
  next isOpen =>
    obtain ⟨cause, isFirst, isSecond⟩ | ⟨one, other, isFirst, isSecond, ready⟩ :=
      related.ensureTopic fits name
    · rw [isFirst, isSecond]
      exact ⟨related, rfl⟩
    · have joined := ready.modifyTopic name (Topic.join · group) fun found topics =>
        joins (Bool.eq_false_iff.2 isOpen) isFirst found topics
      have topics := ready.topics name
      simp only [isFirst, isSecond]
      generalize one.topics.get? name = here, other.topics.get? name = there at topics
      cases topics with
      | none => exact ⟨related, rfl⟩
      | some topics => exact ⟨joined, by simp only [fits.epoch topics, fits.records topics]⟩

/-! ## Readers -/

theorem liveTopic? (name : String) (epoch : Nat) :
    Option.Rel (same name) (first.liveTopic? name epoch) (second.liveTopic? name epoch) := by
  have topics := related.topics name
  unfold Journal.liveTopic?
  generalize first.topics.get? name = one, second.topics.get? name = other at topics ⊢
  cases topics with
  | none => exact .none
  | some topics =>
    simp only [Option.filter_some, fits.epoch topics]
    split
    next => exact .some topics
    next => exact .none

theorem look (reader : Reader) : second.look reader = first.look reader := by
  have topics := related.liveTopic? fits reader.topic reader.epoch
  unfold Journal.look
  generalize first.liveTopic? reader.topic reader.epoch = one,
    second.liveTopic? reader.topic reader.epoch = other at topics ⊢
  cases topics with
  | none => rfl
  | some topics => simp only [fits.records topics]

theorem mustLook (reader : Reader) : second.mustLook reader = first.mustLook reader := by
  have topics := related.liveTopic? fits reader.topic reader.epoch
  unfold Journal.mustLook
  generalize first.liveTopic? reader.topic reader.epoch = one,
    second.liveTopic? reader.topic reader.epoch = other at topics ⊢
  cases topics with
  | none => rfl
  | some topics => simp only [fits.records topics]

theorem leave (reader : Reader) : Related same (first.leave reader) (second.leave reader) := by
  have topics := related.liveTopic? fits reader.topic reader.epoch
  have left := related.modifyTopic reader.topic _ fun _ topics => fits.leave topics reader.group
  unfold Journal.leave
  generalize first.liveTopic? reader.topic reader.epoch = one,
    second.liveTopic? reader.topic reader.epoch = other at topics ⊢
  split
  next => exact related
  next =>
    cases topics with
    | none => exact related
    | some => exact left

/-- What readers see takes a further fact about the relation. -/
theorem take {reader : Reader} (sees : second.peek reader = first.peek reader) :
    Related same (first.take reader) (second.take reader) := by
  unfold Journal.take
  rw [sees]
  split
  next => exact related.modifyTopic _ _ fun _ topics => fits.advance topics reader.group
  next => exact related

end Fits

end Journal.Related

end UpdateRelay
