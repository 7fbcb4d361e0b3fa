import UpdateRelay.Proofs.Journal.Wakeups

/-!
# All topics that were ever made

A name can have many topics, one after the other. A `TopicId` is one of them, and
`ReaderSystem.topicIds` lists those that are made in a run. `ReaderSystem.Catalogued` is what every
action keeps: no two topics have one epoch, and all topics and all readers are of listed ones, so
that the epoch of a reader says which of the topics of its name it was opened on.
-/

namespace UpdateRelay

/-- One of the topics that a name has had. -/
structure TopicId where
  topic : String
  epoch : Nat
  deriving DecidableEq, Repr

/-- The topic that a reader was opened on. -/
def Reader.topicId (reader : Reader) : TopicId := ⟨reader.topic, reader.epoch⟩

/-! ## Where topics come from -/

namespace Journal

variable {journal after : Journal} {name : String}

theorem topicId_look (journal : Journal) (reader : Reader) :
    (journal.look reader).topicId = reader.topicId := by
  unfold look
  split <;> rfl

/-- Whether each topic that is there afterwards was there before, but for one that a name without a
topic may have got and that is younger than all others. -/
structure Makes (journal after : Journal) (name : String) : Prop where
  source : ∀ {query : String} {topic : Topic}, after.topics.get? query = some topic →
    (∃ earlier, journal.topics.get? query = some earlier ∧ earlier.epoch = topic.epoch) ∨
      (query = name ∧ journal.topics.get? query = none ∧ journal.epochs < topic.epoch)

theorem makes_of_topics (same : after.topics = journal.topics) : journal.Makes after name :=
  ⟨fun {_ topic} found => Or.inl ⟨topic, same ▸ found, rfl⟩⟩

theorem makes_refl (journal : Journal) : journal.Makes journal name := makes_of_topics rfl

theorem Makes.modifyTopic (makes : journal.Makes after name) (changed : String)
    {change : Topic → Topic} (epoch : ∀ topic, (change topic).epoch = topic.epoch) :
    journal.Makes (after.modifyTopic changed change) name where
  source := by
    intro query topic found
    rw [get?_modifyTopic] at found
    split at found
    next same =>
      obtain ⟨current, isCurrent, rfl⟩ := Option.map_eq_some_iff.1 found
      rw [epoch]
      exact makes.source (same ▸ isCurrent)
    next => exact makes.source found

theorem makes_addTopic (absent : journal.hasTopic name = false) :
    journal.Makes (journal.addTopic name) name where
  source := by
    intro query topic found
    rw [addTopic, Table.get?_set] at found
    split at found
    next same =>
      subst same
      rw [hasTopic_eq_isSome, Option.isSome_eq_false_iff, Option.isNone_iff_eq_none] at absent
      rw [← Option.some.inj found]
      exact Or.inr ⟨rfl, absent, Nat.lt_succ_self _⟩
    next => exact Or.inl ⟨topic, found, rfl⟩

theorem makes_ensureTopic {ready : Journal} (ensured : journal.ensureTopic name = .ok ready) :
    journal.Makes ready name := by
  unfold ensureTopic at ensured
  split at ensured
  next =>
    rw [← Except.ok.inj ensured]
    exact journal.makes_refl
  next absent =>
    split at ensured
    next =>
      rw [← Except.ok.inj ensured]
      exact makes_addTopic (Bool.eq_false_iff.2 absent)
    next => contradiction

theorem makes_makeTopic (journal : Journal) (name : String) :
    journal.Makes (journal.makeTopic name).1 name := by
  simp only [makeTopic]
  split
  next => exact makes_of_topics rfl
  next =>
    split
    next => exact makes_of_topics rfl
    next =>
      split
      next => exact makes_of_topics rfl
      next absent =>
        -- The count of attempts shows neither in the topics nor in the epochs.
        let counted := { journal with makeCount := journal.makeCount + 1 }
        have makes : counted.Makes (counted.addTopic name) name :=
          makes_addTopic (Bool.eq_false_iff.2 absent)
        exact ⟨makes.source⟩

theorem makes_append (journal : Journal) (name : String) (record : JournalRecord) :
    journal.Makes (journal.append name record).1 name := by
  simp only [append]
  split
  next => exact makes_of_topics rfl
  next =>
    split
    next => exact makes_of_topics rfl
    next =>
      split
      next => exact makes_of_topics rfl
      next ready ensured =>
        have makes : journal.Makes ready name := ⟨(makes_ensureTopic ensured).source⟩
        exact makes.modifyTopic name fun _ => rfl

theorem makes_attach (journal : Journal) (name group : String) :
    journal.Makes (journal.attach name group).1 name := by
  unfold attach
  split
  next => exact journal.makes_refl
  next =>
    split
    next => exact journal.makes_refl
    next ready ensured =>
      split
      next => exact journal.makes_refl
      next => exact (makes_ensureTopic ensured).modifyTopic name fun _ => rfl

theorem makes_removeTopic (journal : Journal) (removed : String) :
    journal.Makes (journal.removeTopic removed) name where
  source := by
    intro query topic found
    rw [removeTopic, Table.get?_erase] at found
    split at found
    next => contradiction
    next => exact Or.inl ⟨topic, found, rfl⟩

theorem makes_close (journal : Journal) : journal.Makes journal.close name :=
  ⟨fun found => nomatch found⟩

theorem makes_take (journal : Journal) (reader : Reader) :
    journal.Makes (journal.take reader) name := by
  unfold take
  split
  next => exact journal.makes_refl.modifyTopic _ fun _ => rfl
  next => exact journal.makes_refl

theorem makes_leave (journal : Journal) (reader : Reader) :
    journal.Makes (journal.leave reader) name := by
  unfold leave
  split
  next => exact journal.makes_refl
  next =>
    split
    next => exact journal.makes_refl
    next =>
      exact journal.makes_refl.modifyTopic _ fun topic => Topic.epoch_leave topic reader.group

end Journal

/-! ## The list of topics -/

namespace ReaderSystem

variable {system : ReaderSystem}

/-- The topics that are there after an action and whose names had none before it. -/
def made (system : ReaderSystem) (action : Action) : List TopicId :=
  ((system.perform action).journal.topics.entries.filter fun entry =>
    !system.journal.hasTopic entry.1).map fun entry => ⟨entry.1, entry.2.epoch⟩

/-- The topics that are made in a run, oldest first. -/
def topicIds (system : ReaderSystem) : List Action → List TopicId
  | [] => []
  | action :: rest => system.made action ++ (system.perform action).topicIds rest

theorem mem_made {action : Action} {topicId : TopicId} :
    topicId ∈ system.made action ↔ system.journal.topics.get? topicId.topic = none ∧
      ∃ topic, (system.perform action).journal.topics.get? topicId.topic = some topic ∧
        topic.epoch = topicId.epoch := by
  obtain ⟨name, epoch⟩ := topicId
  simp only [made, List.mem_map, List.mem_filter, Bool.not_eq_true', Journal.hasTopic_eq_isSome,
    Option.isSome_eq_false_iff, Option.isNone_iff_eq_none, TopicId.mk.injEq]
  constructor
  · rintro ⟨⟨_, topic⟩, ⟨member, absent⟩, rfl, rfl⟩
    exact ⟨absent, topic, Table.get?_eq_some_iff.2 member, rfl⟩
  · rintro ⟨absent, topic, found, rfl⟩
    exact ⟨(name, topic), ⟨Table.get?_eq_some_iff.1 found, absent⟩, rfl, rfl⟩

/-- An action gives a topic to one name at most. -/
theorem exists_makes (system : ReaderSystem) (action : Action) :
    ∃ name, system.journal.Makes (system.perform action).journal name := by
  cases action with
  | makeTopic name => exact ⟨name, system.journal.makes_makeTopic name⟩
  | append name record => exact ⟨name, system.journal.makes_append name record⟩
  | attach name group =>
    have makes := system.journal.makes_attach name group
    refine ⟨name, ?_⟩
    simp only [perform]
    split
    next attached => rwa [attached] at makes
    next attached => rwa [attached] at makes
  | removeTopic name => exact ⟨name, system.journal.makes_removeTopic name⟩
  | close => exact ⟨"", system.journal.makes_close⟩
  | breakDown => exact ⟨"", Journal.makes_of_topics rfl⟩
  | ask index =>
    refine ⟨"", ?_⟩
    simp only [perform]
    split
    next => exact system.journal.makes_refl
    next state _ =>
      obtain ⟨_, same⟩ | ⟨_, _, same | taken⟩ := state.step_cases system.journal
      · rw [same]
        exact system.journal.makes_refl
      · rw [same]
        exact system.journal.makes_refl
      · rw [taken]
        exact system.journal.makes_take _
  | abandon index =>
    refine ⟨"", ?_⟩
    simp only [perform]
    split <;> exact system.journal.makes_refl
  | leave index =>
    refine ⟨"", ?_⟩
    simp only [perform]
    split
    next => exact system.journal.makes_refl
    next => exact system.journal.makes_leave _

theorem made_younger {action : Action} {topicId : TopicId} (member : topicId ∈ system.made action) :
    system.journal.epochs < topicId.epoch := by
  obtain ⟨absent, topic, found, epoch⟩ := mem_made.1 member
  obtain ⟨name, makes⟩ := system.exists_makes action
  obtain ⟨earlier, before, _⟩ | ⟨_, _, younger⟩ := makes.source found
  · rw [absent] at before
    contradiction
  · exact epoch ▸ younger

/-- The topics that one action makes have different epochs, since there is no more than one. -/
theorem nodup_made (system : ReaderSystem) (action : Action) :
    ((system.made action).map (·.epoch)).Nodup := by
  obtain ⟨name, makes⟩ := system.exists_makes action
  have named : ∀ topicId ∈ system.made action, topicId.topic = name := by
    intro topicId member
    obtain ⟨absent, topic, found, _⟩ := mem_made.1 member
    obtain ⟨earlier, before, _⟩ | ⟨isName, _, _⟩ := makes.source found
    · rw [absent] at before
      contradiction
    · exact isName
  have names : ((system.made action).map (·.topic)).Nodup := by
    rw [made, List.map_map]
    exact (system.perform action).journal.topics.distinct.sublist (List.filter_sublist.map _)
  refine List.pairwise_map.2 ((List.pairwise_map.1 names).imp_of_mem ?_)
  intro first second isFirst isSecond apart
  exact absurd ((named first isFirst).trans (named second isSecond).symm) apart

/-- Whether a list has all topics and all readers' topics, each under an epoch of its
own. -/
structure Catalogued (system : ReaderSystem) (known : List TopicId) : Prop where
  distinct : (known.map (·.epoch)).Nodup
  old : ∀ topicId ∈ known, topicId.epoch ≤ system.journal.epochs
  topics : ∀ {name topic}, system.journal.topics.get? name = some topic →
    ⟨name, topic.epoch⟩ ∈ known
  readers : ∀ state ∈ system.states, state.reader.topicId ∈ known

/-- After an action, a reader is of the topic that one was of before, or of one that is there. -/
theorem Change.topicId {after : ReaderSystem} {taken : Option (Nat × Reader × JournalRecord)}
    (change : system.Change taken after) {state : ReaderState} (member : state ∈ after.states) :
    (∃ earlier ∈ system.states, state.reader.topicId = earlier.reader.topicId) ∨
      ∃ name topic, after.journal.topics.get? name = some topic ∧
        state.reader.topicId = ⟨name, topic.epoch⟩ := by
  -- One of the readers was replaced by what became of it.
  have kept : ∀ (index : Nat) (earlier moved : ReaderState), system.states[index]? = some earlier →
      state ∈ system.states.set index moved → moved.reader.topicId = earlier.reader.topicId →
        ∃ earlier ∈ system.states, state.reader.topicId = earlier.reader.topicId := by
    intro index earlier moved found listed same
    rcases List.mem_or_eq_of_mem_set listed with old | rfl
    · exact ⟨state, old, rfl⟩
    · exact ⟨earlier, List.mem_of_getElem? found, same⟩
  cases change with
  | grew | removed | closed => exact Or.inl ⟨state, member, rfl⟩
  | @attached ready name group topic growth found =>
    rcases List.mem_append.1 member with old | new
    · exact Or.inl ⟨state, old, rfl⟩
    · rw [List.mem_singleton.1 new]
      refine Or.inr ⟨name, Journal.Topic.join topic group, ?_, rfl⟩
      rw [Journal.get?_modifyTopic, if_pos rfl, found]
      rfl
  | @asked index earlier moved found asks =>
    refine Or.inl (kept index earlier moved found member ?_)
    cases asks with
    | marked => exact system.journal.topicId_look _
    | waits | stays | rests => rfl
  | took found | left found => exact Or.inl (kept _ _ _ found member rfl)

theorem Catalogued.perform {known : List TopicId} (catalogued : system.Catalogued known)
    (sound : system.Sound) (action : Action) :
    (system.perform action).Catalogued (known ++ system.made action) := by
  have change := change_perform system action
  have soundAfter := change.sound sound
  have topics : ∀ {name topic}, (system.perform action).journal.topics.get? name = some topic →
      ⟨name, topic.epoch⟩ ∈ known ++ system.made action := by
    intro name topic found
    obtain ⟨_, makes⟩ := system.exists_makes action
    obtain ⟨earlier, before, epoch⟩ | ⟨_, absent, _⟩ := makes.source found
    · exact List.mem_append_left _ (epoch ▸ catalogued.topics before)
    · exact List.mem_append_right _ (mem_made.2 ⟨absent, topic, found, rfl⟩)
  constructor
  case distinct =>
    rw [List.map_append, List.nodup_append]
    refine ⟨catalogued.distinct, system.nodup_made action, ?_⟩
    -- What is made is younger than all that was made before.
    intro first isFirst second isSecond same
    obtain ⟨old, isOld, rfl⟩ := List.mem_map.1 isFirst
    obtain ⟨new, isNew, rfl⟩ := List.mem_map.1 isSecond
    have early := catalogued.old old isOld
    have late := made_younger isNew
    omega
  case old =>
    intro topicId member
    rcases List.mem_append.1 member with old | new
    · exact Nat.le_trans (catalogued.old topicId old) change.outlasts.epochs
    · obtain ⟨_, topic, found, epoch⟩ := mem_made.1 new
      exact epoch ▸ soundAfter.counts.topicEpoch found
  case topics => exact topics
  case readers =>
    intro state member
    obtain ⟨earlier, listed, same⟩ | ⟨name, topic, found, same⟩ := change.topicId member
    · exact List.mem_append_left _ (same ▸ catalogued.readers earlier listed)
    · exact same ▸ topics found

theorem Catalogued.performAll {known : List TopicId} (catalogued : system.Catalogued known)
    (sound : system.Sound) (actions : List Action) :
    (system.performAll actions).Catalogued (known ++ system.topicIds actions) := by
  induction actions generalizing system known with
  | nil => simpa [ReaderSystem.topicIds, ReaderSystem.performAll] using catalogued
  | cons action actions inductionHypothesis =>
    have next := inductionHypothesis (catalogued.perform sound action)
      ((change_perform system action).sound sound)
    rw [List.append_assoc] at next
    exact next

theorem catalogued_reached (createsOnDemand : Bool) (actions : List Action) :
    (reached createsOnDemand actions).Catalogued ((empty createsOnDemand).topicIds actions) := by
  have nothing : (empty createsOnDemand).Catalogued [] :=
    ⟨List.nodup_nil, by simp, (fun found => nomatch found), by simp [empty]⟩
  exact nothing.performAll (sound_reached createsOnDemand []) actions

end ReaderSystem

end UpdateRelay
