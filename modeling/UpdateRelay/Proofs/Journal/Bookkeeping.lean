import UpdateRelay.Proofs.Journal.GroupHandout
import UpdateRelay.Proofs.Journal.TopicIds

/-!
# Counts and positions of consumer groups

A journal keeps of each group how many readers share it and how far it has come. The count is always
that of the readers which were opened for the group and have not left, so leaving never takes from
an empty count and a second leave takes nothing. A reader whose topic was removed is `Journal.Lost`
for good: whatever it does, the journal stays as it is, a topic made anew under the name included,
and all that it is answered is that its reading is over.
-/

namespace UpdateRelay

/-! ## Readers without a topic -/

namespace Journal

variable {journal : Journal} {reader : Reader}

/-- Whether the topic that a reader was opened on is gone. -/
def Lost (journal : Journal) (reader : Reader) : Prop :=
  journal.liveTopic? reader.topic reader.epoch = none

theorem lost_removeTopic (journal : Journal) (reader : Reader) :
    (journal.removeTopic reader.topic).Lost reader := by
  simp [Lost, liveTopic?, removeTopic, Table.get?_erase]

theorem Lost.of_topicId (lost : journal.Lost reader) {other : Reader}
    (same : other.topicId = reader.topicId) : journal.Lost other := by
  obtain ⟨topic, epoch⟩ := TopicId.mk.inj same
  rwa [Lost, topic, epoch]

/-- What was lost does not come back. -/
theorem Lost.of_outlasts (lost : journal.Lost reader) {after : Journal}
    (outlasts : journal.Outlasts after) (old : reader.epoch ≤ journal.epochs) : after.Lost reader :=
  outlasts.gone old lost

theorem Lost.peek (lost : journal.Lost reader) : journal.peek reader = .error .closed := by
  unfold Journal.peek
  split
  next => rfl
  next => rw [lost]

theorem Lost.look (lost : journal.Lost reader) : journal.look reader = reader := by
  rw [Journal.look, lost]

theorem Lost.mustLook (lost : journal.Lost reader) : journal.mustLook reader = true := by
  rw [Journal.mustLook, lost]

theorem Lost.leave (lost : journal.Lost reader) : journal.leave reader = journal := by
  unfold Journal.leave
  split
  next => rfl
  next => rw [lost]

theorem Lost.poll (lost : journal.Lost reader) :
    journal.poll reader = (reader, journal, some (.error .closed)) := by
  simp only [Journal.poll, lost.peek, lost.look]

end Journal

/-- A reader without a topic is told so when it looks, and looks when it is to take a step. -/
theorem ReaderState.step_of_lost {state : ReaderState} {journal : Journal}
    (lost : journal.Lost state.reader) :
    state.step journal =
      if state.asking = .marked then (⟨state.reader, .no⟩, journal, some (.error .closed))
      else (⟨state.reader, .marked⟩, journal, none) := by
  simp only [step, lost.peek, lost.look, lost.mustLook]
  cases state.asking <;> rfl

/-- What stays as it is in a reader: the topic and the group that it was opened for, and that it has
left. -/
structure ReaderState.Becomes (state later : ReaderState) : Prop where
  topicId : later.reader.topicId = state.reader.topicId
  group : later.reader.group = state.reader.group
  released : state.reader.released = true → later.reader.released = true

namespace ReaderState.Becomes

theorem refl (state : ReaderState) : state.Becomes state := ⟨rfl, rfl, id⟩

theorem trans {state middle later : ReaderState} (first : state.Becomes middle)
    (second : middle.Becomes later) : state.Becomes later where
  topicId := second.topicId.trans first.topicId
  group := second.group.trans first.group
  released := second.released ∘ first.released

end ReaderState.Becomes

namespace ReaderSystem

variable {system after : ReaderSystem} {index : Nat} {state : ReaderState}

/-- The reader whose action it is, if it is a reader's. -/
def Action.index? : Action → Option Nat
  | .ask index | .abandon index | .leave index => some index
  | .makeTopic _ | .append _ _ | .removeTopic _ | .close | .breakDown _ _ | .attach _ _ => none

/-- What a reader that asks is answered when it takes its next step, if it is then. -/
def answer? (system : ReaderSystem) (index : Nat) : Option ReadResult :=
  system.states[index]?.bind fun state => (state.step system.journal).2.2

/-! ## What becomes of a reader -/

theorem AskChange.becomes {journal : Journal} {moved : ReaderState}
    (asks : AskChange journal state moved) : state.Becomes moved := by
  cases asks with
  | marked =>
    have same := journal.membership_look state.reader
    simp only [Reader.membership, Prod.mk.injEq] at same
    exact ⟨journal.topicId_look _, same.2.2.1, fun left => same.2.2.2.trans left⟩
  | waits | rests => exact ⟨rfl, rfl, id⟩
  | stays => exact .refl state

theorem Change.becomes {taken : Option (Nat × Reader × JournalRecord)}
    (change : system.Change taken after) (found : system.states[index]? = some state) :
    ∃ later, after.states[index]? = some later ∧ state.Becomes later := by
  have replaced : ∀ (other : Nat) (before moved : ReaderState),
      system.states[other]? = some before →
      before.Becomes moved →
        ∃ later, (system.states.set other moved)[index]? = some later ∧ state.Becomes later := by
    intro other before moved isOther becomes
    rw [List.getElem?_set]
    by_cases same : other = index
    · subst same
      obtain rfl := Option.some.inj (found.symm.trans isOther)
      rw [if_pos rfl, if_pos (List.getElem?_eq_some_iff.1 found).1]
      exact ⟨moved, rfl, becomes⟩
    · rw [if_neg same]
      exact ⟨state, found, .refl state⟩
  cases change with
  | grew | removed | closed => exact ⟨state, found, .refl state⟩
  | attached =>
    refine ⟨state, ?_, .refl state⟩
    rw [List.getElem?_append_left (List.getElem?_eq_some_iff.1 found).1, found]
  | asked isOther asks => exact replaced _ _ _ isOther asks.becomes
  | took isOther => exact replaced _ _ _ isOther ⟨rfl, rfl, id⟩
  | left isOther => exact replaced _ _ _ isOther ⟨rfl, rfl, fun _ => rfl⟩

theorem becomes_performAll (found : system.states[index]? = some state) (actions : List Action) :
    ∃ later, (system.performAll actions).states[index]? = some later ∧ state.Becomes later := by
  induction actions generalizing system state with
  | nil => exact ⟨state, found, .refl state⟩
  | cons action actions inductionHypothesis =>
    obtain ⟨next, isNext, becomes⟩ := (change_perform system action).becomes found
    obtain ⟨later, isLater, more⟩ := inductionHypothesis isNext
    exact ⟨later, isLater, becomes.trans more⟩

/-- What is not an action of a reader leaves the reader alone. -/
theorem states_perform_of_ne (found : system.states[index]? = some state) {action : Action}
    (other : action.index? ≠ some index) :
    (system.perform action).states[index]? = some state := by
  have set : ∀ (asked : Nat) (moved : ReaderState), some asked ≠ some index →
      (system.states.set asked moved)[index]? = some state := by
    intro asked moved isOther
    rw [List.getElem?_set_ne fun same => isOther (congrArg some same), found]
  cases action with
  | makeTopic | append | removeTopic | close | breakDown => exact found
  | attach name group =>
    simp only [perform]
    split
    next => rw [List.getElem?_append_left (List.getElem?_eq_some_iff.1 found).1, found]
    next => exact found
  | ask asked | abandon asked | leave asked =>
    simp only [perform]
    split
    next => exact found
    next => exact set asked _ other

theorem states_performAll_of_ne (found : system.states[index]? = some state)
    {actions : List Action} (others : ∀ action ∈ actions, action.index? ≠ some index) :
    (system.performAll actions).states[index]? = some state := by
  induction actions generalizing system with
  | nil => exact found
  | cons action actions inductionHypothesis =>
    obtain ⟨other, rest⟩ := List.forall_mem_cons.1 others
    exact inductionHypothesis (states_perform_of_ne found other) rest

/-! ## Leaving -/

/-- A reader that has not left counts in its group, and leaving takes it from the count. -/
theorem groupOf?_leave (sound : system.Sound) (found : system.states[index]? = some state)
    (held : state.reader.released = false) {topic : Topic}
    (live : system.journal.liveTopic? state.reader.topic state.reader.epoch = some topic) :
    ∃ present, topic.groups.get? state.reader.group = some present ∧ 1 ≤ present.members ∧
      (system.journal.leave state.reader).groupOf? state.reader =
        if present.members = 1 then none
        else some { present with members := present.members - 1 } := by
  obtain ⟨isTopic, epoch⟩ := Journal.liveTopic?_eq_some_iff.1 live
  have listed : state.reader ∈ system.readers := by
    refine List.mem_filter.2 ⟨List.mem_map.2 ⟨state, List.mem_of_getElem? found, rfl⟩, ?_⟩
    rw [held]
    rfl
  obtain ⟨present, joined, _⟩ := sound.counts.exists_group listed live
  have some := sound.counts.inhabited isTopic joined
  refine ⟨present, joined, some, ?_⟩
  have left : (system.journal.leave state.reader).liveTopic? state.reader.topic
      state.reader.epoch = Option.some (Journal.Topic.leave topic state.reader.group) := by
    refine Journal.liveTopic?_eq_some_iff.2 ⟨?_, ?_⟩
    · simp only [Journal.leave, held, live, Bool.false_eq_true, if_false]
      rw [Journal.get?_modifyTopic, if_pos rfl, isTopic]
      rfl
    · rw [Journal.Topic.epoch_leave, epoch]
  rw [Journal.groupOf?, left, Option.bind_some, Journal.Topic.get?_leave, if_pos rfl, joined,
    Option.bind_some]
  by_cases last : present.members = 1
  · rw [if_pos last, if_pos (Nat.le_of_eq last)]
  · rw [if_neg last, if_neg fun few => last (Nat.le_antisymm few some)]

theorem journal_leave_of_released (found : system.states[index]? = some state)
    (released : state.reader.released = true) :
    (system.perform (.leave index)).journal = system.journal := by
  simp [perform, found, Journal.leave, released]

/-- Who has left takes nothing from any count by leaving again, whenever it does. -/
theorem journal_leave_again (found : system.states[index]? = some state) (later : List Action) :
    let now := (system.perform (.leave index)).performAll later
    (now.perform (.leave index)).journal = now.journal := by
  intro now
  have left : (system.perform (.leave index)).states[index]? =
      some ⟨state.reader.release, .no⟩ := by
    simp only [perform, found]
    rw [List.getElem?_set_self (List.getElem?_eq_some_iff.1 found).1]
  obtain ⟨still, isStill, becomes⟩ := becomes_performAll left later
  exact journal_leave_of_released isStill (becomes.released rfl)

/-! ## What lost readers can do -/

theorem lost_performAll (sound : system.Sound) (found : system.states[index]? = some state)
    (lost : system.journal.Lost state.reader) (actions : List Action) :
    (system.performAll actions).journal.Lost state.reader := by
  induction actions generalizing system state with
  | nil => exact lost
  | cons action actions inductionHypothesis =>
    have change := change_perform system action
    obtain ⟨next, isNext, becomes⟩ := change.becomes found
    have old := (sound.shown state (List.mem_of_getElem? found)).old
    have still := lost.of_outlasts change.outlasts old
    have last := inductionHypothesis (change.sound sound) isNext (still.of_topicId becomes.topicId)
    exact last.of_topicId becomes.topicId.symm

/-- Nothing that a reader does who lost its topic changes the journal. -/
theorem journal_perform_of_lost (found : system.states[index]? = some state)
    (lost : system.journal.Lost state.reader) {action : Action}
    (own : action.index? = some index) : (system.perform action).journal = system.journal := by
  cases action with
  | makeTopic | append | removeTopic | close | breakDown | attach => cases own
  | ask asked =>
    obtain rfl : asked = index := Option.some.inj own
    simp only [perform, found, ReaderState.step_of_lost lost]
    split <;> rfl
  | abandon asked => exact journal_abandon system asked
  | leave asked =>
    obtain rfl : asked = index := Option.some.inj own
    simp only [perform, found, lost.leave]

theorem answer?_of_lost (found : system.states[index]? = some state)
    (lost : system.journal.Lost state.reader) :
    system.answer? index = if state.asking = .marked then some (.error .closed) else none := by
  rw [answer?, found, Option.bind_some, ReaderState.step_of_lost lost]
  split <;> rfl

/-- A reader that lost its topic is told so by the second of two steps of its own, if not by the
first, whatever others do between them. -/
theorem answer?_twice_of_lost (sound : system.Sound) (found : system.states[index]? = some state)
    (lost : system.journal.Lost state.reader) {meanwhile : List Action}
    (others : ∀ action ∈ meanwhile, action.index? ≠ some index) :
    system.answer? index = some (.error .closed) ∨
      ((system.perform (.ask index)).performAll meanwhile).answer? index =
        some (.error .closed) := by
  by_cases marked : state.asking = .marked
  · exact Or.inl (by rw [answer?_of_lost found lost, if_pos marked])
  · refine Or.inr ?_
    have asked : (system.perform (.ask index)).states[index]? = some ⟨state.reader, .marked⟩ := by
      simp only [perform, found, ReaderState.step_of_lost lost, if_neg marked]
      rw [List.getElem?_set_self (List.getElem?_eq_some_iff.1 found).1]
    have soundAsked := (change_perform system (.ask index)).sound sound
    have stillLost : (system.perform (.ask index)).journal.Lost state.reader := by
      rwa [journal_perform_of_lost found lost rfl]
    have last := lost_performAll soundAsked asked stillLost meanwhile
    rw [answer?_of_lost (states_performAll_of_ne asked others) last, if_pos rfl]

/-- In every run of a journal and its readers: no two topics that were ever made have one epoch, and
each reader was opened on one of them. A group of a topic that is there counts just the readers that
were opened for it on this topic and have not left, it is there only while there are some, and it
has not come past the end of the topic. So a reader that leaves is taken from a count in which it
is, and whenever it leaves again nothing is taken. A reader whose topic was removed has lost it for
good: whatever it does, the journal stays as it is, whichever topics it has by then, and the reader
gets no other answer than that its reading is over, which it gets by the second step of its asking
at the latest, whatever others do in between. -/
theorem bookkeeping_is_exact (createsOnDemand : Bool) (actions : List Action) :
    let system := reached createsOnDemand actions
    let topicIds := (empty createsOnDemand).topicIds actions
    (topicIds.map (·.epoch)).Nodup ∧
    (∀ state ∈ system.states, state.reader.topicId ∈ topicIds) ∧
    (∀ name topic, system.journal.topics.get? name = some topic →
      ⟨name, topic.epoch⟩ ∈ topicIds ∧
      ∀ group,
        let members := system.readers.countP (GroupId.hasReader ⟨name, topic.epoch, group⟩)
        match topic.groups.get? group with
        | some present =>
            present.members = members ∧ 1 ≤ members ∧ present.offset ≤ topic.records.length
        | none => members = 0) ∧
    ∀ index state, system.states[index]? = some state →
      (∀ topic, state.reader.released = false →
        system.journal.liveTopic? state.reader.topic state.reader.epoch = some topic →
          ∃ present, topic.groups.get? state.reader.group = some present ∧ 1 ≤ present.members ∧
            (system.perform (.leave index)).journal.groupOf? state.reader =
              if present.members = 1 then none
              else some { present with members := present.members - 1 }) ∧
      (∀ later,
        let left := (system.perform (.leave index)).performAll later
        (left.perform (.leave index)).journal = left.journal) ∧
      (system.perform (.removeTopic state.reader.topic)).journal.Lost state.reader ∧
      (system.journal.Lost state.reader → ∀ later,
        let now := system.performAll later
        (∀ action, action.index? = some index → (now.perform action).journal = now.journal) ∧
        (∀ current, now.states[index]? = some current →
          now.journal.poll current.reader =
            (current.reader, now.journal, some (.error .closed))) ∧
        (now.answer? index = none ∨ now.answer? index = some (.error .closed)) ∧
        ∀ meanwhile, (∀ action ∈ meanwhile, action.index? ≠ some index) →
          now.answer? index = some (.error .closed) ∨
            ((now.perform (.ask index)).performAll meanwhile).answer? index =
              some (.error .closed)) := by
  intro system topicIds
  have sound : system.Sound := sound_reached createsOnDemand actions
  have catalogued : system.Catalogued topicIds := catalogued_reached createsOnDemand actions
  refine ⟨catalogued.distinct, catalogued.readers, ?groups, fun index state found =>
    ⟨?leaving, fun later => journal_leave_again found later, system.journal.lost_removeTopic _,
      ?lost⟩⟩
  case groups =>
    intro name topic isTopic
    refine ⟨catalogued.topics isTopic, fun group => ?_⟩
    have counted : topic.memberCount group =
        system.readers.countP (GroupId.hasReader ⟨name, topic.epoch, group⟩) :=
      sound.counts.counted isTopic group
    rw [Topic.memberCount] at counted
    cases joined : topic.groups.get? group with
    | none =>
      rw [joined] at counted
      exact counted.symm
    | some present =>
      rw [joined, Option.elim_some] at counted
      exact ⟨counted, counted ▸ sound.counts.inhabited isTopic joined,
        sound.counts.placed isTopic joined⟩
  case leaving =>
    intro topic held live
    have left : (system.perform (.leave index)).journal = system.journal.leave state.reader := by
      simp only [perform, found]
    rw [left]
    exact groupOf?_leave sound found held live
  case lost =>
    intro lost later now
    obtain ⟨current, isCurrent, becomes⟩ := becomes_performAll found later
    have soundNow : now.Sound := sound_performAll sound later
    have stillLost : now.journal.Lost current.reader :=
      (lost_performAll sound found lost later).of_topicId becomes.topicId
    refine ⟨fun action own => journal_perform_of_lost isCurrent stillLost own, ?_, ?_,
      fun meanwhile others => answer?_twice_of_lost soundNow isCurrent stillLost others⟩
    · intro other isOther
      obtain rfl := Option.some.inj (isCurrent.symm.trans isOther)
      exact stillLost.poll
    · rw [answer?_of_lost isCurrent stillLost]
      split
      next => exact Or.inr rfl
      next => exact Or.inl rfl

/-- Two readers share a group, and one of them leaves twice. Their topic is removed and made anew,
where a third reader makes a group of the same name. The other one of the two asks and leaves. -/
def renewal : List Action :=
  [.attach "updates" "first", .attach "updates" "first", .append "updates" ⟨[112], [1]⟩, .leave 0,
    .leave 0, .removeTopic "updates", .append "updates" ⟨[112], [2]⟩, .attach "updates" "first",
    .ask 1, .append "updates" ⟨[112], [3]⟩]

/-- The third reader is the only one in its group, whatever the one does that lost its topic, which
is told that its reading is over. -/
theorem bookkeeping_after_renewal :
    let system := reached true renewal
    let lost : Reader := ⟨"updates", 1, "first", 0, false⟩
    system.states[1]? = some ⟨lost, .marked⟩ ∧ system.journal.Lost lost ∧
      (empty true).topicIds renewal = [⟨"updates", 1⟩, ⟨"updates", 2⟩] ∧
      system.readers.countP (GroupId.hasReader ⟨"updates", 2, "first"⟩) = 1 ∧
      system.journal.group? "updates" "first" = some ⟨1, 1⟩ ∧
      (system.perform (.ask 1)).journal = system.journal ∧
      (system.perform (.leave 1)).journal = system.journal ∧
      system.answer? 1 = some (.error .closed) := by
  intro system lost
  have found : system.states[1]? = some ⟨lost, .marked⟩ := by decide
  have isLost : system.journal.Lost lost := by unfold Journal.Lost; decide
  obtain ⟨still, _, answered, _⟩ :=
    ((bookkeeping_is_exact true renewal).2.2.2 1 ⟨lost, .marked⟩ found).2.2.2 isLost []
  exact ⟨found, isLost, by decide, by decide, by decide, still (.ask 1) rfl, still (.leave 1) rfl,
    answered.resolve_left (by decide)⟩

end ReaderSystem

end UpdateRelay
