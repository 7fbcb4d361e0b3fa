import UpdateRelay.Proofs.Journal.ReaderSystem
import UpdateRelay.Proofs.Journal.Related

/-!
# Groups that read side by side

What a consumer group gets does not depend on what other groups have read. Two rooms are alike to a
group if they differ in nothing that its readers can notice: the positions of other groups and how
far readers of these are with asking do not count. Every action keeps rooms alike, and a reader of
another group that asks leaves a system alike to itself.
-/

namespace UpdateRelay

/-- Whether two topics of a name are alike to a group. -/
structure Topic.Alike (groupId : GroupId) (name : String) (first second : Topic) : Prop where
  epoch : second.epoch = first.epoch
  records : second.records = first.records
  group : name = groupId.topic → first.epoch = groupId.epoch →
    second.groups.get? groupId.group = first.groups.get? groupId.group

/-- Whether two journals are alike to a group. -/
structure Journal.Alike (groupId : GroupId) (first second : Journal) : Prop where
  epochs : second.epochs = first.epochs
  createsOnDemand : second.createsOnDemand = first.createsOnDemand
  brokenAppends : second.brokenAppends = first.brokenAppends
  refusesCreation : second.refusesCreation = first.refusesCreation
  closed : second.closed = first.closed
  topics : ∀ name, Option.Rel (Topic.Alike groupId name) (first.topics.get? name)
    (second.topics.get? name)

namespace Topic.Alike

variable {groupId : GroupId} {name : String}

theorem refl (topic : Topic) : topic.Alike groupId name topic := ⟨rfl, rfl, fun _ _ => rfl⟩

theorem symm {first second : Topic} (alike : first.Alike groupId name second) :
    second.Alike groupId name first where
  epoch := alike.epoch.symm
  records := alike.records.symm
  group := fun isTopic epoch => (alike.group isTopic (alike.epoch ▸ epoch)).symm

theorem append {first second : Topic} (alike : first.Alike groupId name second)
    (record : JournalRecord) :
    Topic.Alike groupId name { first with records := first.records ++ [record] }
      { second with records := second.records ++ [record] } where
  epoch := alike.epoch
  records := by rw [alike.records]
  group := alike.group

theorem join {first second : Topic} (alike : first.Alike groupId name second) (group : String) :
    (Journal.Topic.join first group).Alike groupId name (Journal.Topic.join second group) where
  epoch := alike.epoch
  records := alike.records
  group := by
    intro isTopic epoch
    have own := alike.group isTopic epoch
    rw [Journal.Topic.get?_join, Journal.Topic.get?_join, own, alike.records]
    split
    next same => rw [← same, own]
    next => rfl

theorem leave {first second : Topic} (alike : first.Alike groupId name second) (group : String) :
    (Journal.Topic.leave first group).Alike groupId name (Journal.Topic.leave second group) where
  epoch := by rw [Journal.Topic.epoch_leave, Journal.Topic.epoch_leave, alike.epoch]
  records := by rw [Journal.Topic.records_leave, Journal.Topic.records_leave, alike.records]
  group := by
    intro isTopic epoch
    rw [Journal.Topic.epoch_leave] at epoch
    have own := alike.group isTopic epoch
    rw [Journal.Topic.get?_leave, Journal.Topic.get?_leave, own]
    split
    next same => rw [← same, own]
    next => rfl

theorem advance {first second : Topic} (alike : first.Alike groupId name second)
    (group : String) :
    (Journal.Topic.advance first group).Alike groupId name
    (Journal.Topic.advance second group) where
  epoch := alike.epoch
  records := alike.records
  group := by
    intro isTopic epoch
    have own := alike.group isTopic epoch
    rw [Journal.Topic.get?_advance, Journal.Topic.get?_advance, own, alike.records]
    split
    next same => rw [← same, own]
    next => rfl

/-- Another group that reads does not matter. -/
theorem advance_other {first second : Topic} (alike : first.Alike groupId name second)
    {group : String}
    (other : name = groupId.topic → first.epoch = groupId.epoch → group ≠ groupId.group) :
    (Journal.Topic.advance first group).Alike groupId name second where
  epoch := alike.epoch
  records := alike.records
  group := by
    intro isTopic epoch
    rw [Journal.Topic.get?_advance, if_neg (Ne.symm (other isTopic epoch))]
    exact alike.group isTopic epoch

end Topic.Alike

/-- To be alike to a group is kept by all that a journal does to a topic. -/
theorem Topic.Fits.alike (groupId : GroupId) : Topic.Fits (Topic.Alike groupId) where
  epoch := Topic.Alike.epoch
  records := Topic.Alike.records
  fresh := fun _ _ => .refl _
  append := Topic.Alike.append
  leave := Topic.Alike.leave
  advance := Topic.Alike.advance

namespace Journal.Alike

variable {groupId : GroupId} {first second : Journal}

theorem related (alike : first.Alike groupId second) :
    Journal.Related (Topic.Alike groupId) first second :=
  ⟨alike.epochs, alike.createsOnDemand, alike.brokenAppends, alike.refusesCreation, alike.closed,
    alike.topics⟩

theorem of_related (related : Journal.Related (Topic.Alike groupId) first second) :
    first.Alike groupId second :=
  ⟨related.epochs, related.createsOnDemand, related.brokenAppends, related.refusesCreation,
    related.closed, related.topics⟩

theorem refl (journal : Journal) : journal.Alike groupId journal :=
  of_related (.refl (fun _ topic => .refl topic) journal)

theorem symm (alike : first.Alike groupId second) : second.Alike groupId first where
  epochs := alike.epochs.symm
  createsOnDemand := alike.createsOnDemand.symm
  brokenAppends := alike.brokenAppends.symm
  refusesCreation := alike.refusesCreation.symm
  closed := alike.closed.symm
  topics := by
    intro name
    have same := alike.topics name
    generalize first.topics.get? name = one, second.topics.get? name = other at same ⊢
    cases same with
    | none => exact .none
    | some same => exact .some same.symm

theorem removeTopic (alike : first.Alike groupId second) (name : String) :
    (first.removeTopic name).Alike groupId (second.removeTopic name) :=
  of_related (alike.related.removeTopic name)

theorem close (alike : first.Alike groupId second) : first.close.Alike groupId second.close :=
  of_related alike.related.close

theorem makeTopic (alike : first.Alike groupId second) (name : String) :
    (first.makeTopic name).1.Alike groupId (second.makeTopic name).1 :=
  of_related (alike.related.makeTopic (.alike groupId) name).1

theorem append (alike : first.Alike groupId second) (name : String) (record : JournalRecord) :
    (first.append name record).1.Alike groupId (second.append name record).1 :=
  of_related (alike.related.append (.alike groupId) name record).1

/-- Both journals open the same reader, or none. -/
theorem attach (alike : first.Alike groupId second) (name group : String) :
    (first.attach name group).1.Alike groupId (second.attach name group).1 ∧
      (second.attach name group).2 = (first.attach name group).2 := by
  obtain ⟨related, result⟩ :=
    alike.related.attach (.alike groupId) fun _ _ _ _ _ _ same => same.join group
  exact ⟨of_related related, result⟩

/-! ## Readers -/

theorem liveTopic? (alike : first.Alike groupId second) (name : String) (epoch : Nat) :
    Option.Rel (Topic.Alike groupId name) (first.liveTopic? name epoch)
      (second.liveTopic? name epoch) :=
  alike.related.liveTopic? (.alike groupId) name epoch

theorem look (alike : first.Alike groupId second) (reader : Reader) :
    second.look reader = first.look reader :=
  alike.related.look (.alike groupId) reader

theorem mustLook (alike : first.Alike groupId second) (reader : Reader) :
    second.mustLook reader = first.mustLook reader :=
  alike.related.mustLook (.alike groupId) reader

theorem peek (alike : first.Alike groupId second) {reader : Reader}
    (member : groupId.hasReader reader = true) : second.peek reader = first.peek reader := by
  obtain ⟨isTopic, epoch, group⟩ := of_decide_eq_true member
  have same := alike.liveTopic? reader.topic reader.epoch
  have live : ∀ {topic}, first.liveTopic? reader.topic reader.epoch = some topic →
      topic.epoch = groupId.epoch :=
    fun isLive => (liveTopic?_eq_some_iff.1 isLive).2.trans epoch
  unfold Journal.peek
  rw [alike.closed]
  generalize first.liveTopic? reader.topic reader.epoch = one,
    second.liveTopic? reader.topic reader.epoch = other at same live ⊢
  cases same with
  | none => rfl
  | some same =>
    have own := same.group isTopic (live rfl)
    simp only [group, own, same.records]

theorem leave (alike : first.Alike groupId second) (reader : Reader) :
    (first.leave reader).Alike groupId (second.leave reader) :=
  of_related (alike.related.leave (.alike groupId) reader)

theorem take (alike : first.Alike groupId second) {reader : Reader}
    (member : groupId.hasReader reader = true) :
    (first.take reader).Alike groupId (second.take reader) :=
  of_related (alike.related.take (.alike groupId) (alike.peek member))

/-- What a reader of another group takes is nothing that the group notices. -/
theorem take_other (alike : first.Alike groupId second) {reader : Reader}
    (other : groupId.hasReader reader = false) : (first.take reader).Alike groupId second := by
  cases seen : first.peek reader with
  | error cause =>
    have same : first.take reader = first := by rw [Journal.take, seen]
    rwa [same]
  | ok result =>
    cases result with
    | none =>
      have same : first.take reader = first := by rw [Journal.take, seen]
      rwa [same]
    | some record =>
      obtain ⟨topic, _, live, _⟩ := peek_eq_ok seen
      obtain ⟨found, epoch⟩ := liveTopic?_eq_some_iff.1 live
      rw [take_of_peek seen]
      refine { alike with topics := fun query => ?_ }
      have same := alike.topics query
      rw [get?_modifyTopic]
      split
      next here =>
        subst here
        rw [found] at same ⊢
        generalize second.topics.get? reader.topic = there at same ⊢
        cases same with
        | some same =>
          refine .some (same.advance_other fun isTopic isEpoch isGroup => ?_)
          exact of_decide_eq_false other ⟨isTopic, epoch.symm.trans isEpoch, isGroup⟩
      next => exact same

end Journal.Alike

/-- Whether two readers with one number are alike to a group: they belong to the same group, and
are the same if that is the one. -/
structure ReaderState.Alike (groupId : GroupId) (first second : ReaderState) : Prop where
  membership : second.reader.membership = first.reader.membership
  own : groupId.hasReader first.reader = true → second = first

namespace ReaderState

variable {groupId : GroupId}

theorem hasReader_of_membership {first second : Reader}
    (same : second.membership = first.membership) :
    groupId.hasReader second = groupId.hasReader first := by
  simp only [Reader.membership, Prod.mk.injEq] at same
  simp only [GroupId.hasReader, Reader.readsFor, same]

namespace Alike

theorem refl (state : ReaderState) : state.Alike groupId state := ⟨rfl, fun _ => rfl⟩

theorem symm {first second : ReaderState} (alike : first.Alike groupId second) :
    second.Alike groupId first where
  membership := alike.membership.symm
  own := fun member => by
    rw [hasReader_of_membership alike.membership] at member
    exact (alike.own member).symm

/-- How far a reader of another group is with asking does not matter. -/
theorem of_other {first second moved : ReaderState} (alike : first.Alike groupId second)
    (other : groupId.hasReader first.reader = false)
    (same : moved.reader.membership = first.reader.membership) : moved.Alike groupId second where
  membership := alike.membership.trans same.symm
  own := fun member => by
    rw [hasReader_of_membership same, other] at member
    contradiction

end Alike

/-- A reader of the group takes the same step in both journals. -/
theorem step_own {first second : Journal} (alike : first.Alike groupId second) {state : ReaderState}
    (member : groupId.hasReader state.reader = true) :
    (state.step second).1 = (state.step first).1 ∧
      (state.step first).2.1.Alike groupId (state.step second).2.1 ∧
      (state.step second).2.2 = (state.step first).2.2 := by
  have taken := alike.take member
  simp only [step, alike.look, alike.mustLook, alike.peek member]
  cases state.asking with
  | no => exact ⟨rfl, alike, rfl⟩
  | waiting =>
    cases first.mustLook state.reader with
    | true | false => exact ⟨rfl, alike, rfl⟩
  | marked =>
    cases first.peek state.reader with
    | error cause => exact ⟨rfl, alike, rfl⟩
    | ok result =>
      cases result with
      | none => exact ⟨rfl, alike, rfl⟩
      | some record => exact ⟨rfl, taken, rfl⟩

/-- The step of a reader of another group is not noticed. -/
theorem step_other {first second : Journal} (alike : first.Alike groupId second)
    {state : ReaderState} (other : groupId.hasReader state.reader = false) :
    (state.step first).1.reader.membership = state.reader.membership ∧
      (state.step first).2.1.Alike groupId second := by
  have taken := alike.take_other other
  simp only [step]
  cases state.asking with
  | no => exact ⟨first.membership_look state.reader, alike⟩
  | waiting =>
    cases first.mustLook state.reader with
    | true => exact ⟨first.membership_look state.reader, alike⟩
    | false => exact ⟨rfl, alike⟩
  | marked =>
    cases first.peek state.reader with
    | error cause => exact ⟨rfl, alike⟩
    | ok result =>
      cases result with
      | none => exact ⟨rfl, alike⟩
      | some record => exact ⟨rfl, taken⟩

end ReaderState

/-- What a reader leaves depends on no more than its membership. -/
theorem Journal.leave_of_membership {journal : Journal} {first second : Reader}
    (same : second.membership = first.membership) :
    journal.leave second = journal.leave first := by
  simp only [Reader.membership, Prod.mk.injEq] at same
  simp only [Journal.leave, same]

namespace ReaderSystem

/-- Whether two rooms are alike to a group. -/
structure Alike (groupId : GroupId) (first second : ReaderSystem) : Prop where
  journal : first.journal.Alike groupId second.journal
  length : second.states.length = first.states.length
  state : ∀ index : Nat,
    Option.Rel (ReaderState.Alike groupId) first.states[index]? second.states[index]?

namespace Alike

variable {groupId : GroupId} {first second : ReaderSystem}

theorem refl (system : ReaderSystem) : system.Alike groupId system := by
  refine ⟨.refl _, rfl, fun index => ?_⟩
  cases system.states[index]? with
  | none => exact .none
  | some state => exact .some (.refl state)

theorem symm (alike : first.Alike groupId second) : second.Alike groupId first where
  journal := alike.journal.symm
  length := alike.length.symm
  state := by
    intro index
    have same := alike.state index
    generalize first.states[index]? = one, second.states[index]? = other at same ⊢
    cases same with
    | none => exact .none
    | some same => exact .some same.symm

theorem withJournal (alike : first.Alike groupId second) {one other : Journal}
    (same : one.Alike groupId other) :
    Alike groupId { first with journal := one } { second with journal := other } :=
  { alike with journal := same }

/-- The readers with one number are exchanged in both rooms. -/
theorem set (alike : first.Alike groupId second) (index : Nat) {one other : ReaderState}
    {early late : Journal} (journal : early.Alike groupId late) (same : one.Alike groupId other) :
    Alike groupId ⟨early, first.states.set index one⟩ ⟨late, second.states.set index other⟩ where
  journal := journal
  length := by simpa using alike.length
  state := by
    intro query
    simp only [List.getElem?_set, alike.length]
    split
    next =>
      split
      next => exact .some same
      next => exact .none
    next => exact alike.state query

/-- Who reads for another group in one system does so in the other. -/
theorem stranger (alike : first.Alike groupId second) {index : Nat}
    (other : ∀ state, first.states[index]? = some state →
      groupId.hasReader state.reader = false) :
    ∀ state, second.states[index]? = some state → groupId.hasReader state.reader = false := by
  intro partner there
  have same := alike.state index
  rw [there] at same
  cases found : first.states[index]? with
  | none => rw [found] at same; cases same
  | some state =>
    rw [found] at same
    cases same with
    | some same =>
      rw [ReaderState.hasReader_of_membership same.membership]
      exact other state found

/-- A reader of another group that asks is not noticed. -/
theorem ask_other (alike : first.Alike groupId second) {index : Nat}
    (other : ∀ state, first.states[index]? = some state →
      groupId.hasReader state.reader = false) :
    (first.perform (.ask index)).Alike groupId second := by
  have same := alike.state index
  simp only [perform]
  cases found : first.states[index]? with
  | none => exact alike
  | some state =>
    have stranger := other state found
    obtain ⟨membership, journal⟩ := ReaderState.step_other alike.journal stranger
    rw [found] at same
    cases there : second.states[index]? with
    | none => rw [there] at same; cases same
    | some partner =>
      rw [there] at same
      cases same with
      | some same =>
        have moved := alike.set index journal (same.of_other stranger membership)
        obtain ⟨inside, rfl⟩ := List.getElem?_eq_some_iff.1 there
        rwa [List.set_getElem_self] at moved

/-- A reader of the group that asks gets the same in both rooms. -/
theorem ask_own (alike : first.Alike groupId second) {index : Nat} {state : ReaderState}
    (found : first.states[index]? = some state)
    (member : groupId.hasReader state.reader = true) :
    (first.perform (.ask index)).Alike groupId (second.perform (.ask index)) ∧
      second.handout? (.ask index) = first.handout? (.ask index) := by
  have same := alike.state index
  rw [found] at same
  cases there : second.states[index]? with
  | none => rw [there] at same; cases same
  | some partner =>
    rw [there] at same
    cases same with
    | some same =>
      obtain rfl := same.own member
      obtain ⟨moved, journal, result⟩ := ReaderState.step_own alike.journal member
      constructor
      · simp only [perform, found, there, moved]
        exact alike.set index journal (.refl _)
      · simp only [handout?, found, there, result]

theorem attach (alike : first.Alike groupId second) (name group : String) :
    (first.perform (.attach name group)).Alike groupId (second.perform (.attach name group)) := by
  obtain ⟨journal, result⟩ := alike.journal.attach name group
  simp only [perform]
  generalize first.journal.attach name group = one,
    second.journal.attach name group = other at journal result ⊢
  obtain ⟨early, got⟩ := one
  obtain ⟨late, gotToo⟩ := other
  obtain rfl : gotToo = got := result
  cases gotToo with
  | error cause => exact alike.withJournal journal
  | ok reader =>
    refine ⟨journal, by simpa using alike.length, fun index => ?_⟩
    simp only [List.getElem?_append, alike.length]
    split
    next => exact alike.state index
    next =>
      cases [ReaderState.mk reader .no][index - first.states.length]? with
      | none => exact .none
      | some state => exact .some (.refl state)

theorem setAside (alike : first.Alike groupId second) (index : Nat) :
    (first.perform (.abandon index)).Alike groupId (second.perform (.abandon index)) := by
  have same := alike.state index
  simp only [perform]
  generalize first.states[index]? = one, second.states[index]? = other at same ⊢
  cases same with
  | none => exact alike
  | some same =>
    exact alike.set index alike.journal
      ⟨same.membership, fun member => by rw [same.own member]⟩

theorem leave (alike : first.Alike groupId second) (index : Nat) :
    (first.perform (.leave index)).Alike groupId (second.perform (.leave index)) := by
  have same := alike.state index
  simp only [perform]
  generalize first.states[index]? = one, second.states[index]? = other at same ⊢
  cases same with
  | none => exact alike
  | @some one other same =>
    have left : (first.journal.leave one.reader).Alike groupId
        (second.journal.leave other.reader) := by
      rw [Journal.leave_of_membership same.membership]
      exact alike.journal.leave one.reader
    refine alike.set index left ⟨?_, fun member => by rw [same.own member]⟩
    have was := same.membership
    simp only [Reader.membership, Prod.mk.injEq] at was
    simp only [Reader.release, Reader.membership, was]

end Alike

/-- A reader of another group brings the group nothing. -/
theorem share_eq_nil (system : ReaderSystem) {groupId : GroupId} {index : Nat}
    (other : ∀ state, system.states[index]? = some state →
      groupId.hasReader state.reader = false) :
    groupId.share (system.handout? (.ask index)) = [] := by
  cases found : system.states[index]? with
  | none => simp only [handout?, found, GroupId.share]
  | some state =>
    simp only [handout?, found]
    split
    next => simp [GroupId.share, other state found]
    next => rfl

/-- Whatever happens in rooms that are alike to a group, they stay so, and the group gets the same.
-/
theorem Alike.perform {groupId : GroupId} {first second : ReaderSystem}
    (alike : first.Alike groupId second) (action : Action) :
    (first.perform action).Alike groupId (second.perform action) ∧
      groupId.share (second.handout? action) = groupId.share (first.handout? action) := by
  cases action with
  | makeTopic name => exact ⟨alike.withJournal (alike.journal.makeTopic name), rfl⟩
  | append name record => exact ⟨alike.withJournal (alike.journal.append name record), rfl⟩
  | removeTopic name => exact ⟨alike.withJournal (alike.journal.removeTopic name), rfl⟩
  | close => exact ⟨alike.withJournal alike.journal.close, rfl⟩
  | breakDown appends refusesCreation =>
    exact ⟨alike.withJournal { alike.journal with brokenAppends := rfl, refusesCreation := rfl },
      rfl⟩
  | attach name group => exact ⟨alike.attach name group, rfl⟩
  | abandon index => exact ⟨alike.setAside index, rfl⟩
  | leave index => exact ⟨alike.leave index, rfl⟩
  | ask index =>
    by_cases own : ∃ state, first.states[index]? = some state ∧
        groupId.hasReader state.reader = true
    · obtain ⟨state, found, member⟩ := own
      obtain ⟨same, result⟩ := alike.ask_own found member
      exact ⟨same, by rw [result]⟩
    · have other : ∀ state, first.states[index]? = some state →
          groupId.hasReader state.reader = false := fun state found =>
        Bool.eq_false_iff.2 fun member => own ⟨state, found, member⟩
      have otherToo := alike.stranger other
      have once := alike.ask_other other
      exact ⟨(once.symm.ask_other otherToo).symm,
        by rw [share_eq_nil _ other, share_eq_nil _ otherToo]⟩

/-! ## Runs in which others read less -/

/-- Whether one run is another in which readers of other groups were not let ask at some moments. -/
inductive FewerAsks (groupId : GroupId) : ReaderSystem → List Action → List Action → Prop
  | nil (system : ReaderSystem) : FewerAsks groupId system [] []
  | keep {system : ReaderSystem} {rest less : List Action} (action : Action)
      (fewerAsks : FewerAsks groupId (system.perform action) rest less) :
      FewerAsks groupId system (action :: rest) (action :: less)
  | skip {system : ReaderSystem} {rest less : List Action} {index : Nat} {state : ReaderState}
      (found : system.states[index]? = some state)
      (other : groupId.hasReader state.reader = false)
      (fewerAsks : FewerAsks groupId (system.perform (.ask index)) rest less) :
      FewerAsks groupId system (.ask index :: rest) less

/-- A group gets the same whether readers of other groups read or not. -/
theorem handed_eq_of_fewerAsks {groupId : GroupId} {system other : ReaderSystem}
    {actions less : List Action} (fewerAsks : FewerAsks groupId system actions less)
    (alike : system.Alike groupId other) :
    other.handed groupId less = system.handed groupId actions := by
  induction fewerAsks generalizing other with
  | nil system => rfl
  | keep action fewerAsks inductionHypothesis =>
    obtain ⟨same, share⟩ := alike.perform action
    rw [handed, handed, share, inductionHypothesis same]
  | @skip system rest less index state found stranger fewerAsks inductionHypothesis =>
    have isStranger : ∀ asked, system.states[index]? = some asked →
        groupId.hasReader asked.reader = false := fun asked isAsked =>
      Option.some.inj (found.symm.trans isAsked) ▸ stranger
    rw [handed, share_eq_nil system isStranger, List.nil_append]
    exact inductionHypothesis (alike.ask_other isStranger)

end ReaderSystem

end UpdateRelay
