import UpdateRelay.Journal.Desk
import UpdateRelay.Proofs.Journal.Missed
import UpdateRelay.Proofs.Journal.Outlasting

/-!
# A journal with all its readers

A reader system is a journal with every reader that was ever opened, and how far each is with asking
for its next record. What touches the journal at once is one action: a reader that asks first marks
how many records its topic has and looks for one afterwards, so that anything can happen between
the two, and any number of readers can be asking at the same time. A reader that found nothing waits
until its topic changes; giving up the wait is an action of its own.

`ReaderSystem.Change` says what an action can do, and `ReaderSystem.Sound` what holds after every
run.
-/

namespace UpdateRelay

/-- How far a reader is with asking for its next record: it does not ask, it has marked how many
records there are and is about to look, or it waits for its topic to change. -/
inductive Asking
  | no
  | marked
  | waiting
  deriving DecidableEq, Repr

/-- A reader that was opened. -/
structure ReaderState where
  reader : Reader
  asking : Asking
  deriving DecidableEq, Repr

/-- A journal and all readers that were opened, oldest first. -/
structure ReaderSystem where
  journal : Journal
  states : List ReaderState
  deriving DecidableEq, Repr

/-- A consumer group of one of the topics that a name has had. -/
structure GroupId where
  topic : String
  epoch : Nat
  group : String
  deriving DecidableEq, Repr

/-- Whether a reader reads for a group. -/
def GroupId.hasReader (groupId : GroupId) (reader : Reader) : Bool :=
  reader.readsFor groupId.topic groupId.epoch groupId.group

/-- What the readers of a group have of what some reader gets. -/
def GroupId.share (groupId : GroupId) :
    Option (Nat × Reader × JournalRecord) → List (Nat × JournalRecord)
  | some (index, reader, record) => if groupId.hasReader reader then [(index, record)] else []
  | none => []

/-- The next step of a reader that asks for its next record, and what it gets by it. -/
def ReaderState.step (state : ReaderState) (journal : Journal) :
    ReaderState × Journal × Option ReadResult :=
  let marked : ReaderState := ⟨journal.look state.reader, .marked⟩
  match state.asking with
  | .no => (marked, journal, none)
  | .waiting =>
      if journal.mustLook state.reader then (marked, journal, none) else (state, journal, none)
  | .marked =>
      match journal.peek state.reader with
      | .error cause => (⟨state.reader, .no⟩, journal, some (.error cause))
      | .ok none => (⟨state.reader, .waiting⟩, journal, none)
      | .ok (some record) =>
          (⟨state.reader, .no⟩, journal.take state.reader, some (.ok record))

/-- A reader that may look and is not interrupted polls its journal, and waits if there was nothing.
-/
theorem ReaderState.step_step {state : ReaderState} {journal : Journal}
    (mayLook : state.asking = .no ∨
      state.asking = .waiting ∧ journal.mustLook state.reader = true) :
    let marked := state.step journal
    let polled := journal.poll state.reader
    marked.1.step marked.2.1 =
      (⟨polled.1, if polled.2.2.isNone then .waiting else .no⟩, polled.2.1, polled.2.2) := by
  have isMarked : state.step journal = (⟨journal.look state.reader, .marked⟩, journal, none) := by
    rcases mayLook with rests | ⟨waits, mustLook⟩
    · simp only [step, rests]
    · simp only [step, waits, mustLook, if_true]
  have peeked : journal.peek (journal.look state.reader) = journal.peek state.reader := by
    unfold Journal.look
    split <;> rfl
  have taken : journal.take (journal.look state.reader) = journal.take state.reader := by
    unfold Journal.take
    rw [peeked]
    unfold Journal.look
    cases journal.liveTopic? state.reader.topic state.reader.epoch <;> rfl
  intro marked polled
  rw [show marked = _ from isMarked]
  simp only [step, polled, Journal.poll, peeked, taken]
  cases journal.peek state.reader with
  | error cause => rfl
  | ok result => cases result <;> rfl

/-- The readers among some that have not left. -/
def openReaders (states : List ReaderState) : List Reader :=
  (states.map (·.reader)).filter fun reader => !reader.released

/-- A step by which a reader gets no record leaves the journal alone. -/
theorem ReaderState.journal_step {state : ReaderState} {journal : Journal}
    (nothing : ∀ record, (state.step journal).2.2 ≠ some (.ok record)) :
    (state.step journal).2.1 = journal := by
  simp only [step] at nothing ⊢
  cases asking : state.asking with
  | no => rfl
  | waiting => cases journal.mustLook state.reader <;> rfl
  | marked =>
    rw [asking] at nothing
    cases seen : journal.peek state.reader with
    | error cause => rfl
    | ok result =>
      cases result with
      | none => rfl
      | some record =>
        rw [seen] at nothing
        exact absurd rfl (nothing record)

namespace ReaderSystem

/-- What can happen to a journal and its readers. -/
inductive Action
  | makeTopic (name : String)
  | append (name : String) (record : JournalRecord)
  | removeTopic (name : String)
  | close
  | breakDown (appends : Nat) (refusesCreation : Bool)
  | attach (name group : String)
  | ask (index : Nat)
  | abandon (index : Nat)
  | leave (index : Nat)
  deriving DecidableEq, Repr

def empty (createsOnDemand : Bool) : ReaderSystem := ⟨.empty createsOnDemand, []⟩

/-- The system after something happened. Readers that leave stay listed, so that each keeps its
number. -/
def perform (system : ReaderSystem) : Action → ReaderSystem
  | .makeTopic name => { system with journal := (system.journal.makeTopic name).1 }
  | .append name record => { system with journal := (system.journal.append name record).1 }
  | .removeTopic name => { system with journal := system.journal.removeTopic name }
  | .close => { system with journal := system.journal.close }
  | .breakDown appends refusesCreation =>
      { system with
        journal :=
          { system.journal with brokenAppends := appends, refusesCreation := refusesCreation } }
  | .attach name group =>
      match system.journal.attach name group with
      | (journal, .ok reader) => ⟨journal, system.states ++ [⟨reader, .no⟩]⟩
      | (journal, .error _) => { system with journal := journal }
  | .ask index =>
      match system.states[index]? with
      | none => system
      | some state =>
          let moved := state.step system.journal
          ⟨moved.2.1, system.states.set index moved.1⟩
  | .abandon index =>
      match system.states[index]? with
      | none => system
      | some state => { system with states := system.states.set index ⟨state.reader, .no⟩ }
  | .leave index =>
      match system.states[index]? with
      | none => system
      | some state =>
          ⟨system.journal.leave state.reader,
            system.states.set index ⟨state.reader.release, .no⟩⟩

def performAll (system : ReaderSystem) : List Action → ReaderSystem
  | [] => system
  | action :: rest => (system.perform action).performAll rest

/-- The system after a run that began with nothing. -/
def reached (createsOnDemand : Bool) (actions : List Action) : ReaderSystem :=
  (empty createsOnDemand).performAll actions

theorem performAll_append (system : ReaderSystem) (first last : List Action) :
    system.performAll (first ++ last) = (system.performAll first).performAll last := by
  induction first generalizing system with
  | nil => rfl
  | cons action first inductionHypothesis => exact inductionHypothesis (system.perform action)

/-- The record that an action hands out, to which reader, and the number of this reader. -/
def handout? (system : ReaderSystem) : Action → Option (Nat × Reader × JournalRecord)
  | .ask index =>
      match system.states[index]? with
      | none => none
      | some state =>
          match (state.step system.journal).2.2 with
          | some (.ok record) => some (index, state.reader, record)
          | _ => none
  | _ => none

/-- The records that the readers of a group get in a run, in order, and the number of the reader
that gets each. -/
def handed (system : ReaderSystem) (groupId : GroupId) : List Action → List (Nat × JournalRecord)
  | [] => []
  | action :: rest =>
      groupId.share (system.handout? action) ++ (system.perform action).handed groupId rest

/-- The readers that have not left. -/
def readers (system : ReaderSystem) : List Reader := openReaders system.states

/-- Whether a group is there: the journal is open, the topic was not removed, and some reader of
the group has not left. -/
def hosts (system : ReaderSystem) (groupId : GroupId) : Bool :=
  !system.journal.closed && (system.journal.liveTopic? groupId.topic groupId.epoch).isSome &&
    system.readers.any groupId.hasReader

/-- Whether a group is there all through a run. -/
def hostsAll (system : ReaderSystem) (groupId : GroupId) : List Action → Bool
  | [] => system.hosts groupId
  | action :: rest => system.hosts groupId && (system.perform action).hostsAll groupId rest

/-! ## What an action can do -/

/-- What can become of a reader that asks, or gives up asking, and gets nothing. -/
inductive AskChange (journal : Journal) (state : ReaderState) : ReaderState → Prop
  | marked : AskChange journal state ⟨journal.look state.reader, .marked⟩
  | waits (marked : state.asking = .marked) (nothing : journal.peek state.reader = .ok none) :
      AskChange journal state ⟨state.reader, .waiting⟩
  | stays : AskChange journal state state
  | rests : AskChange journal state ⟨state.reader, .no⟩

/-- What can become of a system, and which reader gets a record by it. -/
inductive Change (system : ReaderSystem) :
    Option (Nat × Reader × JournalRecord) → ReaderSystem → Prop
  | grew {journal : Journal} (growth : system.journal.Grows journal) :
      Change system none ⟨journal, system.states⟩
  | removed (name : String) : Change system none ⟨system.journal.removeTopic name, system.states⟩
  | closed : Change system none ⟨system.journal.close, system.states⟩
  | attached {ready : Journal} {name group : String} {topic : Topic}
      (growth : system.journal.Grows ready) (found : ready.topics.get? name = some topic) :
      Change system none ⟨ready.modifyTopic name (Journal.Topic.join · group),
        system.states ++ [⟨⟨name, topic.epoch, group, topic.records.length, false⟩, .no⟩]⟩
  | asked {index : Nat} {state moved : ReaderState} (found : system.states[index]? = some state)
      (asks : AskChange system.journal state moved) :
      Change system none ⟨system.journal, system.states.set index moved⟩
  | took {index : Nat} {state : ReaderState} {record : JournalRecord}
      (found : system.states[index]? = some state)
      (seen : system.journal.peek state.reader = .ok (some record)) :
      Change system (some (index, state.reader, record))
        ⟨system.journal.take state.reader, system.states.set index ⟨state.reader, .no⟩⟩
  | left {index : Nat} {state : ReaderState} (found : system.states[index]? = some state) :
      Change system none ⟨system.journal.leave state.reader,
        system.states.set index ⟨state.reader.release, .no⟩⟩

theorem change_refl (system : ReaderSystem) : system.Change none system :=
  .grew (.refl system.journal)

theorem change_ask (system : ReaderSystem) (index : Nat) :
    system.Change (system.handout? (.ask index)) (system.perform (.ask index)) := by
  cases found : system.states[index]? with
  | none =>
    simp only [perform, handout?, found]
    exact change_refl system
  | some state =>
    simp only [perform, handout?, found, ReaderState.step]
    cases asking : state.asking with
    | no => exact .asked found .marked
    | waiting =>
      cases mustLook : system.journal.mustLook state.reader with
      | true => exact .asked found .marked
      | false => exact .asked found .stays
    | marked =>
      simp only
      cases seen : system.journal.peek state.reader with
      | error cause => exact .asked found .rests
      | ok result =>
        cases result with
        | none => exact .asked found (.waits asking seen)
        | some record => exact .took found seen

theorem change_attach (system : ReaderSystem) (name group : String) :
    system.Change none (system.perform (.attach name group)) := by
  cases attached : system.journal.attach name group with
  | mk journal result =>
    simp only [perform, attached]
    cases result with
    | error cause =>
      rw [Journal.attach_eq_error attached]
      exact change_refl system
    | ok reader =>
      obtain ⟨_, ready, topic, growth, found, rfl, rfl⟩ := Journal.attach_eq_ok attached
      exact .attached growth found

theorem change_perform (system : ReaderSystem) (action : Action) :
    system.Change (system.handout? action) (system.perform action) := by
  cases action with
  | makeTopic name => exact .grew (Journal.grows_makeTopic system.journal name)
  | append name record => exact .grew (Journal.grows_append system.journal name record)
  | removeTopic name => exact .removed name
  | close => exact .closed
  | breakDown appends refusesCreation => exact .grew (.of_same rfl rfl rfl)
  | attach name group => exact change_attach system name group
  | ask index => exact change_ask system index
  | abandon index =>
    simp only [perform, handout?]
    split
    next => exact change_refl system
    next state found => exact .asked found .rests
  | leave index =>
    simp only [perform, handout?]
    split
    next => exact change_refl system
    next state found => exact .left found

end ReaderSystem

/-! ## Readers and what they have seen -/

theorem openReaders_append (front back : List ReaderState) :
    openReaders (front ++ back) = openReaders front ++ openReaders back := by
  simp [openReaders]

theorem openReaders_cons (state : ReaderState) (rest : List ReaderState) :
    openReaders (state :: rest) =
      if state.reader.released then openReaders rest else state.reader :: openReaders rest := by
  cases released : state.reader.released <;> simp [openReaders, released]

/-- Which readers there are but for one at a place. -/
theorem exists_split_of_get? {states : List ReaderState} {index : Nat} {state : ReaderState}
    (found : states[index]? = some state) : ∃ front back, states = front ++ state :: back ∧
      ∀ moved, states.set index moved = front ++ moved :: back := by
  obtain ⟨inside, rfl⟩ := List.getElem?_eq_some_iff.1 found
  refine ⟨states.take index, states.drop (index + 1), ?_, fun moved => ?_⟩
  · rw [← List.drop_eq_getElem_cons inside, List.take_append_drop]
  · rw [List.set_eq_take_append_cons_drop, if_pos inside]

/-- Which group each open reader is a member of depends on no more than the memberships. -/
theorem membership_openReaders_set {states : List ReaderState} {index : Nat}
    {state moved : ReaderState} (found : states[index]? = some state)
    (same : moved.reader.membership = state.reader.membership) :
    (openReaders (states.set index moved)).map Reader.membership =
      (openReaders states).map Reader.membership := by
  obtain ⟨front, back, rfl, isSet⟩ := exists_split_of_get? found
  have released : moved.reader.released = state.reader.released :=
    congrArg (fun membership => membership.2.2.2) same
  rw [isSet, openReaders_append, openReaders_append, openReaders_cons, openReaders_cons, released]
  split
  next => rfl
  next => simp [same]

namespace Journal

/-- Whether a topic, if it is still there, has as many records as a reader has seen. -/
structure Shown (journal : Journal) (reader : Reader) : Prop where
  old : reader.epoch ≤ journal.epochs
  seen : ∀ {topic : Topic}, journal.liveTopic? reader.topic reader.epoch = some topic →
    reader.seen ≤ topic.records.length

/-- Whether the group of a reader has got all records that the reader has seen. -/
def HasRead (journal : Journal) (reader : Reader) : Prop :=
  ∀ number < reader.seen, journal.Misses ⟨reader.topic, reader.epoch, number⟩ reader.group

theorem Shown.of_outlasts {journal after : Journal} {reader : Reader} (shown : journal.Shown reader)
    (outlasts : journal.Outlasts after) : after.Shown reader where
  old := Nat.le_trans shown.old outlasts.epochs
  seen := by
    intro topic live
    obtain ⟨earlier, wasLive, more⟩ := outlasts.source shown.old live
    exact Nat.le_trans (shown.seen wasLive) more.length_le

theorem Shown.look {journal : Journal} {reader : Reader} (shown : journal.Shown reader) :
    journal.Shown (journal.look reader) := by
  unfold Journal.look
  split
  next topic live =>
    refine ⟨shown.old, fun {current} isLive => ?_⟩
    obtain rfl : topic = current := Option.some.inj (live.symm.trans isLive)
    exact Nat.le_refl _
  next => exact shown

/-- A group that gets nothing has got all that any of its readers has seen. -/
theorem Shown.hasRead {journal : Journal} {reader : Reader} (shown : journal.Shown reader)
    (nothing : journal.peek reader = .ok none) : journal.HasRead reader := by
  obtain ⟨topic, group, live, joined, isNothing⟩ := peek_eq_ok nothing
  have ends := List.getElem?_eq_none_iff.1 isNothing.symm
  have seen := shown.seen live
  refine fun number before => ⟨shown.old, fun {current} isLive => ?_⟩
  obtain rfl : topic = current := Option.some.inj (live.symm.trans isLive)
  have inside : number < topic.records.length := by omega
  refine ⟨inside, fun {present} isPresent => ?_⟩
  obtain rfl : group = present := Option.some.inj (joined.symm.trans isPresent)
  exact Nat.lt_of_lt_of_le inside ends

end Journal

/-! ## What holds after every run -/

namespace ReaderSystem

/-- What holds of a system after every run. -/
structure Sound (system : ReaderSystem) : Prop where
  counts : MemberCounts system.journal system.readers
  shown : ∀ state ∈ system.states, system.journal.Shown state.reader
  read : ∀ state ∈ system.states, state.asking = .waiting → system.journal.HasRead state.reader

namespace Change

variable {system after : ReaderSystem} {taken : Option (Nat × Reader × JournalRecord)}

theorem outlasts (change : system.Change taken after) : system.journal.Outlasts after.journal := by
  cases change with
  | grew growth => exact growth.outlasts
  | removed name => exact system.journal.outlasts_removeTopic name
  | closed => exact system.journal.outlasts_close
  | attached growth => exact growth.outlasts.modifyTopic _ (fun _ => rfl) fun _ => rfl
  | asked => exact (Journal.Grows.refl system.journal).outlasts
  | took => exact system.journal.outlasts_take _
  | left => exact system.journal.outlasts_leave _

/-- Whatever happens, a group does not come back to a record that it has got past. -/
theorem misses (change : system.Change taken after) {source : RecordId} {group : String}
    (misses : system.journal.Misses source group) : after.journal.Misses source group := by
  cases change with
  | grew growth => exact misses.grows growth
  | removed name => exact misses.removeTopic name
  | closed => exact misses.close
  | attached growth =>
    exact (misses.grows growth).modifyTopic _ (fun _ => rfl) fun missed => missed.join _
  | asked => exact misses
  | took => exact misses.take _
  | left => exact misses.leave _

theorem hasRead (change : system.Change taken after) {reader : Reader}
    (read : system.journal.HasRead reader) : after.journal.HasRead reader :=
  fun number before => change.misses (read number before)

theorem counts (change : system.Change taken after)
    (counts : MemberCounts system.journal system.readers) :
    MemberCounts after.journal after.readers := by
  cases change with
  | grew growth => exact counts.grows growth
  | removed name => exact counts.removeTopic name
  | closed => exact counts.close
  | @attached _ _ group topic growth found =>
    have joined := @MemberCounts.join _ _ _ group _ (counts.grows growth) found topic.records.length
    rw [readers, openReaders_append]
    exact joined.of_perm (List.perm_append_singleton _ _).symm
  | asked found asks =>
    refine counts.of_map (membership_openReaders_set found ?_)
    cases asks with
    | marked => exact system.journal.membership_look _
    | waits | stays | rests => rfl
  | took found => exact (counts.take _).of_map (membership_openReaders_set found rfl)
  | @left index state found =>
    obtain ⟨front, back, split, isSet⟩ := exists_split_of_get? found
    have before : system.readers = openReaders front ++ openReaders (state :: back) := by
      rw [readers, split, openReaders_append]
    have after : openReaders (system.states.set index ⟨state.reader.release, .no⟩) =
        openReaders front ++ openReaders back := by
      rw [isSet, openReaders_append, openReaders_cons, Reader.release, if_pos rfl]
    rw [before, openReaders_cons] at counts
    rw [readers, after]
    cases released : state.reader.released with
    | true => simpa [Journal.leave, released] using counts
    | false =>
      rw [released, if_neg Bool.false_ne_true] at counts
      exact (counts.of_perm List.perm_middle).leave

theorem shown (change : system.Change taken after) (sound : system.Sound) :
    ∀ state ∈ after.states, after.journal.Shown state.reader := by
  have kept : ∀ state ∈ system.states, after.journal.Shown state.reader :=
    fun state member => (sound.shown state member).of_outlasts change.outlasts
  cases change with
  | grew | removed | closed => exact kept
  | attached growth found =>
    intro state member
    rcases List.mem_append.1 member with old | new
    · exact kept state old
    · obtain rfl := List.mem_singleton.1 new
      refine ⟨(sound.counts.grows growth).topicEpoch found, fun {current} live => ?_⟩
      have isCurrent := (Journal.liveTopic?_eq_some_iff.1 live).1
      rw [Journal.get?_modifyTopic, if_pos rfl, found] at isCurrent
      rw [← Option.some.inj isCurrent]
      exact Nat.le_refl _
  | asked found asks =>
    intro state member
    rcases List.mem_or_eq_of_mem_set member with old | rfl
    · exact kept state old
    · have was := kept _ (List.mem_of_getElem? found)
      cases asks with
      | marked => exact was.look
      | waits | stays | rests => exact was
  | took found | left found =>
    intro state member
    rcases List.mem_or_eq_of_mem_set member with old | rfl
    · exact kept state old
    · have was := kept _ (List.mem_of_getElem? found)
      exact ⟨was.old, was.seen⟩

theorem read (change : system.Change taken after) (sound : system.Sound) :
    ∀ state ∈ after.states, state.asking = .waiting → after.journal.HasRead state.reader := by
  have kept : ∀ state ∈ system.states, state.asking = .waiting →
      after.journal.HasRead state.reader :=
    fun state member waiting => change.hasRead (sound.read state member waiting)
  cases change with
  | grew | removed | closed => exact kept
  | attached =>
    intro state member waiting
    rcases List.mem_append.1 member with old | new
    · exact kept state old waiting
    · rw [List.mem_singleton.1 new] at waiting
      contradiction
  | asked found asks =>
    intro state member waiting
    rcases List.mem_or_eq_of_mem_set member with old | rfl
    · exact kept state old waiting
    · have isOld := List.mem_of_getElem? found
      cases asks with
      | marked | rests => contradiction
      | waits _ nothing => exact (sound.shown _ isOld).hasRead nothing
      | stays => exact kept _ isOld waiting
  | took | left =>
    intro state member waiting
    rcases List.mem_or_eq_of_mem_set member with old | rfl
    · exact kept state old waiting
    · contradiction

theorem sound (change : system.Change taken after) (sound : system.Sound) : after.Sound where
  counts := change.counts sound.counts
  shown := change.shown sound
  read := change.read sound

end Change

theorem sound_performAll {system : ReaderSystem} (sound : system.Sound) (actions : List Action) :
    (system.performAll actions).Sound := by
  induction actions generalizing system with
  | nil => exact sound
  | cons action actions inductionHypothesis =>
    exact inductionHypothesis ((change_perform system action).sound sound)

theorem sound_reached (createsOnDemand : Bool) (actions : List Action) :
    (reached createsOnDemand actions).Sound :=
  sound_performAll ⟨.ofEmpty createsOnDemand, by simp [empty], by simp [empty]⟩ actions

end ReaderSystem

end UpdateRelay
