import UpdateRelay.Proofs.Journal.ReaderSystem
import UpdateRelay.Proofs.Journal.Writing

/-!
# No wake-up is lost

A reader that waits is woken by the channel of its topic, which carries how many records the topic
has: it tells the reader when this number was put anew since the reader last marked it as seen, and
when the topic is gone. A `NotifiedSystem` is a reader system in which it is written down what each
reader was told. `NotifiedSystem.Sound` has that this is just what `Journal.mustLook` reads off the
records, and `no_wakeup_lost` that readers are left waiting only where there is nothing for them to
get.
-/

namespace UpdateRelay

/-! ## Journals that are over -/

namespace Journal

variable {journal : Journal}

/-- A journal that was closed has no topics, and gets none any more. -/
def Ended (journal : Journal) : Prop := journal.closed = true → journal.topics = ∅

theorem Ended.of_same (ended : journal.Ended) {after : Journal}
    (closed : after.closed = journal.closed)
    (topics : journal.closed = true → after.topics = journal.topics) : after.Ended := by
  intro isClosed
  rw [closed] at isClosed
  rw [topics isClosed, ended isClosed]

theorem Ended.modifyTopic (ended : journal.Ended) (name : String) (change : Topic → Topic) :
    (journal.modifyTopic name change).Ended := by
  intro isClosed
  rw [Journal.modifyTopic, ended isClosed]
  rfl

theorem Ended.makeTopic (ended : journal.Ended) (name : String) :
    (journal.makeTopic name).1.Ended := by
  refine ended.of_same (journal.grows_makeTopic name).closed fun isClosed => ?_
  rw [Journal.makeTopic, if_pos isClosed]

theorem Ended.append (ended : journal.Ended) (name : String) (record : JournalRecord) :
    (journal.append name record).1.Ended := by
  refine ended.of_same (journal.grows_append name record).closed fun isClosed => ?_
  rw [Journal.append, if_pos isClosed]

theorem Ended.removeTopic (ended : journal.Ended) (name : String) :
    (journal.removeTopic name).Ended := by
  intro isClosed
  rw [Journal.removeTopic, ended isClosed]
  rfl

theorem Ended.attach (ended : journal.Ended) (name group : String) :
    (journal.attach name group).1.Ended := by
  cases isClosed : journal.closed with
  | true => rwa [Journal.attach, if_pos isClosed]
  | false =>
    cases attached : journal.attach name group with
    | mk after result =>
      cases result with
      | error cause => rwa [attach_eq_error attached]
      | ok reader =>
        obtain ⟨_, ready, topic, growth, _, rfl, _⟩ := attach_eq_ok attached
        intro isOver
        rw [show (ready.modifyTopic name (Topic.join · group)).closed = ready.closed from rfl,
          growth.closed, isClosed] at isOver
        contradiction

theorem Ended.take (ended : journal.Ended) (reader : Reader) : (journal.take reader).Ended := by
  unfold Journal.take
  split
  next => exact ended.modifyTopic _ _
  next => exact ended

theorem Ended.leave (ended : journal.Ended) (reader : Reader) : (journal.leave reader).Ended := by
  unfold Journal.leave
  split
  next => exact ended
  next =>
    split
    next => exact ended
    next => exact ended.modifyTopic _ _

/-! ## What readers are told -/

variable {after : Journal} {reader : Reader} {told : Bool}

theorem records_of_liveTopic? {name : String} {epoch : Nat} {topic : Topic}
    (live : journal.liveTopic? name epoch = some topic) : journal.records name = topic.records := by
  rw [records, (liveTopic?_eq_some_iff.1 live).1]

theorem records_removeTopic {name query : String} {epoch : Nat}
    (live : ((journal.removeTopic name).liveTopic? query epoch).isSome) :
    (journal.removeTopic name).records query = journal.records query := by
  obtain ⟨topic, isLive⟩ := Option.isSome_iff_exists.1 live
  have found := (liveTopic?_eq_some_iff.1 isLive).1
  simp only [records, removeTopic, Table.get?_erase] at found ⊢
  split at found
  next => contradiction
  next other => rw [if_neg other]

theorem records_take_eq (journal : Journal) (reader : Reader) (query : String) :
    (journal.take reader).records query = journal.records query := by
  unfold take
  split
  next =>
    have kept : ∀ topic, (Topic.advance topic reader.group).records = topic.records := fun _ => rfl
    exact journal.records_modifyTopic _ kept query
  next => rfl

/-- As long as its topic is there, a reader was told of a new number of records just if there are
not as many as it has seen. -/
def Tells (journal : Journal) (reader : Reader) (told : Bool) : Prop :=
  (journal.liveTopic? reader.topic reader.epoch).isSome →
    (told = true ↔ (journal.records reader.topic).length ≠ reader.seen)

/-- What a reader was told stays right where the records of its topic stay as they are. -/
theorem Tells.of_outlasts (tells : journal.Tells reader told) (shown : journal.Shown reader)
    (outlasts : journal.Outlasts after)
    (records : (after.liveTopic? reader.topic reader.epoch).isSome →
      after.records reader.topic = journal.records reader.topic) : after.Tells reader told := by
  intro live
  obtain ⟨topic, isLive⟩ := Option.isSome_iff_exists.1 live
  obtain ⟨earlier, wasLive, _⟩ := outlasts.source shown.old isLive
  rw [records live]
  exact tells (Option.isSome_of_eq_some wasLive)

/-- A reader that looks is told of whatever comes from then on. -/
theorem tells_look (journal : Journal) (reader : Reader) :
    journal.Tells (journal.look reader) false := by
  unfold look
  split
  next topic isLive =>
    intro _
    simp [records_of_liveTopic? isLive]
  next gone =>
    intro live
    rw [gone] at live
    contradiction

/-- A reader that waits is woken when it is told of a new number or its topic is gone. -/
theorem Tells.mustLook (tells : journal.Tells reader told) :
    journal.mustLook reader =
      (told || (journal.liveTopic? reader.topic reader.epoch).isNone) := by
  unfold Journal.mustLook
  cases isLive : journal.liveTopic? reader.topic reader.epoch with
  | none => simp
  | some topic =>
    have known := tells (Option.isSome_of_eq_some isLive)
    rw [records_of_liveTopic? isLive] at known
    simp only [Option.isNone_some, Bool.or_false]
    rw [Bool.eq_iff_iff, known, decide_eq_true_iff]

/-- Who has got past all records that it has seen, and was told of no more, is at the end. -/
theorem offset_eq_of_silent {readers : List Reader} (counts : MemberCounts journal readers)
    (listed : reader ∈ readers) (read : journal.HasRead reader) (tells : journal.Tells reader false)
    {topic : Topic} (live : journal.liveTopic? reader.topic reader.epoch = some topic) :
    ∃ group, topic.groups.get? reader.group = some group ∧
      group.offset = topic.records.length := by
  obtain ⟨group, joined, placed⟩ := counts.exists_group listed live
  refine ⟨group, joined, Nat.le_antisymm placed (Nat.le_of_not_lt fun behind => ?_)⟩
  have seen : topic.records.length = reader.seen := by
    have known := tells (Option.isSome_of_eq_some live)
    rw [records_of_liveTopic? live] at known
    simpa using known
  have missed := (read group.offset (seen ▸ behind)).missed live
  exact Nat.lt_irrefl _ (missed.behind joined)

end Journal

/-- A step of a reader that asks marks what it sees, or leaves what it has seen. -/
theorem ReaderState.step_cases (state : ReaderState) (journal : Journal) :
    ((state.step journal).1 = ⟨journal.look state.reader, .marked⟩ ∧
        (state.step journal).2.1 = journal) ∨
      ((state.step journal).1.asking ≠ .marked ∧
        (state.step journal).1.reader = state.reader ∧
        ((state.step journal).2.1 = journal ∨
          (state.step journal).2.1 = journal.take state.reader)) := by
  simp only [step]
  cases asking : state.asking with
  | no => exact Or.inl ⟨rfl, rfl⟩
  | waiting =>
    cases journal.mustLook state.reader with
    | true => exact Or.inl ⟨rfl, rfl⟩
    | false => exact Or.inr ⟨by simp [asking], rfl, Or.inl rfl⟩
  | marked =>
    simp only
    cases journal.peek state.reader with
    | error cause => exact Or.inr ⟨by simp, rfl, Or.inl rfl⟩
    | ok result =>
      cases result with
      | none => exact Or.inr ⟨by simp, rfl, Or.inl rfl⟩
      | some record => exact Or.inr ⟨by simp, rfl, Or.inr rfl⟩

/-! ## Readers and what they were told -/

/-- A reader system, and which of its readers were told that the number of records of their topic
was put anew since they marked it as seen. -/
structure NotifiedSystem where
  system : ReaderSystem
  told : Nat → Bool

namespace ReaderSystem

/-- Whether an action puts the number of records of a reader's topic anew. -/
def announces (system : ReaderSystem) (reader : Reader) : Action → Bool
  | .append name record =>
      let appended := system.journal.append name record
      name = reader.topic ∧ appended.2 = .ok () ∧
        (appended.1.liveTopic? reader.topic reader.epoch).isSome
  | _ => false

/-- Whether by an action the reader of a number marks how many records its topic has: when it is
opened, and when it is about to look. -/
def marks (system : ReaderSystem) (index : Nat) : Action → Bool
  | .attach _ _ => index = system.states.length
  | .ask asked =>
      asked = index ∧ (system.states[index]?.map fun state =>
        (state.step system.journal).1.asking) = some .marked
  | _ => false

variable {system after : ReaderSystem} {taken : Option (Nat × Reader × JournalRecord)}

/-- Only a reader that has not left its group waits. -/
theorem Change.entitled (change : system.Change taken after)
    (entitled : ∀ state ∈ system.states, state.asking = .waiting →
      state.reader.released = false) :
    ∀ state ∈ after.states, state.asking = .waiting → state.reader.released = false := by
  cases change with
  | grew | removed | closed => exact entitled
  | attached =>
    intro state member waiting
    rcases List.mem_append.1 member with old | new
    · exact entitled state old waiting
    · rw [List.mem_singleton.1 new]
  | asked found asks =>
    intro state member waiting
    rcases List.mem_or_eq_of_mem_set member with old | rfl
    · exact entitled state old waiting
    · cases asks with
      | marked | rests => contradiction
      | waits _ nothing =>
        by_contra released
        rw [Bool.not_eq_false] at released
        rw [Journal.peek, if_pos (Or.inl released)] at nothing
        contradiction
      | stays => exact entitled _ (List.mem_of_getElem? found) waiting
  | took | left =>
    intro state member waiting
    rcases List.mem_or_eq_of_mem_set member with old | rfl
    · exact entitled state old waiting
    · contradiction

theorem ended_perform (ended : system.journal.Ended) (action : Action) :
    (system.perform action).journal.Ended := by
  cases action with
  | makeTopic name => exact ended.makeTopic name
  | append name record => exact ended.append name record
  | removeTopic name => exact ended.removeTopic name
  | close => exact fun _ => rfl
  | breakDown appends refusesCreation => exact ended
  | attach name group =>
    have after := ended.attach name group
    cases attached : system.journal.attach name group with
    | mk journal result =>
      rw [attached] at after
      simp only [perform, attached]
      cases result <;> exact after
  | ask asked =>
    simp only [perform]
    split
    next => exact ended
    next state _ =>
      obtain ⟨_, same⟩ | ⟨_, _, same | taken⟩ := state.step_cases system.journal
      · rwa [same]
      · rwa [same]
      · rw [taken]
        exact ended.take _
  | abandon asked =>
    simp only [perform]
    split <;> exact ended
  | leave asked =>
    simp only [perform]
    split
    next => exact ended
    next => exact ended.leave _

end ReaderSystem

namespace NotifiedSystem

open ReaderSystem

def empty (createsOnDemand : Bool) : NotifiedSystem := ⟨.empty createsOnDemand, fun _ => false⟩

def perform (notified : NotifiedSystem) (action : ReaderSystem.Action) : NotifiedSystem where
  system := notified.system.perform action
  told index :=
    (notified.told index ||
        notified.system.states[index]?.any (notified.system.announces ·.reader action)) &&
      !notified.system.marks index action

def performAll (notified : NotifiedSystem) : List ReaderSystem.Action → NotifiedSystem
  | [] => notified
  | action :: rest => (notified.perform action).performAll rest

/-- The system after a run that began with nothing. -/
def reached (createsOnDemand : Bool) (actions : List ReaderSystem.Action) : NotifiedSystem :=
  (empty createsOnDemand).performAll actions

/-- Writing down what readers are told does not change what happens. -/
theorem system_reached (createsOnDemand : Bool) (actions : List ReaderSystem.Action) :
    (reached createsOnDemand actions).system = ReaderSystem.reached createsOnDemand actions := by
  have same : ∀ (actions : List ReaderSystem.Action) (notified : NotifiedSystem),
      (notified.performAll actions).system = notified.system.performAll actions := by
    intro actions
    induction actions with
    | nil => exact fun _ => rfl
    | cons action actions inductionHypothesis =>
      exact fun notified => inductionHypothesis (notified.perform action)
  exact same actions (empty createsOnDemand)

/-- Whether the reader of a number can take a step of its own: it is about to look, or it waits and
either was told of a new number of records or has lost the topic that would tell it. -/
def canGoOn (notified : NotifiedSystem) (index : Nat) : Bool :=
  match notified.system.states[index]? with
  | none => false
  | some state =>
      match state.asking with
      | .no => false
      | .marked => true
      | .waiting =>
          notified.told index ||
            (notified.system.journal.liveTopic? state.reader.topic state.reader.epoch).isNone

/-- Whether no reader can take a step of its own. -/
def Still (notified : NotifiedSystem) : Prop :=
  ∀ index < notified.system.states.length, notified.canGoOn index = false

instance (notified : NotifiedSystem) : Decidable notified.Still :=
  inferInstanceAs
    (Decidable (∀ index < notified.system.states.length, notified.canGoOn index = false))

/-- What holds of a notified system after every run. -/
structure Sound (notified : NotifiedSystem) : Prop where
  system : notified.system.Sound
  ended : notified.system.journal.Ended
  entitled : ∀ state ∈ notified.system.states, state.asking = .waiting →
    state.reader.released = false
  told : ∀ {index : Nat} {state : ReaderState}, notified.system.states[index]? = some state →
    notified.system.journal.Tells state.reader (notified.told index)

section Steps

variable {notified : NotifiedSystem}

/-- An action that neither puts a number of records anew nor marks one leaves alone what readers
were told. -/
theorem told_perform_of_silent {action : ReaderSystem.Action} {index : Nat}
    (silent : ∀ reader, notified.system.announces reader action = false)
    (unmarked : notified.system.marks index action = false) :
    (notified.perform action).told index = notified.told index := by
  simp only [perform, silent, unmarked]
  cases notified.system.states[index]? <;> simp

theorem get?_set_cases {states : List ReaderState} {place index : Nat} {moved state : ReaderState}
    (found : (states.set place moved)[index]? = some state) :
    (index = place ∧ state = moved) ∨ (index ≠ place ∧ states[index]? = some state) := by
  by_cases same : index = place
  · obtain ⟨inside, itself⟩ := List.getElem?_eq_some_iff.1 found
    rw [List.getElem_set, if_pos same.symm] at itself
    exact Or.inl ⟨same, itself.symm⟩
  · rw [List.getElem?_set_ne (Ne.symm same)] at found
    exact Or.inr ⟨same, found⟩

/-- A reader whose topic keeps its records was told what it should be told. -/
theorem Sound.tells (sound : notified.Sound) {after : Journal}
    (outlasts : notified.system.journal.Outlasts after) {index : Nat} {state : ReaderState}
    (found : notified.system.states[index]? = some state)
    (records : (after.liveTopic? state.reader.topic state.reader.epoch).isSome →
      after.records state.reader.topic = notified.system.journal.records state.reader.topic) :
    after.Tells state.reader (notified.told index) :=
  (sound.told found).of_outlasts (sound.system.shown _ (List.mem_of_getElem? found))
    outlasts records

theorem tells_append (sound : notified.Sound) (name : String) (record : JournalRecord) {index : Nat}
    {state : ReaderState} (found : notified.system.states[index]? = some state) :
    (notified.system.journal.append name record).1.Tells state.reader
      ((notified.perform (.append name record)).told index) := by
  have told : (notified.perform (.append name record)).told index =
      (notified.told index || notified.system.announces state.reader (.append name record)) := by
    simp [perform, marks, found]
  have growth := notified.system.journal.grows_append name record
  have settled := (notified.system.journal.write_append name record).settled
  rw [told]
  simp only [announces]
  generalize notified.system.journal.append name record = served at growth settled ⊢
  obtain ⟨after, answer⟩ := served
  cases settled with
  | kept topics =>
    have same : after.records state.reader.topic =
        notified.system.journal.records state.reader.topic := by
      rw [Journal.records, Journal.records, topics]
    simpa using sound.tells growth.outlasts found fun _ => same
  | added added =>
    by_cases here : name = state.reader.topic
    · -- The reader has seen no more records than there were before this one.
      intro live
      obtain ⟨topic, isLive⟩ := Option.isSome_iff_exists.1 live
      have shown := sound.system.shown state (List.mem_of_getElem? found)
      obtain ⟨earlier, wasLive, _⟩ := growth.outlasts.source shown.old isLive
      have seen := shown.seen wasLive
      have more := added.records state.reader.topic
      rw [if_pos here.symm, here, Journal.records_of_liveTopic? wasLive] at more
      have longer : state.reader.seen ≠ (after.records state.reader.topic).length := by
        rw [more, List.length_append]
        exact Nat.ne_of_lt (Nat.lt_succ_of_le seen)
      simp [here, live, Ne.symm longer]
    · have same := added.records state.reader.topic
      rw [if_neg (Ne.symm here)] at same
      simpa [here] using sound.tells growth.outlasts found fun _ => same

theorem tells_attach (sound : notified.Sound) (name group : String) {index : Nat}
    {state : ReaderState}
    (found : (notified.perform (.attach name group)).system.states[index]? = some state) :
    (notified.perform (.attach name group)).system.journal.Tells state.reader
      ((notified.perform (.attach name group)).told index) := by
  have records := notified.system.journal.records_attach name group
  have old : notified.system.states[index]? = some state →
      (notified.perform (.attach name group)).told index = notified.told index := fun found =>
    told_perform_of_silent (fun _ => rfl)
      (decide_eq_false (Nat.ne_of_lt (List.getElem?_eq_some_iff.1 found).1))
  simp only [perform, ReaderSystem.perform] at found old ⊢
  cases attached : notified.system.journal.attach name group with
  | mk after result =>
    rw [attached] at records
    simp only [attached] at found ⊢
    cases result with
    | error cause =>
      obtain rfl := Journal.attach_eq_error attached
      rw [old found]
      exact sound.told found
    | ok reader =>
      obtain ⟨_, ready, topic, growth, isTopic, rfl, rfl⟩ := Journal.attach_eq_ok attached
      have outlasts : notified.system.journal.Outlasts
          (ready.modifyTopic name (Journal.Topic.join · group)) :=
        growth.outlasts.modifyTopic name (fun _ => rfl) fun _ => rfl
      by_cases inside : index < notified.system.states.length
      · rw [List.getElem?_append_left inside] at found
        rw [old found]
        exact sound.tells outlasts found fun _ => records _
      · -- The new reader has seen what its topic has.
        have last : index = notified.system.states.length := by
          have bound := (List.getElem?_eq_some_iff.1 found).1
          rw [List.length_append, List.length_singleton] at bound
          omega
        rw [last, List.getElem?_concat_length] at found
        obtain rfl := Option.some.inj found
        have seen : (ready.modifyTopic name (Journal.Topic.join · group)).records name =
            topic.records := by
          rw [Journal.records_join, Journal.records, isTopic]
        simp [Journal.Tells, marks, last, seen]

theorem tells_ask (sound : notified.Sound) (asked : Nat) {index : Nat} {state : ReaderState}
    (found : (notified.perform (.ask asked)).system.states[index]? = some state) :
    (notified.perform (.ask asked)).system.journal.Tells state.reader
      ((notified.perform (.ask asked)).told index) := by
  cases here : notified.system.states[asked]? with
  | none =>
    have idle : notified.system.marks index (.ask asked) = false := by
      refine decide_eq_false ?_
      rintro ⟨rfl, marked⟩
      rw [here] at marked
      contradiction
    rw [told_perform_of_silent (fun _ => rfl) idle]
    simp only [perform, ReaderSystem.perform, here] at found ⊢
    exact sound.told found
  | some asker =>
    have system : (notified.perform (.ask asked)).system =
        ⟨(asker.step notified.system.journal).2.1,
          notified.system.states.set asked (asker.step notified.system.journal).1⟩ := by
      simp only [perform, ReaderSystem.perform, here]
    have told := @told_perform_of_silent notified (.ask asked) index fun _ => rfl
    have kept : ∀ {other : ReaderState}, notified.system.states[index]? = some other →
        (asker.step notified.system.journal).2.1.Tells other.reader (notified.told index) := by
      intro other isOther
      obtain ⟨_, same⟩ | ⟨_, _, same | taken⟩ := asker.step_cases notified.system.journal
      · rw [same]
        exact sound.told isOther
      · rw [same]
        exact sound.told isOther
      · rw [taken]
        exact sound.tells (notified.system.journal.outlasts_take _) isOther fun _ =>
          notified.system.journal.records_take_eq _ _
    rw [system] at found ⊢
    -- Only a mark makes the asker forget what it was told, and then it has seen all there is.
    obtain ⟨rfl, rfl⟩ | ⟨other, found⟩ := get?_set_cases found
    · obtain ⟨looked, same⟩ | ⟨unmarked, reader, _⟩ := asker.step_cases notified.system.journal
      · have marked : notified.system.marks index (.ask index) = true := by
          simp [marks, here, looked]
        have silent : (notified.perform (.ask index)).told index = false := by
          simp [perform, marked]
        rw [silent, looked, same]
        exact Journal.tells_look _ _
      · rw [told (by simp [marks, here, unmarked]), reader]
        exact kept here
    · rw [told (by simp [marks, Ne.symm other])]
      exact kept found

theorem tells_perform (sound : notified.Sound) (action : ReaderSystem.Action) {index : Nat}
    {state : ReaderState} (found : (notified.perform action).system.states[index]? = some state) :
    (notified.perform action).system.journal.Tells state.reader
      ((notified.perform action).told index) := by
  cases action with
  | makeTopic name =>
    rw [told_perform_of_silent (fun _ => rfl) rfl]
    exact sound.tells (notified.system.journal.grows_makeTopic name).outlasts found fun _ =>
      notified.system.journal.records_makeTopic name _
  | append name record => exact tells_append sound name record found
  | removeTopic name =>
    rw [told_perform_of_silent (fun _ => rfl) rfl]
    exact sound.tells (notified.system.journal.outlasts_removeTopic name) found
      Journal.records_removeTopic
  | close =>
    -- No topic of a closed journal is there to be asked about.
    intro live
    contradiction
  | breakDown appends refusesCreation =>
    rw [told_perform_of_silent (fun _ => rfl) rfl]
    exact sound.tells (Journal.Grows.of_same rfl rfl rfl).outlasts found fun _ => rfl
  | attach name group => exact tells_attach sound name group found
  | ask asked => exact tells_ask sound asked found
  | abandon asked =>
    rw [told_perform_of_silent (fun _ => rfl) rfl]
    simp only [perform, ReaderSystem.perform] at found ⊢
    split at found
    next => exact sound.told found
    next old here =>
      obtain ⟨rfl, rfl⟩ | ⟨_, found⟩ := get?_set_cases found
      · have was := sound.told here
        exact was
      · exact sound.told found
  | leave asked =>
    rw [told_perform_of_silent (fun _ => rfl) rfl]
    simp only [perform, ReaderSystem.perform] at found ⊢
    split at found
    next => exact sound.told found
    next old here =>
      have left : ∀ {state : ReaderState}, notified.system.states[index]? = some state →
          (notified.system.journal.leave old.reader).Tells state.reader (notified.told index) :=
        fun found => sound.tells (notified.system.journal.outlasts_leave old.reader) found fun _ =>
          notified.system.journal.records_leave old.reader _
      obtain ⟨rfl, rfl⟩ | ⟨_, found⟩ := get?_set_cases found
      · have was := left here
        exact was
      · exact left found

theorem Sound.perform (sound : notified.Sound) (action : ReaderSystem.Action) :
    (notified.perform action).Sound where
  system := (change_perform notified.system action).sound sound.system
  ended := ended_perform sound.ended action
  entitled := (change_perform notified.system action).entitled sound.entitled
  told := tells_perform sound action

theorem Sound.performAll (sound : notified.Sound) (actions : List ReaderSystem.Action) :
    (notified.performAll actions).Sound := by
  induction actions generalizing notified with
  | nil => exact sound
  | cons action actions inductionHypothesis => exact inductionHypothesis (sound.perform action)

theorem sound_reached (createsOnDemand : Bool) (actions : List ReaderSystem.Action) :
    (reached createsOnDemand actions).Sound :=
  Sound.performAll ⟨ReaderSystem.sound_reached createsOnDemand [], fun _ => rfl, by simp [empty,
    ReaderSystem.empty], by simp [empty, ReaderSystem.empty]⟩ actions

/-- A reader that asks can take a step of its own just if its next step changes what it does. -/
theorem Sound.canGoOn_iff (sound : notified.Sound) {index : Nat} {state : ReaderState}
    (found : notified.system.states[index]? = some state) (asks : state.asking ≠ .no) :
    notified.canGoOn index = true ↔
      (state.step notified.system.journal).1.asking ≠ state.asking := by
  simp only [canGoOn, found, ReaderState.step]
  cases asking : state.asking with
  | no => contradiction
  | marked =>
    simp only [true_iff]
    cases notified.system.journal.peek state.reader with
    | error cause => simp
    | ok result => cases result <;> simp
  | waiting =>
    simp only [← (sound.told found).mustLook]
    cases notified.system.journal.mustLook state.reader <;> simp [asking]

/-- A reader that asks and cannot take a step of its own waits for a topic that is still there, and
its group has got all records. -/
theorem Sound.caughtUp (sound : notified.Sound) {index : Nat} {state : ReaderState}
    (found : notified.system.states[index]? = some state) (asks : state.asking ≠ .no)
    (stuck : notified.canGoOn index = false) :
    state.asking = .waiting ∧ notified.system.journal.closed = false ∧
      ∃ topic group,
        notified.system.journal.liveTopic? state.reader.topic state.reader.epoch = some topic ∧
        topic.groups.get? state.reader.group = some group ∧
        group.offset = topic.records.length := by
  have listed := List.mem_of_getElem? found
  simp only [canGoOn, found] at stuck
  cases asking : state.asking with
  | no => contradiction
  | marked =>
    rw [asking] at stuck
    contradiction
  | waiting =>
    simp only [asking, Bool.or_eq_false_iff, Option.isNone_eq_false_iff] at stuck
    obtain ⟨untold, isThere⟩ := stuck
    obtain ⟨topic, live⟩ := Option.isSome_iff_exists.1 isThere
    have isOpen : notified.system.journal.closed = false := by
      by_contra closed
      rw [Bool.not_eq_false] at closed
      have none := (Journal.liveTopic?_eq_some_iff.1 live).1
      rw [sound.ended closed] at none
      contradiction
    have isReader : state.reader ∈ notified.system.readers := by
      refine List.mem_filter.2 ⟨List.mem_map.2 ⟨state, listed, rfl⟩, ?_⟩
      rw [sound.entitled state listed asking]
      rfl
    obtain ⟨group, joined, atEnd⟩ := Journal.offset_eq_of_silent sound.system.counts isReader
      (sound.system.read state listed asking) (untold ▸ sound.told found) live
    exact ⟨rfl, isOpen, topic, group, live, joined, atEnd⟩

end Steps

end NotifiedSystem

/-- In every run of a journal and its readers: a reader that asks can go on just if it is about to
look, or was told of a new number of records since it marked the last, or lost its topic. In a state
in which no reader can go on, each that asks waits, its journal is open and its topic still there,
and its group has got all records of the topic. -/
theorem no_wakeup_lost (createsOnDemand : Bool) (actions : List ReaderSystem.Action) :
    let notified := NotifiedSystem.reached createsOnDemand actions
    let journal := notified.system.journal
    notified.system = ReaderSystem.reached createsOnDemand actions ∧
    (∀ index state, notified.system.states[index]? = some state → state.asking ≠ .no →
      (notified.canGoOn index = true ↔ (state.step journal).1.asking ≠ state.asking)) ∧
    (notified.Still → ∀ state ∈ notified.system.states, state.asking ≠ .no →
      state.asking = .waiting ∧ journal.closed = false ∧
        ∃ topic group,
          journal.liveTopic? state.reader.topic state.reader.epoch = some topic ∧
          topic.groups.get? state.reader.group = some group ∧
          group.offset = topic.records.length) := by
  intro notified journal
  have sound : notified.Sound := NotifiedSystem.sound_reached createsOnDemand actions
  refine ⟨NotifiedSystem.system_reached createsOnDemand actions,
    fun index state found asks => sound.canGoOn_iff found asks, fun still => ?_⟩
  intro state listed asks
  obtain ⟨index, found⟩ := List.mem_iff_getElem?.1 listed
  exact sound.caughtUp found asks (still index (List.getElem?_eq_some_iff.1 found).1)

/-- Two readers of one group and one of another: a record comes between a mark and a look, and one
reader is woken in vain because the other was faster. A topic is removed under a reader and made
again. -/
def contendedReading : List ReaderSystem.Action :=
  [.attach "updates" "first", .attach "updates" "first", .attach "updates" "second", .ask 0,
    .append "updates" ⟨[112], [1]⟩, .ask 0, .ask 1, .ask 1, .ask 0, .ask 0,
    .append "updates" ⟨[112], [2]⟩, .ask 0, .ask 1, .ask 0, .ask 1, .ask 2, .ask 2, .ask 2, .ask 2,
    .ask 2, .ask 2, .attach "other" "first", .ask 3, .ask 3, .removeTopic "other",
    .makeTopic "other", .ask 3, .ask 3, .attach "other" "first", .ask 4, .ask 4]

/-- The reader that was too late, the one of the other group and the one of the new topic wait, and
none of their groups has a record left. -/
theorem no_wakeup_lost_contendedReading :
    let notified := NotifiedSystem.reached true contendedReading
    notified.Still ∧
      notified.system.states.map (·.asking) = [.no, .waiting, .waiting, .no, .waiting] ∧
      ∀ state ∈ notified.system.states, state.asking ≠ .no → state.asking = .waiting ∧
        notified.system.journal.closed = false ∧
        ∃ topic group,
          notified.system.journal.liveTopic? state.reader.topic state.reader.epoch = some topic ∧
          topic.groups.get? state.reader.group = some group ∧
          group.offset = topic.records.length := by
  intro notified
  have still : notified.Still := by decide
  exact ⟨still, by decide, (no_wakeup_lost true contendedReading).2.2 still⟩

end UpdateRelay
