import UpdateRelay.Proofs.Broker.Turn
import UpdateRelay.Proofs.Journal.Writing

/-!
# A publish writes once or not at all

What a publish asks of the journal when nothing else happens meanwhile: it appends its record, and
only if its topic is unknown it makes the topic and appends once more. `Journal.Course` lists the
courses that this can take. `publish_writes_once` says that a publish completes just if its record
was added, and that nothing is left of one that fails.
-/

namespace UpdateRelay

/-- What a publish can ask of the journal. -/
inductive JournalRequest
  | append
  | makeTopic
  deriving DecidableEq, Repr

namespace Journal

variable {journal : Journal} {name : String} {record : JournalRecord}

/-- What a publish asks of the journal in turn, what becomes of the journal, and the answer to the
last request. -/
inductive Course (journal : Journal) (name : String) (record : JournalRecord) :
    List JournalRequest → Journal → Except JournalFailure Unit → Prop
  | once {after answer} (written : journal.append name record = (after, answer))
      (known : ∀ missing, answer ≠ .error (.unknownTopic missing)) :
      Course journal name record [.append] after answer
  | unmade {first after missing cause}
      (unwritten : journal.append name record = (first, .error (.unknownTopic missing)))
      (refused : first.makeTopic name = (after, .error cause))
      (other : ∀ present, cause ≠ .topicExists present) :
      Course journal name record [.append, .makeTopic] after (.error cause)
  | again {first ready after missing made answer}
      (unwritten : journal.append name record = (first, .error (.unknownTopic missing)))
      (making : first.makeTopic name = (ready, made))
      (there : made = .ok () ∨ ∃ present, made = .error (.topicExists present))
      (written : ready.append name record = (after, answer)) :
      Course journal name record [.append, .makeTopic, .append] after answer

/-! ## The journal -/

theorem counts_of_append {after : Journal} {answer : Except JournalFailure Unit}
    (written : journal.append name record = (after, answer)) :
    after.appendCount = journal.appendCount + 1 ∧ after.makeCount = journal.makeCount := by
  have write := journal.write_append name record
  rw [written] at write
  exact write.counts

theorem counts_of_makeTopic {after : Journal} {answer : Except JournalFailure Unit}
    (making : journal.makeTopic name = (after, answer)) :
    after.appendCount = journal.appendCount ∧ after.makeCount = journal.makeCount + 1 := by
  have same : after = (journal.makeTopic name).1 := by rw [making]
  rw [same]
  simp only [makeTopic]
  split
  next => exact ⟨rfl, rfl⟩
  next =>
    split
    next => exact ⟨rfl, rfl⟩
    next => split <;> exact ⟨rfl, rfl⟩

/-- Every request is counted as an attempt of its kind. -/
theorem Course.counts {requests : List JournalRequest} {after : Journal}
    {answer : Except JournalFailure Unit}
    (course : journal.Course name record requests after answer) :
    after.appendCount = journal.appendCount + requests.count .append ∧
      after.makeCount = journal.makeCount + requests.count .makeTopic := by
  cases course with
  | once written => exact counts_of_append written
  | unmade unwritten refused =>
    have first := counts_of_append unwritten
    have second := counts_of_makeTopic refused
    exact ⟨second.1.trans first.1, second.2.trans (congrArg (· + 1) first.2)⟩
  | again unwritten making _ written =>
    have first := counts_of_append unwritten
    have second := counts_of_makeTopic making
    have third := counts_of_append written
    simp only [List.count_cons, List.count_nil]
    exact ⟨by simp; omega, by simp; omega⟩

/-- A record can be written to a topic that was just made. -/
theorem append_addTopic (journal : Journal) (isOpen : journal.closed = false)
    (sound : journal.brokenAppends = 0) (absent : journal.hasTopic name = false)
    (record : JournalRecord) :
    ∃ after, (journal.addTopic name).append name record = (after, .ok ()) ∧
      journal.Added after name record := by
  have has := journal.hasTopic_addTopic name
  have write := (journal.addTopic name).write_append name record
  generalize (journal.addTopic name).append name record = served at write ⊢
  obtain ⟨after, answer⟩ := served
  cases write with
  | closed ended => exact absurd ended (by simp [addTopic, isOpen])
  | broken _ fault => exact absurd fault (by simp [addTopic, sound])
  | missing _ _ _ missing => exact absurd missing (by simp [has])
  | written _ _ added => exact ⟨after, rfl, added_addTopic absent added⟩

/-- A journal refuses to make a missing topic, or it makes the topic and can be written to. -/
theorem makeTopic_of_absent (journal : Journal) (isOpen : journal.closed = false)
    (sound : journal.brokenAppends = 0) (absent : journal.hasTopic name = false)
    (record : JournalRecord) :
    (∃ after, journal.makeTopic name =
        (after, .error (.unreachable "topic creation refused")) ∧ after.topics = journal.topics) ∨
      ∃ ready after, journal.makeTopic name = (ready, .ok ()) ∧
        ready.append name record = (after, .ok ()) ∧ journal.Added after name record := by
  let counted := { journal with makeCount := journal.makeCount + 1 }
  have notClosed : ¬journal.closed = true := by simp [isOpen]
  cases refuses : journal.refusesCreation with
  | true =>
    refine Or.inl ⟨counted, ?_, rfl⟩
    simp only [makeTopic]
    rw [if_neg notClosed, if_pos refuses]
  | false =>
    have notThere : counted.hasTopic name = false := absent
    obtain ⟨after, written, added⟩ := counted.append_addTopic isOpen sound notThere record
    refine Or.inr ⟨counted.addTopic name, after, ?_, written, added.written, added.elsewhere⟩
    simp only [makeTopic]
    rw [if_neg notClosed, if_neg (Bool.eq_false_iff.1 refuses)]
    exact if_neg (Bool.eq_false_iff.1 notThere)

/-- In whatever state a journal is, there is a course for a publish, and it ends with the record
added or with all topics as they were. -/
theorem exists_course (journal : Journal) (name : String) (record : JournalRecord) :
    ∃ requests after answer, journal.Course name record requests after answer ∧
      journal.Settled name record after answer := by
  have write := journal.write_append name record
  generalize appended : journal.append name record = served at write
  obtain ⟨after, answer⟩ := served
  by_cases known : ∀ missing, answer ≠ .error (.unknownTopic missing)
  · exact ⟨[.append], after, answer, .once appended known, write.settled⟩
  · cases write with
    | closed | broken | written => exact absurd nofun known
    -- An append that misses its topic found the journal open and no broken write ahead, so that
    -- the next one succeeds once the topic is there.
    | missing isOpen sound _ absent =>
      obtain ⟨after, refused, topics⟩ | ⟨ready, after, made, written, added⟩ :=
        makeTopic_of_absent { journal with appendCount := journal.appendCount + 1 }
          isOpen sound absent record
      · exact ⟨_, after, _, .unmade appended refused nofun, .kept topics⟩
      · exact ⟨_, after, _, .again appended made (Or.inl rfl) written,
          .added ⟨added.written, added.elsewhere⟩⟩

end Journal

/-! ## The call -/

namespace Node

variable {scope : Scope}

/-- A journal that answers and a scope that is not done take a publish to its next stage. -/
theorem pursue_publish (node : Node) (isOpen : node.broker.closed = false)
    (live : scope.check node.now = .ok ()) (record : JournalRecord) (stage : PublishStage)
    (going : stage ≠ .stuck) (steps : Nat) :
    pursue (steps + 1) node (.pending (.publish record scope stage)) =
      pursue steps (node.pollPublish record scope stage).1
        (node.pollPublish record scope stage).2 := by
  have polled : node.pollCall? (.publish record scope stage) =
      some (node.pollPublish record scope stage) := by
    simp [pollCall?, isOpen, live, going]
  exact pursue_of_polled polled steps

/-- A publish that is begun takes the course that its journal's answers lead to, and passes on the
last of them. -/
theorem callNow_of_course (node : Node) (isOpen : node.broker.closed = false)
    (live : scope.check node.now = .ok ()) (appends : node.link.hangsAppends = false)
    (creations : node.link.hangsCreations = false) (resource : String) (event : Event)
    {requests : List JournalRequest} {after : Journal} {answer : Except JournalFailure Unit}
    (course : node.journal.Course node.broker.identity.topic (recordOf resource event) requests
      after answer) :
    callNow (node.beginPublish scope resource event) =
      ({ node with journal := after }, .replied (.completed (answer.mapError .journal))) := by
  have begun : node.beginPublish scope resource event =
      (node, .pending (.publish (recordOf resource event) scope .writing)) := by
    simp [beginPublish, live, isOpen]
  rw [begun]
  generalize recordOf resource event = record at course ⊢
  refine (pursue_publish node isOpen live record .writing nofun 4).trans ?_
  cases course with
  | once written known => rw [pollPublish_writing node appends written known, pursue_replied]
  | @unmade first _ _ _ unwritten refused other =>
    let asked : Node := { node with journal := first }
    rw [pollPublish_writing_of_missing node appends unwritten]
    refine (pursue_publish asked isOpen live record .creating nofun 3).trans ?_
    rw [pollPublish_creating_of_error asked creations refused other, pursue_replied]
    rfl
  | @again first ready _ _ _ _ unwritten making there written =>
    let asked : Node := { node with journal := first }
    let made : Node := { node with journal := ready }
    rw [pollPublish_writing_of_missing node appends unwritten]
    refine (pursue_publish asked isOpen live record .creating nofun 3).trans ?_
    rw [pollPublish_creating asked creations making there]
    refine (pursue_publish made isOpen live record .rewriting nofun 2).trans ?_
    rw [pollPublish_rewriting made appends written, pursue_replied]

end Node

/-- A publish at an open broker, in a scope that is not done and over a link that answers, in
whatever state the journal is: it makes the requests of one course, each counted once, and passes on
the last answer. It completes just if its record was added at the end of the topic of the broker and
nothing else was; if it fails, all topics are as they were. -/
theorem publish_writes_once (node : Node) (scope : Scope) (resource : String) (event : Event)
    (isOpen : node.broker.closed = false) (live : scope.check node.now = .ok ())
    (appends : node.link.hangsAppends = false) (creations : node.link.hangsCreations = false) :
    let name := node.broker.identity.topic
    let record : JournalRecord := ⟨Bytes.ofText resource, MessagePack.encode event⟩
    ∃ requests after answer, node.journal.Course name record requests after answer ∧
      Node.callNow (node.beginPublish scope resource event) =
        ({ node with journal := after }, .replied (.completed (answer.mapError .journal))) ∧
      after.appendCount = node.journal.appendCount + requests.count .append ∧
      after.makeCount = node.journal.makeCount + requests.count .makeTopic ∧
      (answer = .ok () ↔ node.journal.Added after name record) ∧
      (answer ≠ .ok () → after.topics = node.journal.topics) := by
  intro name record
  obtain ⟨requests, after, answer, course, settled⟩ := node.journal.exists_course name record
  exact ⟨requests, after, answer, course,
    node.callNow_of_course isOpen live appends creations resource event course, course.counts.1,
    course.counts.2, settled.added_iff, settled.topics⟩

/-- A publish to a missing topic that nobody makes on demand, beside another topic with a record. -/
theorem publish_writes_once_missing :
    let journal := ((Journal.empty false).makeTopic "other").1
    let filled := (journal.append "other" ⟨[112], [1]⟩).1
    let node : Node := ⟨0, filled, .sound, .empty ⟨"updates", "updates", "first", 8⟩⟩
    let event : Event := ⟨"project", 3, "renamed"⟩
    let done := Node.callNow (node.beginPublish .unlimited "project" event)
    filled.Added done.1.journal "updates" (Node.recordOf "project" event) ∧
      done.1.journal.appendCount = filled.appendCount + 2 ∧
      done.1.journal.makeCount = filled.makeCount + 1 := by
  intro journal filled node event done
  obtain ⟨requests, after, answer, course, called, -, -, added, -⟩ :=
    publish_writes_once node .unlimited "project" event rfl rfl rfl rfl
  have replied : done.2 = .replied (.completed (answer.mapError .journal)) :=
    congrArg Prod.snd called
  have result : done.1.journal = after := congrArg (·.1.journal) called
  refine ⟨?_, rfl, rfl⟩
  rw [result]
  refine added.1 ?_
  cases answer with
  | ok => rfl
  | error cause =>
    have completed : done.2 = .replied (.completed (.ok ())) := rfl
    exact nomatch completed.symm.trans replied

end UpdateRelay
