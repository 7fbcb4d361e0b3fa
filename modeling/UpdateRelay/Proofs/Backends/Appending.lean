import UpdateRelay.Proofs.Backends.Serving

/-!
# An event on its way

A publish at a durable broker at rest appends one record, which all loops have to read. The loop of
its resource, if there is one, owes the event to the subscribers, and the others will pass over it.
-/

namespace UpdateRelay

namespace Journal

/-- Writing to a topic that exists adds the record at its end. -/
theorem append_of_topic {journal : Journal} {name : String} {topic : Topic}
    (isOpen : journal.closed = false) (unbroken : journal.brokenAppends = 0)
    (found : journal.topics.get? name = some topic) (record : JournalRecord) :
    ∃ after, journal.append name record = (after, .ok ()) ∧ journal.Grows after ∧
      after.brokenAppends = 0 ∧ after.records name = journal.records name ++ [record] := by
  have has : journal.hasTopic name = true := by
    rw [hasTopic_eq_isSome, found]
    rfl
  have growth := journal.grows_append name record
  have ensured : { journal with appendCount := journal.appendCount + 1 }.ensureTopic name =
      .ok { journal with appendCount := journal.appendCount + 1 } :=
    if_pos has
  have appended : journal.append name record =
      ({ journal with appendCount := journal.appendCount + 1 }.modifyTopic name fun topic =>
        { topic with records := topic.records ++ [record] }, .ok ()) := by
    have notClosed : ¬journal.closed = true := by simp [isOpen]
    have sound : ¬0 < journal.brokenAppends := by omega
    simp only [append]
    rw [if_neg notClosed, if_neg sound, ensured]
  rw [appended] at growth
  refine ⟨_, appended, growth, unbroken, ?_⟩
  rw [records, get?_modifyTopic, if_pos rfl, found, records, found]
  rfl

end Journal

namespace Node

variable {node : Node} {direct : DirectBroker}

/-- A record tells the subscribers of its resource its event, and those of others nothing. -/
theorem eventFor?_recordOf {event : Event} (fits : event.Fits) (resource other : String) :
    eventFor? other (recordOf resource event) = if resource = other then some event else none := by
  unfold eventFor? recordOf
  by_cases same : resource = other
  · rw [if_pos (congrArg _ same), if_pos same, MessagePack.decode?_encode fits]
  · rw [if_neg fun keys => same (Bytes.ofText_injective keys), if_neg same]

theorem follows_appended (ready : node.Ready) {journal : Journal}
    (growth : node.journal.Grows journal) (unbroken : journal.brokenAppends = 0) :
    node.Follows { node with journal := journal } where
  sound := by
    have effect : Effect (node.footprint none) []
      ({ node with journal := journal }.footprint none) := .grew growth
    exact effect.sound ready.sound
  link := rfl
  brokenAppends := unbroken.trans ready.brokenAppends.symm
  identity := rfl
  steady := growth.steady
  loops := fun _ member => Or.inl (.of_mem member)

/-- After a publish the event is owed to the subscribers of its resource. -/
theorem owes_appended (ready : node.Ready) (rests : node.Rests) {journal : Journal}
    (growth : node.journal.Grows journal) (unbroken : journal.brokenAppends = 0)
    {resource : String} {event : Event} (fits : event.Fits)
    (records : journal.records node.broker.identity.topic =
      node.journal.records node.broker.identity.topic ++ [recordOf resource event]) :
    { node with journal := journal }.Owes (node.broker.direct.hand resource event) := by
  have follows := follows_appended ready growth unbroken
  -- All loops were at the end of the topic and have just the new record to read.
  have unread : ∀ loop ∈ node.broker.loops,
      { node with journal := journal }.unread loop = [recordOf resource event] := by
    intro loop member
    have topic : loop.reader.topic = node.broker.identity.topic :=
      (ready.sound.loopReads loop member).1
    exact follows.unread ready rests member member rfl (topic ▸ records)
  have telling : ∀ loop ∈ node.broker.loops,
      eventsFor loop.resource ({ node with journal := journal }.unread loop) =
        if resource = loop.resource then [event] else [] := by
    intro loop member
    rw [unread loop member, eventsFor_cons, eventFor?_recordOf fits]
    split <;> rfl
  have awake : ∀ loop ∈ node.broker.loops, ∀ gone, loop.phase ≠ .pruning gone := by
    intro loop member gone phase
    rw [(ready.waits member (rests loop member)).2.1] at phase
    contradiction
  have mute : ∀ loop ∈ node.broker.loops, loop.resource ≠ resource →
      { node with journal := journal }.Idle loop := by
    intro loop member other
    refine ⟨awake loop member, ?_⟩
    rw [telling loop member, if_neg (Ne.symm other)]
  -- The event is owed by the loop of its entry, if there is one, and by no other.
  cases present : node.broker.entries.get? resource with
  | none =>
    refine .nothing (fun loop member live => mute loop member ?_) ?_
    · rintro rfl
      obtain ⟨entry, found, _⟩ := ready.entryLoops.serving loop member live
      rw [present] at found
      contradiction
    · refine (DirectBroker.hand_of_none ?_ event).symm
      rw [JournaledBroker.get?_direct, present, Option.map_none]
  | some entry =>
    obtain ⟨loop, member, rfl, _, live⟩ := ready.entryLoops.served present
    have telling : eventsFor loop.resource ({ node with journal := journal }.unread loop) =
        [event] := by
      rw [telling loop member, if_pos rfl]
    refine .unread member live (awake loop member) telling ?_ rfl
    intro other isOther otherLive different
    refine mute other isOther fun same => different ?_
    rw [ready.entryLoops.live_loop_unique isOther member otherLive live same]

/-! ## The call -/

theorem pollCall?_writing (ready : node.Ready) {scope : Scope}
    (checked : scope.check node.now = .ok ()) (isOpen : node.broker.closed = false)
    {record : JournalRecord} {journal : Journal}
    (appended : node.journal.append node.broker.identity.topic record = (journal, .ok ())) :
    node.pollCall? (.publish record scope .writing) =
      some ({ node with journal := journal }, .replied (.completed (.ok ()))) := by
  simp [pollCall?, isOpen, checked, pollPublish, ready.link, Link.sound, appended]

/-- A publish has the same answer at both brokers. -/
theorem Corresponds.publish (corresponds : node.Corresponds direct) (scope : Scope)
    (resource : String) {event : Event} (fits : event.Fits) :
    Bound (direct.publish scope node.now resource event).1
      (.completed (direct.publish scope node.now resource event).2)
      (node.beginPublish scope resource event).1 (node.beginPublish scope resource event).2 := by
  obtain rfl := corresponds.same
  simp only [beginPublish, DirectBroker.publish]
  cases checked : scope.check node.now with
  | error cause => exact .answered corresponds.due
  | ok =>
    dsimp only
    cases corresponds.due with
    | ended isOver =>
      have directClosed : node.broker.direct.closed = true := isOver.closed
      rw [if_pos isOver.closed, if_pos directClosed]
      exact .answered corresponds.due
    | lasting directOpen ready =>
      have isOpen : node.broker.closed = false := directOpen
      have notClosed : ¬node.broker.closed = true := Bool.eq_false_iff.1 isOpen
      have directNotClosed : ¬node.broker.direct.closed = true := notClosed
      rw [if_neg notClosed, if_neg directNotClosed]
      obtain ⟨topic, found⟩ := Option.isSome_iff_exists.1 ready.hasTopic
      obtain ⟨journal, appended, growth, unbroken, records⟩ := Journal.append_of_topic
        ready.isOpen ready.brokenAppends found (recordOf resource event)
      have follows := follows_appended ready growth unbroken
      have owes := owes_appended ready corresponds.rests growth unbroken fits records
      refine .calling corresponds.rests (pollCall?_writing ready checked isOpen appended) ?_
      refine .answered (.lasting ?_ (follows.ready ready corresponds.rests) owes)
      exact (DirectBroker.closed_hand _ _ _).trans directOpen

end Node

end UpdateRelay
