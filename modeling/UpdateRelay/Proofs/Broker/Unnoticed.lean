import UpdateRelay.Broker.Journaled.Call
import UpdateRelay.Proofs.Journal.Without

/-!
# Steps that do not notice a missing reader

The steps of calls and loops at a broker, in a journal with a reader and in what it would be without
the reader: they do the same to the broker and come to the same, and leave journals that again
differ in the reader only.
-/

namespace UpdateRelay.Node

theorem fst_pollSubscribe_opening (node : Node) (resource : String) (id : SubscriberId)
    (scope : Scope) :
    (node.pollSubscribe resource id scope .opening).1 = (node.attach resource).1 := by
  simp only [pollSubscribe]
  split <;> simp only [failSubscribe, *]

theorem fst_pollSubscribe_reopening (node : Node) (resource : String) (id : SubscriberId)
    (scope : Scope) :
    (node.pollSubscribe resource id scope .reopening).1 = (node.attach resource).1 := by
  simp only [pollSubscribe]
  split <;> simp only [failSubscribe, *]

/-- Whether a node is what another one would be without a reader of the journal. -/
structure Without (absent : Option Reader) (first second : Node) : Prop where
  now : second.now = first.now
  link : second.link = first.link
  broker : second.broker = first.broker
  journal : first.journal.Without absent second.journal

/-- Whether steps of a call at two such nodes come to the same. -/
structure SameStep (absent : Option Reader) (first second : Node × Progress) : Prop where
  node : first.1.Without absent second.1
  progress : second.2 = first.2

namespace Without

variable {absent : Option Reader} {first second : Node}

theorem withJournal (without : first.Without absent second) {one other : Journal}
    (same : one.Without absent other) :
    Without absent { first with journal := one } { second with journal := other } :=
  ⟨without.now, without.link, without.broker, same⟩

theorem modifyBroker (without : first.Without absent second)
    (change : JournaledBroker → JournaledBroker) :
    (first.modifyBroker change).Without absent (second.modifyBroker change) :=
  ⟨without.now, without.link, congrArg change without.broker, without.journal⟩

theorem release (without : first.Without absent second) (reader : Reader) :
    (first.release reader).Without absent (second.release reader) :=
  without.withJournal (without.journal.leave reader)

/-- A request with the same answer, and the journals that it leaves. -/
theorem answers {α : Type} {one other : Journal × Except JournalFailure α}
    (same : one.1.Without absent other.1 ∧ other.2 = one.2) :
    ∃ early late answer, one = (early, answer) ∧ other = (late, answer) ∧
      early.Without absent late :=
  ⟨one.1, other.1, one.2, rfl, Prod.ext rfl same.2, same.1⟩

/-! ## Calls that begin -/

theorem beginPublish (without : first.Without absent second) (scope : Scope) (resource : String)
    (event : Event) : SameStep absent (first.beginPublish scope resource event)
      (second.beginPublish scope resource event) := by
  simp only [Node.beginPublish, without.now, without.broker]
  split
  next => exact ⟨without, rfl⟩
  next => split <;> exact ⟨without, rfl⟩

theorem beginSubscribe (without : first.Without absent second) (scope : Scope)
    (resource : String) : SameStep absent (first.beginSubscribe scope resource)
      (second.beginSubscribe scope resource) := by
  obtain ⟨now, journal, link, broker⟩ := second
  obtain ⟨rfl, rfl, rfl, journal⟩ := without
  simp only [Node.beginSubscribe]
  split
  next => exact ⟨⟨rfl, rfl, rfl, journal⟩, rfl⟩
  next =>
    split
    next => exact ⟨⟨rfl, rfl, rfl, journal⟩, rfl⟩
    next =>
      split
      next => exact ⟨⟨rfl, rfl, rfl, journal⟩, rfl⟩
      next => split <;> exact ⟨⟨rfl, rfl, rfl, journal⟩, rfl⟩

theorem beginClose (without : first.Without absent second) :
    SameStep absent first.beginClose second.beginClose := by
  have disbanded := without.modifyBroker (·.disband)
  simp only [Node.beginClose, without.broker]
  split
  next => exact ⟨without, rfl⟩
  next => exact ⟨disbanded, rfl⟩

/-! ## Calls in progress -/

theorem pollPublish (without : first.Without absent second) (record : JournalRecord)
    (scope : Scope) (stage : PublishStage) :
    SameStep absent (first.pollPublish record scope stage)
      (second.pollPublish record scope stage) := by
  have appended := without.journal.append first.broker.identity.topic record
  have made := without.journal.makeTopic first.broker.identity.topic
  obtain ⟨now, journal, link, broker⟩ := second
  obtain ⟨rfl, rfl, rfl, same⟩ := without
  obtain ⟨early, late, answer, isFirst, isSecond, written⟩ := answers appended
  obtain ⟨young, old, outcome, isMade, isMadeToo, provided⟩ := answers made
  cases stage with
  | stuck => exact ⟨⟨rfl, rfl, rfl, same⟩, rfl⟩
  | writing =>
    simp only [Node.pollPublish, isFirst, isSecond]
    split
    next => exact ⟨⟨rfl, rfl, rfl, same⟩, rfl⟩
    next =>
      obtain cause | ⟨⟩ := answer
      · cases cause <;> exact ⟨⟨rfl, rfl, rfl, written⟩, rfl⟩
      · exact ⟨⟨rfl, rfl, rfl, written⟩, rfl⟩
  | creating =>
    simp only [Node.pollPublish, isMade, isMadeToo]
    split
    next => exact ⟨⟨rfl, rfl, rfl, same⟩, rfl⟩
    next =>
      obtain cause | ⟨⟩ := outcome
      · cases cause <;> exact ⟨⟨rfl, rfl, rfl, provided⟩, rfl⟩
      · exact ⟨⟨rfl, rfl, rfl, provided⟩, rfl⟩
  | rewriting =>
    simp only [Node.pollPublish, isFirst, isSecond]
    split
    next => exact ⟨⟨rfl, rfl, rfl, same⟩, rfl⟩
    next => obtain cause | ⟨⟩ := answer <;> exact ⟨⟨rfl, rfl, rfl, written⟩, rfl⟩

section Subscribe

variable {readers : List Reader}

theorem attach (without : first.Without absent second) (counts : MemberCounts first.journal readers)
    (listed : ∀ reader ∈ absent, reader ∈ readers) (resource : String)
    (keepsPosition : ∀ reader ∈ absent,
      ¬first.journal.PassesPosition reader (first.attach resource).1.journal) :
    (first.attach resource).1.Without absent (second.attach resource).1 ∧
      (second.attach resource).2 = (first.attach resource).2 := by
  obtain ⟨now, journal, link, broker⟩ := second
  obtain ⟨rfl, rfl, rfl, same⟩ := without
  obtain ⟨attached, answer⟩ := same.attach counts listed keepsPosition
  exact ⟨⟨rfl, rfl, rfl, attached⟩, answer⟩

theorem pollSubscribe (without : first.Without absent second)
    (counts : MemberCounts first.journal readers) (listed : ∀ reader ∈ absent, reader ∈ readers)
    (resource : String) (id : SubscriberId) (scope : Scope) (stage : SubscribeStage)
    (keepsPosition : ∀ reader ∈ absent, ¬first.journal.PassesPosition reader
      (first.pollSubscribe resource id scope stage).1.journal) :
    SameStep absent (first.pollSubscribe resource id scope stage)
      (second.pollSubscribe resource id scope stage) := by
  cases stage with
  | stuck => exact ⟨without, rfl⟩
  | opening =>
    rw [fst_pollSubscribe_opening] at keepsPosition
    obtain ⟨attached, answer⟩ := without.attach counts listed resource keepsPosition
    simp only [Node.pollSubscribe]
    generalize first.attach resource = one, second.attach resource = other at attached answer
    obtain ⟨early, result⟩ := one
    obtain ⟨late, same⟩ := other
    obtain rfl : same = result := answer
    cases same with
    | ok reader => exact ⟨attached, rfl⟩
    | error cause => cases cause <;> exact ⟨attached, rfl⟩
  | creating =>
    have made := without.journal.makeTopic first.broker.identity.topic
    obtain ⟨now, journal, link, broker⟩ := second
    obtain ⟨rfl, rfl, rfl, same⟩ := without
    obtain ⟨early, late, answer, isFirst, isSecond, provided⟩ := answers made
    simp only [Node.pollSubscribe, isFirst, isSecond]
    split
    next => exact ⟨⟨rfl, rfl, rfl, same⟩, rfl⟩
    next =>
      obtain cause | ⟨⟩ := answer
      · cases cause <;> exact ⟨⟨rfl, rfl, rfl, provided⟩, rfl⟩
      · exact ⟨⟨rfl, rfl, rfl, provided⟩, rfl⟩
  | reopening =>
    rw [fst_pollSubscribe_reopening] at keepsPosition
    obtain ⟨attached, answer⟩ := without.attach counts listed resource keepsPosition
    simp only [Node.pollSubscribe]
    generalize first.attach resource = one, second.attach resource = other at attached answer
    obtain ⟨early, result⟩ := one
    obtain ⟨late, same⟩ := other
    obtain rfl : same = result := answer
    cases same with
    | ok reader => exact ⟨attached, rfl⟩
    | error cause => exact ⟨attached, rfl⟩
  | opened reader =>
    have left := without.journal.leave reader
    obtain ⟨now, journal, link, broker⟩ := second
    obtain ⟨rfl, rfl, rfl, same⟩ := without
    simp only [Node.pollSubscribe, Node.register]
    split
    next => exact ⟨⟨rfl, rfl, rfl, left⟩, rfl⟩
    next =>
      split
      next => exact ⟨⟨rfl, rfl, rfl, left⟩, rfl⟩
      next => exact ⟨⟨rfl, rfl, rfl, same⟩, rfl⟩

theorem abandon (without : first.Without absent second) (stage : SubscribeStage) :
    (first.abandon stage).Without absent (second.abandon stage) := by
  cases stage with
  | opened reader => exact without.release reader
  | opening | creating | reopening | stuck => exact without

/-- A call comes to the same in both nodes, or has to wait in both. -/
theorem pollCall? (without : first.Without absent second)
    (counts : MemberCounts first.journal readers)
    (listed : ∀ reader ∈ absent, reader ∈ readers) (call : Call)
    (keepsPosition : ∀ after progress, first.pollCall? call = some (after, progress) →
      ∀ reader ∈ absent, ¬first.journal.PassesPosition reader after.journal) :
    Option.Rel (SameStep absent) (first.pollCall? call) (second.pollCall? call) := by
  cases call with
  | publish record scope stage =>
    have polled := without.pollPublish record scope stage
    simp only [Node.pollCall?, without.now, without.broker]
    split
    next => exact .some ⟨without, rfl⟩
    next =>
      split
      next => exact .some ⟨without, rfl⟩
      next =>
        split
        next => exact .none
        next => exact .some polled
  | subscribe resource id scope stage =>
    have given := without.abandon stage
    simp only [Node.pollCall?, without.now, without.link] at keepsPosition ⊢
    split
    next => exact .some ⟨given, rfl⟩
    next alive =>
      split
      next => exact .none
      next free =>
        simp only [alive, free] at keepsPosition
        exact .some (without.pollSubscribe counts listed resource id scope stage
          (keepsPosition _ _ rfl))
  | close =>
    obtain ⟨now, journal, link, broker⟩ := second
    obtain ⟨rfl, rfl, rfl, same⟩ := without
    simp only [Node.pollCall?]
    split
    next => exact .some ⟨⟨rfl, rfl, rfl, same.close⟩, rfl⟩
    next => exact .none

end Subscribe

/-! ## Loops -/

theorem enter (without : first.Without absent second) (generation : Nat) (phase : LoopPhase) :
    (first.enter generation phase).Without absent (second.enter generation phase) :=
  without.modifyBroker _

theorem endLoop (without : first.Without absent second) (loop : ConsumptionLoop) :
    (first.endLoop loop).Without absent (second.endLoop loop) where
  now := without.now
  link := without.link
  broker := congrArg (·.dropLoop loop.generation) without.broker
  journal := without.journal.leave loop.reader

theorem handOn (without : first.Without absent second) (loop : ConsumptionLoop)
    (record : JournalRecord) :
    (first.handOn loop record).Without absent (second.handOn loop record) := by
  obtain ⟨now, journal, link, broker⟩ := second
  obtain ⟨rfl, rfl, rfl, journal⟩ := without
  simp only [Node.handOn]
  split <;> exact ⟨rfl, rfl, rfl, journal⟩

theorem read (without : first.Without absent second) (loop : ConsumptionLoop)
    (sees : second.journal.peek loop.reader = first.journal.peek loop.reader) :
    (first.read loop).Without absent (second.read loop) := by
  have taken := without.journal.take sees
  have looks := without.journal.look
  obtain ⟨now, journal, link, broker⟩ := second
  obtain ⟨rfl, rfl, rfl, same⟩ := without
  simp only [Node.read, sees, looks]
  split
  next record _ =>
    have moved : Without absent { first with journal := first.journal.take loop.reader }
      { first with journal := journal.take loop.reader } := ⟨rfl, rfl, rfl, taken⟩
    exact moved.handOn loop record
  next => exact ⟨rfl, rfl, rfl, same⟩
  next =>
    have gone : Without absent first { first with journal := journal } := ⟨rfl, rfl, rfl, same⟩
    exact (gone.modifyBroker (·.dissolve loop.resource loop.generation)).endLoop loop
  next => exact ⟨rfl, rfl, rfl, same⟩

/-- A loop that sees the same does the same in both nodes, or has to wait in both. -/
theorem pollLoop? (without : first.Without absent second) (loop : ConsumptionLoop)
    (sees : second.journal.peek loop.reader = first.journal.peek loop.reader) :
    Option.Rel (Without absent) (first.pollLoop? loop) (second.pollLoop? loop) := by
  have ended := without.endLoop loop
  have red := without.read loop sees
  have mustLook := without.journal.mustLook loop.reader
  have failed : ∀ link, Without absent { first with link := link }
      ⟨first.now, second.journal, link, second.broker⟩ :=
    fun _ => ⟨rfl, rfl, without.broker, without.journal⟩
  simp only [Node.pollLoop?, without.now, without.link, mustLook]
  split
  next gone _ =>
    exact .some ((without.modifyBroker (·.prune loop.resource gone)).enter loop.generation .reading)
  next =>
    split
    next => exact .some ended
    next =>
      split
      next => exact .some (without.enter loop.generation .reading)
      next => exact .none
  next =>
    split
    next => exact .some ended
    next =>
      split
      next => exact .some ((failed _).enter loop.generation (.pausing (first.now + readPause)))
      next => exact .some red
  next =>
    split
    next => exact .some ended
    next =>
      split
      next => exact .some red
      next => exact .none

end Without

end UpdateRelay.Node
