import UpdateRelay.Broker.Journaled.Call

/-!
# Turns of calls and loops

What one step of a call or of a loop can be, with a constructor for each way it can go: which
request it made, what the answer was, and what it left behind. What all steps keep is shown by cases
on these relations, so that the functions themselves are opened here only.
-/

namespace UpdateRelay.Node

/-- What a request of a publish can come to. -/
inductive PublishTurn (node : Node) (record : JournalRecord) (scope : Scope) :
    PublishStage → Node → Progress → Prop
  | hung {stage} : PublishTurn node record scope stage node
      (.pending (.publish record scope .stuck))
  | written {stage journal} (asks : stage = .writing ∨ stage = .rewriting)
      (answered : node.journal.append node.broker.identity.topic record = (journal, .ok ())) :
      PublishTurn node record scope stage { node with journal := journal }
        (.replied (.completed (.ok ())))
  | unwritten {stage journal cause} (asks : stage = .writing ∨ stage = .rewriting)
      (answered : node.journal.append node.broker.identity.topic record =
        (journal, .error cause)) :
      PublishTurn node record scope stage { node with journal := journal }
        (.replied (.completed (.error (.journal cause))))
  | missing {journal name}
      (answered : node.journal.append node.broker.identity.topic record =
        (journal, .error (.unknownTopic name))) :
      PublishTurn node record scope .writing { node with journal := journal }
        (.pending (.publish record scope .creating))
  | made {journal outcome}
      (answered : node.journal.makeTopic node.broker.identity.topic = (journal, outcome)) :
      PublishTurn node record scope .creating { node with journal := journal }
        (.pending (.publish record scope .rewriting))
  | unmade {journal cause}
      (answered : node.journal.makeTopic node.broker.identity.topic = (journal, .error cause)) :
      PublishTurn node record scope .creating { node with journal := journal }
        (.replied (.completed (.error (.journal cause))))

/-- What a request of a subscribe can come to. -/
inductive SubscribeTurn (node : Node) (resource : String) (id : SubscriberId) (scope : Scope) :
    SubscribeStage → Node → Progress → Prop
  | stuck : SubscribeTurn node resource id scope .stuck node
      (.pending (.subscribe resource id scope .stuck))
  | attached {stage after reader} (asks : stage = .opening ∨ stage = .reopening)
      (answered : node.attach resource = (after, .ok reader)) :
      SubscribeTurn node resource id scope stage after
        (.pending (.subscribe resource id scope (.opened reader)))
  | refused {stage after cause} (asks : stage = .opening ∨ stage = .reopening)
      (answered : node.attach resource = (after, .error cause)) :
      SubscribeTurn node resource id scope stage after
        (.replied (.subscribed (.error (.journal cause))))
  | missing {after name}
      (answered : node.attach resource = (after, .error (.unknownTopic name))) :
      SubscribeTurn node resource id scope .opening after
        (.pending (.subscribe resource id scope .creating))
  | hung (hangs : node.link.hangsCreations = true) :
      SubscribeTurn node resource id scope .creating node
        (.pending (.subscribe resource id scope .stuck))
  | made {journal outcome}
      (answered : node.journal.makeTopic node.broker.identity.topic = (journal, outcome)) :
      SubscribeTurn node resource id scope .creating { node with journal := journal }
        (.pending (.subscribe resource id scope .reopening))
  | unmade {journal cause}
      (answered : node.journal.makeTopic node.broker.identity.topic = (journal, .error cause)) :
      SubscribeTurn node resource id scope .creating { node with journal := journal }
        (.replied (.subscribed (.error (.journal cause))))
  | shut {reader} (closed : node.broker.closed = true) :
      SubscribeTurn node resource id scope (.opened reader) (node.release reader)
        (.replied (.subscribed (.error .closed)))
  | joined {reader entry} (isOpen : node.broker.closed = false)
      (found : node.broker.entries.get? resource = some entry) :
      SubscribeTurn node resource id scope (.opened reader)
        ((node.modifyBroker (·.join resource entry id)).release reader)
        (.replied (.subscribed (.ok ⟨id, resource, node.broker.room.nextPlace⟩)))
  | withEntry {reader} (isOpen : node.broker.closed = false)
      (absent : node.broker.entries.get? resource = none) :
      SubscribeTurn node resource id scope (.opened reader)
        (node.modifyBroker (·.found resource id reader))
        (.replied (.subscribed (.ok ⟨id, resource, node.broker.room.nextPlace⟩)))

/-- What a step of a call can be. -/
inductive CallTurn (node : Node) : Call → Node → Progress → Prop
  | failed {record scope stage} (cause : BrokerFailure) :
      CallTurn node (.publish record scope stage) node (.replied (.completed (.error cause)))
  | publish {record scope stage after progress} (isOpen : node.broker.closed = false)
      (turn : node.PublishTurn record scope stage after progress) :
      CallTurn node (.publish record scope stage) after progress
  | abandoned {resource id scope stage} (cause : BrokerFailure) :
      CallTurn node (.subscribe resource id scope stage) (node.abandon stage)
        (.replied (.subscribed (.error cause)))
  | subscribe {resource id scope stage after progress}
      (turn : node.SubscribeTurn resource id scope stage after progress) :
      CallTurn node (.subscribe resource id scope stage) after progress
  | closed (ended : node.broker.loops = []) :
      CallTurn node .close { node with journal := node.journal.close }
        (.replied (.completed (.ok ())))

/-- What a step of a loop can be. A loop that was told to stop ends, but first completes what it has
begun. -/
inductive LoopTurn (node : Node) (loop : ConsumptionLoop) : Node → Prop
  | tidied {gone} (phase : loop.phase = .pruning gone) :
      LoopTurn node loop
        ((node.modifyBroker (·.prune loop.resource gone)).enter loop.generation .reading)
  | ended (cancelled : loop.cancelled = true) (free : ∀ gone, loop.phase ≠ .pruning gone) :
      LoopTurn node loop (node.endLoop loop)
  | resumed {resumption} (live : loop.cancelled = false) (phase : loop.phase = .pausing resumption)
      (due : resumption ≤ node.now) : LoopTurn node loop (node.enter loop.generation .reading)
  | failed (live : loop.cancelled = false) (phase : loop.phase = .reading)
      (fails : 0 < node.link.failingReads) :
      LoopTurn node loop
        ({ node with link.failingReads := node.link.failingReads - 1 }.enter loop.generation
          (.pausing (node.now + readPause)))
  | read (live : loop.cancelled = false)
      (awake : (loop.phase = .reading ∧ node.link.failingReads = 0) ∨
        (loop.phase = .waiting ∧ node.journal.mustLook loop.reader = true)) :
      LoopTurn node loop (node.read loop)

variable {node after : Node} {progress : Progress}

/-- Opening a reader is between the broker and the journal. -/
theorem broker_attach (node : Node) (resource : String) :
    (node.attach resource).1.broker = node.broker := rfl

theorem publishTurn {record : JournalRecord} {scope : Scope} {stage : PublishStage}
    (stepped : node.pollPublish record scope stage = (after, progress)) :
    node.PublishTurn record scope stage after progress := by
  cases stage with
  | stuck =>
    cases stepped
    exact .hung
  | writing =>
    simp only [pollPublish] at stepped
    split at stepped
    next =>
      cases stepped
      exact .hung
    next =>
      split at stepped
      next answered =>
        cases stepped
        exact .written (Or.inl rfl) answered
      next answered =>
        cases stepped
        exact .missing answered
      next answered =>
        cases stepped
        exact .unwritten (Or.inl rfl) answered
  | creating =>
    simp only [pollPublish] at stepped
    split at stepped
    next =>
      cases stepped
      exact .hung
    next =>
      split at stepped
      next answered =>
        cases stepped
        exact .made answered
      next answered =>
        cases stepped
        exact .made answered
      next answered =>
        cases stepped
        exact .unmade answered
  | rewriting =>
    simp only [pollPublish] at stepped
    split at stepped
    next =>
      cases stepped
      exact .hung
    next =>
      split at stepped
      next answered =>
        cases stepped
        exact .written (Or.inr rfl) answered
      next answered =>
        cases stepped
        exact .unwritten (Or.inr rfl) answered

theorem subscribeTurn {resource : String} {id : SubscriberId} {scope : Scope}
    {stage : SubscribeStage}
    (stepped : node.pollSubscribe resource id scope stage = (after, progress)) :
    node.SubscribeTurn resource id scope stage after progress := by
  cases stage with
  | stuck =>
    cases stepped
    exact .stuck
  | opening =>
    simp only [pollSubscribe] at stepped
    split at stepped
    next answered =>
      cases stepped
      exact .attached (Or.inl rfl) answered
    next answered =>
      cases stepped
      exact .missing answered
    next answered =>
      cases stepped
      exact .refused (Or.inl rfl) answered
  | creating =>
    simp only [pollSubscribe] at stepped
    split at stepped
    next hangs =>
      cases stepped
      exact .hung hangs
    next =>
      split at stepped
      next answered =>
        cases stepped
        exact .made answered
      next answered =>
        cases stepped
        exact .made answered
      next answered =>
        cases stepped
        exact .unmade answered
  | reopening =>
    simp only [pollSubscribe] at stepped
    split at stepped
    next answered =>
      cases stepped
      exact .attached (Or.inr rfl) answered
    next answered =>
      cases stepped
      exact .refused (Or.inr rfl) answered
  | opened reader =>
    simp only [pollSubscribe, register] at stepped
    split at stepped
    next closed =>
      cases stepped
      exact .shut closed
    next isOpen =>
      split at stepped
      next found =>
        cases stepped
        exact .joined (Bool.eq_false_iff.2 isOpen) found
      next absent =>
        cases stepped
        exact .withEntry (Bool.eq_false_iff.2 isOpen) absent

theorem callTurn {call : Call} (stepped : node.pollCall? call = some (after, progress)) :
    node.CallTurn call after progress := by
  cases call with
  | publish record scope stage =>
    simp only [pollCall?] at stepped
    split at stepped
    next =>
      cases stepped
      exact .failed .closed
    next isOpen =>
      split at stepped
      next cause _ =>
        cases stepped
        exact .failed cause
      next =>
        split at stepped
        next => contradiction
        next =>
          exact .publish (Bool.eq_false_iff.2 isOpen) (publishTurn (Option.some.inj stepped))
  | subscribe resource id scope stage =>
    simp only [pollCall?] at stepped
    split at stepped
    next cause _ =>
      cases stepped
      exact .abandoned cause
    next =>
      split at stepped
      next => contradiction
      next => exact .subscribe (subscribeTurn (Option.some.inj stepped))
  | close =>
    simp only [pollCall?] at stepped
    split at stepped
    next ended =>
      cases stepped
      exact .closed (List.isEmpty_iff.1 ended)
    next => contradiction

theorem loopTurn {loop : ConsumptionLoop} (stepped : node.pollLoop? loop = some after) :
    node.LoopTurn loop after := by
  unfold pollLoop? at stepped
  cases phase : loop.phase with
  | pruning gone =>
    simp only [phase] at stepped
    cases stepped
    exact .tidied phase
  | pausing resumption =>
    simp only [phase] at stepped
    split at stepped
    next cancelled =>
      cases stepped
      exact .ended cancelled (by simp [phase])
    next live =>
      split at stepped
      next due =>
        cases stepped
        exact .resumed (Bool.eq_false_iff.2 live) phase due
      next => contradiction
  | reading =>
    simp only [phase] at stepped
    split at stepped
    next cancelled =>
      cases stepped
      exact .ended cancelled (by simp [phase])
    next live =>
      split at stepped
      next fails =>
        cases stepped
        exact .failed (Bool.eq_false_iff.2 live) phase fails
      next sound =>
        cases stepped
        exact .read (Bool.eq_false_iff.2 live) (Or.inl ⟨phase, Nat.eq_zero_of_not_pos sound⟩)
  | waiting =>
    simp only [phase] at stepped
    split at stepped
    next cancelled =>
      cases stepped
      exact .ended cancelled (by simp [phase])
    next live =>
      split at stepped
      next mustLook =>
        cases stepped
        exact .read (Bool.eq_false_iff.2 live) (Or.inr ⟨phase, mustLook⟩)
      next => contradiction

/-! ## Calls that go on -/

theorem pursue_of_polled {call : Call} (polled : node.pollCall? call = some (after, progress))
    (steps : Nat) : pursue (steps + 1) node (.pending call) = pursue steps after progress := by
  simp only [pursue, polled]

theorem pursue_replied (steps : Nat) (node : Node) (reply : Reply) :
    pursue steps node (.replied reply) = (node, .replied reply) := by
  cases steps <;> rfl

section Publish

variable {record : JournalRecord} {scope : Scope} {journal : Journal}
  {answer : Except JournalFailure Unit}

/-- The first append is the last request unless the topic is unknown. -/
theorem pollPublish_writing (node : Node) (appends : node.link.hangsAppends = false)
    (served : node.journal.append node.broker.identity.topic record = (journal, answer))
    (known : ∀ name, answer ≠ .error (.unknownTopic name)) :
    node.pollPublish record scope .writing =
      ({ node with journal := journal }, .replied (.completed (answer.mapError .journal))) := by
  simp only [pollPublish, appends, Bool.false_eq_true, if_false, served]
  rcases answer with cause | _
  · cases cause with
    | unknownTopic name => exact absurd rfl (known name)
    | topicExists | unreachable | closed | transport => rfl
  · rfl

theorem pollPublish_writing_of_missing (node : Node) (appends : node.link.hangsAppends = false)
    {name : String}
    (served : node.journal.append node.broker.identity.topic record =
      (journal, .error (.unknownTopic name))) :
    node.pollPublish record scope .writing =
      ({ node with journal := journal }, .pending (.publish record scope .creating)) := by
  simp only [pollPublish, appends, Bool.false_eq_true, if_false, served]

theorem pollPublish_creating_of_error (node : Node) (creations : node.link.hangsCreations = false)
    {cause : JournalFailure}
    (served : node.journal.makeTopic node.broker.identity.topic = (journal, .error cause))
    (other : ∀ name, cause ≠ .topicExists name) :
    node.pollPublish record scope .creating =
      ({ node with journal := journal }, .replied (.completed (.error (.journal cause)))) := by
  simp only [pollPublish, creations, Bool.false_eq_true, if_false, served]
  cases cause with
  | topicExists name => exact absurd rfl (other name)
  | unknownTopic | unreachable | closed | transport => rfl

/-- A topic that is there meanwhile is as good as one that was made. -/
theorem pollPublish_creating (node : Node) (creations : node.link.hangsCreations = false)
    (served : node.journal.makeTopic node.broker.identity.topic = (journal, answer))
    (there : answer = .ok () ∨ ∃ name, answer = .error (.topicExists name)) :
    node.pollPublish record scope .creating =
      ({ node with journal := journal }, .pending (.publish record scope .rewriting)) := by
  simp only [pollPublish, creations, Bool.false_eq_true, if_false, served]
  obtain rfl | ⟨name, rfl⟩ := there
  · rfl
  · rfl

theorem pollPublish_rewriting (node : Node) (appends : node.link.hangsAppends = false)
    (served : node.journal.append node.broker.identity.topic record = (journal, answer)) :
    node.pollPublish record scope .rewriting =
      ({ node with journal := journal }, .replied (.completed (answer.mapError .journal))) := by
  simp only [pollPublish, appends, Bool.false_eq_true, if_false, served]
  cases answer <;> rfl

end Publish

end UpdateRelay.Node
