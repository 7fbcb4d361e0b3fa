import UpdateRelay.Proofs.Cluster.Lasting
import UpdateRelay.Proofs.Journal.Records

/-!
# Calls at a closed broker

A publish or a subscribe that is still in progress after its broker was closed can only fail, adds
no record, and is a few steps away from its answer as long as its requests are answered.
-/

namespace UpdateRelay

/-- Whether a call failed. -/
def Reply.failed : Reply → Bool
  | .completed (.error _) | .subscribed (.error _) => true
  | .completed (.ok _) | .subscribed (.ok _) => false

/-- Whether a link lets every request of a subscribe have its answer. -/
def Link.answers (link : Link) : Bool :=
  !link.hangsCreations && !link.holdsOpening && !link.holdsOpened

/-- Whether a call is a subscribe whose request is never answered. -/
def Call.isStuck : Call → Bool
  | .subscribe _ _ _ .stuck => true
  | _ => false

/-- The most steps that a publish or a subscribe at a closed broker takes to its answer. -/
def Call.stepsLeft : Call → Nat
  | .subscribe _ _ _ .opening => 4
  | .subscribe _ _ _ .creating => 3
  | .subscribe _ _ _ .reopening => 2
  | _ => 1

/-- Why a call that begins under a scope fails that would fail for some cause anyway: a scope that
is done counts first. -/
def Scope.refusal (scope : Scope) (now : Nat) (cause : BrokerFailure) : BrokerFailure :=
  match scope.stop? now with
  | some reason => reason.error
  | none => cause

namespace Node

/-! ## Calls at a closed broker -/

section Closed

variable {node after : Node} {call : Call}

theorem beginPublish_of_closed (closed : node.broker.closed = true) (scope : Scope)
    (resource : String) (event : Event) :
    node.beginPublish scope resource event = node.fail (scope.refusal node.now .closed) := by
  unfold beginPublish Scope.check Scope.refusal
  cases scope.stop? node.now <;> simp [closed]

/-- That a mailbox cannot be made shows before the broker is looked at. -/
theorem beginSubscribe_of_closed (closed : node.broker.closed = true) (scope : Scope)
    (resource : String) : (node.beginSubscribe scope resource).2 =
      .replied (.subscribed (.error (scope.refusal node.now
        (if Mailbox.canHold node.broker.identity.capacity then .closed
          else .mailboxTooLarge node.broker.identity.capacity)))) := by
  simp only [beginSubscribe, Scope.check, Scope.refusal]
  cases scope.stop? node.now with
  | some reason => rfl
  | none =>
    by_cases fits : Mailbox.canHold node.broker.identity.capacity
    · simp [closed, fits, failSubscribe]
    · simp [fits, failSubscribe]

/-- At a closed broker a publish or a subscribe can only fail. -/
theorem failed_pollCall? {reply : Reply} (closed : node.broker.closed = true)
    (other : call.isClose = false)
    (stepped : node.pollCall? call = some (after, .replied reply)) : reply.failed = true := by
  cases callTurn stepped with
  | closed => contradiction
  | failed | abandoned => rfl
  | publish isOpen => cases closed.symm.trans isOpen
  | subscribe turn =>
    cases turn with
    | refused | unmade | shut => rfl
    | joined isOpen | withEntry isOpen => cases closed.symm.trans isOpen

theorem records_abandon (node : Node) (stage : SubscribeStage) (name : String) :
    (node.abandon stage).journal.records name = node.journal.records name := by
  cases stage with
  | opened reader => exact node.journal.records_leave reader name
  | opening | creating | reopening | stuck => rfl

theorem SubscribeTurn.records {resource : String} {id : SubscriberId} {scope : Scope}
    {stage : SubscribeStage} {progress : Progress}
    (turn : node.SubscribeTurn resource id scope stage after progress) (name : String) :
    after.journal.records name = node.journal.records name := by
  have attached : (node.attach resource).1.journal.records name = node.journal.records name :=
    node.journal.records_attach node.broker.identity.topic (node.broker.identity.group resource)
      name
  have same := node.journal.records_makeTopic node.broker.identity.topic name
  cases turn with
  | stuck | hung | withEntry => rfl
  | attached _ answered | refused _ answered | missing answered =>
    rw [answered] at attached
    exact attached
  | made answered | unmade answered =>
    rw [answered] at same
    exact same
  | @shut reader | @joined reader => exact node.journal.records_leave reader name

/-- At a closed broker neither a publish nor a subscribe adds a record. -/
theorem records_pollCall? {progress : Progress} (closed : node.broker.closed = true)
    (other : call.isClose = false) (stepped : node.pollCall? call = some (after, progress))
    (name : String) : after.journal.records name = node.journal.records name := by
  cases callTurn stepped with
  | closed => contradiction
  | failed => rfl
  | publish isOpen => cases closed.symm.trans isOpen
  | @abandoned _ _ _ stage => exact node.records_abandon stage name
  | subscribe turn => exact turn.records name

theorem SubscribeTurn.stepsLeft {resource : String} {id : SubscriberId} {scope : Scope}
    {stage : SubscribeStage} {later : Call} (creates : node.link.hangsCreations = false)
    (going : stage ≠ .stuck)
    (turn : node.SubscribeTurn resource id scope stage after (.pending later)) :
    later.stepsLeft < (Call.subscribe resource id scope stage).stepsLeft ∧
      later.isStuck = false := by
  cases turn with
  | stuck => contradiction
  | hung hangs => cases creates.symm.trans hangs
  | attached asks =>
    rcases asks with rfl | rfl
    · exact ⟨by simp [Call.stepsLeft], rfl⟩
    · exact ⟨by simp [Call.stepsLeft], rfl⟩
  | missing | made => exact ⟨by simp [Call.stepsLeft], rfl⟩

/-- Where requests are answered, a publish or a subscribe at a closed broker need not wait, and
comes closer to its answer with every step. -/
theorem pollCall?_of_closed (closed : node.broker.closed = true) (answers : node.link.answers)
    (other : call.isClose = false) (going : call.isStuck = false) :
    ∃ after progress, node.pollCall? call = some (after, progress) ∧
      ∀ later, progress = .pending later →
        later.stepsLeft < call.stepsLeft ∧ later.isStuck = false := by
  simp only [Link.answers, Bool.and_eq_true, Bool.not_eq_true'] at answers
  obtain ⟨⟨creates, opens⟩, hands⟩ := answers
  cases call with
  | close => contradiction
  | publish record scope stage =>
    exact ⟨_, _, if_pos closed, fun later same => Progress.noConfusion same⟩
  | subscribe resource id scope stage =>
    have started : stage ≠ .stuck := by
      rintro rfl
      contradiction
    have free : holds node.link stage = false := by
      cases stage with
      | stuck => contradiction
      | opening | reopening => exact opens
      | opened => exact hands
      | creating => rfl
    simp only [pollCall?]
    split
    next => exact ⟨_, _, rfl, fun later same => Progress.noConfusion same⟩
    next =>
      rw [free]
      rcases stepped : node.pollSubscribe resource id scope stage with ⟨after, progress⟩
      refine ⟨after, progress, rfl, fun later pending => ?_⟩
      subst pending
      exact (subscribeTurn stepped).stepsLeft creates started

/-- A loop that was told to stop need not wait. -/
theorem pollLoop?_of_cancelled {loop : ConsumptionLoop} (cancelled : loop.cancelled = true) :
    ∃ after, node.pollLoop? loop = some after := by
  unfold pollLoop?
  cases loop.phase with
  | pruning gone => exact ⟨_, rfl⟩
  | pausing | reading | waiting => exact ⟨_, if_pos cancelled⟩

end Closed

/-! ## The link -/

section Link

variable {node after : Node}

theorem link_beginPublish (node : Node) (scope : Scope) (resource : String) (event : Event) :
    (node.beginPublish scope resource event).1.link = node.link := by
  unfold beginPublish
  split
  next => rfl
  next => split <;> rfl

theorem link_beginSubscribe (node : Node) (scope : Scope) (resource : String) :
    (node.beginSubscribe scope resource).1.link = node.link := by
  simp only [beginSubscribe]
  split
  next => rfl
  next =>
    split
    next => rfl
    next =>
      split
      next => rfl
      next => split <;> rfl

theorem link_beginClose (node : Node) : node.beginClose.1.link = node.link := by
  unfold beginClose
  split <;> rfl

theorem SubscribeTurn.link {resource : String} {id : SubscriberId} {scope : Scope}
    {stage : SubscribeStage} {progress : Progress}
    (turn : node.SubscribeTurn resource id scope stage after progress) :
    after.link = node.link := by
  have attached : (node.attach resource).1.link = node.link := rfl
  cases turn with
  | attached _ answered | refused _ answered | missing answered =>
    rw [answered] at attached
    exact attached
  | stuck | hung | made | unmade | shut | joined | withEntry => rfl

theorem link_pollCall? {call : Call} {progress : Progress}
    (stepped : node.pollCall? call = some (after, progress)) : after.link = node.link := by
  cases callTurn stepped with
  | failed | closed => rfl
  | publish _ turn => cases turn <;> rfl
  | @abandoned _ _ _ stage => cases stage <;> rfl
  | subscribe turn => exact turn.link

theorem link_read (node : Node) (loop : ConsumptionLoop) : (node.read loop).link = node.link := by
  unfold read
  split
  next record _ =>
    unfold handOn
    cases eventFor? loop.resource record <;> rfl
  all_goals rfl

/-- Loops only use up the reads that are to fail. -/
theorem link_pollLoop? {loop : ConsumptionLoop} (stepped : node.pollLoop? loop = some after) :
    ∃ reads, after.link = { node.link with failingReads := reads } := by
  cases loopTurn stepped with
  | tidied | ended | resumed | failed => exact ⟨_, rfl⟩
  | read => exact ⟨_, node.link_read loop⟩

end Link

end Node

end UpdateRelay
