import UpdateRelay.Proofs.Backends.Appending
import UpdateRelay.Proofs.Backends.FirstSubscriber

/-!
# Backends are interchangeable

Whatever clients ask, in whatever order, of a durable broker that has a journal for itself, and
whatever the order in which its calls and loops take their steps: the clients hear what they would
hear of an in-process broker whose mailboxes hold as much.
-/

namespace UpdateRelay

/-- A broker that is closed and has no subscribers is not changed by a close. -/
theorem DirectBroker.close_of_closed {broker : DirectBroker} (closed : broker.closed = true)
    (nobody : broker.resources = ∅) : broker.close = broker := by
  obtain ⟨capacity, resources, _, nextNumber, room⟩ := broker
  obtain rfl : resources = ∅ := nobody
  rw [close, ← closed]
  rfl

namespace Node

variable {node after : Node} {direct : DirectBroker}

theorem Corresponds.close (corresponds : node.Corresponds direct) :
    Bound direct.close (.completed (.ok ())) node.beginClose.1 node.beginClose.2 := by
  obtain rfl := corresponds.same
  unfold beginClose
  cases corresponds.due with
  | ended isOver =>
    have nobody : node.broker.direct.resources = ∅ := by
      rw [JournaledBroker.direct, isOver.entries]
      rfl
    have closed : node.broker.direct.closed = true := isOver.closed
    rw [if_pos isOver.closed, DirectBroker.close_of_closed closed nobody]
    exact .answered corresponds.due
  | lasting isOpen ready =>
    have notClosed : ¬node.broker.closed = true := Bool.eq_false_iff.1 isOpen
    have effect : Effect (node.footprint none) []
        ((node.modifyBroker JournaledBroker.disband).footprint none) := .disbanded
    have loops : ∀ loop ∈ node.broker.disband.loops, loop.CameFrom node.broker.loops :=
      fun _ => JournaledBroker.cameFrom_disband
    have follows : node.Follows (node.modifyBroker JournaledBroker.disband) :=
      ⟨effect.sound ready.sound, rfl, rfl, rfl, .refl _,
        fun loop member => Or.inl (loops loop member)⟩
    have owes := follows.owes ready corresponds.rests rfl loops
    have same : (node.modifyBroker JournaledBroker.disband).broker.direct =
        node.broker.direct.close := node.broker.direct_disband
    rw [same] at owes
    rw [if_neg notClosed]
    exact .closing rfl (follows.ready ready corresponds.rests) owes rfl

/-! ## Single requests -/

/-- The answer is that of the in-process broker, and both correspond again. -/
theorem Corresponds.of_serves (corresponds : node.Corresponds direct) {request : BrokerRequest}
    (fits : request.Fits) {answer : BrokerAnswer}
    (serves : node.Serves request answer after) :
    answer = (direct.serve node.now request).2 ∧
      after.Corresponds (direct.serve node.now request).1 := by
  have same := corresponds.same
  cases serves with
  | @subscribe scope resource _ _ finishes =>
    obtain ⟨heard, due, rests⟩ := (corresponds.subscribe scope resource).of_finishes finishes
    obtain rfl := Reply.subscribed.inj heard
    exact ⟨rfl, due, rests⟩
  | unsubscribe settles => exact ⟨rfl, (corresponds.unsubscribe _ _).of_settles settles⟩
  | @publish scope resource event _ _ finishes =>
    obtain ⟨heard, due, rests⟩ := (corresponds.publish scope resource fits).of_finishes finishes
    obtain rfl := Reply.completed.inj heard
    exact ⟨rfl, due, rests⟩
  | @notify notice _ _ finishes =>
    obtain ⟨_, due, rests⟩ := (corresponds.publish (notice.scope node.now) notice.resource
      fits).of_finishes finishes
    exact ⟨rfl, due, rests⟩
  | @count resource _ settles =>
    refine ⟨?_, corresponds.due.of_settles settles⟩
    rw [← same]
    exact congrArg _ (node.broker.audience_direct resource).symm
  | receive settles =>
    refine ⟨?_, (corresponds.modifyBox _ .receive rfl).of_settles settles⟩
    rw [← same]
    rfl
  | drain settles =>
    refine ⟨?_, (corresponds.modifyBox _ .drain rfl).of_settles settles⟩
    rw [← same]
    rfl
  | abandon settles => exact ⟨rfl, (corresponds.modifyBox _ .abandon rfl).of_settles settles⟩
  | close finishes =>
    obtain ⟨heard, due, rests⟩ := corresponds.close.of_finishes finishes
    obtain rfl := Reply.completed.inj heard
    exact ⟨rfl, due, rests⟩

/-- The answer comes. -/
theorem Corresponds.serves (corresponds : node.Corresponds direct) {request : BrokerRequest}
    (fits : request.Fits) :
    ∃ after, node.Serves request (direct.serve node.now request).2 after := by
  have same := corresponds.same
  cases request with
  | subscribe scope resource =>
    obtain ⟨after, finishes⟩ := (corresponds.subscribe scope resource).finishes
    exact ⟨after, .subscribe finishes⟩
  | unsubscribe resource id =>
    obtain ⟨after, settles⟩ := (corresponds.unsubscribe resource id).settles
    exact ⟨after, .unsubscribe settles⟩
  | publish scope resource event =>
    obtain ⟨after, finishes⟩ := (corresponds.publish scope resource fits).finishes
    exact ⟨after, .publish finishes⟩
  | notify notice =>
    obtain ⟨after, finishes⟩ := (corresponds.publish (notice.scope node.now) notice.resource
      fits).finishes
    exact ⟨after, .notify finishes⟩
  | count resource =>
    rw [DirectBroker.serve, ← same, node.broker.audience_direct]
    exact ⟨node, .count ⟨.refl, corresponds.rests⟩⟩
  | receive place =>
    obtain ⟨after, settles⟩ := (corresponds.modifyBox place .receive rfl).settles
    rw [← same]
    exact ⟨after, .receive settles⟩
  | drain place =>
    obtain ⟨after, settles⟩ := (corresponds.modifyBox place .drain rfl).settles
    rw [← same]
    exact ⟨after, .drain settles⟩
  | abandon place =>
    obtain ⟨after, settles⟩ := (corresponds.modifyBox place .abandon rfl).settles
    exact ⟨after, .abandon settles⟩
  | close =>
    obtain ⟨after, finishes⟩ := corresponds.close.finishes
    exact ⟨after, .close finishes⟩

/-! ## Scripts -/

/-- Corresponding brokers give the same answers, request by request. -/
theorem Corresponds.runs_iff (corresponds : node.Corresponds direct) {script : Script}
    (fits : ∀ entry ∈ script, entry.2.Fits) (answers : List BrokerAnswer) :
    node.Runs script answers ↔ answers = direct.answers script := by
  -- Each request leaves corresponding brokers again, at a later time.
  induction script generalizing node direct answers with
  | nil =>
    constructor
    · intro runs
      cases runs
      rfl
    · rintro rfl
      exact .nil
  | cons entry script ih =>
    obtain ⟨now, request⟩ := entry
    have moved := corresponds.transitionTo now
    have firstFits : request.Fits := fits _ List.mem_cons_self
    have restFits := fun entry member => fits entry (List.mem_cons_of_mem _ member)
    constructor
    · intro runs
      cases runs with
      | cons serves runs =>
        obtain ⟨rfl, later⟩ := moved.of_serves firstFits serves
        rw [(ih later restFits _).1 runs]
        rfl
    · rintro rfl
      obtain ⟨after, serves⟩ := moved.serves firstFits
      have later := (moved.of_serves firstFits serves).2
      exact .cons serves ((ih later restFits _).2 rfl)

/-- A new durable broker over a new journal is as empty as a new in-process one. -/
theorem corresponds_start (createsOnDemand : Bool) (now : Nat) (identity : Instance) :
    (start now (.empty createsOnDemand) .sound identity).Corresponds
    (.ofCapacity identity.capacity) := by
  have idle : (start now (.empty createsOnDemand) .sound identity).broker.loops = [] := rfl
  have noLoop : ∀ {loop : ConsumptionLoop},
      loop ∉ (start now (.empty createsOnDemand) .sound identity).broker.loops := by
    intro loop member
    rw [idle] at member
    contradiction
  have made : (start now (.empty createsOnDemand) .sound identity).journal.topics.get?
      identity.topic = some ⟨1, [], ∅⟩ := by
    show (Table.set _ _ _).get? _ = _
    rw [Table.get?_set, if_pos rfl]
    rfl
  have ready : (start now (.empty createsOnDemand) .sound identity).Ready :=
    { sound :=
        { entryLoops := .ofEmpty identity
          seated := .ofEmpty identity
          counts := (MemberCounts.ofEmpty createsOnDemand).grows (Journal.grows_makeTopic _ _)
          loopReads := fun _ member => absurd member noLoop
          claimReads := fun _ isClaim => by contradiction }
      link := rfl
      isOpen := rfl
      brokenAppends := rfl
      hasTopic := Option.isSome_of_eq_some made
      live := fun _ member => absurd member noLoop
      phase := fun _ member => absurd member noLoop
      seen := fun _ member => absurd member noLoop }
  have owes : (start now (.empty createsOnDemand) .sound identity).Owes
      (.ofCapacity identity.capacity) :=
    .nothing (fun _ member => absurd member noLoop) (JournaledBroker.direct_empty identity)
  exact ⟨.lasting rfl ready owes, fun _ member => absurd member noLoop⟩

/-- Every run of a script at a durable broker gives the answers of the in-process broker, and there
is one. -/
theorem backends_interchangeable (createsOnDemand : Bool) (now : Nat) (identity : Instance)
    {script : Script} (fits : ∀ entry ∈ script, entry.2.Fits) (answers : List BrokerAnswer) :
    (start now (.empty createsOnDemand) .sound identity).Runs script answers ↔
      answers = (DirectBroker.ofCapacity identity.capacity).answers script :=
  (corresponds_start createsOnDemand now identity).runs_iff fits answers

/-- Two subscribers share a resource; one leaves without a word, the other by the door, and some
calls come too late. -/
def mixedRequests : Script :=
  [(0, .subscribe .unlimited "door"), (1, .subscribe .unlimited "door"),
    (2, .subscribe ⟨false, some 2⟩ "door"),
    (3, .publish .unlimited "door" ⟨"door", 1, "opened"⟩),
    (4, .notify (.change "door" 2 "closed" 5000)), (5, .receive 0), (6, .abandon 1),
    (7, .publish .unlimited "door" ⟨"door", 3, "opened"⟩), (8, .count "door"),
    (9, .publish ⟨true, none⟩ "door" ⟨"door", 4, "closed"⟩), (10, .unsubscribe "door" ⟨1⟩),
    (11, .count "door"), (12, .drain 0), (13, .receive 0), (14, .subscribe .unlimited "door"),
    (15, .close), (16, .receive 2), (17, .subscribe .unlimited "door"), (18, .close)]

theorem run_of_mixedRequests :
    (start 0 (.empty false) .sound ⟨"updates", "relay", "one", 1⟩).Runs mixedRequests
      [.subscribed (.ok ⟨⟨1⟩, "door", 0⟩), .subscribed (.ok ⟨⟨2⟩, "door", 1⟩),
        .subscribed (.error .deadlineExceeded), .completed (.ok ()), .done,
        .received (.event ⟨"door", 1, "opened"⟩), .done, .completed (.ok ()), .counted 1,
        .completed (.error .cancelled), .completed (.ok ()), .counted 0,
        .drained [⟨"door", 3, "opened"⟩], .received .closed, .subscribed (.ok ⟨⟨3⟩, "door", 2⟩),
        .completed (.ok ()), .received .closed, .subscribed (.error .closed),
        .completed (.ok ())] :=
  (backends_interchangeable false 0 ⟨"updates", "relay", "one", 1⟩ (by decide) _).2 rfl

end Node

end UpdateRelay
