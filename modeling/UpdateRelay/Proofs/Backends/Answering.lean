import UpdateRelay.Proofs.Backends.Termination

/-!
# How calls are answered

`Node.Bound direct reply` says of a call that it will have a reply, whatever goes on, and that the
broker will be `direct` at rest. Calls of a broker at rest go on alone until they are answered, and
a close waits for the loops.
-/

namespace UpdateRelay

theorem Table.eq_empty {κ α : Type} [DecidableEq κ] {table : Table κ α}
    (absent : ∀ key, table.get? key = none) : table = ∅ := by
  refine Table.ext (List.eq_nil_iff_forall_not_mem.2 fun entry member => ?_)
  have found := Table.get?_eq_some_iff.2 member
  rw [absent entry.1] at found
  contradiction

namespace Node

/-- Whether a broker was closed and has come to its end. -/
structure Over (node : Node) : Prop where
  closed : node.broker.closed = true
  loops : node.broker.loops = []
  entries : node.broker.entries = ∅

/-- Whether a broker will be an in-process one at rest. -/
inductive Due (node : Node) (direct : DirectBroker) : Prop
  | lasting (isOpen : direct.closed = false) (ready : node.Ready) (owes : node.Owes direct)
  | ended (isOver : node.Over) (same : node.broker.direct = direct)

/-- Whether a call will have a reply and its broker then be an in-process one. -/
inductive Bound (direct : DirectBroker) (reply : Reply) : Node → Progress → Prop
  | answered {node} (due : node.Due direct) : Bound direct reply node (.replied reply)
  | calling {node call next progress} (rests : node.Rests)
      (polled : node.pollCall? call = some (next, progress))
      (bound : Bound direct reply next progress) : Bound direct reply node (.pending call)
  | closing {node} (isClosed : direct.closed = true) (ready : node.Ready)
      (owes : node.Owes direct) (isReply : reply = .completed (.ok ())) :
      Bound direct reply node (.pending .close)

variable {node after : Node} {direct : DirectBroker} {reply : Reply} {progress : Progress}

theorem Over.rests (isOver : node.Over) : node.Rests := by
  intro loop member
  rw [isOver.loops] at member
  contradiction

theorem Due.step (due : node.Due direct) (stepped : LoopStep node after) : after.Due direct := by
  cases due with
  | lasting isOpen ready owes =>
    obtain ⟨afterReady, afterOwes⟩ := owes.step ready stepped
    exact .lasting isOpen afterReady afterOwes
  | ended isOver =>
    obtain ⟨loop, member, polled⟩ := stepped
    rw [isOver.rests loop member] at polled
    contradiction

theorem Due.steps (due : node.Due direct) (steps : Relation.ReflTransGen LoopStep node after) :
    after.Due direct := by
  induction steps with
  | refl => exact due
  | tail _ stepped ih => exact ih.step stepped

theorem Due.same (due : node.Due direct) (rests : node.Rests) : node.broker.direct = direct := by
  cases due with
  | lasting _ ready owes => exact owes.same ready rests
  | ended _ same => exact same

theorem Due.settles (due : node.Due direct) : ∃ after, node.Settles after := by
  cases due with
  | lasting _ ready => exact ⟨_, settles_settleLoops ready⟩
  | ended isOver => exact ⟨node, .refl, isOver.rests⟩

/-! ## Calls -/

/-- A close ends once no loop is left. -/
theorem over_of_closing (isClosed : direct.closed = true) (ready : node.Ready)
    (owes : node.Owes direct) (ended : node.broker.loops = []) :
    { node with journal := node.journal.close }.Due direct := by
  have closed : node.broker.closed = true := owes.closed.trans isClosed
  have absent := ready.entryLoops.shut closed
  have same : node.broker.direct = direct := by
    refine owes.same ready fun loop member => ?_
    rw [ended] at member
    contradiction
  exact .ended ⟨closed, ended, Table.eq_empty absent⟩ same

theorem Bound.step (bound : Bound direct reply node progress) {later : Progress}
    (goes : Goes (node, progress) (after, later)) : Bound direct reply after later := by
  -- While a call is pending at rest only the call itself can go on; a close waits for the loops.
  cases bound with
  | answered due =>
    cases goes with
    | loop stepped => exact .answered (due.step stepped)
  | calling rests polled bound =>
    cases goes with
    | call again =>
      obtain ⟨rfl, rfl⟩ := Prod.mk.inj (Option.some.inj (polled.symm.trans again))
      exact bound
    | loop stepped =>
      obtain ⟨loop, member, moved⟩ := stepped
      rw [rests loop member] at moved
      contradiction
  | closing isClosed ready owes isReply =>
    cases goes with
    | call polled =>
      simp only [pollCall?] at polled
      split at polled
      next empty =>
        obtain ⟨rfl, rfl⟩ := Prod.mk.inj (Option.some.inj polled)
        rw [isReply]
        exact .answered (over_of_closing isClosed ready owes (List.isEmpty_iff.1 empty))
      next => contradiction
    | loop stepped =>
      obtain ⟨afterReady, afterOwes⟩ := owes.step ready stepped
      exact .closing isClosed afterReady afterOwes isReply

theorem Bound.of_goes (bound : Bound direct reply node progress) {later : Node × Progress}
    (goes : Relation.ReflTransGen Goes (node, progress) later) :
    Bound direct reply later.1 later.2 := by
  induction goes with
  | refl => exact bound
  | tail _ step ih => exact ih.step step

/-- The reply is the one that was bound to come. -/
theorem Bound.of_finishes (bound : Bound direct reply node progress) {heard : Reply}
    (finishes : Finishes (node, progress) heard after) :
    heard = reply ∧ after.Due direct ∧ after.Rests := by
  obtain ⟨goes, rests⟩ := finishes
  cases bound.of_goes goes with
  | answered due => exact ⟨rfl, due, rests⟩

/-- The loops of a broker can settle while a call is as far as it is. -/
theorem Settles.goes (settles : node.Settles after) (progress : Progress) :
    Relation.ReflTransGen Goes (node, progress) (after, progress) :=
  settles.1.lift (·, progress) fun _ _ => Goes.loop

theorem Ready.loops_eq_nil (ready : node.Ready) (closed : node.broker.closed = true)
    (rests : node.Rests) : node.broker.loops = [] := by
  refine List.eq_nil_iff_forall_not_mem.2 fun loop member => ?_
  obtain ⟨live, _, _⟩ := ready.waits member (rests loop member)
  obtain ⟨entry, found, _⟩ := ready.entryLoops.serving loop member live
  rw [ready.entryLoops.shut closed loop.resource] at found
  contradiction

/-- The reply comes. -/
theorem Bound.finishes (bound : Bound direct reply node progress) :
    ∃ after, Finishes (node, progress) reply after := by
  induction bound with
  | answered due =>
    obtain ⟨after, settles⟩ := due.settles
    exact ⟨after, settles.goes _, settles.2⟩
  | calling _ polled _ ih =>
    obtain ⟨after, goes, rests⟩ := ih
    exact ⟨after, .head (.call polled) goes, rests⟩
  | @closing node isClosed ready owes isReply =>
    -- A closed broker serves nobody, so all of its loops end, and then so does the close.
    have settles := settles_settleLoops ready
    obtain ⟨laterReady, laterOwes⟩ := owes.steps ready settles.1
    have ended := laterReady.loops_eq_nil (laterOwes.closed.trans isClosed) settles.2
    have polled : node.settleLoops.pollCall? .close =
        some ({ node.settleLoops with journal := node.settleLoops.journal.close },
          .replied (.completed (.ok ()))) := by
      simp [pollCall?, ended]
    refine ⟨_, (settles.goes _).tail (.call (isReply ▸ polled)), fun loop member => ?_⟩
    have among : loop ∈ node.settleLoops.broker.loops := member
    rw [ended] at among
    contradiction

end Node

end UpdateRelay
