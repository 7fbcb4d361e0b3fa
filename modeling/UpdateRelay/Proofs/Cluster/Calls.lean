import UpdateRelay.Proofs.Cluster.OneReader

/-!
# Calls and their answers

Every call that was begun is either in progress or has got one answer, which it keeps.
`Cluster.callStep_perform` says what an action can do to a call in progress.
-/

namespace UpdateRelay.Cluster

/-- The call of a number, if it is in progress. -/
def caller? (cluster : Cluster) (ticket : Nat) : Option Caller :=
  cluster.calls.find? fun caller => caller.ticket = ticket

/-- Every number that was given to a call is that of a call in progress or of an answer, and of
one of the two only. -/
def Accounted (cluster : Cluster) : Prop :=
  (cluster.replies.map Prod.fst ++ cluster.calls.map (·.ticket)).Perm
    (List.range cluster.nextTicket)

variable {cluster : Cluster} {ticket : Nat} {caller : Caller}

theorem caller?_eq_some_iff (numbered : cluster.Numbered) :
    cluster.caller? ticket = some caller ↔ caller ∈ cluster.calls ∧ caller.ticket = ticket := by
  constructor
  · intro found
    exact ⟨List.mem_of_find?_eq_some found, by simpa using List.find?_some found⟩
  · rintro ⟨member, rfl⟩
    cases found : cluster.caller? caller.ticket with
    | none => simpa using List.find?_eq_none.1 found caller member
    | some other =>
      have same : other.ticket = caller.ticket := by simpa using List.find?_some found
      rw [List.inj_on_of_nodup_map numbered.distinct (List.mem_of_find?_eq_some found) member same]

theorem reply?_eq_none_iff :
    cluster.reply? ticket = none ↔ ticket ∉ cluster.replies.map Prod.fst := by
  rw [reply?, Option.map_eq_none_iff, List.find?_eq_none]
  simp only [List.mem_map, decide_eq_true_eq, not_exists, not_and]

/-! ## All calls are accounted for -/

theorem accounted_empty (createsOnDemand : Bool) : (Cluster.empty createsOnDemand).Accounted :=
  .refl _

namespace Accounted

theorem reply?_of_mem (accounted : cluster.Accounted) (member : caller ∈ cluster.calls) :
    cluster.reply? caller.ticket = none := by
  have distinct := accounted.nodup_iff.2 List.nodup_range
  rw [List.nodup_append] at distinct
  refine reply?_eq_none_iff.2 fun answered => ?_
  exact distinct.2.2 _ answered _ (List.mem_map.2 ⟨caller, member, rfl⟩) rfl

/-- A call in progress has no answer yet. -/
theorem reply?_of_caller? (accounted : cluster.Accounted) (numbered : cluster.Numbered)
    (inProgress : cluster.caller? ticket = some caller) : cluster.reply? ticket = none := by
  obtain ⟨member, rfl⟩ := (caller?_eq_some_iff numbered).1 inProgress
  exact accounted.reply?_of_mem member

theorem reply?_of_le (accounted : cluster.Accounted) (unused : cluster.nextTicket ≤ ticket) :
    cluster.reply? ticket = none := by
  refine reply?_eq_none_iff.2 fun answered => ?_
  have used := accounted.mem_iff.1 (List.mem_append_left _ answered)
  rw [List.mem_range] at used
  omega

theorem of_same {after : Cluster} (accounted : cluster.Accounted)
    (replies : after.replies = cluster.replies)
    (tickets : after.calls.map (·.ticket) = cluster.calls.map (·.ticket))
    (nextTicket : after.nextTicket = cluster.nextTicket) : after.Accounted := by
  rw [Accounted, replies, tickets, nextTicket]
  exact accounted

theorem begin (accounted : cluster.Accounted) (index : Nat) (start : Node → Node × Progress) :
    (cluster.begin index start).Accounted := by
  -- The next number is given out, either to a call in progress or to an answer.
  have grown := accounted.append_right [cluster.nextTicket]
  rw [← List.range_succ] at grown
  unfold Cluster.begin
  cases cluster.node? index with
  | none => exact accounted
  | some node =>
    dsimp only
    cases (start node).2 with
    | replied reply =>
      refine List.Perm.trans ?_ grown
      simp only [withNode, List.map_append, List.map_cons, List.map_nil, List.append_assoc]
      exact List.perm_append_comm.append_left _
    | pending call =>
      refine List.Perm.trans (List.Perm.of_eq ?_) grown
      simp [withNode]

theorem note (accounted : cluster.Accounted) (numbered : cluster.Numbered)
    (member : caller ∈ cluster.calls) (progress : Progress) :
    (cluster.note caller.ticket caller.broker progress).Accounted := by
  cases progress with
  | replied reply =>
    -- The number moves from the calls to the answers.
    refine List.Perm.trans ?_ accounted
    have moved := (perm_cons_filter numbered.distinct member).map (·.ticket)
    simp only [Cluster.note, List.map_append, List.map_cons, List.map_nil, List.append_assoc]
    exact moved.symm.append_left _
  | pending call =>
    refine accounted.of_same rfl ?_ rfl
    simp only [Cluster.note, List.map_map]
    refine List.map_congr_left fun other _ => ?_
    simp only [Function.comp_apply]
    split
    next same => exact same.symm
    next => rfl

theorem perform (accounted : cluster.Accounted) (numbered : cluster.Numbered) (action : Action) :
    (cluster.perform action).Accounted := by
  cases action with
  | publish | subscribe | close => exact accounted.begin _ _
  | stepCall ticket =>
    rcases cluster.perform_stepCall ticket with idle | ⟨caller, _, next, progress, member, _, _, _,
      noted⟩
    · rw [idle]
      exact accounted
    · have same : (cluster.withNode caller.broker next).Accounted := accounted
      rw [noted]
      exact same.note (numbered.withNode caller.broker next) member progress
  | stepLoop index generation =>
    rcases cluster.perform_stepLoop index generation with same | ⟨_, _, _, _, _, _, stepped⟩
    · rw [same]
      exact accounted
    · rw [stepped]
      exact accounted
  | cancelScope ticket =>
    refine accounted.of_same rfl ?_ rfl
    simp only [Cluster.perform, List.map_map]
    refine List.map_congr_left fun caller _ => ?_
    simp only [Function.comp_apply]
    split <;> rfl
  | _ => exact accounted

end Accounted

theorem accounted_performAll (accounted : cluster.Accounted) (numbered : cluster.Numbered)
    (actions : List Action) : (cluster.performAll actions).Accounted :=
  keeps_performAll (fun numbered accounted action => accounted.perform numbered action) numbered
    accounted actions

theorem accounted_reached (createsOnDemand : Bool) (actions : List Action) :
    (reached createsOnDemand actions).Accounted :=
  accounted_performAll (accounted_empty createsOnDemand) (numbered_empty createsOnDemand) actions

/-! ## One call -/

theorem caller?_note_of_ne {other broker : Nat} (differ : ticket ≠ other) (progress : Progress) :
    (cluster.note other broker progress).caller? ticket = cluster.caller? ticket := by
  cases progress with
  | replied reply =>
    simp only [note, caller?, List.find?_filter]
    congr 1
    funext caller
    by_cases same : caller.ticket = ticket <;> simp [same, differ]
  | pending call =>
    have kept : (fun caller : Caller => decide (caller.ticket = ticket)) ∘
        (fun caller => if caller.ticket = other then ⟨other, broker, call⟩ else caller) =
          fun caller => decide (caller.ticket = ticket) := by
      funext caller
      by_cases same : caller.ticket = other <;> simp [same]
    simp only [note, caller?, List.find?_map, kept]
    cases found : cluster.calls.find? fun caller => caller.ticket = ticket with
    | none => rfl
    | some caller =>
      have isTicket : caller.ticket = ticket := by simpa using List.find?_some found
      simp [isTicket, differ]

theorem reply?_note_of_ne {other broker : Nat} (differ : ticket ≠ other) (progress : Progress) :
    (cluster.note other broker progress).reply? ticket = cluster.reply? ticket := by
  cases progress with
  | replied reply => simp [note, reply?, List.find?_append, Ne.symm differ]
  | pending call => rfl

theorem callState_note (cluster : Cluster)
    (isCaller : cluster.caller? caller.ticket = some caller)
    (unanswered : cluster.reply? caller.ticket = none) (broker : Nat) :
    (∀ call, (cluster.note caller.ticket broker (.pending call)).caller? caller.ticket =
        some ⟨caller.ticket, broker, call⟩) ∧
      ∀ reply, (cluster.note caller.ticket broker (.replied reply)).reply? caller.ticket =
        some reply := by
  constructor
  · intro call
    have kept : (fun other : Caller => decide (other.ticket = caller.ticket)) ∘
        (fun other =>
          if other.ticket = caller.ticket then ⟨caller.ticket, broker, call⟩ else other) =
          fun other => decide (other.ticket = caller.ticket) := by
      funext other
      by_cases same : other.ticket = caller.ticket <;> simp [same]
    unfold caller? at isCaller
    simp only [note, caller?, List.find?_map, kept, isCaller, Option.map_some, if_true]
  · intro reply
    unfold reply? at unanswered
    rw [Option.map_eq_none_iff] at unanswered
    simp [note, reply?, List.find?_append, unanswered]

/-- Another call that begins leaves a call where it is. -/
theorem callState_begin (old : ticket < cluster.nextTicket) (index : Nat)
    (start : Node → Node × Progress) :
    (cluster.begin index start).caller? ticket = cluster.caller? ticket ∧
      (cluster.begin index start).reply? ticket = cluster.reply? ticket := by
  have differ : cluster.nextTicket ≠ ticket := Nat.ne_of_gt old
  unfold begin
  cases cluster.node? index with
  | none => exact ⟨rfl, rfl⟩
  | some node =>
    dsimp only
    cases (start node).2 with
    | replied reply => exact ⟨rfl, by simp [reply?, withNode, List.find?_append, differ]⟩
    | pending call => exact ⟨by simp [caller?, withNode, List.find?_append, differ], rfl⟩

theorem caller?_cancelScope (isCaller : cluster.caller? caller.ticket = some caller)
    (ticket : Nat) : (cluster.perform (.cancelScope ticket)).caller? caller.ticket =
      some (if caller.ticket = ticket then { caller with call := caller.call.cancelScope }
        else caller) := by
  have kept : (fun other : Caller => decide (other.ticket = caller.ticket)) ∘
      (fun other => if other.ticket = ticket then { other with call := other.call.cancelScope }
        else other) = fun other => decide (other.ticket = caller.ticket) := by
    funext other
    simp only [Function.comp_apply]
    split <;> rfl
  unfold caller? at isCaller
  simp only [perform, caller?, List.find?_map, kept, isCaller, Option.map_some]

/-- What was begun and has its answer at once. -/
theorem reply?_begin {index : Nat} {node : Node} {reply : Reply}
    (isNode : cluster.node? index = some node) (start : Node → Node × Progress)
    (replied : (start node).2 = .replied reply)
    (unused : cluster.reply? cluster.nextTicket = none) :
    (cluster.begin index start).reply? cluster.nextTicket = some reply ∧
      (cluster.begin index start).journal = (start node).1.journal := by
  unfold reply? at unused
  rw [Option.map_eq_none_iff] at unused
  simp [begin, isNode, replied, reply?, withNode, List.find?_append, unused]

theorem nextTicket_begin_le (cluster : Cluster) (index : Nat) (start : Node → Node × Progress) :
    cluster.nextTicket ≤ (cluster.begin index start).nextTicket := by
  unfold begin
  cases cluster.node? index with
  | none => exact Nat.le_refl _
  | some node =>
    dsimp only
    split <;> exact Nat.le_succ _

/-- Numbers of calls are given out in order. -/
theorem nextTicket_perform_le (cluster : Cluster) (action : Action) :
    cluster.nextTicket ≤ (cluster.perform action).nextTicket := by
  cases action with
  | publish | subscribe | close => exact cluster.nextTicket_begin_le _ _
  | stepCall ticket =>
    rcases cluster.perform_stepCall ticket with same | ⟨_, _, _, progress, _, _, _, _, noted⟩
    · exact Nat.le_of_eq (by rw [same])
    · rw [noted]
      cases progress <;> exact Nat.le_refl _
  | stepLoop index generation =>
    rcases cluster.perform_stepLoop index generation with same | ⟨_, _, _, _, _, _, stepped⟩
    · exact Nat.le_of_eq (by rw [same])
    · rw [stepped]
      exact Nat.le_refl _
  | _ => exact Nat.le_refl _

/-! ## Answers -/

theorem replies_perform (cluster : Cluster) (action : Action) :
    ∃ more, (cluster.perform action).replies = cluster.replies ++ more := by
  have begun : ∀ (index : Nat) (start : Node → Node × Progress),
      ∃ more, (cluster.begin index start).replies = cluster.replies ++ more := by
    intro index start
    unfold begin
    cases cluster.node? index with
    | none => exact ⟨[], (List.append_nil _).symm⟩
    | some node =>
      dsimp only
      cases (start node).2 with
      | replied reply => exact ⟨_, rfl⟩
      | pending call => exact ⟨[], (List.append_nil _).symm⟩
  cases action with
  | publish | subscribe | close => exact begun _ _
  | stepCall ticket =>
    rcases cluster.perform_stepCall ticket with same | ⟨caller, _, _, progress, _, _, _, _, noted⟩
    · rw [same]
      exact ⟨[], (List.append_nil _).symm⟩
    · rw [noted]
      cases progress with
      | replied reply => exact ⟨_, rfl⟩
      | pending call => exact ⟨[], (List.append_nil _).symm⟩
  | stepLoop index generation =>
    rcases cluster.perform_stepLoop index generation with same | ⟨_, _, _, _, _, _, stepped⟩
    · rw [same]
      exact ⟨[], (List.append_nil _).symm⟩
    · rw [stepped]
      exact ⟨[], (List.append_nil _).symm⟩
  | _ => exact ⟨[], (List.append_nil _).symm⟩

/-- A call keeps its answer. -/
theorem reply?_perform {reply : Reply} (answered : cluster.reply? ticket = some reply)
    (action : Action) : (cluster.perform action).reply? ticket = some reply := by
  obtain ⟨more, replies⟩ := cluster.replies_perform action
  unfold reply? at answered ⊢
  rw [replies, List.find?_append, Option.map_or, answered]
  rfl

theorem reply?_performAll {reply : Reply} (answered : cluster.reply? ticket = some reply)
    (actions : List Action) : (cluster.performAll actions).reply? ticket = some reply := by
  induction actions generalizing cluster with
  | nil => exact answered
  | cons action actions inductionHypothesis =>
    exact inductionHypothesis (reply?_perform answered action)

/-! ## What becomes of a call -/

/-- What an action can do to a call in progress: nothing, as when the call has to wait; the end of
its scope; or a step, after which the call goes on or has its answer. -/
inductive CallStep (before : Cluster) (caller : Caller) : Action → Cluster → Prop
  | idle {action after} (still : after.caller? caller.ticket = some caller)
      (unanswered : after.reply? caller.ticket = none)
      (waits : action = .stepCall caller.ticket → before.pollCaller? caller = none) :
      CallStep before caller action after
  | cancelled {after}
      (still : after.caller? caller.ticket = some { caller with call := caller.call.cancelScope })
      (unanswered : after.reply? caller.ticket = none) :
      CallStep before caller (.cancelScope caller.ticket) after
  | went {after node next call} (isNode : before.node? caller.broker = some node)
      (polled : node.pollCall? caller.call = some (next, .pending call))
      (still : after.caller? caller.ticket = some { caller with call := call })
      (unanswered : after.reply? caller.ticket = none) :
      CallStep before caller (.stepCall caller.ticket) after
  | answered {after node next reply} (isNode : before.node? caller.broker = some node)
      (polled : node.pollCall? caller.call = some (next, .replied reply))
      (answer : after.reply? caller.ticket = some reply)
      (brokers : after.brokers = before.brokers.set caller.broker next.broker)
      (journal : after.journal = next.journal) :
      CallStep before caller (.stepCall caller.ticket) after

theorem callStep_stepCall (isCaller : cluster.caller? caller.ticket = some caller)
    (unanswered : cluster.reply? caller.ticket = none) :
    CallStep cluster caller (.stepCall caller.ticket) (cluster.stepCall caller.ticket) := by
  have stepped : cluster.stepCall caller.ticket = (cluster.pollCaller? caller).getD cluster := by
    unfold caller? at isCaller
    simp [stepCall, isCaller]
  rw [stepped]
  cases polled : cluster.pollCaller? caller with
  | none => exact .idle isCaller unanswered fun _ => polled
  | some after =>
    unfold pollCaller? at polled
    split at polled
    next => contradiction
    next node isNode =>
      obtain ⟨⟨next, progress⟩, isNext, rfl⟩ := Option.map_eq_some_iff.1 polled
      have noted := (cluster.withNode caller.broker next).callState_note isCaller unanswered
        caller.broker
      cases progress with
      | pending call => exact .went isNode isNext (noted.1 call) unanswered
      | replied reply => exact .answered isNode isNext (noted.2 reply) rfl rfl

theorem callStep_perform (isCaller : cluster.caller? caller.ticket = some caller)
    (unanswered : cluster.reply? caller.ticket = none) (old : caller.ticket < cluster.nextTicket)
    (action : Action) : CallStep cluster caller action (cluster.perform action) := by
  have begun : ∀ (index : Nat) (start : Node → Node × Progress) {action : Action},
      action ≠ .stepCall caller.ticket → CallStep cluster caller action
        (cluster.begin index start) := by
    intro index start action other
    obtain ⟨sameCaller, sameReply⟩ := callState_begin old index start
    exact .idle (sameCaller.trans isCaller) (sameReply.trans unanswered) fun same =>
      absurd same other
  cases action with
  | publish | subscribe | close => exact begun _ _ (by simp)
  | stepCall ticket =>
    by_cases same : ticket = caller.ticket
    · subst same
      exact callStep_stepCall isCaller unanswered
    · have other : caller.ticket ≠ ticket := Ne.symm same
      have apart : Action.stepCall ticket = .stepCall caller.ticket → cluster.pollCaller? caller =
          none := fun equal => absurd (Action.stepCall.inj equal) same
      rcases cluster.perform_stepCall ticket with idle | ⟨stepper, _, _, progress, _, rfl, _, _,
        noted⟩
      · rw [idle]
        exact .idle isCaller unanswered apart
      · rw [noted]
        refine .idle ?_ ?_ apart
        · exact (caller?_note_of_ne other progress).trans isCaller
        · exact (reply?_note_of_ne other progress).trans unanswered
  | stepLoop index generation =>
    rcases cluster.perform_stepLoop index generation with same | ⟨_, _, _, _, _, _, stepped⟩
    · rw [same]
      exact .idle isCaller unanswered (by simp)
    · rw [stepped]
      exact .idle isCaller unanswered (by simp)
  | cancelScope ticket =>
    have found := caller?_cancelScope isCaller ticket
    by_cases same : caller.ticket = ticket
    · subst same
      rw [if_pos rfl] at found
      exact .cancelled found unanswered
    · rw [if_neg same] at found
      exact .idle found unanswered (by simp)
  | _ => exact .idle isCaller unanswered (by simp)

end UpdateRelay.Cluster
