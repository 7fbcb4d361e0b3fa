import Mathlib.Data.List.Perm.Subperm
import UpdateRelay.Proofs.Cluster.Order

/-!
# Ids are issued once

`Cluster.issued` are the ids that subscribes were given, in answers and in claims of those still in
progress. Where there is only one broker, `issued_nodup` says that no two subscribes of a run are
given the same.
-/

namespace UpdateRelay

/-- The id that an answer gives. -/
def Reply.issued? : Reply → Option SubscriberId
  | .subscribed (.ok subscription) => some subscription.id
  | .subscribed (.error _) | .completed _ => none

/-- The id that a call in progress has been given. -/
def Call.issued? (call : Call) : Option SubscriberId := call.claim?.map (·.id)

/-- The id that a call has been given by the point it has come to. -/
def Progress.issued? : Progress → Option SubscriberId
  | .pending call => call.issued?
  | .replied reply => reply.issued?

/-- The ids that subscribes were given. -/
def Cluster.issued (cluster : Cluster) : List SubscriberId :=
  cluster.replies.filterMap (·.2.issued?) ++ cluster.calls.filterMap (·.call.issued?)

/-! ## Steps of calls -/

namespace Node

variable {node after : Node} {progress : Progress}

theorem issued?_subscribe (resource : String) (id : SubscriberId) (scope : Scope)
    (stage : SubscribeStage) : (Call.subscribe resource id scope stage).issued? = some id := by
  cases stage <;> rfl

/-- A step of a call never gives it another id than the one that it has. -/
theorem issued?_pollCall? {call : Call} (stepped : node.pollCall? call = some (after, progress)) :
    progress.issued? = none ∨ progress.issued? = call.issued? := by
  cases callTurn stepped with
  | failed | abandoned | closed => exact Or.inl rfl
  | publish _ turn => cases turn <;> exact Or.inl rfl
  | subscribe turn =>
    rw [issued?_subscribe]
    cases turn with
    | refused | unmade | shut => exact Or.inl rfl
    | stuck | attached | missing | hung | made | joined | withEntry => exact Or.inr rfl

/-- A subscribe that begins is given the next number or none. -/
theorem issued?_beginSubscribe (node : Node) (scope : Scope) (resource : String) :
    (node.beginSubscribe scope resource).2.issued? = none ∨
      ((node.beginSubscribe scope resource).2.issued? = some ⟨node.broker.nextNumber⟩ ∧
        (node.beginSubscribe scope resource).1.broker.nextNumber =
          node.broker.nextNumber + 1) := by
  simp only [beginSubscribe]
  split
  next => exact Or.inl rfl
  next =>
    split
    next => exact Or.inl rfl
    next =>
      split
      next => exact Or.inl rfl
      next =>
        split
        next => exact Or.inr ⟨rfl, rfl⟩
        next => exact Or.inr ⟨rfl, rfl⟩

theorem issued?_beginPublish (node : Node) (scope : Scope) (resource : String) (event : Event) :
    (node.beginPublish scope resource event).2.issued? = none := by
  unfold beginPublish
  split
  next => rfl
  next => split <;> rfl

theorem issued?_beginClose (node : Node) : node.beginClose.2.issued? = none := by
  unfold beginClose
  split <;> rfl

end Node

/-! ## Steps of clusters -/

namespace Cluster

theorem perm_issued_begin {cluster : Cluster} {index : Nat} {node : Node}
    (isNode : cluster.node? index = some node) (start : Node → Node × Progress) :
    (cluster.begin index start).issued.Perm
      ((start node).2.issued?.toList ++ cluster.issued) := by
  simp only [begin, isNode]
  cases progress : (start node).2 with
  | replied reply =>
    simp only [issued, withNode, List.filterMap_append, List.append_assoc]
    have given : [(cluster.nextTicket, reply)].filterMap (·.2.issued?) =
        reply.issued?.toList := by
      cases issued : reply.issued? <;> simp [issued]
    rw [given]
    exact List.perm_append_comm_assoc _ _ _
  | pending call =>
    simp only [issued, withNode, List.filterMap_append]
    have given : [Caller.mk cluster.nextTicket index call].filterMap (·.call.issued?) =
        call.issued?.toList := by
      cases issued : call.issued? <;> simp [issued]
    rw [given, ← List.append_assoc]
    exact List.perm_append_comm

theorem perm_issued_note {cluster : Cluster} (numbered : cluster.Numbered) {caller : Caller}
    (member : caller ∈ cluster.calls) (progress : Progress) :
    ∃ rest, cluster.issued.Perm (caller.call.issued?.toList ++ rest) ∧
      (cluster.note caller.ticket caller.broker progress).issued.Perm
        (progress.issued?.toList ++ rest) := by
  have cons : ∀ (first : Caller) (callers : List Caller),
      (first :: callers).filterMap (·.call.issued?) =
        first.call.issued?.toList ++ callers.filterMap (·.call.issued?) := by
    intro first callers
    rw [List.filterMap_cons]
    cases first.call.issued? <;> rfl
  have split := perm_cons_filter numbered.distinct member
  refine ⟨cluster.replies.filterMap (·.2.issued?) ++
    (cluster.calls.filter fun other => other.ticket ≠ caller.ticket).filterMap (·.call.issued?),
    ?_, ?_⟩
  · have listed := split.filterMap (·.call.issued?)
    rw [cons] at listed
    exact (listed.append_left _).trans (List.perm_append_comm_assoc _ _ _)
  · cases progress with
    | replied reply =>
      have given : [(caller.ticket, reply)].filterMap (·.2.issued?) = reply.issued?.toList := by
        cases issued : reply.issued? <;> simp [issued]
      simp only [issued, note, List.filterMap_append, given, List.append_assoc]
      exact List.perm_append_comm_assoc _ _ _
    | pending call =>
      have listed := (perm_calls_note numbered member call).filterMap (·.call.issued?)
      rw [cons] at listed
      exact (listed.append_left _).trans (List.perm_append_comm_assoc _ _ _)

theorem issued_stepCall {cluster : Cluster} (numbered : cluster.Numbered) (ticket : Nat) :
    (cluster.perform (.stepCall ticket)).issued.Subperm cluster.issued := by
  rcases cluster.perform_stepCall ticket with idle | ⟨caller, _, next, progress, member, _, _,
    polled, noted⟩
  · rw [idle]
  · rw [noted]
    obtain ⟨rest, before, after⟩ :=
      perm_issued_note (numbered.withNode caller.broker next) member progress
    refine after.subperm.trans (List.Subperm.trans ?_ before.symm.subperm)
    -- The call that moves keeps its id or gives it up.
    rcases Node.issued?_pollCall? polled with none | same
    · rw [none]
      exact (List.sublist_append_right _ _).subperm
    · rw [same]

theorem issued_begin {cluster : Cluster} {index : Nat} {start : Node → Node × Progress}
    (mute : ∀ node, (start node).2.issued? = none) :
    (cluster.begin index start).issued.Subperm cluster.issued := by
  cases isNode : cluster.node? index with
  | none =>
    simp only [begin, isNode]
    exact .refl _
  | some node =>
    have listed := perm_issued_begin isNode start
    rw [mute node] at listed
    exact listed.subperm

/-- Only subscribes that begin give ids. -/
theorem issued_perform {cluster : Cluster} (numbered : cluster.Numbered) {action : Action}
    (other : ∀ index scope resource, action ≠ .subscribe index scope resource) :
    (cluster.perform action).issued.Subperm cluster.issued := by
  cases action with
  | subscribe index scope resource => exact absurd rfl (other index scope resource)
  | publish index scope resource event =>
    exact issued_begin fun node => node.issued?_beginPublish scope resource event
  | close index => exact issued_begin Node.issued?_beginClose
  | stepCall ticket => exact issued_stepCall numbered ticket
  | stepLoop index generation =>
    rcases cluster.perform_stepLoop index generation with idle | ⟨_, _, _, _, _, _, stepped⟩
    · rw [idle]
    · rw [stepped]
      exact .refl _
  | cancelScope ticket =>
    have same : (cluster.perform (.cancelScope ticket)).issued = cluster.issued := by
      simp only [perform, issued, List.filterMap_map]
      congr 1
      refine List.filterMap_congr fun caller _ => ?_
      simp only [Function.comp_apply]
      split
      next => simp only [Call.issued?, claim?_cancelScope]
      next => rfl
    rw [same]
  | _ => exact .refl _

/-! ## One broker -/

/-- No two subscribes were given the same id, and the next number is beyond all ids given. -/
structure IssuedOnce (cluster : Cluster) : Prop where
  vacant : cluster.brokers = [] → cluster.issued = []
  distinct : ∀ {broker : JournaledBroker}, cluster.brokers = [broker] → cluster.issued.Nodup
  old : ∀ {broker : JournaledBroker}, cluster.brokers = [broker] →
    ∀ id ∈ cluster.issued, id.number < broker.nextNumber

theorem nodup_of_subperm {first second : List SubscriberId} (within : first.Subperm second)
    (distinct : second.Nodup) : first.Nodup := by
  obtain ⟨middle, same, sublist⟩ := within
  exact same.nodup_iff.1 (distinct.sublist sublist)

theorem Step.length_le {before after : Cluster} {action : Action}
    (step : Step before action after) : before.brokers.length ≤ after.brokers.length := by
  cases step with
  | happened _ _ _ brokers => simp [brokers]
  | started _ brokers | removed _ brokers => simp [brokers]
  | grew _ _ brokers => simp [brokers]

theorem issuedOnce_empty (createsOnDemand : Bool) : (Cluster.empty createsOnDemand).IssuedOnce where
  vacant := fun _ => rfl
  distinct := by simp [Cluster.empty]
  old := by simp [Cluster.empty]

theorem issued_perform_of_nil {cluster : Cluster} (numbered : cluster.Numbered)
    (nobody : cluster.brokers = []) (none : cluster.issued = []) (action : Action) :
    (cluster.perform action).issued = [] := by
  have kept : ∀ {list : List SubscriberId}, list.Subperm cluster.issued → list = [] := by
    intro list within
    rwa [none, List.subperm_nil] at within
  cases action with
  | subscribe index scope resource =>
    have same : cluster.perform (.subscribe index scope resource) = cluster := by
      simp [perform, begin, node?, nobody]
    rwa [same]
  | _ => exact kept (issued_perform numbered (by simp))

/-- What one action at the only broker gives: no id, or the next number. -/
theorem issued_perform_of_alone {cluster : Cluster} (numbered : cluster.Numbered)
    {before after : JournaledBroker} (wasAlone : cluster.brokers = [before]) {action : Action}
    (alone : (cluster.perform action).brokers = [after]) :
    ((cluster.perform action).issued.Subperm cluster.issued ∧
        before.nextNumber ≤ after.nextNumber) ∨
      ((cluster.perform action).issued.Perm (⟨before.nextNumber⟩ :: cluster.issued) ∧
        before.nextNumber < after.nextNumber) := by
  have later : before.nextNumber ≤ after.nextNumber := by
    have first : cluster.brokers[0]? = some before := by simp [wasAlone]
    obtain ⟨next, isNext, continues⟩ := (step_perform numbered action).continues first
    rw [alone] at isNext
    obtain rfl : after = next := by simpa using isNext
    exact continues.nextNumber
  by_cases begins : ∃ index scope resource, action = .subscribe index scope resource
  · obtain ⟨index, scope, resource, rfl⟩ := begins
    simp only [perform] at alone ⊢
    cases isNode : cluster.node? index with
    | none =>
      have same : cluster.begin index (·.beginSubscribe scope resource) = cluster := by
        simp [begin, isNode]
      rw [same]
      exact Or.inl ⟨.refl _, later⟩
    | some node =>
      obtain ⟨isBroker, _⟩ := node?_eq_some isNode
      obtain ⟨rfl, rfl⟩ : index = 0 ∧ before = node.broker := by
        rw [wasAlone] at isBroker
        cases index with
        | zero => exact ⟨rfl, by simpa using isBroker⟩
        | succ index => simp at isBroker
      have listed := perm_issued_begin isNode (·.beginSubscribe scope resource)
      rcases node.issued?_beginSubscribe scope resource with none | ⟨given, counted⟩
      · rw [none] at listed
        exact Or.inl ⟨listed.subperm, later⟩
      · rw [given] at listed
        refine Or.inr ⟨listed, ?_⟩
        have isAfter : (node.beginSubscribe scope resource).1.broker = after := by
          simp only [begin, isNode] at alone
          split at alone <;> simpa [withNode, wasAlone] using alone
        rw [← isAfter, counted]
        exact Nat.lt_succ_self _
  · exact Or.inl ⟨issued_perform numbered fun index scope resource same =>
      begins ⟨index, scope, resource, same⟩, later⟩

theorem IssuedOnce.perform {cluster : Cluster} (once : cluster.IssuedOnce)
    (numbered : cluster.Numbered) (action : Action) : (cluster.perform action).IssuedOnce := by
  have lengths := (step_perform numbered action).length_le
  have vacant := fun nobody => issued_perform_of_nil numbered nobody (once.vacant nobody) action
  -- The only broker was there before, or there was none and so no id.
  have source : ∀ {after : JournaledBroker}, (cluster.perform action).brokers = [after] →
      (cluster.perform action).issued = [] ∨ ∃ before, cluster.brokers = [before] := by
    intro after alone
    rw [alone] at lengths
    match isBefore : cluster.brokers with
    | [] => exact Or.inl (vacant isBefore)
    | [before] => exact Or.inr ⟨before, rfl⟩
    | _ :: _ :: _ => simp [isBefore] at lengths
  refine ⟨fun nobody => vacant ?_, ?_, ?_⟩
  · rw [nobody] at lengths
    simpa using lengths
  · intro after alone
    rcases source alone with none | ⟨before, wasAlone⟩
    · rw [none]
      exact List.nodup_nil
    · rcases issued_perform_of_alone numbered wasAlone alone with ⟨within, _⟩ | ⟨same, _⟩
      · exact nodup_of_subperm within (once.distinct wasAlone)
      · refine same.nodup_iff.2 (List.nodup_cons.2 ⟨fun member => ?_, once.distinct wasAlone⟩)
        exact Nat.lt_irrefl _ (once.old wasAlone _ member)
  · intro after alone id member
    rcases source alone with none | ⟨before, wasAlone⟩
    · simp [none] at member
    · rcases issued_perform_of_alone numbered wasAlone alone with ⟨within, later⟩ | ⟨same, later⟩
      · exact Nat.lt_of_lt_of_le (once.old wasAlone id (within.subset member)) later
      · rcases List.mem_cons.1 (same.mem_iff.1 member) with rfl | earlier
        · exact later
        · exact Nat.lt_trans (once.old wasAlone id earlier) later

theorem issuedOnce_performAll {cluster : Cluster} (once : cluster.IssuedOnce)
    (numbered : cluster.Numbered) (actions : List Action) :
    (cluster.performAll actions).IssuedOnce :=
  keeps_performAll (fun numbered once action => once.perform numbered action) numbered once actions

end Cluster

end UpdateRelay
