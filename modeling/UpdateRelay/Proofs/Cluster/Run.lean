import Mathlib.Data.List.Perm.Basic
import UpdateRelay.Broker.Journaled.Cluster
import UpdateRelay.Proofs.Cluster.Soundness

/-!
# Runs of clusters

A run is any list of actions: operations that are begun at any broker, single steps of calls and of
loops in any order, whatever subscribers do to their mailboxes, and what goes on at the journal and
at its link. `Cluster.step_perform` says what an action can come to.
-/

namespace UpdateRelay

/-- The call under a scope that was cancelled. -/
def Call.cancelScope : Call → Call
  | .publish record scope stage => .publish record { scope with cancelled := true } stage
  | .subscribe resource id scope stage =>
      .subscribe resource id { scope with cancelled := true } stage
  | .close => .close

namespace Cluster

/-- What can happen to a cluster. -/
inductive Action
  | start (identity : Instance)
  | publish (broker : Nat) (scope : Scope) (resource : String) (event : Event)
  | subscribe (broker : Nat) (scope : Scope) (resource : String)
  | close (broker : Nat)
  | unsubscribe (broker : Nat) (resource : String) (id : SubscriberId)
  | receive (broker place : Nat)
  | drain (broker place : Nat)
  | abandon (broker place : Nat)
  | stepCall (ticket : Nat)
  | stepLoop (broker generation : Nat)
  | cancelScope (ticket : Nat)
  | append (topic : String) (record : JournalRecord)
  | makeTopic (topic : String)
  | removeTopic (topic : String)
  | breakJournal (brokenAppends : Nat) (refusesCreation : Bool)
  | relink (link : Link)
  | pass (duration : Nat)

/-- One step of the loop of a generation, if there is one that need not wait. -/
def stepLoop (cluster : Cluster) (index generation : Nat) : Cluster :=
  match cluster.node? index with
  | none => cluster
  | some node =>
      match node.broker.loop? generation with
      | none => cluster
      | some loop =>
          match node.pollLoop? loop with
          | some after => cluster.withNode index after
          | none => cluster

/-- The next step of a call, if there is one that need not wait. -/
def stepCall (cluster : Cluster) (ticket : Nat) : Cluster :=
  match cluster.calls.find? fun caller => caller.ticket = ticket with
  | some caller => (cluster.pollCaller? caller).getD cluster
  | none => cluster

/-- The cluster after an action; one that is not possible does nothing. -/
def perform (cluster : Cluster) : Action → Cluster
  | .start identity => cluster.start identity
  | .publish index scope resource event =>
      cluster.begin index (·.beginPublish scope resource event)
  | .subscribe index scope resource => cluster.begin index (·.beginSubscribe scope resource)
  | .close index => cluster.begin index (·.beginClose)
  | .unsubscribe index resource id => cluster.modifyBroker index (·.unsubscribe resource id)
  | .receive index place => cluster.modifyBroker index (·.modifyBox place Mailbox.receive)
  | .drain index place => cluster.modifyBroker index (·.modifyBox place Mailbox.drain)
  | .abandon index place => cluster.modifyBroker index (·.modifyBox place Mailbox.abandon)
  | .stepCall ticket => cluster.stepCall ticket
  | .stepLoop index generation => cluster.stepLoop index generation
  | .cancelScope ticket =>
      { cluster with
        calls := cluster.calls.map fun caller =>
          if caller.ticket = ticket then { caller with call := caller.call.cancelScope }
          else caller }
  | .append topic record => { cluster with journal := (cluster.journal.append topic record).1 }
  | .makeTopic topic => { cluster with journal := (cluster.journal.makeTopic topic).1 }
  | .removeTopic topic => { cluster with journal := cluster.journal.removeTopic topic }
  | .breakJournal brokenAppends refusesCreation =>
      { cluster with
        journal :=
          { cluster.journal with
            brokenAppends := brokenAppends, refusesCreation := refusesCreation } }
  | .relink link => { cluster with link := link }
  | .pass duration => { cluster with now := cluster.now + duration }

/-- The cluster after some actions. -/
def performAll (cluster : Cluster) (actions : List Action) : Cluster :=
  actions.foldl perform cluster

/-! ## Claims and readers -/

/-- What the subscribes in progress have claimed, each with the broker it is at. -/
def claims (cluster : Cluster) : List (Nat × Claim) :=
  cluster.calls.filterMap fun caller => caller.call.claim?.map (caller.broker, ·)

/-- The claims at one broker. -/
def claimsAt (claims : List (Nat × Claim)) (index : Nat) : List Claim :=
  claims.filterMap fun entry => if entry.1 = index then some entry.2 else none

/-- The readers that the loops of some brokers and some claims hold. -/
def readersOf (brokers : List JournaledBroker) (claims : List (Nat × Claim)) : List Reader :=
  brokers.flatMap (fun broker => broker.loops.map (·.reader)) ++ claims.filterMap (·.2.reader)

/-! ## Steps -/

/-- What happens to a mailbox, if there is one at the place. -/
def toldAt (cluster : Cluster) (index place : Nat) (feed : Feed) : List (Nat × Nat × Feed) :=
  match cluster.brokers[index]? with
  | some broker => if place < broker.room.nextPlace then [(index, place, feed)] else []
  | none => []

/-- What the mailboxes of which brokers are fed by an action. -/
def told (cluster : Cluster) : Action → List (Nat × Nat × Feed)
  | .receive index place => cluster.toldAt index place .receive
  | .drain index place => cluster.toldAt index place .drain
  | .abandon index place => cluster.toldAt index place .abandon
  | .stepLoop index generation =>
      match cluster.node? index with
      | none => []
      | some node =>
          match node.broker.loop? generation with
          | none => []
          | some loop => (node.pollFeeds loop).map (index, ·)
  | _ => []

/-- What an action comes to: an effect at one broker, one more broker, or something at the
journal. -/
inductive Step (before : Cluster) : Action → Cluster → Prop
  | happened {action after index broker next claim later rest feeds}
      (isBroker : before.brokers[index]? = some broker)
      (effect : Effect ⟨before.journal, broker, claim⟩ feeds ⟨after.journal, next, later⟩)
      (told : before.told action = feeds.map (index, ·))
      (brokers : after.brokers = before.brokers.set index next)
      (claimsBefore : before.claims.Perm (claim.toList.map (index, ·) ++ rest))
      (claimsAfter : after.claims.Perm (later.toList.map (index, ·) ++ rest)) :
      Step before action after
  | started {identity after} (growth : before.journal.Grows after.journal)
      (brokers : after.brokers = before.brokers ++ [.empty identity])
      (claims : after.claims = before.claims) : Step before (.start identity) after
  | grew {action after} (growth : before.journal.Grows after.journal)
      (told : before.told action = []) (brokers : after.brokers = before.brokers)
      (claims : after.claims = before.claims) : Step before action after
  | removed {name after} (journal : after.journal = before.journal.removeTopic name)
      (brokers : after.brokers = before.brokers) (claims : after.claims = before.claims) :
      Step before (.removeTopic name) after

theorem Step.nothing {cluster : Cluster} {action : Action} (told : cluster.told action = []) :
    Step cluster action cluster := .grew (.refl _) told rfl rfl

/-! ## Every action is a step -/

theorem node?_eq_some {cluster : Cluster} {index : Nat} {node : Node}
    (found : cluster.node? index = some node) :
    cluster.brokers[index]? = some node.broker ∧ node.journal = cluster.journal := by
  obtain ⟨broker, isBroker, rfl⟩ := Option.map_eq_some_iff.1 found
  exact ⟨isBroker, rfl⟩

theorem mem_of_loop? {broker : JournaledBroker} {generation : Nat} {loop : ConsumptionLoop}
    (found : broker.loop? generation = some loop) : loop ∈ broker.loops :=
  List.mem_of_find?_eq_some found

theorem modify_eq_set {brokers : List JournaledBroker} {index : Nat} {broker : JournaledBroker}
    (found : brokers[index]? = some broker) (change : JournaledBroker → JournaledBroker) :
    brokers.modify index change = brokers.set index (change broker) := by
  refine List.ext_getElem? fun query => ?_
  rw [List.getElem?_modify, List.getElem?_set]
  by_cases same : index = query
  · subst same
    obtain ⟨inside, rfl⟩ := List.getElem?_eq_some_iff.1 found
    simp [inside]
  · simp [same]

/-- An operation on one broker touches neither the journal nor a call. -/
theorem step_modifyBroker {cluster : Cluster} {action : Action} {index : Nat}
    {broker : JournaledBroker} {change : JournaledBroker → JournaledBroker}
    {feeds : List (Nat × Feed)} (isBroker : cluster.brokers[index]? = some broker)
    (next : JournaledBroker) (changed : change broker = next)
    (effect : Effect ⟨cluster.journal, broker, none⟩ feeds ⟨cluster.journal, next, none⟩)
    (told : cluster.told action = feeds.map (index, ·)) :
    Step cluster action (cluster.modifyBroker index change) := by
  refine .happened isBroker effect told ?_ (.refl _) (.refl _)
  rw [← changed]
  exact modify_eq_set isBroker change

theorem modifyBroker_of_none {cluster : Cluster} {index : Nat}
    (absent : cluster.brokers[index]? = none) (change : JournaledBroker → JournaledBroker) :
    cluster.modifyBroker index change = cluster := by
  unfold modifyBroker
  rw [List.modify_eq_self (List.getElem?_eq_none_iff.1 absent)]

theorem step_modifyBox {cluster : Cluster} {action : Action} {index place : Nat} (feed : Feed)
    (own : feed.event? = none)
    (told : cluster.told action = cluster.toldAt index place feed) :
    Step cluster action (cluster.modifyBroker index (·.modifyBox place feed.change)) := by
  unfold toldAt at told
  cases isBroker : cluster.brokers[index]? with
  | none =>
    rw [modifyBroker_of_none isBroker]
    rw [isBroker] at told
    exact .nothing told
  | some broker =>
    simp only [isBroker] at told
    split at told
    next born =>
      exact step_modifyBroker isBroker (broker.modifyBox place feed.change) rfl
        (.fed feed own born) told
    next unborn =>
      -- There is no mailbox at the place, and nothing to change.
      have same : broker.modifyBox place feed.change = broker := by
        unfold JournaledBroker.modifyBox Mailroom.modify
        rw [List.modify_eq_self (Nat.le_of_not_lt unborn)]
      exact step_modifyBroker isBroker broker same (.grew (.refl _)) told

theorem step_stepLoop (cluster : Cluster) (index generation : Nat) :
    Step cluster (.stepLoop index generation) (cluster.stepLoop index generation) := by
  unfold stepLoop
  cases isNode : cluster.node? index with
  | none => exact .nothing (by simp [told, isNode])
  | some node =>
    dsimp only
    cases found : node.broker.loop? generation with
    | none => exact .nothing (by simp [told, isNode, found])
    | some loop =>
      have offers : cluster.told (.stepLoop index generation) =
          (node.pollFeeds loop).map (index, ·) := by simp [told, isNode, found]
      dsimp only
      cases stepped : node.pollLoop? loop with
      | none =>
        rw [pollFeeds_eq_nil stepped] at offers
        exact .nothing offers
      | some after =>
        obtain ⟨isBroker, journal⟩ := node?_eq_some isNode
        have effect := effect_pollLoop? (mem_of_loop? found) stepped none
        unfold Node.footprint at effect
        rw [journal] at effect
        exact .happened isBroker effect offers rfl (List.Perm.refl _) (List.Perm.refl _)

/-! ### What steps of calls and loops are -/

/-- A step of a call does nothing, or is noted for the call that it is a step of. -/
theorem perform_stepCall (cluster : Cluster) (ticket : Nat) :
    cluster.perform (.stepCall ticket) = cluster ∨
      ∃ caller node next progress, caller ∈ cluster.calls ∧ caller.ticket = ticket ∧
        cluster.node? caller.broker = some node ∧
        node.pollCall? caller.call = some (next, progress) ∧
        cluster.perform (.stepCall ticket) =
          (cluster.withNode caller.broker next).note caller.ticket caller.broker progress := by
  simp only [perform, stepCall]
  cases found : cluster.calls.find? fun caller => caller.ticket = ticket with
  | none => exact Or.inl rfl
  | some caller =>
    dsimp only
    unfold pollCaller?
    cases isNode : cluster.node? caller.broker with
    | none => exact Or.inl rfl
    | some node =>
      dsimp only
      cases polled : node.pollCall? caller.call with
      | none => exact Or.inl rfl
      | some result =>
        refine Or.inr ⟨caller, node, result.1, result.2, List.mem_of_find?_eq_some found, ?_,
          isNode, polled, rfl⟩
        simpa using List.find?_some found

/-- A step of a loop does nothing, or is one of a loop of the broker. -/
theorem perform_stepLoop (cluster : Cluster) (index generation : Nat) :
    cluster.perform (.stepLoop index generation) = cluster ∨ ∃ node loop after,
      cluster.node? index = some node ∧ loop ∈ node.broker.loops ∧
      node.pollLoop? loop = some after ∧
      cluster.perform (.stepLoop index generation) = cluster.withNode index after := by
  simp only [perform, stepLoop]
  cases isNode : cluster.node? index with
  | none => exact Or.inl rfl
  | some node =>
    dsimp only
    cases found : node.broker.loop? generation with
    | none => exact Or.inl rfl
    | some loop =>
      dsimp only
      cases stepped : node.pollLoop? loop with
      | none => exact Or.inl rfl
      | some after => exact Or.inr ⟨node, loop, after, rfl, mem_of_loop? found, stepped, rfl⟩

/-! ### Calls -/

/-- Calls have different numbers, which come before that of the next call. -/
structure Numbered (cluster : Cluster) : Prop where
  distinct : (cluster.calls.map (·.ticket)).Nodup
  old : ∀ caller ∈ cluster.calls, caller.ticket < cluster.nextTicket

theorem Numbered.withNode {cluster : Cluster} (numbered : cluster.Numbered) (index : Nat)
    (node : Node) : (cluster.withNode index node).Numbered :=
  ⟨numbered.distinct, numbered.old⟩

/-- The claim of a call and the broker it is at. -/
def claimOf (caller : Caller) : Option (Nat × Claim) :=
  caller.call.claim?.map (caller.broker, ·)

theorem claims_eq (cluster : Cluster) : cluster.claims = cluster.calls.filterMap claimOf := rfl

theorem filterMap_claimOf_cons (caller : Caller) (callers : List Caller) :
    (caller :: callers).filterMap claimOf =
      caller.call.claim?.toList.map (caller.broker, ·) ++ callers.filterMap claimOf := by
  unfold claimOf
  rw [List.filterMap_cons]
  cases caller.call.claim? <;> rfl

theorem perm_calls_note {cluster : Cluster} (numbered : cluster.Numbered) {caller : Caller}
    (member : caller ∈ cluster.calls) (call : Call) :
    (cluster.note caller.ticket caller.broker (.pending call)).calls.Perm
      (⟨caller.ticket, caller.broker, call⟩ ::
        cluster.calls.filter fun other => other.ticket ≠ caller.ticket) := by
  -- Only one call has the ticket, so noting its progress leaves all others as they are.
  have renamed := (perm_cons_filter numbered.distinct member).map fun other =>
    if other.ticket = caller.ticket then ⟨caller.ticket, caller.broker, call⟩ else other
  have others : ∀ other ∈ cluster.calls.filter fun other => other.ticket ≠ caller.ticket,
      (if other.ticket = caller.ticket then ⟨caller.ticket, caller.broker, call⟩ else other) =
        other := by
    intro other isOther
    exact if_neg (by simpa using (List.mem_filter.1 isOther).2)
  rw [List.map_cons, if_pos rfl, List.map_congr_left others, List.map_id'] at renamed
  exact renamed

theorem perm_claims_note {cluster : Cluster} (numbered : cluster.Numbered) {caller : Caller}
    (member : caller ∈ cluster.calls) (progress : Progress) :
    ∃ rest, cluster.claims.Perm (caller.call.claim?.toList.map (caller.broker, ·) ++ rest) ∧
      (cluster.note caller.ticket caller.broker progress).claims.Perm
        (progress.claim?.toList.map (caller.broker, ·) ++ rest) := by
  have split := perm_cons_filter numbered.distinct member
  refine ⟨(cluster.calls.filter fun other => other.ticket ≠ caller.ticket).filterMap claimOf,
    ?_, ?_⟩
  · rw [← filterMap_claimOf_cons, claims_eq]
    exact split.filterMap claimOf
  · cases progress with
    | replied reply => exact List.Perm.refl _
    | pending call =>
      have claimed := (perm_calls_note numbered member call).filterMap claimOf
      rw [filterMap_claimOf_cons] at claimed
      exact claimed

theorem step_begin {cluster : Cluster} {action : Action} {index : Nat}
    {start : Node → Node × Progress} (told : cluster.told action = [])
    (effect : ∀ node,
      Effect (node.footprint none) [] ((start node).1.footprint (start node).2.claim?)) :
    Step cluster action (cluster.begin index start) := by
  unfold begin
  cases isNode : cluster.node? index with
  | none => exact .nothing told
  | some node =>
    obtain ⟨isBroker, journal⟩ := node?_eq_some isNode
    have happened := effect node
    unfold Node.footprint at happened
    rw [journal] at happened
    have claimless : cluster.claims.Perm
        ((none : Option Claim).toList.map (index, ·) ++ cluster.claims) := .refl _
    dsimp only
    cases progress : (start node).2 with
    | replied reply =>
      rw [progress] at happened
      exact .happened isBroker happened told rfl claimless (.refl _)
    | pending call =>
      rw [progress] at happened
      refine .happened isBroker happened told rfl claimless ?_
      simp only [claims_eq, List.filterMap_append, filterMap_claimOf_cons, List.filterMap_nil,
        List.append_nil]
      exact List.perm_append_comm

theorem step_stepCall {cluster : Cluster} (numbered : cluster.Numbered) (ticket : Nat) :
    Step cluster (.stepCall ticket) (cluster.perform (.stepCall ticket)) := by
  rcases cluster.perform_stepCall ticket with idle | ⟨caller, node, next, progress, member, _,
    isNode, polled, noted⟩
  · rw [idle]
    exact .nothing rfl
  · rw [noted]
    obtain ⟨isBroker, journal⟩ := node?_eq_some isNode
    have effect := effect_pollCall? polled
    unfold Node.footprint at effect
    rw [journal] at effect
    obtain ⟨rest, before, after⟩ :=
      perm_claims_note (numbered.withNode caller.broker next) member progress
    cases progress with
    | replied reply => exact .happened isBroker effect rfl rfl before after
    | pending call => exact .happened isBroker effect rfl rfl before after

theorem claim?_cancelScope (call : Call) : call.cancelScope.claim? = call.claim? := by
  cases call with
  | publish | close => rfl
  | subscribe resource id scope stage => cases stage <;> rfl

theorem claims_cancelScope (cluster : Cluster) (ticket : Nat) :
    (cluster.perform (.cancelScope ticket)).claims = cluster.claims := by
  simp only [perform, claims_eq, List.filterMap_map]
  refine List.filterMap_congr fun caller _ => ?_
  simp only [Function.comp_apply]
  split
  next => simp only [claimOf, claim?_cancelScope]
  next => rfl

theorem grows_start (cluster : Cluster) (identity : Instance) :
    cluster.journal.Grows (cluster.start identity).journal := by
  simp only [start, Node.start]
  split
  next => exact .refl _
  next => exact Journal.grows_makeTopic _ identity.topic

/-- Every action is a step. -/
theorem step_perform {cluster : Cluster} (numbered : cluster.Numbered) (action : Action) :
    Step cluster action (cluster.perform action) := by
  cases action with
  | start identity => exact .started (cluster.grows_start identity) rfl rfl
  | publish index scope resource event =>
    exact step_begin rfl fun node => effect_beginPublish node scope resource event
  | subscribe index scope resource =>
    exact step_begin rfl fun node => effect_beginSubscribe node scope resource
  | close index => exact step_begin rfl effect_beginClose
  | unsubscribe index resource id =>
    simp only [perform]
    cases isBroker : cluster.brokers[index]? with
    | none =>
      rw [modifyBroker_of_none isBroker]
      exact .nothing rfl
    | some broker =>
      exact step_modifyBroker isBroker (broker.unsubscribe resource id) rfl
        (.pruned resource [id]) rfl
  | receive index place => exact step_modifyBox .receive rfl rfl
  | drain index place => exact step_modifyBox .drain rfl rfl
  | abandon index place => exact step_modifyBox .abandon rfl rfl
  | stepCall ticket => exact step_stepCall numbered ticket
  | stepLoop index generation => exact step_stepLoop cluster index generation
  | cancelScope ticket => exact .grew (.refl _) rfl rfl (cluster.claims_cancelScope ticket)
  | append topic record => exact .grew (Journal.grows_append _ topic record) rfl rfl rfl
  | makeTopic topic => exact .grew (Journal.grows_makeTopic _ topic) rfl rfl rfl
  | removeTopic topic => exact .removed rfl rfl rfl
  | breakJournal => exact .grew (.of_same rfl rfl rfl) rfl rfl rfl
  | relink => exact .grew (.refl _) rfl rfl rfl
  | pass => exact .grew (.refl _) rfl rfl rfl

/-! ### Numbers of calls -/

theorem Numbered.of_tickets {cluster after : Cluster} (numbered : cluster.Numbered)
    (tickets : after.calls.map (·.ticket) = cluster.calls.map (·.ticket))
    (nextTicket : after.nextTicket = cluster.nextTicket) : after.Numbered := by
  refine ⟨tickets ▸ numbered.distinct, fun caller member => ?_⟩
  have listed : caller.ticket ∈ cluster.calls.map (·.ticket) :=
    tickets ▸ List.mem_map.2 ⟨caller, member, rfl⟩
  obtain ⟨earlier, isEarlier, same⟩ := List.mem_map.1 listed
  rw [nextTicket, ← same]
  exact numbered.old earlier isEarlier

theorem Numbered.note {cluster : Cluster} (numbered : cluster.Numbered) (ticket index : Nat)
    (progress : Progress) : (cluster.note ticket index progress).Numbered := by
  cases progress with
  | replied reply =>
    refine ⟨numbered.distinct.sublist (List.filter_sublist.map _), fun caller member => ?_⟩
    exact numbered.old caller (List.mem_filter.1 member).1
  | pending call =>
    have tickets : (cluster.note ticket index (.pending call)).calls.map (·.ticket) =
        cluster.calls.map (·.ticket) := by
      simp only [Cluster.note, List.map_map]
      refine List.map_congr_left fun caller _ => ?_
      simp only [Function.comp_apply]
      split
      next same => exact same.symm
      next => rfl
    exact numbered.of_tickets tickets rfl

theorem Numbered.begin {cluster : Cluster} (numbered : cluster.Numbered) (index : Nat)
    (start : Node → Node × Progress) : (cluster.begin index start).Numbered := by
  have later : ∀ caller ∈ cluster.calls, caller.ticket < cluster.nextTicket + 1 :=
    fun caller member => Nat.lt_succ_of_lt (numbered.old caller member)
  unfold Cluster.begin
  split
  next => exact numbered
  next node _ =>
    dsimp only
    split
    next => exact ⟨numbered.distinct, later⟩
    next call _ =>
      refine ⟨?_, ?_⟩
      · simp only [List.map_append, List.map_cons, List.map_nil, List.nodup_append]
        refine ⟨numbered.distinct, List.nodup_singleton _, ?_⟩
        rintro _ old _ new rfl
        obtain ⟨caller, member, same⟩ := List.mem_map.1 old
        rw [List.mem_singleton] at new
        exact Nat.ne_of_lt (numbered.old caller member) (same.trans new)
      · intro caller member
        rcases List.mem_append.1 member with old | new
        · exact later caller old
        · obtain rfl := List.mem_singleton.1 new
          exact Nat.lt_succ_self _

theorem numbered_empty (createsOnDemand : Bool) : (Cluster.empty createsOnDemand).Numbered :=
  ⟨List.nodup_nil, by simp [Cluster.empty]⟩

theorem Numbered.perform {cluster : Cluster} (numbered : cluster.Numbered) (action : Action) :
    (cluster.perform action).Numbered := by
  cases action with
  | publish | subscribe | close => exact numbered.begin _ _
  | stepCall ticket =>
    rcases cluster.perform_stepCall ticket with idle | ⟨caller, _, next, progress, _, _, _, _,
      noted⟩
    · rw [idle]
      exact numbered
    · rw [noted]
      exact (numbered.withNode caller.broker next).note _ _ progress
  | stepLoop index generation =>
    rcases cluster.perform_stepLoop index generation with idle | ⟨_, _, after, _, _, _, stepped⟩
    · rw [idle]
      exact numbered
    · rw [stepped]
      exact numbered.withNode index after
  | cancelScope ticket =>
    have tickets : (cluster.perform (.cancelScope ticket)).calls.map (·.ticket) =
        cluster.calls.map (·.ticket) := by
      simp only [Cluster.perform, List.map_map]
      refine List.map_congr_left fun caller _ => ?_
      simp only [Function.comp_apply]
      split <;> rfl
    exact numbered.of_tickets tickets rfl
  | _ => exact ⟨numbered.distinct, numbered.old⟩

end Cluster

end UpdateRelay
