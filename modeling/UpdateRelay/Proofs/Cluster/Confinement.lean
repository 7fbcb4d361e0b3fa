import UpdateRelay.Proofs.Broker.Confinement
import UpdateRelay.Proofs.Cluster.OneReader
import UpdateRelay.Proofs.Cluster.Reading

/-!
# Loops and their own entries

A loop that finds subscribers gone removes them in a later step, by their ids alone. Meanwhile its
entry may have been forgotten, and its resource may have got another one. `JournaledBroker.Found`
says why the removal cannot reach that other entry: ids are handed out once, so whoever was found
gone has a seat with the entry of the loop's generation or none. Every effect keeps this, and
`Cluster.Marked` says that it is so for all that loops are about to remove.
-/

namespace UpdateRelay

/-! ## Subscribers that were found gone -/

namespace JournaledBroker

/-- An id was found on the roster of an entry of some generation: it has been handed out, no
subscribe in progress has claimed it, and if it has a seat, then with that entry. -/
structure Found (broker : JournaledBroker) (claims : List Claim) (resource : String)
    (generation : Nat) (id : SubscriberId) : Prop where
  old : id.number < broker.nextNumber
  unclaimed : ∀ claim ∈ claims, claim.id ≠ id
  seated : ∀ {query place}, broker.seat? query id = some place →
    query = resource ∧ (broker.entryAt? resource generation).isSome

variable {broker : JournaledBroker} {claims : List Claim} {resource : String} {generation : Nat}
  {id : SubscriberId}

theorem Found.of_perm {others : List Claim} (found : broker.Found claims resource generation id)
    (same : claims.Perm others) : broker.Found others resource generation id where
  old := found.old
  unclaimed := fun claim member => found.unclaimed claim (same.mem_iff.2 member)
  seated := found.seated

/-- Whoever is on the roster of an entry was found there. -/
theorem found_of_seat (seated : broker.Seated claims) {entry : Entry}
    (isEntry : broker.entryAt? resource generation = some entry) {place : Nat}
    (seat : entry.subscribers.place? id = some place) :
    broker.Found claims resource generation id := by
  rw [← seat?_of_get? (entryAt?_eq_some_iff.1 isEntry).1] at seat
  constructor
  case old => exact (seated.seatOld seat).1
  case unclaimed =>
    rintro claim member rfl
    rw [seated.claimUnseated claim member resource] at seat
    contradiction
  case seated =>
    intro query other here
    exact ⟨seated.oneEntry here seat, Option.isSome_iff_exists.2 ⟨entry, isEntry⟩⟩

theorem found_of_gone (seated : broker.Seated claims) {event : Event}
    (gone : id ∈ (broker.offer resource generation event).2) :
    broker.Found claims resource generation id := by
  unfold offer at gone
  cases isEntry : broker.entryAt? resource generation with
  | none => simp [isEntry] at gone
  | some entry =>
    rw [isEntry] at gone
    obtain ⟨place, seat⟩ := Roster.place?_of_gone gone
    exact found_of_seat seated isEntry seat

/-- Those found gone can be removed without touching any other entry. -/
theorem actsWithin_prune_of_found {ids : List SubscriberId} (entryLoops : broker.EntryLoops)
    (found : ∀ id ∈ ids, broker.Found claims resource generation id) :
    broker.ActsWithin (broker.prune resource ids) resource generation :=
  actsWithin_prune entryLoops fun id member _ seat => ((found id member).seated seat).2

end JournaledBroker

namespace Effect

variable {before after : Footprint} {feeds : List (Nat × Feed)} {others : List Claim}

/-- An entry of a resource that has one before and after a step is the same entry. -/
theorem entryAt?_kept (effect : Effect before feeds after) {resource : String}
    {generation : Nat} (was : (before.broker.entryAt? resource generation).isSome)
    {entry : Entry} (is : after.broker.entries.get? resource = some entry) :
    (after.broker.entryAt? resource generation).isSome := by
  obtain ⟨earlier, isEarlier⟩ := Option.isSome_iff_exists.1 was
  obtain ⟨present, rfl⟩ := JournaledBroker.entryAt?_eq_some_iff.1 isEarlier
  rcases effect.entry_source is with ⟨other, isOther, same⟩ | ⟨absent, _⟩
  · obtain rfl := Option.some.inj (present.symm.trans isOther)
    exact Option.isSome_iff_exists.2
      ⟨entry, JournaledBroker.entryAt?_eq_some_iff.2 ⟨is, same.symm⟩⟩
  · rw [present] at absent
    contradiction

/-- Whoever was found with an entry has no seat elsewhere after any step. -/
theorem found (effect : Effect before feeds after) {resource : String} {generation : Nat}
    {id : SubscriberId}
    (found : before.broker.Found (before.claim.toList ++ others) resource generation id) :
    after.broker.Found (after.claim.toList ++ others) resource generation id := by
  have claimed : ∀ {claim : Claim}, before.claim = some claim → claim.id ≠ id := fun isClaim =>
    found.unclaimed _ (by simp [isClaim])
  constructor
  case old => exact Nat.lt_of_lt_of_le found.old effect.counters.1
  case unclaimed =>
    intro claim member same
    rcases List.mem_append.1 member with own | other
    · rcases effect.claim_source (Option.mem_toList.1 own) with new | ⟨earlier, isEarlier, _, kept⟩
      · rw [same] at new
        exact Nat.ne_of_lt found.old new
      · exact claimed isEarlier (kept.trans same)
    · exact found.unclaimed claim (List.mem_append_right _ other) same
  case seated =>
    intro query place seat
    rcases effect.seat_source seat with old | ⟨_, new | ⟨claim, isClaim, _, same⟩⟩
    · obtain ⟨rfl, present⟩ := found.seated old
      obtain ⟨entry, isEntry, _⟩ := JournaledBroker.seat?_eq_some_iff.1 seat
      exact ⟨rfl, effect.entryAt?_kept present isEntry⟩
    · exact absurd new (Nat.ne_of_lt found.old)
    · exact absurd same (claimed isClaim)

end Effect

/-! ## What loops are about to remove -/

namespace JournaledBroker

/-- Whoever a loop is about to remove after a step, the loop was about to remove before it, or was
on the roster of its entry. -/
def MarksOwn (before after : JournaledBroker) : Prop :=
  ∀ loop ∈ after.loops, ∀ gone, loop.phase = .pruning gone → ∀ id ∈ gone,
    (∃ earlier ∈ before.loops, earlier.resource = loop.resource ∧
      earlier.generation = loop.generation ∧ earlier.phase = .pruning gone) ∨
    ∃ entry place, before.entryAt? loop.resource loop.generation = some entry ∧
      entry.subscribers.place? id = some place

/-- The loops after a step are loops from before it, doing the same or not about to remove
anybody. -/
def MarksNobody (before after : JournaledBroker) : Prop :=
  ∀ loop ∈ after.loops,
    (∃ earlier ∈ before.loops, earlier.resource = loop.resource ∧
      earlier.generation = loop.generation ∧ earlier.phase = loop.phase) ∨
    ∀ gone, loop.phase ≠ .pruning gone

theorem MarksNobody.marksOwn {before after : JournaledBroker} (marks : before.MarksNobody after) :
    before.MarksOwn after := by
  intro loop member gone phase id _
  rcases marks loop member with ⟨earlier, isEarlier, resource, generation, same⟩ | idle
  · exact Or.inl ⟨earlier, isEarlier, resource, generation, same.trans phase⟩
  · exact absurd phase (idle gone)

namespace MarksNobody

variable {before middle after : JournaledBroker}

theorem of_loops (same : after.loops = before.loops) : before.MarksNobody after :=
  fun loop member => Or.inl ⟨loop, same ▸ member, rfl, rfl, rfl⟩

theorem trans (first : before.MarksNobody middle) (second : middle.MarksNobody after) :
    before.MarksNobody after := by
  intro loop member
  rcases second loop member with ⟨between, isBetween, resource, generation, phase⟩ | idle
  · rcases first between isBetween with ⟨earlier, isEarlier, sooner⟩ | idle
    · exact Or.inl ⟨earlier, isEarlier, sooner.1.trans resource, sooner.2.1.trans generation,
        sooner.2.2.trans phase⟩
    · exact Or.inr (phase ▸ idle)
  · exact Or.inr idle

/-- A change to one loop that keeps its phase, or leaves it one in which nobody is removed. -/
theorem modifyLoop (broker : JournaledBroker) (generation : Nat)
    {change : ConsumptionLoop → ConsumptionLoop}
    (kept : ∀ loop, ((change loop).resource = loop.resource ∧
      (change loop).generation = loop.generation ∧ (change loop).phase = loop.phase) ∨
      ∀ gone, (change loop).phase ≠ .pruning gone) :
    broker.MarksNobody (broker.modifyLoop generation change) := by
  intro loop member
  obtain ⟨earlier, isEarlier, rfl⟩ := mem_loops_modifyLoop member
  split
  next =>
    rcases kept earlier with ⟨resource, generation, phase⟩ | idle
    · exact Or.inl ⟨earlier, isEarlier, resource.symm, generation.symm, phase.symm⟩
    · exact Or.inr idle
  next => exact Or.inl ⟨earlier, isEarlier, rfl, rfl, rfl⟩

theorem enter (broker : JournaledBroker) (generation : Nat) {phase : LoopPhase}
    (idle : ∀ gone, phase ≠ .pruning gone) :
    broker.MarksNobody (broker.modifyLoop generation fun loop => { loop with phase := phase }) :=
  modifyLoop broker generation fun _ => Or.inr idle

theorem cancelLoop (broker : JournaledBroker) (generation : Nat) :
    broker.MarksNobody (broker.cancelLoop generation) :=
  modifyLoop broker generation fun _ => Or.inl ⟨rfl, rfl, rfl⟩

theorem dropLoop (broker : JournaledBroker) (generation : Nat) :
    broker.MarksNobody (broker.dropLoop generation) :=
  fun loop member => Or.inl ⟨loop, (mem_loops_dropLoop.1 member).1, rfl, rfl, rfl⟩

theorem found (broker : JournaledBroker) (resource : String) (id : SubscriberId)
    (reader : Reader) : broker.MarksNobody (broker.found resource id reader) := by
  intro loop member
  rcases List.mem_append.1 member with old | new
  · exact Or.inl ⟨loop, old, rfl, rfl, rfl⟩
  · rw [List.mem_singleton.1 new]
    exact Or.inr (by simp)

theorem prune (broker : JournaledBroker) (resource : String) (ids : List SubscriberId) :
    broker.MarksNobody (broker.prune resource ids) := by
  rcases broker.loops_prune resource ids with same | ⟨entry, _, _, same⟩
  · exact of_loops same
  · exact (cancelLoop broker entry.generation).trans (of_loops same)

theorem dissolve (broker : JournaledBroker) (resource : String) (generation : Nat) :
    broker.MarksNobody (broker.dissolve resource generation) := by
  unfold JournaledBroker.dissolve
  split
  next => exact of_loops rfl
  next => exact (cancelLoop broker generation).trans (of_loops rfl)

theorem disband (broker : JournaledBroker) : broker.MarksNobody broker.disband := by
  intro loop member
  obtain ⟨earlier, isEarlier, rfl⟩ := List.mem_map.1 member
  exact Or.inl ⟨earlier, isEarlier, rfl, rfl, rfl⟩

end MarksNobody

end JournaledBroker

/-! ## Steps at one broker -/

namespace Node

open JournaledBroker (MarksNobody MarksOwn)

variable {node after : Node} {progress : Progress}

theorem marksNobody_pollCall? {call : Call}
    (stepped : node.pollCall? call = some (after, progress)) :
    node.broker.MarksNobody after.broker := by
  cases callTurn stepped with
  | failed | closed => exact .of_loops rfl
  | publish _ turn => exact .of_loops (by rw [turn.grows.2.1])
  | @abandoned _ _ _ stage => cases stage <;> exact .of_loops rfl
  | @subscribe resource _ _ _ _ _ turn =>
    cases turn with
    | stuck | hung | made | unmade | shut => exact .of_loops rfl
    | @attached _ _ _ _ answered =>
      have same := broker_attach node resource
      rw [answered] at same
      exact .of_loops (congrArg JournaledBroker.loops same)
    | refused _ answered | missing answered =>
      obtain rfl := attach_eq_error answered
      exact .of_loops rfl
    | joined => exact .of_loops rfl
    | withEntry => exact .found _ _ _ _

theorem marksNobody_beginPublish (node : Node) (scope : Scope) (resource : String)
    (event : Event) :
    node.broker.MarksNobody (node.beginPublish scope resource event).1.broker := by
  unfold beginPublish
  split
  next => exact .of_loops rfl
  next => split <;> exact .of_loops rfl

theorem marksNobody_beginSubscribe (node : Node) (scope : Scope) (resource : String) :
    node.broker.MarksNobody (node.beginSubscribe scope resource).1.broker := by
  simp only [beginSubscribe]
  split
  next => exact .of_loops rfl
  next =>
    split
    next => exact .of_loops rfl
    next =>
      split
      next => exact .of_loops rfl
      next => split <;> exact .of_loops rfl

theorem marksNobody_beginClose (node : Node) :
    node.broker.MarksNobody node.beginClose.1.broker := by
  unfold beginClose
  split
  next => exact .of_loops rfl
  next => exact .disband _

/-- What a loop hands on tells it of nobody but its own subscribers. -/
theorem marksOwn_handOn {loop : ConsumptionLoop} (entryLoops : node.broker.EntryLoops)
    (member : loop ∈ node.broker.loops) (record : JournalRecord) :
    node.broker.MarksOwn (node.handOn loop record).broker := by
  cases telling : eventFor? loop.resource record with
  | none =>
    rw [handOn_of_mute _ telling]
    exact (MarksNobody.enter _ _ (by simp)).marksOwn
  | some event =>
    simp only [handOn, telling]
    intro current isCurrent gone phase id isGone
    obtain ⟨earlier, isEarlier, rfl⟩ := JournaledBroker.mem_loops_modifyLoop isCurrent
    have kept : earlier ∈ node.broker.loops := by
      unfold JournaledBroker.offer at isEarlier
      split at isEarlier <;> exact isEarlier
    split at phase
    next same =>
      -- The loop that goes on to remove subscribers is the one that has read the record.
      obtain rfl := entryLoops.loop_unique kept member same
      split at phase
      next => contradiction
      next =>
        obtain rfl := LoopPhase.pruning.inj phase
        rw [if_pos rfl]
        unfold JournaledBroker.offer at isGone
        split at isGone
        next => simp at isGone
        next entry isEntry =>
          obtain ⟨place, seat⟩ := Roster.place?_of_gone isGone
          exact Or.inr ⟨entry, place, isEntry, seat⟩
    next other =>
      rw [if_neg other]
      exact Or.inl ⟨earlier, kept, rfl, rfl, phase⟩

theorem marksOwn_pollLoop? {loop : ConsumptionLoop} (entryLoops : node.broker.EntryLoops)
    (member : loop ∈ node.broker.loops) (stepped : node.pollLoop? loop = some after) :
    node.broker.MarksOwn after.broker := by
  cases loopTurn stepped with
  | tidied => exact ((MarksNobody.prune _ _ _).trans (.enter _ _ (by simp))).marksOwn
  | ended => exact (MarksNobody.dropLoop _ _).marksOwn
  | resumed | failed => exact (MarksNobody.enter _ _ (by simp)).marksOwn
  | read =>
    unfold read
    split
    next record _ =>
      exact @marksOwn_handOn { node with journal := node.journal.take loop.reader } loop entryLoops
        member record
    next => exact (MarksNobody.modifyLoop _ _ fun _ => Or.inr (by simp)).marksOwn
    next => exact ((MarksNobody.dissolve _ _ _).trans (.dropLoop _ _)).marksOwn
    next => exact (MarksNobody.enter _ _ (by simp)).marksOwn

end Node

/-! ## Steps of clusters -/

namespace Cluster

open JournaledBroker (MarksNobody MarksOwn)

/-- Whoever was found with an entry of a broker stays so in one step. -/
theorem Step.found {before after : Cluster} {action : Action} (step : Step before action after)
    {index : Nat} {broker : JournaledBroker} (isBroker : before.brokers[index]? = some broker)
    {resource : String} {generation : Nat} {id : SubscriberId}
    (found : broker.Found (claimsAt before.claims index) resource generation id) :
    ∃ later, after.brokers[index]? = some later ∧
      later.Found (claimsAt after.claims index) resource generation id := by
  have inside := (List.getElem?_eq_some_iff.1 isBroker).1
  cases step with
  | @happened _ _ there current next claim later rest feeds isCurrent effect _ brokers
      claimsBefore claimsAfter =>
    have first := claimsAt_perm claimsBefore index
    have second := claimsAt_perm claimsAfter index
    by_cases here : there = index
    · subst here
      rw [isBroker] at isCurrent
      obtain rfl := Option.some.inj isCurrent
      rw [claimsAt_own] at first second
      refine ⟨next, by rw [brokers, List.getElem?_set_self inside], ?_⟩
      exact (effect.found (found.of_perm first)).of_perm second.symm
    · rw [claimsAt_other _ _ here] at first second
      refine ⟨broker, ?_, found.of_perm (first.trans second.symm)⟩
      rw [brokers, List.getElem?_set_ne here, isBroker]
  | started _ brokers claims =>
    refine ⟨broker, ?_, claims ▸ found⟩
    rw [brokers, List.getElem?_append_left inside, isBroker]
  | grew _ _ brokers claims | removed _ brokers claims =>
    exact ⟨broker, brokers ▸ isBroker, claims ▸ found⟩

/-- Whoever was found with an entry of a broker stays so in a run. -/
theorem found_performAll {cluster : Cluster} (numbered : cluster.Numbered)
    (actions : List Action) {index : Nat} {broker : JournaledBroker}
    (isBroker : cluster.brokers[index]? = some broker) {resource : String} {generation : Nat}
    {id : SubscriberId}
    (found : broker.Found (claimsAt cluster.claims index) resource generation id) :
    ∃ later, (cluster.performAll actions).brokers[index]? = some later ∧
      later.Found (claimsAt (cluster.performAll actions).claims index) resource generation id := by
  induction actions generalizing cluster broker with
  | nil => exact ⟨broker, isBroker, found⟩
  | cons action actions inductionHypothesis =>
    obtain ⟨middle, isMiddle, still⟩ := (step_perform numbered action).found isBroker found
    exact inductionHypothesis (numbered.perform action) isMiddle still

/-! ### Where removals come from -/

variable {cluster : Cluster} {index : Nat}

/-- A broker is new and has no loops, or marks only its own subscribers for removal. -/
def MarksFrom (cluster : Cluster) (index : Nat) (later : JournaledBroker) : Prop :=
  later.loops = [] ∨ ∃ broker, cluster.brokers[index]? = some broker ∧ broker.MarksOwn later

theorem marksFrom_self {broker : JournaledBroker}
    (isBroker : cluster.brokers[index]? = some broker) : cluster.MarksFrom index broker :=
  Or.inr ⟨broker, isBroker, (MarksNobody.of_loops rfl).marksOwn⟩

theorem marksFrom_withNode {there : Nat} {node after : Node} {later : JournaledBroker}
    (isNode : cluster.node? there = some node) (marks : node.broker.MarksOwn after.broker)
    (isLater : (cluster.withNode there after).brokers[index]? = some later) :
    cluster.MarksFrom index later := by
  simp only [withNode, List.getElem?_set] at isLater
  split at isLater
  next same =>
    split at isLater
    next =>
      obtain rfl := Option.some.inj isLater
      exact Or.inr ⟨node.broker, same ▸ (node?_eq_some isNode).1, marks⟩
    next => contradiction
  next => exact marksFrom_self isLater

theorem marksFrom_begin {there : Nat} {start : Node → Node × Progress} {later : JournaledBroker}
    (marks : ∀ node : Node, node.broker.MarksNobody (start node).1.broker)
    (isLater : (cluster.begin there start).brokers[index]? = some later) :
    cluster.MarksFrom index later := by
  unfold begin at isLater
  split at isLater
  next => exact marksFrom_self isLater
  next node isNode =>
    refine marksFrom_withNode isNode (marks node).marksOwn ?_
    dsimp only at isLater
    split at isLater <;> exact isLater

theorem marksFrom_modifyBroker {there : Nat} {change : JournaledBroker → JournaledBroker}
    {later : JournaledBroker}
    (marks : ∀ broker : JournaledBroker, broker.MarksNobody (change broker))
    (isLater : (cluster.modifyBroker there change).brokers[index]? = some later) :
    cluster.MarksFrom index later := by
  simp only [modifyBroker, List.getElem?_modify] at isLater
  split at isLater
  next =>
    obtain ⟨broker, isBroker, rfl⟩ := Option.map_eq_some_iff.1 isLater
    exact Or.inr ⟨broker, isBroker, (marks broker).marksOwn⟩
  next =>
    rw [id_map'] at isLater
    exact marksFrom_self isLater

theorem marksFrom_perform (sound : cluster.Sound) (action : Action) {later : JournaledBroker}
    (isLater : (cluster.perform action).brokers[index]? = some later) :
    cluster.MarksFrom index later := by
  cases action with
  | start identity =>
    simp only [perform, start, List.getElem?_append] at isLater
    split at isLater
    next => exact marksFrom_self isLater
    next =>
      have new := List.mem_singleton.1 (List.mem_of_getElem? isLater)
      exact Or.inl (by rw [new]; rfl)
  | publish there scope resource event =>
    exact marksFrom_begin (fun node => node.marksNobody_beginPublish scope resource event) isLater
  | subscribe there scope resource =>
    exact marksFrom_begin (fun node => node.marksNobody_beginSubscribe scope resource) isLater
  | close there => exact marksFrom_begin Node.marksNobody_beginClose isLater
  | unsubscribe there resource id =>
    exact marksFrom_modifyBroker (fun broker => .prune broker resource [id]) isLater
  | receive | drain | abandon =>
    refine marksFrom_modifyBroker (fun broker => ?_) isLater
    exact .of_loops rfl
  | stepCall ticket =>
    rcases cluster.perform_stepCall ticket with idle | ⟨caller, node, next, progress, _, _,
      isNode, polled, noted⟩
    · rw [idle] at isLater
      exact marksFrom_self isLater
    · rw [noted] at isLater
      refine marksFrom_withNode isNode (Node.marksNobody_pollCall? polled).marksOwn ?_
      cases progress <;> exact isLater
  | stepLoop there generation =>
    rcases cluster.perform_stepLoop there generation with idle | ⟨node, loop, after, isNode,
      member, stepped, performed⟩
    · rw [idle] at isLater
      exact marksFrom_self isLater
    · rw [performed] at isLater
      have entryLoops := sound.entryLoops (node?_eq_some isNode).1
      exact marksFrom_withNode isNode (Node.marksOwn_pollLoop? entryLoops member stepped) isLater
  | cancelScope | append | makeTopic | removeTopic | breakJournal | relink | pass =>
    exact marksFrom_self isLater

/-- Whoever a loop is about to remove was found with its entry. -/
def Marked (cluster : Cluster) : Prop :=
  ∀ (index : Nat) (broker : JournaledBroker), cluster.brokers[index]? = some broker →
    ∀ loop ∈ broker.loops, ∀ gone, loop.phase = .pruning gone → ∀ id ∈ gone,
      broker.Found (claimsAt cluster.claims index) loop.resource loop.generation id

theorem Marked.perform (marked : cluster.Marked) (sound : cluster.Sound)
    (numbered : cluster.Numbered) (action : Action) : (cluster.perform action).Marked := by
  intro index later isLater loop member gone phase id isGone
  rcases marksFrom_perform sound action isLater with new | ⟨broker, isBroker, marks⟩
  · rw [new] at member
    contradiction
  · have found : broker.Found (claimsAt cluster.claims index) loop.resource loop.generation id := by
      rcases marks loop member gone phase id isGone with ⟨earlier, isEarlier, resource,
        generation, was⟩ | ⟨entry, place, isEntry, seat⟩
      · rw [← resource, ← generation]
        exact marked index broker isBroker earlier isEarlier gone was id isGone
      · exact JournaledBroker.found_of_seat (sound.seated isBroker) isEntry seat
    obtain ⟨next, isNext, still⟩ := (step_perform numbered action).found isBroker found
    rwa [Option.some.inj (isLater.symm.trans isNext)]

theorem marked_reached (createsOnDemand : Bool) (actions : List Action) :
    (reached createsOnDemand actions).Marked := by
  have initial : (empty createsOnDemand).Marked := by
    intro index broker isBroker
    simp [empty] at isBroker
  have kept := @keeps_performAll (fun cluster => cluster.Sound ∧ cluster.Marked)
    (fun numbered holds action =>
      ⟨holds.1.perform numbered action, holds.2.perform holds.1 numbered action⟩)
    (empty createsOnDemand) (numbered_empty createsOnDemand)
    ⟨sound_empty createsOnDemand, initial⟩ actions
  exact kept.2

/-! ## Every loop keeps to its entry -/

end Cluster

/-- A step of a loop touches only the entry of its generation. -/
theorem Node.actsWithin_pollLoop? {node after : Node} {loop : ConsumptionLoop}
    {claims : List Claim} (entryLoops : node.broker.EntryLoops)
    (marked : ∀ gone, loop.phase = .pruning gone → ∀ id ∈ gone,
      node.broker.Found claims loop.resource loop.generation id)
    (stepped : node.pollLoop? loop = some after) :
    node.broker.ActsWithin after.broker loop.resource loop.generation := by
  have idle := JournaledBroker.ActsWithin.refl node.broker loop.resource loop.generation
  cases loopTurn stepped with
  | tidied phase =>
    exact (JournaledBroker.actsWithin_prune_of_found entryLoops (marked _ phase)).thenModifyLoop
      fun _ => rfl
  | ended => exact idle.thenDropLoop
  | resumed | failed => exact idle.thenModifyLoop fun _ => rfl
  | read =>
    unfold read
    split
    next record _ =>
      unfold handOn
      split
      next => exact idle.thenModifyLoop fun _ => rfl
      next event _ =>
        have offered := node.broker.actsWithin_offer loop.resource loop.generation event
        exact offered.thenModifyLoop fun _ => rfl
    next => exact idle.thenModifyLoop fun _ => rfl
    next => exact (node.broker.actsWithin_dissolve _ _).thenDropLoop
    next => exact idle.thenModifyLoop fun _ => rfl

namespace Cluster

/-- Whatever the loop of a generation does, and at whatever later state it comes to it, it touches
only the entry of that generation: when it offers an event, when it removes those whom an earlier
offer found gone, and when it forgets the entry at its end. The same is so of each step of each
loop that there is. -/
theorem loops_keep_to_their_entries (createsOnDemand : Bool) (earlier later : List Action)
    {index : Nat} {first last : Node}
    (wasNode : (reached createsOnDemand earlier).node? index = some first)
    (isNode : (reached createsOnDemand (earlier ++ later)).node? index = some last) :
    (∀ resource generation event,
      last.broker.ActsWithin (last.broker.offer resource generation event).1
        resource generation ∧
      last.broker.ActsWithin
        (last.broker.prune resource (first.broker.offer resource generation event).2)
        resource generation ∧
      last.broker.ActsWithin (last.broker.dissolve resource generation) resource generation) ∧
    ∀ loop ∈ last.broker.loops, ∀ after, last.pollLoop? loop = some after →
      last.broker.ActsWithin after.broker loop.resource loop.generation := by
  have wasSound := sound_reached createsOnDemand earlier
  have sound := sound_reached createsOnDemand (earlier ++ later)
  obtain ⟨wasBroker, _⟩ := node?_eq_some wasNode
  obtain ⟨isBroker, _⟩ := node?_eq_some isNode
  refine ⟨fun resource generation event => ⟨last.broker.actsWithin_offer _ _ event, ?_,
    last.broker.actsWithin_dissolve _ _⟩, fun loop member after stepped => ?_⟩
  · have stillFound : ∀ id ∈ (first.broker.offer resource generation event).2,
        last.broker.Found (claimsAt (reached createsOnDemand (earlier ++ later)).claims index)
          resource generation id := by
      intro id gone
      have found := JournaledBroker.found_of_gone (wasSound.seated wasBroker) gone
      obtain ⟨broker, isSame, still⟩ :=
        found_performAll (numbered_reached createsOnDemand earlier) later wasBroker found
      rw [← reached_append] at isSame still
      rwa [Option.some.inj (isBroker.symm.trans isSame)]
    exact JournaledBroker.actsWithin_prune_of_found (sound.entryLoops isBroker) stillFound
  · exact Node.actsWithin_pollLoop? (sound.entryLoops isBroker)
      (marked_reached createsOnDemand _ index _ isBroker loop member) stepped

/-- A subscriber loses its receiving end, and an event is on its way. -/
def lostReceiver : List Action :=
  [.start ⟨"updates", "relay", "one", 4⟩, .subscribe 0 .unlimited "door", .stepCall 0,
    .stepCall 0, .abandon 0 0, .publish 0 .unlimited "door" ⟨"door", 1, "open"⟩, .stepCall 1]

/-- The loop finds the subscriber gone. Before the loop can remove it, it leaves of itself, and
somebody else subscribes. -/
def overtaken : List Action :=
  [.stepLoop 0 1, .unsubscribe 0 "door" ⟨1⟩, .subscribe 0 .unlimited "door", .stepCall 2,
    .stepCall 2]

/-- The loop that was overtaken. -/
def staleLoop : ConsumptionLoop :=
  ⟨"door", 1, ⟨"updates", 1, "relay-project-door-one", 0, false⟩, true, .pruning [⟨1⟩]⟩

/-- The removal finds an entry of another generation and leaves it alone. -/
theorem stale_loop_spares_successor :
    ∃ first last after entry,
      (reached true lostReceiver).node? 0 = some first ∧
        (reached true (lostReceiver ++ overtaken)).node? 0 = some last ∧
        (first.broker.offer "door" 1 ⟨"door", 1, "open"⟩).2 = [⟨1⟩] ∧
        last.broker.entries.get? "door" = some entry ∧ entry.generation = 2 ∧
        last.broker.prune "door" [⟨1⟩] = last.broker ∧
        staleLoop ∈ last.broker.loops ∧ last.pollLoop? staleLoop = some after ∧
        after.broker.entries = last.broker.entries ∧ after.broker.room = last.broker.room := by
  let first := ((reached true lostReceiver).node? 0).get (by decide)
  let last := ((reached true (lostReceiver ++ overtaken)).node? 0).get (by decide)
  have wasNode : (reached true lostReceiver).node? 0 = some first := (Option.some_get _).symm
  have isNode : (reached true (lostReceiver ++ overtaken)).node? 0 = some last :=
    (Option.some_get _).symm
  have member : staleLoop ∈ last.broker.loops := by decide
  have absent : last.broker.entryAt? "door" 1 = none := by decide
  obtain ⟨_, steps⟩ :=
    loops_keep_to_their_entries true lostReceiver overtaken wasNode isNode
  obtain ⟨entries, room⟩ := (steps staleLoop member _ rfl).spares absent
  exact ⟨first, last, _, _, wasNode, isNode, by decide, rfl, rfl, by decide, member, rfl, entries,
    room⟩

end Cluster

end UpdateRelay
