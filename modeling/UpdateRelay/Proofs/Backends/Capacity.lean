import UpdateRelay.Broker.Any
import UpdateRelay.Proofs.Backends.Projection
import UpdateRelay.Proofs.Broker.Sweeping
import UpdateRelay.Proofs.Cluster.Operations
import UpdateRelay.Proofs.Cluster.Granting
import UpdateRelay.Proofs.Delivery.Direct
import UpdateRelay.Proofs.Settings.Fields

/-!
# From a set capacity to mailboxes

The capacity that settings hold goes through their check, through the making of a broker and through
all that happens to it, to the making of a mailbox, where it has to be neither too small nor too
large. `capacity_reaches_mailboxes` says what becomes of it: it arrives as it was set and is never
too small, but nothing on the way sees to it that it is not too large.
-/

namespace UpdateRelay

/-! ## Settings -/

theorem BrokerSettings.capacity_of_accept {settings : BrokerSettings}
    (accepted : settings.accept = .ok ()) : 1 ≤ settings.capacity := by
  rw [accept_eq_ok_iff, problem?] at accepted
  split at accepted
  next => contradiction
  next some => exact Nat.pos_of_ne_zero some

namespace Mailbox

variable {capacity : Nat}

theorem effectiveCapacity_of_pos (some : 1 ≤ capacity) : effectiveCapacity capacity = capacity :=
  Nat.max_eq_left some

theorem canHold_of_le (some : 1 ≤ capacity) (fits : capacity ≤ maxCapacity) :
    canHold capacity = true := by
  rw [canHold, effectiveCapacity_of_pos some]
  exact decide_eq_true fits

theorem canHold_of_lt (large : maxCapacity < capacity) : canHold capacity = false :=
  decide_eq_false fun fits =>
    Nat.lt_irrefl _ (Nat.lt_of_lt_of_le large (Nat.le_trans (Nat.le_max_left _ _) fits))

end Mailbox

/-! ## In-process brokers -/

/-- What subscribing at an in-process broker comes to whose mailboxes are to hold some number of
events: this is the number that is asked for and that the mailboxes hold; a mailbox that can be made
is, and one that is too large keeps anybody from subscribing. -/
structure DirectBroker.Equips (broker : DirectBroker) (capacity : Nat) : Prop where
  asked : Mailbox.effectiveCapacity broker.capacity = capacity
  sized : ∀ {place box}, broker.room.get? place = some box → box.capacity = capacity
  grants : capacity ≤ Mailbox.maxCapacity → ∀ (scope : Scope) (now : Nat) (resource : String),
    scope.stop? now = none → broker.closed = false →
      ∃ after sub, broker.subscribe scope now resource = (after, .ok sub) ∧
        after.room.get? sub.place = some (.fresh capacity)
  refuses : Mailbox.maxCapacity < capacity → ∀ (scope : Scope) (now : Nat) (resource : String),
    scope.stop? now = none →
      (broker.subscribe scope now resource).2 = .error (.mailboxTooLarge capacity)

theorem DirectBroker.equips {broker : DirectBroker} {capacity : Nat} (some : 1 ≤ capacity)
    (same : broker.capacity = capacity) (seated : broker.Seated) : broker.Equips capacity := by
  obtain rfl := same
  constructor
  case asked => exact Mailbox.effectiveCapacity_of_pos some
  case sized => exact seated.sized
  case grants =>
    intro fits scope now resource live isOpen
    simp only [subscribe, Scope.check, live, Mailbox.canHold_of_le some fits, isOpen]
    refine ⟨_, _, rfl, ?_⟩
    simp [register, Mailroom.get?_add]
  case refuses =>
    intro large scope now resource live
    simp [subscribe, Scope.check, live, Mailbox.canHold_of_lt large]

namespace SharedBroker

theorem capacity_perform (shared : SharedBroker) (action : Action) :
    (shared.perform action).broker.capacity = shared.broker.capacity := by
  cases action with
  | serve now request => exact shared.broker.capacity_serve now request
  | beginPublish scope now resource event =>
    simp only [perform]
    split
    next => rfl
    next => split <;> rfl
  | finishPublish ticket =>
    simp only [perform]
    split
    next => rfl
    next sweep _ => exact (shared.broker.prune_same sweep.resource sweep.gone).2.1

theorem capacity_performAll (shared : SharedBroker) (actions : List Action) :
    (shared.performAll actions).broker.capacity = shared.broker.capacity := by
  induction actions generalizing shared with
  | nil => rfl
  | cons action actions ih => exact (ih _).trans (shared.capacity_perform action)

/-- Whatever happens to an in-process broker, its mailboxes stay as they were set. -/
theorem equips_reached {capacity : Nat} (some : 1 ≤ capacity) (actions : List Action) :
    (reached capacity actions).broker.Equips capacity :=
  DirectBroker.equips some
    ((capacity_performAll _ actions).trans (Mailbox.effectiveCapacity_of_pos some))
    (wellFormed_reached capacity actions).seated

end SharedBroker

/-! ## Durable brokers -/

/-- Whether all mailboxes of a durable broker are as large as its instance has them. -/
def JournaledBroker.Sized (broker : JournaledBroker) : Prop :=
  ∀ {place : Nat} {box : Mailbox}, broker.room.get? place = some box →
    box.capacity = Mailbox.effectiveCapacity broker.identity.capacity

/-- Every effect leaves mailboxes as large as they are, and makes new ones as large as these. -/
theorem Effect.sized {before after : Footprint} {feeds : List (Nat × Feed)} {claims : List Claim}
    (effect : Effect before feeds after) (seated : before.broker.Seated claims)
    (sized : before.broker.Sized) : after.broker.Sized := by
  intro place box found
  rw [effect.identity]
  cases was : before.broker.room.get? place with
  | some earlier =>
    obtain ⟨later, isLater, same⟩ := effect.mail seated was
    obtain rfl := Option.some.inj (isLater.symm.trans found)
    rw [same.capacity, Feed.capacity_changeAll]
    exact sized was
  | none =>
    rw [effect.newMail (List.getElem?_eq_none_iff.1 was) found]
    rfl

/-- Whether an answer is that a mailbox is too large to be made. -/
def Reply.isTooLarge : Reply → Bool
  | subscribed (.error (.mailboxTooLarge _)) => true
  | subscribed _ | completed _ => false

namespace Node

variable {node after : Node} {reply : Reply}

/-- A call in progress does not fail for its mailbox any more. -/
theorem isTooLarge_pollCall? {call : Call}
    (polled : node.pollCall? call = some (after, .replied reply)) : reply.isTooLarge = false := by
  cases call with
  | publish record scope stage =>
    cases callTurn polled with
    | failed => rfl
    | publish _ turn => cases turn <;> rfl
  | close =>
    cases callTurn polled
    rfl
  | subscribe resource id scope stage =>
    simp only [pollCall?, Scope.check] at polled
    cases stopped : scope.stop? node.now with
    | some reason =>
      rw [stopped] at polled
      obtain ⟨-, ⟨⟩⟩ := Prod.mk.inj (Option.some.inj polled)
      cases reason <;> rfl
    | none =>
      simp only [stopped] at polled
      split at polled
      next => contradiction
      next => cases subscribeTurn (Option.some.inj polled) <;> rfl

theorem isTooLarge_beginSubscribe (fits : Mailbox.canHold node.broker.identity.capacity = true)
    {scope : Scope} {resource : String}
    (begun : node.beginSubscribe scope resource = (after, .replied reply)) :
    reply.isTooLarge = false := by
  simp only [beginSubscribe, Scope.check, fits] at begun
  cases stopped : scope.stop? node.now with
  | some reason =>
    rw [stopped] at begun
    obtain ⟨-, ⟨⟩⟩ := Prod.mk.inj begun
    cases reason <;> rfl
  | none =>
    cases closed : node.broker.closed with
    | true =>
      simp only [stopped, closed] at begun
      obtain ⟨-, ⟨⟩⟩ := Prod.mk.inj begun
      rfl
    | false =>
      cases found : node.broker.entries.get? resource with
      | some entry =>
        simp only [stopped, closed, found] at begun
        obtain ⟨-, ⟨⟩⟩ := Prod.mk.inj begun
        rfl
      | none => simp [stopped, closed, found] at begun

end Node

namespace Cluster

variable {cluster : Cluster} {index ticket : Nat}

theorem Step.sized {before after : Cluster} {action : Action} (step : Step before action after)
    (sound : before.Sound) (sized : ∀ broker ∈ before.brokers, broker.Sized) :
    ∀ broker ∈ after.brokers, broker.Sized := by
  intro current member
  cases step with
  | happened isBroker effect _ brokers claimsBefore =>
    rw [brokers] at member
    rcases List.mem_or_eq_of_mem_set member with old | rfl
    · exact sized current old
    · exact effect.sized (sound.footprint isBroker claimsBefore).seated
        (sized _ (List.mem_of_getElem? isBroker))
  | started growth brokers =>
    rw [brokers] at member
    rcases List.mem_append.1 member with old | new
    · exact sized current old
    · obtain rfl := List.mem_singleton.1 new
      exact fun found => by cases found
  | grew growth _ brokers => exact sized current (brokers ▸ member)
  | removed journal brokers => exact sized current (brokers ▸ member)

theorem sized_reached (createsOnDemand : Bool) (actions : List Action) :
    ∀ broker ∈ (reached createsOnDemand actions).brokers, broker.Sized := by
  -- Soundness goes along, since what an effect does to mailboxes is known where all have seats.
  have kept : ∀ {cluster : Cluster}, cluster.Numbered →
      (cluster.Sound ∧ ∀ broker ∈ cluster.brokers, broker.Sized) → ∀ action,
        (cluster.perform action).Sound ∧ ∀ broker ∈ (cluster.perform action).brokers,
          broker.Sized :=
    fun numbered both action => ⟨both.1.perform numbered action,
      (step_perform numbered action).sized both.1 both.2⟩
  exact (@keeps_performAll (fun cluster => cluster.Sound ∧ ∀ broker ∈ cluster.brokers,
    broker.Sized) kept (empty createsOnDemand) (numbered_empty createsOnDemand)
    ⟨sound_empty createsOnDemand, by simp [empty]⟩ actions).2

/-- Whether a call is in progress or has another answer than that its mailbox is too large. -/
def Spared (cluster : Cluster) (ticket : Nat) : Prop :=
  (∃ caller, caller.ticket = ticket ∧ cluster.caller? ticket = some caller ∧
      cluster.reply? ticket = none) ∨
    ∃ reply, cluster.reply? ticket = some reply ∧ reply.isTooLarge = false

theorem Spared.perform (spared : cluster.Spared ticket) (numbered : cluster.Numbered)
    (action : Action) : (cluster.perform action).Spared ticket := by
  rcases spared with ⟨caller, rfl, isCaller, unanswered⟩ | ⟨reply, answered, other⟩
  · -- A call that is in progress is past the place where the size is looked at.
    have old := numbered.old caller ((caller?_eq_some_iff numbered).1 isCaller).1
    cases callStep_perform isCaller unanswered old action with
    | idle still unanswered => exact .inl ⟨caller, rfl, still, unanswered⟩
    | cancelled still unanswered =>
      exact .inl ⟨{ caller with call := caller.call.cancelScope }, rfl, still, unanswered⟩
    | @went _ node _ later isNode polled still unanswered =>
      exact .inl ⟨{ caller with call := later }, rfl, still, unanswered⟩
    | answered _ polled answer => exact .inr ⟨_, answer, Node.isTooLarge_pollCall? polled⟩
  · exact .inr ⟨reply, reply?_perform answered action, other⟩

theorem Spared.performAll (spared : cluster.Spared ticket) (numbered : cluster.Numbered)
    (actions : List Action) : (cluster.performAll actions).Spared ticket :=
  @keeps_performAll (Spared · ticket)
    (fun numbered spared action => spared.perform numbered action) cluster numbered spared actions

/-- A subscribe whose mailbox can be made begins without failing for it. -/
theorem spared_subscribe (numbered : cluster.Numbered) (accounted : cluster.Accounted)
    {node : Node} (isNode : cluster.node? index = some node)
    (fits : Mailbox.canHold node.broker.identity.capacity = true) (scope : Scope)
    (resource : String) :
    (cluster.perform (.subscribe index scope resource)).Spared cluster.nextTicket := by
  let start : Node → Node × Progress := (·.beginSubscribe scope resource)
  have begins := Operation.begins_subscribe node index scope resource
  generalize begun : node.beginSubscribe scope resource = outcome at begins
  have started : start node = outcome := begun
  cases begins with
  | @pending after call steps =>
    have now : node.now = cluster.now := by
      obtain ⟨_, _, rfl⟩ := Option.map_eq_some_iff.1 isNode
      rfl
    obtain ⟨isCaller, unanswered, -⟩ := begun_of_pending numbered accounted isNode started now
    exact .inl ⟨_, rfl, isCaller, unanswered⟩
  | replied =>
    obtain ⟨-, answered, -⟩ := begun_of_replied numbered accounted isNode started
    exact .inr ⟨_, answered, Node.isTooLarge_beginSubscribe fits begun⟩

/-- What subscribing at a durable broker of a cluster comes to whose mailboxes are to hold some
number of events: this is the number that is asked for and that the mailboxes hold; no subscribe
fails for a mailbox that can be made, and one that is too large keeps anybody from subscribing. -/
structure Equips (cluster : Cluster) (index capacity : Nat) : Prop where
  asked : ∃ broker, cluster.brokers[index]? = some broker ∧
    Mailbox.effectiveCapacity broker.identity.capacity = capacity ∧
    ∀ place box, broker.room.get? place = some box → box.capacity = capacity
  spares : capacity ≤ Mailbox.maxCapacity → ∀ (scope : Scope) (resource : String)
    (actions : List Action) (reply : Reply),
      ((cluster.perform (.subscribe index scope resource)).performAll actions).reply?
        cluster.nextTicket = some reply → reply.isTooLarge = false
  refuses : Mailbox.maxCapacity < capacity → ∀ (scope : Scope) (resource : String),
    scope.stop? cluster.now = none →
      (cluster.perform (.subscribe index scope resource)).reply? cluster.nextTicket =
        some (.subscribed (.error (.mailboxTooLarge capacity)))

theorem equips {broker : JournaledBroker} (numbered : cluster.Numbered)
    (accounted : cluster.Accounted) (isBroker : cluster.brokers[index]? = some broker)
    (some : 1 ≤ broker.identity.capacity) (sized : broker.Sized) :
    cluster.Equips index broker.identity.capacity := by
  let node : Node := ⟨cluster.now, cluster.journal, cluster.link, broker⟩
  have isNode : cluster.node? index = .some node := by rw [node?, isBroker, Option.map_some]
  have same := Mailbox.effectiveCapacity_of_pos some
  constructor
  case asked => exact ⟨broker, isBroker, same, fun _ _ found => (sized found).trans same⟩
  case spares =>
    intro fits scope resource actions reply answered
    have holds := Mailbox.canHold_of_le some fits
    have spared := spared_subscribe numbered accounted isNode holds scope resource
    rcases spared.performAll (numbered.perform _) actions with ⟨_, _, _, none⟩ | ⟨_, other, small⟩
    · rw [answered] at none
      contradiction
    · obtain rfl := Option.some.inj (answered.symm.trans other)
      exact small
  case refuses =>
    intro large scope resource live
    have lacks := Mailbox.canHold_of_lt large
    have failed : (node.beginSubscribe scope resource).2 =
        .replied (.subscribed (.error (.mailboxTooLarge broker.identity.capacity))) := by
      simp [node, Node.beginSubscribe, Scope.check, live, lacks, Node.failSubscribe]
    exact (reply?_begin isNode (·.beginSubscribe scope resource) failed
      (accounted.reply?_of_le (Nat.le_refl _))).1

/-- Whatever goes on after a durable broker was made, its mailboxes stay as they were set. -/
theorem equips_reached (createsOnDemand : Bool) (before actions : List Action)
    {broker : JournaledBroker}
    (isBroker : (reached createsOnDemand before).brokers[index]? = some broker)
    (some : 1 ≤ broker.identity.capacity) :
    ((reached createsOnDemand before).performAll actions).Equips index
      broker.identity.capacity := by
  obtain ⟨later, isLater, continues⟩ :=
    continues_performAll (numbered_reached createsOnDemand before) actions isBroker
  rw [← reached_append] at isLater ⊢
  rw [← continues.identity] at some ⊢
  exact equips (numbered_reached _ _) (accounted_reached _ _) isLater some
    (sized_reached _ _ later (List.mem_of_getElem? isLater))

end Cluster

/-! ## From settings to mailboxes -/

/-- What a broker is that settings give: one in the process, or a durable one whose instance has the
settings. -/
theorem AnyBroker.connect_cases {settings : BrokerSettings} {reach : List String → Option Journal}
    {name : String} {made : AnyBroker} (isMade : connect settings reach name = .ok made) :
    made = .inProcess (.ofCapacity settings.capacity) ∨
      ∃ journal, reach settings.nodes = some journal ∧
        made = .durable (.start 0 journal .sound (.ofSettings settings name)) := by
  unfold connect at isMade
  split at isMade
  next => contradiction
  next =>
    split at isMade
    next => exact .inl (Except.ok.inj isMade).symm
    next =>
      split at isMade
      next => contradiction
      next journal reached => exact .inr ⟨journal, reached, (Except.ok.inj isMade).symm⟩

/-- The capacity of settings that pass their check, as those from an environment do, is at least
one, and whatever broker they give asks for mailboxes of just this capacity, whatever went on
before. So no subscribe fails because its mailbox cannot be made, as long as the capacity is not
beyond what a mailbox can hold; but nothing keeps it from being so, and then every subscribe fails.
-/
theorem capacity_reaches_mailboxes {settings : BrokerSettings}
    (accepted : settings.accept = .ok () ∨
      ∃ environment, BrokerSettings.ofEnvironment environment = .ok settings) :
    1 ≤ settings.capacity ∧
      ∀ (reach : List String → Option Journal) (name : String) (made : AnyBroker),
        AnyBroker.connect settings reach name = .ok made →
          (∀ broker, made = .inProcess broker → ∀ actions,
            ((SharedBroker.mk broker ∅ 0 []).performAll actions).broker.Equips
              settings.capacity) ∧
          ∀ node, made = .durable node → ∀ createsOnDemand before index,
            (Cluster.reached createsOnDemand before).brokers[index]? = some node.broker →
              ∀ actions, ((Cluster.reached createsOnDemand before).performAll actions).Equips
                index settings.capacity := by
  have passes : settings.accept = .ok () := by
    rcases accepted with passes | ⟨environment, isRead⟩
    · exact passes
    · exact (BrokerSettings.ofEnvironment_eq_ok_iff.1 isRead).2
  have some := BrokerSettings.capacity_of_accept passes
  refine ⟨some, fun reach name made isMade => ?_⟩
  rcases AnyBroker.connect_cases isMade with rfl | ⟨journal, -, rfl⟩
  · refine ⟨?_, fun _ isDurable => by contradiction⟩
    rintro _ ⟨⟩ actions
    exact SharedBroker.equips_reached some actions
  · refine ⟨fun _ isInProcess => by contradiction, ?_⟩
    rintro _ ⟨⟩ createsOnDemand before index isBroker actions
    exact Cluster.equips_reached createsOnDemand before actions isBroker some

/-- Two events fit into the mailboxes of brokers of both kinds, at which something has gone on. -/
theorem small_capacity_reaches_mailboxes :
    let environment : Environment := fun key =>
      [(BrokerSettings.capacityKey, "2"), (BrokerSettings.kindKey, "kafka")].lookup key
    let durable := { BrokerSettings.durable ["localhost:9092"] with capacity := 2 }
    let inProcess := { BrokerSettings.default with capacity := 2 }
    let node := Node.start 0 (.empty true) .sound (.ofSettings durable "one")
    let start := [Cluster.Action.start (.ofSettings durable "one")]
    BrokerSettings.ofEnvironment environment = .ok durable ∧ inProcess.accept = .ok () ∧
      (Cluster.reached true start).brokers[0]? = some node.broker ∧
      ((Cluster.reached true start).performAll
        [.subscribe 0 .unlimited "door", .stepCall 0]).Equips 0 2 ∧
      ((SharedBroker.mk (.ofCapacity 2) ∅ 0 []).performAll
        [.serve 0 (.subscribe .unlimited "door")]).broker.Equips 2 := by
  intro environment durable inProcess node start
  have isRead : BrokerSettings.ofEnvironment environment = .ok durable := by decide
  have passes : inProcess.accept = .ok () := by decide
  have first := (capacity_reaches_mailboxes (.inr ⟨environment, isRead⟩)).2
    (fun _ => some (.empty true)) "one" (.durable node) rfl
  have second := (capacity_reaches_mailboxes (.inl passes)).2 (fun _ => none) "one"
    (.inProcess (.ofCapacity 2)) rfl
  exact ⟨isRead, passes, rfl, first.2 node rfl true start 0 rfl _, second.1 _ rfl _⟩

/-- A capacity beyond what a mailbox can hold passes the check, and nobody can subscribe at the
broker that it gives. -/
theorem vast_capacity_accepted :
    let environment : Environment := fun key =>
      [("UPDATES_BUFFER_CAPACITY", "2305843009213693952")].lookup key
    let settings := { BrokerSettings.default with capacity := 2305843009213693952 }
    let made := AnyBroker.inProcess (.ofCapacity 2305843009213693952)
    BrokerSettings.ofEnvironment environment = .ok settings ∧ settings.accept = .ok () ∧
      AnyBroker.connect settings (fun _ => none) "one" = .ok made ∧
      Mailbox.maxCapacity < Mailbox.effectiveCapacity settings.capacity ∧
      (made.subscribe .unlimited 0 "door").2 =
        some (.error (.mailboxTooLarge 2305843009213693952)) := by
  intro environment settings made
  have isRead : BrokerSettings.ofEnvironment environment = .ok settings := by decide
  exact ⟨isRead, by decide, rfl, by decide, rfl⟩

end UpdateRelay
