import UpdateRelay.Proofs.Cluster.Calls
import UpdateRelay.Proofs.Cluster.OneReader

/-!
# Schedules are runs

`Cluster.settle`, `Cluster.advance` and `Cluster.call` take steps in an order of their own: calls in
the order in which they were begun, then loops, and time from one instant at which something goes on
of itself to the next. All that they do is a run of actions, so that what holds in every run holds
in the states they lead to.
-/

namespace UpdateRelay.Cluster

variable {cluster next : Cluster}

/-- Whether an action is a step of a call or of a loop. -/
def Action.isStep : Action → Bool
  | .stepCall _ | .stepLoop _ _ => true
  | _ => false

/-- Whether an action is a step, or only lets time pass. -/
def Action.isOwn : Action → Bool
  | .stepCall _ | .stepLoop _ _ | .pass _ => true
  | _ => false

theorem Action.isOwn_of_isStep {action : Action} (isStep : action.isStep = true) :
    action.isOwn = true := by
  cases action with
  | stepCall | stepLoop => rfl
  | _ => contradiction

/-! ## Runs of one kind of action -/

/-- Whether a cluster comes to a state by actions of some kind only. -/
def Leads (kind : Action → Bool) (cluster later : Cluster) : Prop :=
  ∃ actions, (∀ action ∈ actions, kind action = true) ∧ cluster.performAll actions = later

namespace Leads

variable {kind : Action → Bool} {middle later : Cluster}

theorem refl (kind : Action → Bool) (cluster : Cluster) : Leads kind cluster cluster :=
  ⟨[], by simp, rfl⟩

theorem trans (first : Leads kind cluster middle) (last : Leads kind middle later) :
    Leads kind cluster later := by
  obtain ⟨early, isEarly, rfl⟩ := first
  obtain ⟨late, isLate, rfl⟩ := last
  refine ⟨early ++ late, fun action member => ?_, List.foldl_append⟩
  exact (List.mem_append.1 member).elim (isEarly action) (isLate action)

theorem perform {action : Action} (isKind : kind action = true) :
    Leads kind cluster (cluster.perform action) :=
  ⟨[action], by simpa using isKind, rfl⟩

theorem mono {other : Action → Bool} (leads : Leads kind cluster later)
    (implied : ∀ {action}, kind action = true → other action = true) :
    Leads other cluster later := by
  obtain ⟨actions, isKind, performed⟩ := leads
  exact ⟨actions, fun action member => implied (isKind action member), performed⟩

theorem numbered (leads : Leads kind cluster later) (numbered : cluster.Numbered) :
    later.Numbered := by
  obtain ⟨actions, _, rfl⟩ := leads
  exact numbered_performAll numbered actions

theorem sound (leads : Leads kind cluster later) (sound : cluster.Sound)
    (numbered : cluster.Numbered) : later.Sound := by
  obtain ⟨actions, _, rfl⟩ := leads
  exact sound_performAll sound numbered actions

end Leads

/-! ## One step -/

theorem perform_of_pollCaller? (numbered : cluster.Numbered) {caller : Caller}
    (member : caller ∈ cluster.calls) (polled : cluster.pollCaller? caller = some next) :
    cluster.perform (.stepCall caller.ticket) = next := by
  have found : cluster.caller? caller.ticket = some caller :=
    (caller?_eq_some_iff numbered).2 ⟨member, rfl⟩
  unfold caller? at found
  simp only [perform, stepCall, found, polled, Option.getD_some]

theorem loop?_of_mem {broker : JournaledBroker} (entryLoops : broker.EntryLoops)
    {loop : ConsumptionLoop} (member : loop ∈ broker.loops) :
    broker.loop? loop.generation = some loop := by
  cases found : broker.loop? loop.generation with
  | none =>
    have missed := List.find?_eq_none.1 found loop member
    simp at missed
  | some other =>
    have same : other.generation = loop.generation := by simpa using List.find?_some found
    rw [entryLoops.loop_unique (mem_of_loop? found) member same]

theorem perform_of_pollBroker? (sound : cluster.Sound) {index : Nat}
    (polled : cluster.pollBroker? index = some next) :
    ∃ generation, cluster.perform (.stepLoop index generation) = next := by
  unfold pollBroker? at polled
  cases isNode : cluster.node? index with
  | none =>
    rw [isNode] at polled
    contradiction
  | some node =>
    rw [isNode] at polled
    obtain ⟨after, went, rfl⟩ := Option.map_eq_some_iff.1 polled
    obtain ⟨loop, member, stepped⟩ := List.exists_of_findSome?_eq_some went
    have isLoop := loop?_of_mem (sound.entryLoops (node?_eq_some isNode).1) member
    refine ⟨loop.generation, ?_⟩
    simp only [perform, stepLoop, isNode, isLoop, stepped]

/-- The step that a schedule takes next is an action. -/
theorem perform_of_next? (sound : cluster.Sound) (numbered : cluster.Numbered)
    (isNext : cluster.next? = some next) :
    ∃ action, action.isStep = true ∧ cluster.perform action = next := by
  rcases Option.or_eq_some_iff.1 isNext with called | ⟨_, looped⟩
  · obtain ⟨caller, member, polled⟩ := List.exists_of_findSome?_eq_some called
    exact ⟨.stepCall caller.ticket, rfl, perform_of_pollCaller? numbered member polled⟩
  · obtain ⟨index, _, polled⟩ := List.exists_of_findSome?_eq_some looped
    obtain ⟨generation, performed⟩ := perform_of_pollBroker? sound polled
    exact ⟨.stepLoop index generation, rfl, performed⟩

/-! ## Steps until everything waits -/

theorem now_perform_of_isStep {action : Action} (isStep : action.isStep = true) :
    (cluster.perform action).now = cluster.now := by
  cases action with
  | stepCall ticket =>
    rcases cluster.perform_stepCall ticket with same | ⟨_, _, _, progress, _, _, _, _, noted⟩
    · rw [same]
    · rw [noted]
      cases progress <;> rfl
  | stepLoop index generation =>
    rcases cluster.perform_stepLoop index generation with same | ⟨_, _, _, _, _, _, stepped⟩
    · rw [same]
    · rw [stepped]
      rfl
  | _ => contradiction

/-- Steps take no time. -/
theorem Leads.now_eq {later : Cluster} (leads : Leads Action.isStep cluster later) :
    later.now = cluster.now := by
  obtain ⟨actions, areSteps, rfl⟩ := leads
  induction actions generalizing cluster with
  | nil => rfl
  | cons action actions inductionHypothesis =>
    obtain ⟨isStep, others⟩ := List.forall_mem_cons.1 areSteps
    exact (inductionHypothesis others).trans (now_perform_of_isStep isStep)

theorem leads_run (sound : cluster.Sound) (numbered : cluster.Numbered) (steps : Nat) :
    Leads Action.isStep cluster (run steps cluster) := by
  -- By induction on the steps left; that each is an action needs what runs keep in order.
  induction steps generalizing cluster with
  | zero => exact .refl _ cluster
  | succ steps inductionHypothesis =>
    unfold run
    cases isNext : cluster.next? with
    | none => exact .refl _ cluster
    | some next =>
      obtain ⟨action, isStep, rfl⟩ := perform_of_next? sound numbered isNext
      have first : Leads Action.isStep cluster (cluster.perform action) := .perform isStep
      exact first.trans (inductionHypothesis (first.sound sound numbered) (first.numbered numbered))

theorem leads_settle (sound : cluster.Sound) (numbered : cluster.Numbered) :
    Leads Action.isStep cluster cluster.settle :=
  leads_run sound numbered cluster.budget

/-! ## Time -/

/-- The cluster at a later instant. -/
theorem leads_at {instant : Nat} (ahead : cluster.now ≤ instant) :
    Leads Action.isOwn cluster { cluster with now := instant } := by
  refine ⟨[.pass (instant - cluster.now)], by simp [Action.isOwn], ?_⟩
  simp only [performAll, List.foldl_cons, List.foldl_nil, perform, Nat.add_sub_of_le ahead]

theorem lt_of_nextTimer? {timer : Nat} (isNext : cluster.nextTimer? = some timer) :
    cluster.now < timer := by
  have member := List.min?_mem isNext
  exact of_decide_eq_true (List.mem_filter.1 member).2

/-- What settles at a later instant is left at it. -/
theorem leads_settle_at (sound : cluster.Sound) (numbered : cluster.Numbered) {instant : Nat}
    (ahead : cluster.now ≤ instant) :
    Leads Action.isOwn cluster { cluster with now := instant }.settle ∧
      { cluster with now := instant }.settle.now = instant := by
  have moved := leads_at ahead
  have settled := leads_settle (moved.sound sound numbered) (moved.numbered numbered)
  exact ⟨moved.trans (settled.mono Action.isOwn_of_isStep), settled.now_eq⟩

theorem leads_moveTo (sound : cluster.Sound) (numbered : cluster.Numbered) {instant : Nat}
    (ahead : cluster.now ≤ instant) (timers : Nat) :
    Leads Action.isOwn cluster (moveTo instant timers cluster) ∧
      (moveTo instant timers cluster).now = instant := by
  -- By induction on the timers that may still go off before the instant.
  induction timers generalizing cluster with
  | zero => exact leads_settle_at sound numbered ahead
  | succ timers inductionHypothesis =>
    unfold moveTo
    cases isNext : cluster.nextTimer? with
    | none => exact ⟨leads_at ahead, rfl⟩
    | some timer =>
      dsimp only
      split
      next soon =>
        obtain ⟨first, isNow⟩ :=
          leads_settle_at sound numbered (Nat.le_of_lt (lt_of_nextTimer? isNext))
        obtain ⟨last, isLast⟩ := inductionHypothesis (first.sound sound numbered)
          (first.numbered numbered) (Nat.le_trans (Nat.le_of_eq isNow) soon)
        exact ⟨first.trans last, isLast⟩
      next => exact ⟨leads_at ahead, rfl⟩

theorem leads_advance (sound : cluster.Sound) (numbered : cluster.Numbered) (duration : Nat) :
    Leads Action.isOwn cluster (cluster.advance duration) ∧
      (cluster.advance duration).now = cluster.now + duration := by
  have settled := leads_settle sound numbered
  have ahead : cluster.settle.now ≤ cluster.now + duration :=
    Nat.le_trans (Nat.le_of_eq settled.now_eq) (Nat.le_add_right _ _)
  obtain ⟨moved, isNow⟩ := leads_moveTo (settled.sound sound numbered)
    (settled.numbered numbered) ahead cluster.timerBudget
  exact ⟨(settled.mono Action.isOwn_of_isStep).trans moved, isNow⟩

theorem leads_waitFor (sound : cluster.Sound) (numbered : cluster.Numbered)
    (ticket timers : Nat) : Leads Action.isOwn cluster (waitFor ticket timers cluster) := by
  induction timers generalizing cluster with
  | zero => exact .refl _ cluster
  | succ timers inductionHypothesis =>
    unfold waitFor
    split
    next => exact .refl _ cluster
    next =>
      cases isNext : cluster.nextTimer? with
      | none => exact .refl _ cluster
      | some timer =>
        obtain ⟨first, _⟩ :=
          leads_settle_at sound numbered (Nat.le_of_lt (lt_of_nextTimer? isNext))
        exact first.trans
          (inductionHypothesis (first.sound sound numbered) (first.numbered numbered))

/-! ## Schedules -/

/-- In every run, what a cluster does until all calls and loops wait is a run of steps, what it does
while time goes on is a run of steps and of time, at whose end just this time has passed, and what
it does for a call is a run that begins with the call. -/
theorem schedules_are_runs (createsOnDemand : Bool) (actions : List Action) :
    let cluster := reached createsOnDemand actions
    (∃ steps, (∀ step ∈ steps, Action.isStep step = true) ∧
      cluster.settle = reached createsOnDemand (actions ++ steps)) ∧
    (∀ duration, (cluster.advance duration).now = cluster.now + duration ∧
      ∃ later, (∀ action ∈ later, Action.isOwn action = true) ∧
        cluster.advance duration = reached createsOnDemand (actions ++ later)) ∧
    ∀ index start begun, cluster.perform begun = cluster.begin index start →
      ∃ later, (∀ action ∈ later, Action.isOwn action = true) ∧
        cluster.call index start = reached createsOnDemand (actions ++ begun :: later) := by
  intro cluster
  have sound : cluster.Sound := sound_reached createsOnDemand actions
  have numbered : cluster.Numbered := numbered_reached createsOnDemand actions
  refine ⟨?settles, fun duration => ?advances, fun index start begun isBegun => ?calls⟩
  case settles =>
    obtain ⟨steps, areSteps, settled⟩ := leads_settle sound numbered
    exact ⟨steps, areSteps, (settled.symm.trans (reached_append ..).symm)⟩
  case advances =>
    obtain ⟨⟨later, isOwn, advanced⟩, isNow⟩ := leads_advance sound numbered duration
    exact ⟨isNow, later, isOwn, advanced.symm.trans (reached_append ..).symm⟩
  case calls =>
    have begunSound : (cluster.perform begun).Sound := sound.perform numbered begun
    have begunNumbered : (cluster.perform begun).Numbered := numbered.perform begun
    have settled := leads_settle begunSound begunNumbered
    have waited := leads_waitFor (settled.sound begunSound begunNumbered)
      (settled.numbered begunNumbered) cluster.nextTicket
      (cluster.perform begun).settle.timerBudget
    obtain ⟨later, isOwn, called⟩ := (settled.mono Action.isOwn_of_isStep).trans waited
    refine ⟨later, isOwn, ?_⟩
    rw [call, ← isBegun, ← called, reached_append]
    rfl

end UpdateRelay.Cluster
