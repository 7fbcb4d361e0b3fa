import Mathlib.Algebra.GroupWithZero.Nat
import Mathlib.Algebra.Order.BigOperators.Group.List
import Mathlib.Algebra.Order.Group.Nat
import UpdateRelay.Proofs.Backends.Settling

/-!
# How long loops go on

Every step of a loop brings a lone broker nearer to its rest: `Node.totalStepsLeft` bounds the steps
that are left, so that all orders of steps come to their end, `Node.settleLoops` among them.
-/

namespace UpdateRelay.Node

/-- A number of steps after which a loop without anything to read waits. -/
def phaseStepsLeft : LoopPhase → Nat
  | .waiting => 1
  | .reading | .pausing _ => 2
  | .pruning _ => 3

/-- A number of steps after which a loop waits or has ended. -/
def stepsLeft (node : Node) (loop : ConsumptionLoop) : Nat :=
  if loop.cancelled then 1 else 3 * (node.unread loop).length + phaseStepsLeft loop.phase

/-- A number of steps after which all loops wait or have ended. -/
def totalStepsLeft (node : Node) : Nat :=
  node.broker.loops.foldr (fun loop rest => node.stepsLeft loop + rest) 0

theorem totalStepsLeft_eq (node : Node) : node.totalStepsLeft =
      (node.broker.loops.map node.stepsLeft).sum := by
  rw [totalStepsLeft, List.sum_eq_foldr, List.foldr_map]

theorem phaseStepsLeft_pos (phase : LoopPhase) : 0 < phaseStepsLeft phase := by
  cases phase <;> exact Nat.succ_pos _

theorem stepsLeft_of_live (node : Node) {loop : ConsumptionLoop} (live : loop.cancelled = false) :
    node.stepsLeft loop = 3 * (node.unread loop).length + phaseStepsLeft loop.phase := by
  rw [stepsLeft, live]
  rfl

theorem stepsLeft_pos (node : Node) (loop : ConsumptionLoop) : 0 < node.stepsLeft loop := by
  have positive := phaseStepsLeft_pos loop.phase
  unfold stepsLeft
  split <;> omega

/-! ## Single steps -/

section Step

variable {node after : Node} {loop : ConsumptionLoop} {next : Option ConsumptionLoop}

theorem Replaces.perm (replaces : node.Replaces after loop next)
    (entryLoops : node.broker.EntryLoops) (member : loop ∈ node.broker.loops) :
    after.broker.loops.Perm (next.toList ++
      node.broker.loops.filter fun other => other.generation ≠ loop.generation) := by
  rw [replaces.loops]
  cases next with
  | none => exact List.Perm.refl _
  | some later =>
    have split := (perm_cons_filter entryLoops.loopsDistinct member).map fun other =>
      if other.generation = loop.generation then later else other
    have others : ∀ other ∈ node.broker.loops.filter fun other =>
        other.generation ≠ loop.generation,
        (if other.generation = loop.generation then later else other) = id other := by
      intro other isOther
      exact if_neg (of_decide_eq_true (List.mem_filter.1 isOther).2)
    rw [List.map_cons, if_pos rfl, List.map_congr_left others, List.map_id] at split
    exact split

/-- What becomes of a loop takes fewer steps than the loop did. -/
theorem Transition.stepsLeft_lt (transition : node.Transition loop after next) (ready : node.Ready)
    (member : loop ∈ node.broker.loops) :
    ∀ later ∈ next, after.stepsLeft later < node.stepsLeft loop := by
  intro later isLater
  cases transition with
  | ended => contradiction
  | tidied cancelled phase journal =>
    obtain rfl := Option.some.inj isLater
    have live := ready.live_of_pruning member phase
    rw [node.stepsLeft_of_live live, phase]
    cases cancelled with
    | true =>
      show 1 < _
      simp only [phaseStepsLeft]
      omega
    | false =>
      have same : after.unread { loop with cancelled := false, phase := .reading } =
          node.unread loop := by
        simp only [Node.unread, journal]
      have stepsLeft := @stepsLeft_of_live after
        { loop with cancelled := false, phase := .reading } rfl
      rw [stepsLeft, same]
      exact Nat.lt_succ_self _
  | looked live awake nothing journal =>
    obtain rfl := Option.some.inj isLater
    have stepsLeft := @stepsLeft_of_live after
      { loop with reader := node.journal.look loop.reader, phase := .waiting } live
    rw [node.stepsLeft_of_live live, awake, stepsLeft, unread_look journal]
    exact Nat.lt_succ_self _
  | passed live awake first mute journal =>
    obtain rfl := Option.some.inj isLater
    -- One record less to read makes up for any phase that may follow.
    have left := congrArg List.length (@unread_of_take _ _ _ ready member _ first journal
      { loop with phase := .reading } rfl)
    have positive := phaseStepsLeft_pos loop.phase
    rw [node.stepsLeft_of_live live, @stepsLeft_of_live after { loop with phase := .reading } live,
      left, List.length_cons]
    simp only [phaseStepsLeft]
    omega
  | @handed record event live awake first telling journal =>
    have same : later.reader = loop.reader := by rw [← Option.some.inj isLater]
    have laterLive : later.cancelled = false := by rw [← Option.some.inj isLater]; exact live
    have left := congrArg List.length (unread_of_take ready member first journal same)
    have positive := phaseStepsLeft_pos loop.phase
    have latest : phaseStepsLeft later.phase ≤ 3 := by cases later.phase <;> simp [phaseStepsLeft]
    rw [node.stepsLeft_of_live live, after.stepsLeft_of_live laterLive, left, List.length_cons]
    omega

/-- Every step leaves fewer steps to be taken. -/
theorem totalStepsLeft_lt (ready : node.Ready) (stepped : LoopStep node after) :
    after.Ready ∧ after.totalStepsLeft < node.totalStepsLeft := by
  obtain ⟨loop, member, polled⟩ := stepped
  obtain ⟨next, replaces, transition⟩ := transition_pollLoop? ready member polled
  have afterReady := ready.pollLoop? member polled replaces transition
  refine ⟨afterReady, ?_⟩
  have entryLoops := ready.entryLoops
  have before := ((perm_cons_filter entryLoops.loopsDistinct member).map node.stepsLeft).sum_nat
  have later := ((replaces.perm entryLoops member).map after.stepsLeft).sum_nat
  -- All other loops have as much left to do as before.
  have others : (node.broker.loops.filter fun other =>
        other.generation ≠ loop.generation).map after.stepsLeft =
      (node.broker.loops.filter fun other => other.generation ≠ loop.generation).map
        node.stepsLeft := by
    refine List.map_congr_left fun other isOther => ?_
    obtain ⟨old, different⟩ := List.mem_filter.1 isOther
    cases live : other.cancelled with
    | true => simp [stepsLeft, live]
    | false =>
      rw [node.stepsLeft_of_live live, after.stepsLeft_of_live live,
        transition.unread ready afterReady replaces member old live (of_decide_eq_true different)]
  have less := transition.stepsLeft_lt ready member
  have some := node.stepsLeft_pos loop
  rw [totalStepsLeft_eq, totalStepsLeft_eq, before, later, List.map_append, others, List.map_cons,
    List.sum_append, List.sum_cons]
  cases next with
  | none =>
    simp only [Option.toList_none, List.map_nil, List.sum_nil]
    omega
  | some next =>
    have nextLess := less next rfl
    simp only [Option.toList_some, List.map_cons, List.map_nil, List.sum_cons, List.sum_nil]
    omega

end Step

/-! ## Coming to rest -/

theorem nextLoop?_eq_none_iff (node : Node) : node.nextLoop? = none ↔ node.Rests := by
  rw [nextLoop?, List.findSome?_eq_none_iff]
  rfl

/-- With enough steps the loops come to rest. -/
theorem settles_runLoops {steps : Nat} {node : Node} (ready : node.Ready)
    (enough : node.totalStepsLeft ≤ steps) : node.Settles (runLoops steps node) := by
  induction steps generalizing node with
  | zero =>
    -- Every loop has at least one step left, so without steps there are no loops.
    have idle : node.broker.loops = [] := by
      cases loops : node.broker.loops with
      | nil => rfl
      | cons loop others =>
        have positive := node.stepsLeft_pos loop
        simp only [totalStepsLeft, loops, List.foldr_cons] at enough
        omega
    refine ⟨.refl, fun loop member => ?_⟩
    have among : loop ∈ node.broker.loops := member
    rw [idle] at among
    contradiction
  | succ steps ih =>
    unfold runLoops
    cases next : node.nextLoop? with
    | none => exact ⟨.refl, node.nextLoop?_eq_none_iff.1 next⟩
    | some after =>
      obtain ⟨loop, member, polled⟩ := List.exists_of_findSome?_eq_some next
      have stepped : LoopStep node after := ⟨loop, member, polled⟩
      obtain ⟨afterReady, less⟩ := totalStepsLeft_lt ready stepped
      obtain ⟨steps, rests⟩ := ih afterReady (by omega)
      exact ⟨.head stepped steps, rests⟩

/-! ## The budget for loops -/

theorem records_le_longestTopic (journal : Journal) (name : String) :
    (journal.records name).length ≤ longestTopic journal := by
  unfold Journal.records
  cases found : journal.topics.get? name with
  | none => exact Nat.zero_le _
  | some topic =>
    have among : topic ∈ journal.topics.values :=
      List.mem_map.2 ⟨_, Table.get?_eq_some_iff.1 found, rfl⟩
    have lengths : longestTopic journal =
        (journal.topics.values.map fun topic => topic.records.length).foldl max 0 := by
      rw [longestTopic, List.foldl_map]
    rw [lengths, List.foldl_max]
    have isLength : topic.records.length ∈
        journal.topics.values.map fun topic => topic.records.length :=
      List.mem_map.2 ⟨topic, among, rfl⟩
    exact le_max_of_le_right (List.le_max?_getD_of_mem isLength)

theorem stepsLeft_le (node : Node) (loop : ConsumptionLoop) :
    node.stepsLeft loop ≤ 3 * longestTopic node.journal + 16 := by
  have unread : (node.unread loop).length ≤ longestTopic node.journal := by
    refine Nat.le_trans ?_ (records_le_longestTopic node.journal loop.reader.topic)
    rw [Node.unread, List.length_drop]
    exact Nat.sub_le _ _
  have phase : phaseStepsLeft loop.phase ≤ 3 := by cases loop.phase <;> simp [phaseStepsLeft]
  unfold stepsLeft
  split <;> omega

theorem settles_settleLoops {node : Node} (ready : node.Ready) : node.Settles node.settleLoops := by
  refine settles_runLoops ready ?_
  have bound := List.sum_le_card_nsmul (node.broker.loops.map node.stepsLeft)
    (3 * longestTopic node.journal + 16) fun stepsLeft isStepsLeft => by
      obtain ⟨loop, _, rfl⟩ := List.mem_map.1 isStepsLeft
      exact node.stepsLeft_le loop
  rw [List.length_map, ← totalStepsLeft_eq] at bound
  exact bound

end UpdateRelay.Node
