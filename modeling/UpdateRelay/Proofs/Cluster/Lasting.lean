import UpdateRelay.Proofs.Cluster.Order
import UpdateRelay.Proofs.Cluster.Reading

/-!
# Runs in which nothing ends

A run lasts if all its brokers share one topic, none of them is closed and no topic is removed.
`Cluster.Lasting` says what such a run keeps: the journal is open, and every reader that somebody
holds has its topic and its group. All else may happen, in any order: requests that fail or hang,
reads that fail, subscribes that race and subscribers that leave.
-/

namespace UpdateRelay

/-- Whether a call is a close. -/
def Call.isClose : Call → Bool
  | .close => true
  | .publish _ _ _ | .subscribe _ _ _ _ => false

/-! ## The journal in one step -/

namespace Effect

variable {before after : Footprint} {feeds : List (Nat × Feed)}

/-- Only the end of a close, at a broker without loops, closes the journal. -/
theorem closed (effect : Effect before feeds after)
    (busy : before.claim.isSome ∨ before.broker.loops ≠ []) :
    after.journal.closed = before.journal.closed := by
  cases effect with
  | grew growth | gaveUp growth => exact growth.closed
  | numbered | wasted | joined | withEntry | disbanded | pruned | fed | tidied | entered
  | waited => rfl
  | attached _ _ growth => exact growth.closed
  | released | joinedLate | ended | retired => exact (Journal.steady_leave _ _).closed
  | shut ended => simp [ended] at busy
  | passed | handed => exact Journal.closed_take _ _

theorem liveTopic? (effect : Effect before feeds after) (isOpen : after.journal.closed = false)
    {name : String} {epoch : Nat} (live : (before.journal.liveTopic? name epoch).isSome) :
    (after.journal.liveTopic? name epoch).isSome := by
  rcases effect.quiet_or_reads isOpen with ⟨steady, _⟩ | ⟨loop, record, reads⟩
  · exact steady.liveTopic? live
  · rw [reads.journal]
    exact Journal.liveTopic?_take reads.seen live

/-- Where readers come from: all but one that was just opened were held before. -/
theorem reader_source (effect : Effect before feeds after) {reader : Reader}
    (member : reader ∈ after.readers) :
    (∃ earlier ∈ before.readers, reader.membership = earlier.membership) ∨
      (after.journal.liveTopic? reader.topic reader.epoch).isSome := by
  rcases List.mem_append.1 member with looping | claimed
  · obtain ⟨loop, isLoop, rfl⟩ := List.mem_map.1 looping
    rcases effect.loop_source isLoop with ⟨earlier, isEarlier, later⟩ | ⟨claim, held, isClaim,
      isHeld, rfl⟩
    · have isReader : earlier.reader ∈ before.broker.loops.map (·.reader) :=
        List.mem_map.2 ⟨earlier, isEarlier, rfl⟩
      exact Or.inl ⟨earlier.reader, List.mem_append_left _ isReader, later.reader⟩
    · refine Or.inl ⟨held, List.mem_append_right _ ?_, rfl⟩
      rw [isClaim]
      simp [isHeld]
  · obtain ⟨claim, isClaim, held⟩ := List.mem_filterMap.1 claimed
    rw [Option.mem_toList] at isClaim
    cases effect with
    | grew | disbanded | shut | pruned | fed | tidied | entered | waited | ended | retired
    | passed | handed =>
      refine Or.inl ⟨reader, List.mem_append_right _ ?_, rfl⟩
      exact List.mem_filterMap.2 ⟨claim, Option.mem_toList.2 isClaim, held⟩
    | gaveUp | wasted | joined | released | joinedLate | withEntry => contradiction
    | numbered =>
      obtain rfl := Option.some.inj isClaim
      contradiction
    | @attached _ ready broker origin topic _ _ _ found =>
      obtain rfl := Option.some.inj isClaim
      obtain rfl := Option.some.inj held
      have joined := ready.get?_modifyTopic broker.identity.topic broker.identity.topic
        (Journal.Topic.join · (broker.identity.group origin.resource))
      rw [if_pos rfl, found] at joined
      exact Or.inr (Option.isSome_iff_exists.2
        ⟨_, Journal.liveTopic?_eq_some_iff.2 ⟨joined, rfl⟩⟩)

end Effect

namespace Cluster

/-- Whether an action may happen in a run that lasts. -/
def Action.lasts (topic : String) : Action → Bool
  | .start identity => identity.topic = topic
  | .close _ | .removeTopic _ => false
  | _ => true

/-! ## No close begins -/

/-- A call does not turn into a close. -/
theorem isClose_pollCall? {node after : Node} {call later : Call}
    (stepped : node.pollCall? call = some (after, .pending later)) : later.isClose = false := by
  cases Node.callTurn stepped with
  | publish _ turn => cases turn <;> rfl
  | subscribe turn => cases turn <;> rfl

/-- A call that is not a close leaves the journal open. -/
theorem closed_pollCall? {node after : Node} {call : Call} {progress : Progress}
    (stepped : node.pollCall? call = some (after, progress)) (other : call.isClose = false) :
    after.journal.closed = node.journal.closed := by
  cases Node.callTurn stepped with
  | closed => contradiction
  | failed => rfl
  | publish _ turn => exact turn.grows.1.closed
  | abandoned | subscribe =>
    exact (effect_pollCall? stepped).closed (Or.inl (Call.isSome_claim?_subscribe _ _ _ _))

/-- A publish or a subscribe begins without a request to the journal. -/
theorem journal_begin {cluster : Cluster} {index : Nat} {start : Node → Node × Progress}
    (kept : ∀ node, (start node).1.journal = node.journal) :
    (cluster.begin index start).journal = cluster.journal := by
  unfold begin
  cases isNode : cluster.node? index with
  | none => rfl
  | some node =>
    dsimp only
    have same := (kept node).trans (node?_eq_some isNode).2
    split <;> exact same

theorem closeless_begin {cluster : Cluster} {index : Nat} {start : Node → Node × Progress}
    (other : ∀ {node : Node} {call : Call}, (start node).2 = .pending call → call.isClose = false)
    (closeless : ∀ caller ∈ cluster.calls, caller.call.isClose = false) :
    ∀ caller ∈ (cluster.begin index start).calls, caller.call.isClose = false := by
  unfold begin
  cases isNode : cluster.node? index with
  | none => exact closeless
  | some node =>
    dsimp only
    cases progress : (start node).2 with
    | replied => exact closeless
    | pending call =>
      intro caller member
      rcases List.mem_append.1 member with old | new
      · exact closeless caller old
      · obtain rfl := List.mem_singleton.1 new
        exact other progress

theorem closeless_note {cluster : Cluster} {ticket index : Nat} {progress : Progress}
    (other : ∀ {call : Call}, progress = .pending call → call.isClose = false)
    (closeless : ∀ caller ∈ cluster.calls, caller.call.isClose = false) :
    ∀ caller ∈ (cluster.note ticket index progress).calls, caller.call.isClose = false := by
  intro caller member
  cases progress with
  | replied reply => exact closeless caller (List.mem_filter.1 member).1
  | pending call =>
    obtain ⟨earlier, isEarlier, rfl⟩ := List.mem_map.1 member
    split
    next => exact other rfl
    next => exact closeless earlier isEarlier

theorem beginPublish_same (node : Node) (scope : Scope) (resource : String) (event : Event) :
    (node.beginPublish scope resource event).1.journal = node.journal ∧
      ∀ {call : Call}, (node.beginPublish scope resource event).2 = .pending call →
        call.isClose = false := by
  unfold Node.beginPublish
  split
  next => exact ⟨rfl, fun same => Progress.noConfusion same⟩
  next =>
    split
    next => exact ⟨rfl, fun same => Progress.noConfusion same⟩
    next => exact ⟨rfl, fun same => Progress.pending.inj same ▸ rfl⟩

theorem beginSubscribe_same (node : Node) (scope : Scope) (resource : String) :
    (node.beginSubscribe scope resource).1.journal = node.journal ∧
      ∀ {call : Call}, (node.beginSubscribe scope resource).2 = .pending call →
        call.isClose = false := by
  simp only [Node.beginSubscribe]
  split
  next => exact ⟨rfl, fun same => Progress.noConfusion same⟩
  next =>
    split
    next => exact ⟨rfl, fun same => Progress.noConfusion same⟩
    next =>
      split
      next => exact ⟨rfl, fun same => Progress.noConfusion same⟩
      next =>
        split
        next => exact ⟨rfl, fun same => Progress.noConfusion same⟩
        next => exact ⟨rfl, fun same => Progress.pending.inj same ▸ rfl⟩

/-- As long as no close begins, none is in progress. -/
theorem closeless_perform {cluster : Cluster} {action : Action}
    (other : ∀ index, action ≠ .close index)
    (closeless : ∀ caller ∈ cluster.calls, caller.call.isClose = false) :
    ∀ caller ∈ (cluster.perform action).calls, caller.call.isClose = false := by
  cases action with
  | close index => exact absurd rfl (other index)
  | publish index scope resource event =>
    exact closeless_begin (beginPublish_same _ scope resource event).2 closeless
  | subscribe index scope resource =>
    exact closeless_begin (beginSubscribe_same _ scope resource).2 closeless
  | stepCall ticket =>
    rcases cluster.perform_stepCall ticket with idle | ⟨caller, node, next, progress, _, _, _,
      polled, noted⟩
    · rw [idle]
      exact closeless
    · rw [noted]
      refine closeless_note (fun same => ?_) closeless
      subst same
      exact isClose_pollCall? polled
  | stepLoop index generation =>
    rcases cluster.perform_stepLoop index generation with idle | ⟨_, _, _, _, _, _, stepped⟩
    · rw [idle]
      exact closeless
    · rw [stepped]
      exact closeless
  | cancelScope ticket =>
    intro caller member
    obtain ⟨earlier, isEarlier, rfl⟩ := List.mem_map.1 member
    have other := closeless earlier isEarlier
    split
    next =>
      cases call : earlier.call with
      | publish | subscribe => rfl
      | close => simp [call, Call.isClose] at other
    next => exact other
  | _ => exact closeless

/-- In a run that lasts the journal stays open. -/
theorem closed_perform {cluster : Cluster} {topic : String} {action : Action}
    (lasts : action.lasts topic)
    (closeless : ∀ caller ∈ cluster.calls, caller.call.isClose = false) :
    (cluster.perform action).journal.closed = cluster.journal.closed := by
  cases action with
  | close | removeTopic => contradiction
  | start identity => exact (cluster.grows_start identity).closed
  | publish index scope resource event =>
    exact congrArg _ (journal_begin fun node => (beginPublish_same node scope resource event).1)
  | subscribe index scope resource =>
    exact congrArg _ (journal_begin fun node => (beginSubscribe_same node scope resource).1)
  | append name record => exact (Journal.grows_append _ name record).closed
  | makeTopic name => exact (Journal.grows_makeTopic _ name).closed
  | stepCall ticket =>
    rcases cluster.perform_stepCall ticket with idle | ⟨caller, node, next, progress, isCaller, _,
      isNode, polled, noted⟩
    · rw [idle]
    · have closed := closed_pollCall? polled (closeless caller isCaller)
      rw [(node?_eq_some isNode).2] at closed
      rw [noted]
      cases progress <;> exact closed
  | stepLoop index generation =>
    rcases cluster.perform_stepLoop index generation with idle | ⟨node, loop, after, isNode, member,
      stepped, isAfter⟩
    · rw [idle]
    · have effect := effect_pollLoop? member stepped none
      rw [isAfter, ← (node?_eq_some isNode).2]
      exact effect.closed (Or.inr (List.ne_nil_of_mem member))
  | _ => rfl

/-! ## What a run that lasts keeps -/

/-- What is so in every state of a run that lasts. -/
structure Lasting (cluster : Cluster) (topic : String) : Prop where
  closeless : ∀ caller ∈ cluster.calls, caller.call.isClose = false
  isOpen : cluster.journal.closed = false
  sameTopic : ∀ broker ∈ cluster.brokers, broker.identity.topic = topic
  live : ∀ reader ∈ readersOf cluster.brokers cluster.claims,
    (cluster.journal.liveTopic? reader.topic reader.epoch).isSome

theorem lasting_empty (createsOnDemand : Bool) (topic : String) :
    (Cluster.empty createsOnDemand).Lasting topic where
  closeless := by simp [Cluster.empty]
  isOpen := rfl
  sameTopic := by simp [Cluster.empty]
  live := by simp [Cluster.empty, readersOf, Cluster.claims]

namespace Lasting

variable {cluster : Cluster} {topic : String}

theorem sameTopic_of_step (lasting : cluster.Lasting topic) {action : Action}
    (lasts : action.lasts topic) {after : Cluster} (step : Step cluster action after) :
    ∀ broker ∈ after.brokers, broker.identity.topic = topic := by
  intro current member
  cases step with
  | @happened _ _ index broker next _ _ _ _ isBroker effect _ brokers =>
    rw [brokers] at member
    rcases List.mem_or_eq_of_mem_set member with old | rfl
    · exact lasting.sameTopic current old
    · rw [effect.identity]
      exact lasting.sameTopic broker (List.mem_of_getElem? isBroker)
  | started growth brokers =>
    rw [brokers] at member
    rcases List.mem_append.1 member with old | new
    · exact lasting.sameTopic current old
    · obtain rfl := List.mem_singleton.1 new
      exact of_decide_eq_true lasts
  | grew growth _ brokers => exact lasting.sameTopic current (brokers ▸ member)
  | removed => contradiction

theorem live_of_step (lasting : cluster.Lasting topic) {action : Action}
    (lasts : action.lasts topic) {after : Cluster} (step : Step cluster action after)
    (isOpen : after.journal.closed = false) :
    ∀ reader ∈ readersOf after.brokers after.claims,
      (after.journal.liveTopic? reader.topic reader.epoch).isSome := by
  intro reader member
  cases step with
  | @happened _ _ index broker next claim later rest _ isBroker effect _ brokers claimsBefore
      claimsAfter =>
    obtain ⟨inside, _⟩ := List.getElem?_eq_some_iff.1 isBroker
    have isNext : after.brokers[index]? = some next := by
      rw [brokers, List.getElem?_set_self inside]
    have wereReaders := perm_readersOf cluster.journal isBroker claimsBefore
    have areReaders := perm_readersOf after.journal isNext claimsAfter
    rw [brokers, List.eraseIdx_set_eq] at areReaders
    rw [brokers, areReaders.mem_iff] at member
    rcases List.mem_append.1 member with own | elsewhere
    · rcases effect.reader_source own with ⟨earlier, isEarlier, same⟩ | live
      · simp only [Reader.membership, Prod.mk.injEq] at same
        rw [same.1, same.2.1]
        have held := wereReaders.mem_iff.2 (List.mem_append_left _ isEarlier)
        exact effect.liveTopic? isOpen (lasting.live earlier held)
      · exact live
    · have held := wereReaders.mem_iff.2 (List.mem_append_right _ elsewhere)
      exact effect.liveTopic? isOpen (lasting.live reader held)
  | started growth brokers claims =>
    have same : readersOf after.brokers after.claims =
        readersOf cluster.brokers cluster.claims := by
      simp [readersOf, brokers, claims, JournaledBroker.empty]
    exact growth.steady.liveTopic? (lasting.live reader (same ▸ member))
  | grew growth _ brokers claims =>
    rw [brokers, claims] at member
    exact growth.steady.liveTopic? (lasting.live reader member)
  | removed => contradiction

theorem perform (lasting : cluster.Lasting topic) (numbered : cluster.Numbered) {action : Action}
    (lasts : action.lasts topic) : (cluster.perform action).Lasting topic := by
  have other : ∀ index, action ≠ .close index := by
    rintro index rfl
    contradiction
  have closeless := closeless_perform other lasting.closeless
  have isOpen := (closed_perform lasts lasting.closeless).trans lasting.isOpen
  have step := step_perform numbered action
  exact ⟨closeless, isOpen, lasting.sameTopic_of_step lasts step,
    lasting.live_of_step lasts step isOpen⟩

theorem group? (lasting : cluster.Lasting topic) (sound : cluster.Sound) {reader : Reader}
    (member : reader ∈ readersOf cluster.brokers cluster.claims) :
    ∃ group, cluster.journal.group? reader.topic reader.group = some group := by
  obtain ⟨topic, isLive⟩ := Option.isSome_iff_exists.1 (lasting.live reader member)
  obtain ⟨group, joined, _⟩ := sound.counts.exists_group member isLive
  refine ⟨group, ?_⟩
  rw [Journal.group?, (Journal.liveTopic?_eq_some_iff.1 isLive).1]
  exact joined

end Lasting

end Cluster

end UpdateRelay
