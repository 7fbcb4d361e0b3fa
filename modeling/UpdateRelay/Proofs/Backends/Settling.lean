import UpdateRelay.Proofs.Backends.LoopTransitions
import UpdateRelay.Proofs.Backends.Script

/-!
# How loops settle

Whatever the order in which the loops of a lone broker go on, they come to rest, and the broker then
is what it was bound to be: `Node.Owes node direct` says that a node has yet to become `direct`, and
every transition keeps this.
-/

namespace UpdateRelay.Node

/-! ## What moves keep in order -/

section Step

variable {node after : Node} {loop other : ConsumptionLoop} {next : Option ConsumptionLoop}

/-- What a transition does to the journal, as another loop sees it. -/
theorem Transition.position (ready : node.Ready) (transition : node.Transition loop after next)
    (member : loop ∈ node.broker.loops) (isOther : other ∈ node.broker.loops)
    (live : other.cancelled = false) (different : other.generation ≠ loop.generation)
    (counts : MemberCounts after.journal (after.broker.loops.map (·.reader)))
    (stays : other ∈ after.broker.loops)
    (stillLive : (after.journal.liveTopic? other.reader.topic other.reader.epoch).isSome) :
    after.journal.position other.reader.topic other.reader.group =
        node.journal.position other.reader.topic other.reader.group ∧
      after.journal.records other.reader.topic = node.journal.records other.reader.topic := by
  -- A read moves the group of its own loop alone, and two live loops never share a group.
  have reading : ∀ {record : JournalRecord}, loop.cancelled = false →
      (node.unread loop).head? = some record →
      after.journal = node.journal.take loop.reader →
      after.journal.position other.reader.topic other.reader.group =
          node.journal.position other.reader.topic other.reader.group ∧
        after.journal.records other.reader.topic = node.journal.records other.reader.topic := by
    intro record loopLive first journal
    have seen := ready.peek member
    rw [first] at seen
    have groups : other.reader.group ≠ loop.reader.group := by
      rw [(ready.sound.loopReads other isOther).2, (ready.sound.loopReads loop member).2]
      intro same
      refine different (congrArg _ (ready.entryLoops.live_loop_unique isOther member live
        loopLive (node.broker.identity.group_injective same)))
    rw [journal]
    exact ⟨Journal.position_take_of_ne _ _ groups, Journal.records_take seen _⟩
  cases transition with
  | ended _ journal =>
    -- A reader that leaves can take its group along, but not one with another open reader.
    obtain ⟨_, present, _, _, was⟩ := ready.group? isOther
    obtain ⟨topic, isLive⟩ := Option.isSome_iff_exists.1 stillLive
    obtain ⟨current, joined, _⟩ :=
      counts.exists_group (List.mem_map.2 ⟨other, stays, rfl⟩) isLive
    have is : after.journal.group? other.reader.topic other.reader.group = some current := by
      rw [Journal.group?, (Journal.liveTopic?_eq_some_iff.1 isLive).1]
      exact joined
    rw [journal] at is ⊢
    exact ⟨((Journal.steady_leave _ _).position_eq was is).1, Journal.records_leave _ _ _⟩
  | tidied _ _ journal | looked _ _ _ journal =>
    rw [journal]
    exact ⟨rfl, rfl⟩
  | passed loopLive _ first _ journal => exact reading loopLive first journal
  | handed loopLive _ first _ journal => exact reading loopLive first journal

theorem Transition.brokenAppends (transition : node.Transition loop after next) :
    after.journal.brokenAppends = node.journal.brokenAppends := by
  cases transition with
  | ended _ journal => rw [journal, Journal.brokenAppends_leave]
  | tidied _ _ journal | looked _ _ _ journal => rw [journal]
  | passed _ _ _ _ journal | handed _ _ _ _ journal => rw [journal, Journal.brokenAppends_take]

theorem Transition.phase (transition : node.Transition loop after next) {later : ConsumptionLoop}
    (isNext : next = some later) : later.phase = .reading ∨ later.phase = .waiting ∨
      ∃ gone, later.phase = .pruning gone ∧ later.cancelled = false := by
  cases transition with
  | ended => contradiction
  | tidied | passed =>
    obtain rfl := Option.some.inj isNext
    exact Or.inl rfl
  | looked =>
    obtain rfl := Option.some.inj isNext
    exact Or.inr (Or.inl rfl)
  | handed live =>
    obtain rfl := Option.some.inj isNext
    dsimp only
    split
    next => exact Or.inl rfl
    next => exact Or.inr (Or.inr ⟨_, rfl, live⟩)

/-- A loop that has begun to wait has seen all there is. -/
theorem Transition.seen (transition : node.Transition loop after next) (ready : node.Ready)
    (member : loop ∈ node.broker.loops) {later : ConsumptionLoop} (isNext : next = some later)
    (waiting : later.phase = .waiting) :
    later.reader.seen = after.journal.position later.reader.topic later.reader.group := by
  cases transition with
  | ended => contradiction
  | tidied | passed =>
    obtain rfl := Option.some.inj isNext
    contradiction
  | looked _ _ nothing journal =>
    obtain rfl := Option.some.inj isNext
    have seen := ready.peek member
    rw [nothing] at seen
    obtain ⟨length, reached⟩ := Journal.length_le_of_peek seen
    have membership := node.journal.membership_look loop.reader
    simp only [Reader.membership, Prod.mk.injEq] at membership
    have placed := Journal.position_le_of_counts ready.counts loop.reader.topic
      loop.reader.group
    rw [membership.1, membership.2.2.1, journal, length]
    exact Nat.le_antisymm reached placed
  | handed =>
    obtain rfl := Option.some.inj isNext
    dsimp only at waiting
    split at waiting <;> contradiction

theorem Ready.hasTopic_of_effect (ready : node.Ready) {feeds : List (Nat × Feed)}
    (effect : Effect (node.footprint none) feeds (after.footprint none))
    (isOpen : after.journal.closed = false) :
    (after.journal.topics.get? after.broker.identity.topic).isSome := by
  obtain ⟨topic, found⟩ := Option.isSome_iff_exists.1 ready.hasTopic
  have isLive := Journal.liveTopic?_eq_some_iff.2 ⟨found, rfl⟩
  obtain ⟨later, laterLive⟩ := Option.isSome_iff_exists.1
    (effect.liveTopic? isOpen (Option.isSome_of_eq_some isLive))
  have sameIdentity : after.broker.identity = node.broker.identity := effect.identity
  rw [sameIdentity]
  exact Option.isSome_of_eq_some (Journal.liveTopic?_eq_some_iff.1 laterLive).1

/-- Every step of a loop leaves the broker ready. -/
theorem Ready.pollLoop? (ready : node.Ready) (member : loop ∈ node.broker.loops)
    (stepped : node.pollLoop? loop = some after) (replaces : node.Replaces after loop next)
    (transition : node.Transition loop after next) : after.Ready := by
  have effect := effect_pollLoop? member stepped none
  have isOpen : after.journal.closed = false := by
    rw [← ready.isOpen]
    exact effect.closed (Or.inr (List.ne_nil_of_mem member))
  have sound := effect.sound ready.sound
  have live : ∀ loop ∈ after.broker.loops,
      (after.journal.liveTopic? loop.reader.topic loop.reader.epoch).isSome := by
    intro later isLater
    rcases effect.loop_source isLater with ⟨earlier, isEarlier, succeeds⟩ | ⟨_, _, isClaim, _⟩
    · have same := succeeds.reader
      simp only [Reader.membership, Prod.mk.injEq] at same
      rw [same.1, same.2.1]
      exact effect.liveTopic? isOpen (ready.live earlier isEarlier)
    · contradiction
  have counts : MemberCounts after.journal (after.broker.loops.map (·.reader)) := by
    have counts := sound.counts
    simpa [Footprint.readers, footprint] using counts
  refine ⟨sound, replaces.link.trans ready.link, isOpen, transition.brokenAppends.trans
    ready.brokenAppends, ready.hasTopic_of_effect effect isOpen, live, ?_, ?_⟩
  · intro later isLater
    rcases (replaces.mem_iff member).1 isLater with isNext | ⟨old, _⟩
    · exact transition.phase isNext
    · exact ready.phase later old
  · intro later isLater laterLive waiting
    rcases (replaces.mem_iff member).1 isLater with isNext | ⟨old, different⟩
    · exact transition.seen ready member isNext waiting
    · rw [(transition.position ready member old laterLive different counts isLater
        (live later isLater)).1]
      exact ready.seen later old laterLive waiting

/-- What another loop has to read stays as it is. -/
theorem Transition.unread (ready : node.Ready) (afterReady : after.Ready)
    (replaces : node.Replaces after loop next) (transition : node.Transition loop after next)
    (member : loop ∈ node.broker.loops) (isOther : other ∈ node.broker.loops)
    (live : other.cancelled = false) (different : other.generation ≠ loop.generation) :
    after.unread other = node.unread other := by
  have stays := (replaces.mem_iff member).2 (Or.inr ⟨isOther, different⟩)
  obtain ⟨position, records⟩ := transition.position ready member isOther live different
    afterReady.counts stays (afterReady.live other stays)
  rw [Node.unread, position, records, Node.unread]

end Step

/-! ## What is owed -/

/-- Whether a loop has nothing to tell anybody. -/
def Idle (node : Node) (loop : ConsumptionLoop) : Prop :=
  (∀ gone, loop.phase ≠ .pruning gone) ∧ eventsFor loop.resource (node.unread loop) = []

/-- Whether all loops but one have nothing to tell anybody. -/
def IdleBut (node : Node) (loop : ConsumptionLoop) : Prop :=
  ∀ other ∈ node.broker.loops, other.cancelled = false → other.generation ≠ loop.generation →
    node.Idle other

/-- What a broker has yet to become: it is that already, or one loop has to remove the subscribers
that it found gone, or to hand an event on first. -/
inductive Owes (node : Node) (direct : DirectBroker) : Prop
  | nothing (idle : ∀ loop ∈ node.broker.loops, loop.cancelled = false → node.Idle loop)
      (same : node.broker.direct = direct)
  | pruning {loop gone} (member : loop ∈ node.broker.loops) (phase : loop.phase = .pruning gone)
      (mute : eventsFor loop.resource (node.unread loop) = []) (idle : node.IdleBut loop)
      (same : node.broker.direct.prune loop.resource gone = direct)
  | unread {loop event} (member : loop ∈ node.broker.loops) (live : loop.cancelled = false)
      (awake : ∀ gone, loop.phase ≠ .pruning gone)
      (telling : eventsFor loop.resource (node.unread loop) = [event]) (idle : node.IdleBut loop)
      (same : node.broker.direct.hand loop.resource event = direct)

section Step

variable {node after : Node} {loop other : ConsumptionLoop} {next : Option ConsumptionLoop}

theorem Idle.stays (idle : node.Idle other) (ready : node.Ready) (afterReady : after.Ready)
    (replaces : node.Replaces after loop next) (transition : node.Transition loop after next)
    (member : loop ∈ node.broker.loops) (isOther : other ∈ node.broker.loops)
    (live : other.cancelled = false) (different : other.generation ≠ loop.generation) :
    after.Idle other := by
  refine ⟨idle.1, ?_⟩
  rw [transition.unread ready afterReady replaces member isOther live different]
  exact idle.2

/-- After a loop has read a record, it has the following ones to read. -/
theorem unread_of_take (ready : node.Ready) (member : loop ∈ node.broker.loops)
    {record : JournalRecord} (first : (node.unread loop).head? = some record)
    (journal : after.journal = node.journal.take loop.reader) {later : ConsumptionLoop}
    (same : later.reader = loop.reader) : node.unread loop = record :: after.unread later := by
  have seen := ready.peek member
  rw [first] at seen
  obtain ⟨isNext, position⟩ := Journal.position_take seen
  obtain ⟨inside, isRecord⟩ := List.getElem?_eq_some_iff.1 isNext
  simp only [Node.unread]
  rw [same, journal, position, Journal.records_take seen, List.drop_eq_getElem_cons inside,
    isRecord]

/-- A loop with nothing to tell, or one that was told to stop, changes nothing for anybody. -/
theorem Transition.silent (transition : node.Transition loop after next) (ready : node.Ready)
    (member : loop ∈ node.broker.loops)
    (idle : loop.cancelled = false → node.Idle loop) :
    after.broker.direct = node.broker.direct ∧
      ∀ later, next = some later → after.Idle later := by
  cases transition with
  | ended _ _ direct => exact ⟨direct, by simp⟩
  | tidied _ phase =>
    exact absurd phase ((idle (ready.live_of_pruning member phase)).1 _)
  | looked live _ nothing journal direct =>
    refine ⟨direct, fun later isLater => ?_⟩
    obtain rfl := Option.some.inj isLater
    refine ⟨by simp, ?_⟩
    rw [unread_look journal, nothing]
    rfl
  | passed live _ first mute journal direct =>
    refine ⟨direct, fun later isLater => ?_⟩
    obtain rfl := Option.some.inj isLater
    have left := (idle live).2
    rw [unread_of_take ready member first journal rfl, eventsFor_cons, mute] at left
    exact ⟨by simp, left⟩
  | handed live _ first telling journal =>
    have left := (idle live).2
    rw [unread_of_take ready member first journal rfl, eventsFor_cons, telling] at left
    simp at left

/-- Where a loop that owes something stays, the transition of another one leaves all others idle. -/
theorem IdleBut.stays {owing : ConsumptionLoop} (idle : node.IdleBut owing) (ready : node.Ready)
    (afterReady : after.Ready) (replaces : node.Replaces after loop next)
    (transition : node.Transition loop after next) (member : loop ∈ node.broker.loops)
    (nextIdle : ∀ later, next = some later → later.generation ≠ owing.generation →
      after.Idle later) : after.IdleBut owing := by
  intro other isOther live different
  rcases (replaces.mem_iff member).1 isOther with isNext | ⟨old, apart⟩
  · exact nextIdle other isNext different
  · exact (idle other old live different).stays ready afterReady replaces transition member old
      live apart

/-- Where one loop has moved and has nothing more to tell, everybody is idle. -/
theorem IdleBut.all (idle : node.IdleBut loop) (ready : node.Ready) (afterReady : after.Ready)
    (replaces : node.Replaces after loop next) (transition : node.Transition loop after next)
    (member : loop ∈ node.broker.loops) (nextIdle : ∀ later, next = some later → after.Idle later) :
    ∀ other ∈ after.broker.loops, other.cancelled = false → after.Idle other := by
  intro other isOther live
  rcases (replaces.mem_iff member).1 isOther with isNext | ⟨old, apart⟩
  · exact nextIdle other isNext
  · exact (idle other old live apart).stays ready afterReady replaces transition member old
      live apart

/-- A loop that owes nothing moves, and what the broker has yet to become stays the same. -/
theorem Owes.of_idle {direct : DirectBroker} (owes : node.Owes direct) (ready : node.Ready)
    (afterReady : after.Ready) (replaces : node.Replaces after loop next)
    (transition : node.Transition loop after next) (member : loop ∈ node.broker.loops)
    (idle : loop.cancelled = false → node.Idle loop) : after.Owes direct := by
  obtain ⟨unchanged, nextIdle⟩ := transition.silent ready member idle
  -- The loop that owes something is not the idle one that moves.
  have apart : ∀ {owing : ConsumptionLoop}, owing ∈ node.broker.loops →
      owing.cancelled = false → ¬node.Idle owing → owing.generation ≠ loop.generation := by
    intro owing isOwing live busy same
    obtain rfl := ready.entryLoops.loop_unique isOwing member same
    exact busy (idle live)
  cases owes with
  | nothing allIdle same =>
    refine .nothing ?_ (unchanged.trans same)
    exact IdleBut.all (fun other isOther live _ => allIdle other isOther live) ready afterReady
      replaces transition member nextIdle
  | @pruning owing gone isOwing phase mute others same =>
    have live := ready.live_of_pruning isOwing phase
    have different := apart isOwing live fun isIdle => isIdle.1 gone phase
    refine .pruning ((replaces.mem_iff member).2 (Or.inr ⟨isOwing, different⟩)) phase ?_
      (others.stays ready afterReady replaces transition member fun later isLater _ =>
        nextIdle later isLater) ?_
    · rw [transition.unread ready afterReady replaces member isOwing live different]
      exact mute
    · rw [unchanged]
      exact same
  | @unread owing event isOwing live awake telling others same =>
    have different := apart isOwing live fun isIdle => by simp [isIdle.2] at telling
    have stillTelling : eventsFor owing.resource (after.unread owing) = [event] := by
      rw [transition.unread ready afterReady replaces member isOwing live different]
      exact telling
    have stillSame : after.broker.direct.hand owing.resource event = direct := by
      rw [unchanged]
      exact same
    exact .unread ((replaces.mem_iff member).2 (Or.inr ⟨isOwing, different⟩)) live awake
      stillTelling (others.stays ready afterReady replaces transition member fun later isLater _ =>
        nextIdle later isLater) stillSame

/-- Nobody is removed where nobody is gone. -/
theorem direct_prune_nil (entryLoops : node.broker.EntryLoops) (resource : String) :
    node.broker.direct.prune resource [] = node.broker.direct := by
  rw [DirectBroker.prune, JournaledBroker.get?_direct]
  cases found : node.broker.entries.get? resource with
  | none => rfl
  | some entry =>
    have isRoster : node.broker.direct.resources.get? resource = some entry.subscribers := by
      rw [JournaledBroker.get?_direct, found, Option.map_some]
    have inhabited : entry.subscribers.isEmpty = false := entryLoops.inhabited found
    simp only [Option.map_some, inhabited, Bool.false_eq_true, if_false, Roster.withoutAll,
      List.foldl_nil, Table.replace_self isRoster, Roster.hangUpEach]

/-- The loop that has subscribers to remove does so in its next transition. -/
theorem Owes.of_pruning {direct : DirectBroker} {gone : List SubscriberId} (ready : node.Ready)
    (afterReady : after.Ready) (replaces : node.Replaces after loop next)
    (transition : node.Transition loop after next) (member : loop ∈ node.broker.loops)
    (phase : loop.phase = .pruning gone)
    (mute : eventsFor loop.resource (node.unread loop) = []) (others : node.IdleBut loop)
    (same : node.broker.direct.prune loop.resource gone = direct) : after.Owes direct := by
  cases transition with
  | ended cancelled =>
    rw [ready.live_of_pruning member phase] at cancelled
    contradiction
  | looked _ reading =>
    rw [reading] at phase
    contradiction
  | passed _ awake | handed _ awake => exact absurd phase (awake gone)
  | @tidied found cancelled foundPhase journal pruned =>
    obtain rfl := LoopPhase.pruning.inj (foundPhase.symm.trans phase)
    have moved := Transition.tidied cancelled foundPhase journal pruned
    refine .nothing (others.all ready afterReady replaces moved member fun later isLater => ?_)
      (pruned.trans same)
    obtain rfl := Option.some.inj isLater
    refine ⟨by simp, ?_⟩
    rw [Node.unread, journal]
    exact mute

/-- The loop that has an event to tell comes nearer to it, or hands it on. -/
theorem Owes.of_unread {direct : DirectBroker} {event : Event} (ready : node.Ready)
    (afterReady : after.Ready) (replaces : node.Replaces after loop next)
    (transition : node.Transition loop after next) (member : loop ∈ node.broker.loops)
    (live : loop.cancelled = false) (awake : ∀ gone, loop.phase ≠ .pruning gone)
    (telling : eventsFor loop.resource (node.unread loop) = [event]) (others : node.IdleBut loop)
    (same : node.broker.direct.hand loop.resource event = direct) : after.Owes direct := by
  cases transition with
  | ended cancelled =>
    rw [live] at cancelled
    contradiction
  | tidied _ phase => exact absurd phase (awake _)
  | looked _ _ nothing => simp [nothing, eventsFor] at telling
  | @passed record _ _ first mute journal unchanged =>
    rw [unread_of_take ready member first journal rfl, eventsFor_cons, mute] at telling
    have stays := (replaces.mem_iff member).2 (Or.inl rfl)
    refine .unread stays live (by simp) telling ?_ (unchanged ▸ same)
    have moved := Transition.passed live awake first mute journal unchanged
    exact others.stays ready afterReady replaces moved member fun later isLater apart => by
      obtain rfl := Option.some.inj isLater
      exact absurd rfl apart
  | @handed record heard _ _ first hearing journal offered =>
    rw [unread_of_take ready member first journal rfl, eventsFor_cons, hearing] at telling
    obtain ⟨rfl, rest⟩ := List.cons.inj telling
    have stays := (replaces.mem_iff member).2 (Or.inl rfl)
    have moved := Transition.handed live awake first hearing journal offered
    -- Where all mailboxes have an owner, nobody is removed, and the debt is paid already.
    by_cases nobody : (node.broker.direct.offer loop.resource heard).2.isEmpty = true
    · refine .nothing (others.all ready afterReady replaces moved member
        fun later isLater => ?_) ?_
      · obtain rfl := Option.some.inj isLater
        exact ⟨by simp [nobody], rest⟩
      · rw [← same, DirectBroker.hand, List.isEmpty_iff.1 nobody, ← offered,
          direct_prune_nil afterReady.entryLoops]
    · refine .pruning stays (if_neg nobody) rest ?_ ?_
      · exact others.stays ready afterReady replaces moved member fun later isLater apart => by
          obtain rfl := Option.some.inj isLater
          exact absurd rfl apart
      · rw [← same, DirectBroker.hand, ← offered]

/-- What a broker has yet to become stays the same when a loop moves. -/
theorem Owes.transition {direct : DirectBroker} (owes : node.Owes direct) (ready : node.Ready)
    (afterReady : after.Ready) (replaces : node.Replaces after loop next)
    (transition : node.Transition loop after next) (member : loop ∈ node.broker.loops) :
    after.Owes direct := by
  cases owes with
  | nothing allIdle same =>
    exact Owes.of_idle (.nothing allIdle same) ready afterReady replaces transition member
      (allIdle loop member)
  | @pruning owing gone isOwing phase mute others same =>
    by_cases own : loop.generation = owing.generation
    · obtain rfl := ready.entryLoops.loop_unique member isOwing own
      exact .of_pruning ready afterReady replaces transition member phase mute others same
    · exact Owes.of_idle (.pruning isOwing phase mute others same) ready afterReady replaces
        transition member fun live => others loop member live own
  | @unread owing event isOwing live awake telling others same =>
    by_cases own : loop.generation = owing.generation
    · obtain rfl := ready.entryLoops.loop_unique member isOwing own
      exact .of_unread ready afterReady replaces transition member live awake telling others same
    · exact Owes.of_idle (.unread isOwing live awake telling others same) ready afterReady replaces
        transition member fun loopLive => others loop member loopLive own

/-! ## At rest -/

/-- Whatever loop goes on, the broker stays bound to what it has yet to become. -/
theorem Owes.step {direct : DirectBroker} (owes : node.Owes direct) (ready : node.Ready)
    (stepped : LoopStep node after) : after.Ready ∧ after.Owes direct := by
  obtain ⟨loop, member, polled⟩ := stepped
  obtain ⟨next, replaces, transition⟩ := transition_pollLoop? ready member polled
  have afterReady := ready.pollLoop? member polled replaces transition
  exact ⟨afterReady, owes.transition ready afterReady replaces transition member⟩

theorem Owes.steps {direct : DirectBroker} (owes : node.Owes direct) (ready : node.Ready)
    (steps : Relation.ReflTransGen LoopStep node after) : after.Ready ∧ after.Owes direct := by
  induction steps with
  | refl => exact ⟨ready, owes⟩
  | tail _ stepped ih => exact ih.2.step ih.1 stepped

/-- A broker at rest has become what it had to. -/
theorem Owes.same {direct : DirectBroker} (owes : node.Owes direct) (ready : node.Ready)
    (rests : node.Rests) : node.broker.direct = direct := by
  cases owes with
  | nothing _ same => exact same
  | pruning member phase =>
    obtain ⟨_, waiting, _⟩ := ready.waits member (rests _ member)
    rw [waiting] at phase
    contradiction
  | unread member _ _ telling =>
    obtain ⟨_, _, nothing⟩ := ready.waits member (rests _ member)
    rw [nothing] at telling
    contradiction

/-- A broker is closed just if the one that it has yet to become is. -/
theorem Owes.closed {direct : DirectBroker} (owes : node.Owes direct) :
    node.broker.closed = direct.closed := by
  cases owes with
  | nothing _ same => rw [← same]; rfl
  | pruning _ _ _ _ same => rw [← same, DirectBroker.closed_prune]; rfl
  | unread _ _ _ _ _ same => rw [← same, DirectBroker.closed_hand]; rfl

end Step

end UpdateRelay.Node
