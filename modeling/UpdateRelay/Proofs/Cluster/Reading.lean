import UpdateRelay.Proofs.Cluster.Soundness
import UpdateRelay.Proofs.Journal.Position

/-!
# What steps read and what mailboxes get

A step either leaves all positions in the journal alone and offers nothing, or it is a read of one
loop: `Effect.quiet_or_reads`. `Effect.mail` and `Effect.newMail` say what becomes of each mailbox,
`Effect.waiting_source` what a loop has seen when it begins to wait.
-/

namespace UpdateRelay

/-- The events that some records tell the subscribers of a resource. -/
def eventsFor (resource : String) (records : List JournalRecord) : List Event :=
  records.filterMap (Node.eventFor? resource)

theorem eventsFor_cons (resource : String) (record : JournalRecord)
    (records : List JournalRecord) : eventsFor resource (record :: records) =
      (Node.eventFor? resource record).toList ++ eventsFor resource records := by
  unfold eventsFor
  rw [List.filterMap_cons]
  cases Node.eventFor? resource record <;> rfl

/-- What the mailbox at a place is fed. -/
def feedsAt (feeds : List (Nat × Feed)) (place : Nat) : List Feed :=
  feeds.filterMap fun entry => if entry.1 = place then some entry.2 else none

/-- What a loop offers on reading a record. -/
def JournaledBroker.offers (broker : JournaledBroker) (loop : ConsumptionLoop)
    (record : JournalRecord) : List (Nat × Feed) :=
  match Node.eventFor? loop.resource record, broker.entryAt? loop.resource loop.generation with
  | some event, some entry => entry.subscribers.feeds event
  | _, _ => []

/-- A step in which a loop reads a record. -/
structure Reads (before : Footprint) (feeds : List (Nat × Feed)) (after : Footprint)
    (loop : ConsumptionLoop) (record : JournalRecord) : Prop where
  member : loop ∈ before.broker.loops
  live : loop.cancelled = false
  seen : before.journal.peek loop.reader = .ok (some record)
  journal : after.journal = before.journal.take loop.reader
  entries : after.broker.entries = before.broker.entries
  nextPlace : after.broker.room.nextPlace = before.broker.room.nextPlace
  feeds : feeds = before.broker.offers loop record

namespace Effect

variable {before after : Footprint} {feeds : List (Nat × Feed)}

/-- A step offers nothing, and leaves all positions alone or closes the journal, or it is the read
of one loop. -/
theorem silent_or_reads (effect : Effect before feeds after) :
    ((before.journal.Steady after.journal ∨ after.journal = before.journal.close) ∧
        ∀ feed ∈ feeds, feed.2.event? = none) ∨
      ∃ loop record, Reads before feeds after loop record := by
  have silent : ∀ feed ∈ ([] : List (Nat × Feed)), feed.2.event? = none := by simp
  cases effect with
  | grew growth | gaveUp growth => exact Or.inl ⟨Or.inl growth.steady, silent⟩
  | numbered | wasted | joined | withEntry | disbanded | pruned | tidied | entered | waited =>
    exact Or.inl ⟨Or.inl (.refl _), silent⟩
  | attached _ _ growth =>
    exact Or.inl ⟨Or.inl (Journal.steady_join growth _ _), silent⟩
  | released | joinedLate | ended | retired =>
    exact Or.inl ⟨Or.inl (Journal.steady_leave _ _), silent⟩
  | shut => exact Or.inl ⟨Or.inr rfl, silent⟩
  | fed feed own => exact Or.inl ⟨Or.inl (.refl _), by simp [own]⟩
  | passed member live seen mute =>
    refine Or.inr ⟨_, _, member, live, seen, rfl, rfl, rfl, ?_⟩
    unfold JournaledBroker.offers
    rcases mute with mute | absent
    · rw [mute]
    · rw [absent]
      cases Node.eventFor? _ _ <;> rfl
  | handed member live seen telling found =>
    refine Or.inr ⟨_, _, member, live, seen, rfl, rfl, Roster.nextPlace_offerEach _ _ _, ?_⟩
    rw [JournaledBroker.offers, telling, found]

/-- A step reads nothing and offers nothing, or is the read of one loop. -/
theorem quiet_or_reads (effect : Effect before feeds after)
    (isOpen : after.journal.closed = false) :
    (before.journal.Steady after.journal ∧ ∀ feed ∈ feeds, feed.2.event? = none) ∨
      ∃ loop record, Reads before feeds after loop record := by
  rcases effect.silent_or_reads with ⟨steady | shut, silent⟩ | reads
  · exact Or.inl ⟨steady, silent⟩
  · rw [shut] at isOpen
    contradiction
  · exact Or.inr reads

/-- A step after which a group exists has not closed the journal. -/
theorem quiet_or_reads_of_group (effect : Effect before feeds after) {name group : String}
    {current : Group} (is : after.journal.group? name group = some current) :
    (before.journal.Steady after.journal ∧ ∀ feed ∈ feeds, feed.2.event? = none) ∨
      ∃ loop record, Reads before feeds after loop record := by
  rcases effect.silent_or_reads with ⟨steady | shut, silent⟩ | reads
  · exact Or.inl ⟨steady, silent⟩
  · rw [shut] at is
    contradiction
  · exact Or.inr reads

/-! ## Loops that wait -/

/-- Whether a loop that waits comes from one that waited and had seen as much. -/
def StillWaits (broker : JournaledBroker) (loop : ConsumptionLoop) : Prop :=
  ∃ earlier ∈ broker.loops, loop.Succeeds earlier ∧ earlier.phase = .waiting ∧
    loop.reader = earlier.reader

theorem stillWaits_of_mem {broker : JournaledBroker} {loop : ConsumptionLoop}
    (member : loop ∈ broker.loops) (waiting : loop.phase = .waiting) : StillWaits broker loop :=
  ⟨loop, member, .refl loop, waiting, rfl⟩

theorem stillWaits_enter {broker : JournaledBroker} {other loop : ConsumptionLoop}
    {phase : LoopPhase} (awake : phase ≠ .waiting)
    (member : loop ∈ (broker.enter other phase).loops)
    (waiting : loop.phase = .waiting) : loop ∈ broker.loops := by
  obtain ⟨earlier, isEarlier, rfl⟩ := JournaledBroker.mem_loops_modifyLoop member
  split at waiting
  next => exact absurd waiting awake
  next other =>
    rw [if_neg other]
    exact isEarlier

theorem stillWaits_cancelLoop {broker : JournaledBroker} {generation : Nat}
    {loop : ConsumptionLoop} (member : loop ∈ (broker.cancelLoop generation).loops)
    (waiting : loop.phase = .waiting) : StillWaits broker loop := by
  obtain ⟨earlier, isEarlier, rfl⟩ := JournaledBroker.mem_loops_modifyLoop member
  refine ⟨earlier, isEarlier, ?_⟩
  split
  next told =>
    rw [if_pos told] at waiting
    exact ⟨⟨rfl, rfl, rfl, fun _ => rfl⟩, waiting, rfl⟩
  next untold =>
    rw [if_neg untold] at waiting
    exact ⟨.refl earlier, waiting, rfl⟩

theorem stillWaits_prune {broker : JournaledBroker} {resource : String} {ids : List SubscriberId}
    {loop : ConsumptionLoop} (member : loop ∈ (broker.prune resource ids).loops)
    (waiting : loop.phase = .waiting) : StillWaits broker loop := by
  rcases broker.loops_prune resource ids with same | ⟨entry, _, _, same⟩
  · exact stillWaits_of_mem (same ▸ member) waiting
  · exact stillWaits_cancelLoop (same ▸ member) waiting

theorem stillWaits_dissolve {broker : JournaledBroker} {resource : String} {generation : Nat}
    {loop : ConsumptionLoop} (member : loop ∈ (broker.dissolve resource generation).loops)
    (waiting : loop.phase = .waiting) : StillWaits broker loop := by
  unfold JournaledBroker.dissolve at member
  split at member
  next => exact stillWaits_of_mem member waiting
  next =>
    obtain ⟨earlier, isEarlier, succeeds, waited⟩ := stillWaits_cancelLoop member waiting
    exact ⟨earlier, isEarlier, succeeds, waited⟩

/-- A loop that waits after a step waited before, or has just seen all of its topic. -/
theorem waiting_source (effect : Effect before feeds after) (entryLoops : before.broker.EntryLoops)
    {loop : ConsumptionLoop} (member : loop ∈ after.broker.loops)
    (waiting : loop.phase = .waiting) :
    StillWaits before.broker loop ∨
      ∃ earlier ∈ before.broker.loops, loop.Succeeds earlier ∧
        before.journal.peek earlier.reader = .ok none ∧ after.journal = before.journal ∧
        loop.reader = before.journal.look earlier.reader := by
  cases effect with
  | grew | gaveUp | numbered | wasted | joined | attached | released | joinedLate | shut | fed =>
    exact Or.inl (stillWaits_of_mem member waiting)
  | withEntry =>
    rcases List.mem_append.1 member with old | new
    · exact Or.inl (stillWaits_of_mem old waiting)
    · rw [List.mem_singleton.1 new] at waiting
      contradiction
  | disbanded =>
    obtain ⟨earlier, isEarlier, rfl⟩ := List.mem_map.1 member
    exact Or.inl ⟨earlier, isEarlier, ⟨rfl, rfl, rfl, fun _ => rfl⟩, waiting, rfl⟩
  | pruned => exact Or.inl (stillWaits_prune member waiting)
  | tidied =>
    exact Or.inl (stillWaits_prune (stillWaits_enter (by simp) member waiting) waiting)
  | entered _ _ awake =>
    exact Or.inl (stillWaits_of_mem (stillWaits_enter awake member waiting) waiting)
  | @waited journal broker _ last isLast _ seen =>
    obtain ⟨earlier, isEarlier, rfl⟩ := JournaledBroker.mem_loops_modifyLoop member
    split
    next same =>
      obtain rfl := entryLoops.loop_unique isEarlier isLast same
      exact Or.inr ⟨earlier, isEarlier, ⟨rfl, rfl, journal.membership_look earlier.reader, id⟩,
        seen, rfl, rfl⟩
    next other =>
      rw [if_neg other] at waiting
      exact Or.inl (stillWaits_of_mem isEarlier waiting)
  | ended =>
    exact Or.inl (stillWaits_of_mem (JournaledBroker.mem_loops_dropLoop.1 member).1 waiting)
  | retired =>
    exact Or.inl (stillWaits_dissolve (JournaledBroker.mem_loops_dropLoop.1 member).1 waiting)
  | passed =>
    exact Or.inl (stillWaits_of_mem (stillWaits_enter (by simp) member waiting) waiting)
  | handed _ _ _ _ _ awake =>
    have isLoop := stillWaits_enter awake member waiting
    exact Or.inl ⟨loop, isLoop, .refl loop, waiting, rfl⟩

/-! ## Mailboxes -/

/-- Whether one mailbox is like another to its receiver. -/
structure SameToReceiver (box other : Mailbox) : Prop where
  capacity : other.capacity = box.capacity
  queue : other.queue = box.queue
  hasReceiver : other.hasReceiver = box.hasReceiver

theorem feedsAt_feeds {roster : Roster} (distinct : roster.places.Nodup) (event : Event)
    (place : Nat) : feedsAt (roster.feeds event) place =
      if place ∈ roster.places then [.offer event] else [] := by
  unfold feedsAt Roster.feeds
  rw [List.filterMap_map]
  -- Places are distinct, so at most one of them is asked for.
  generalize roster.places = places at distinct ⊢
  induction places with
  | nil => rfl
  | cons first places inductionHypothesis =>
    obtain ⟨fresh, rest⟩ := List.nodup_cons.1 distinct
    rw [List.filterMap_cons, inductionHypothesis rest]
    by_cases same : first = place
    · subst same
      simp [fresh]
    · have other : place ≠ first := Ne.symm same
      simp [same, other]

theorem places_nodup {broker : JournaledBroker} {claims : List Claim}
    (seated : broker.Seated claims) {resource : String} {entry : Entry}
    (found : broker.entries.get? resource = some entry) : entry.subscribers.places.Nodup := by
  refine Roster.places_nodup fun {first second place} isFirst isSecond => ?_
  rw [← JournaledBroker.seat?_of_get? found] at isFirst isSecond
  exact (seated.onePlace isFirst isSecond).2

/-- What becomes of a mailbox in one step, as its receiver sees it. -/
theorem mail (effect : Effect before feeds after) {claims : List Claim}
    (seated : before.broker.Seated claims) {place : Nat} {box : Mailbox}
    (found : before.broker.room.get? place = some box) :
    ∃ later, after.broker.room.get? place = some later ∧
      SameToReceiver (Feed.changeAll (feedsAt feeds place) box) later := by
  have same : ∀ {room : Mailroom}, room.get? place = some box →
      ∃ later, room.get? place = some later ∧
        SameToReceiver (Feed.changeAll (feedsAt [] place) box) later :=
    fun still => ⟨box, still, rfl, rfl, rfl⟩
  -- A receiver cannot tell a mailbox that lost its sending end as long as it has events.
  have quieter : ∀ {room : Mailroom}, before.broker.room.Quieter room →
      ∃ later, room.get? place = some later ∧
        SameToReceiver (Feed.changeAll (feedsAt [] place) box) later := by
    intro room quiet
    rcases quiet.2 place with kept | hung
    · exact same (kept.trans found)
    · rw [found] at hung
      exact ⟨box.hangUp, hung, rfl, rfl, rfl⟩
  have added : ∀ (capacity : Nat),
      ∃ later, (before.broker.room.add capacity).get? place = some later ∧
        SameToReceiver (Feed.changeAll (feedsAt [] place) box) later := by
    intro capacity
    refine same ?_
    rw [Mailroom.get?_add, if_neg (Nat.ne_of_lt (Mailroom.lt_of_get?_eq_some found)), found]
  cases effect with
  | grew | gaveUp | numbered | wasted | attached | released | shut | entered | waited | ended
  | passed => exact same found
  | joined | joinedLate | withEntry => exact added _
  | disbanded => exact quieter (JournaledBroker.quieter_disband _)
  | pruned | tidied => exact quieter (JournaledBroker.quieter_prune _ _ _)
  | retired => exact quieter (JournaledBroker.quieter_dissolve _ _ _)
  | @fed _ broker _ fedPlace feed =>
    simp only [JournaledBroker.modifyBox, Mailroom.get?_modify, feedsAt, List.filterMap_cons,
      List.filterMap_nil]
    by_cases here : fedPlace = place
    · simp only [here, if_true, found, Option.map_some]
      exact ⟨feed.change box, rfl, rfl, rfl, rfl⟩
    · simp only [here, if_false, found]
      exact ⟨box, rfl, rfl, rfl, rfl⟩
  | @handed _ broker _ _ _ event entry _ _ _ _ _ isEntry =>
    have distinct := places_nodup seated (JournaledBroker.entryAt?_eq_some_iff.1 isEntry).1
    have offered : (entry.subscribers.offerAll event broker.room).1.get? place =
        if place ∈ entry.subscribers.places then (broker.room.get? place).map (·.offer event)
        else broker.room.get? place := Roster.get?_offerEach distinct broker.room place
    rw [feedsAt_feeds distinct]
    simp only [JournaledBroker.enter, JournaledBroker.modifyLoop, offered]
    by_cases here : place ∈ entry.subscribers.places
    · rw [if_pos here, if_pos here, found]
      exact ⟨box.offer event, rfl, rfl, rfl, rfl⟩
    · rw [if_neg here, if_neg here, found]
      exact ⟨box, rfl, rfl, rfl, rfl⟩

/-- A mailbox that is new after a step is as it was made. -/
theorem newMail (effect : Effect before feeds after) {place : Nat} {box : Mailbox}
    (unborn : before.broker.room.nextPlace ≤ place)
    (found : after.broker.room.get? place = some box) :
    box = .fresh before.broker.identity.capacity := by
  have absent : ∀ {room : Mailroom}, room.nextPlace = before.broker.room.nextPlace →
      room.get? place = some box → box = .fresh before.broker.identity.capacity := by
    intro room same isBox
    rw [Mailroom.get?_eq_none_of_le (same ▸ unborn)] at isBox
    contradiction
  have added : ∀ {capacity : Nat}, (before.broker.room.add capacity).get? place = some box →
      box = .fresh capacity := by
    intro capacity isBox
    rw [Mailroom.get?_add, Mailroom.get?_eq_none_of_le unborn] at isBox
    split at isBox
    next => exact (Option.some.inj isBox).symm
    next => contradiction
  cases effect with
  | grew | gaveUp | numbered | wasted | attached | released | shut | entered | waited | ended
  | passed => exact absent rfl found
  | joined | joinedLate | withEntry => exact added found
  | disbanded => exact absent (JournaledBroker.quieter_disband _).1 found
  | pruned | tidied => exact absent (JournaledBroker.quieter_prune _ _ _).1 found
  | retired => exact absent (JournaledBroker.quieter_dissolve _ _ _).1 found
  | fed => exact absent (Mailroom.nextPlace_modify _ _ _) found
  | handed => exact absent (Roster.nextPlace_offerEach _ _ _) found

end Effect

end UpdateRelay
