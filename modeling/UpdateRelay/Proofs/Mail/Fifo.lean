import UpdateRelay.Proofs.Mail.Roster

/-!
# Mailboxes as bounded queues

What a mailbox is fed over time, and a specification of what its receiver gets: `Fifo` is a first-in
first-out queue of some capacity that drops what it is offered while it is full, told by the list
of all that it has kept and by how much of this still waits. `Fifo.Mirrors` says that a receiver
has got, and still has before it, what such a queue keeps.
-/

namespace UpdateRelay

/-- What happens to a mailbox: an event is offered, its receiver takes one or all, or gives up. -/
inductive Feed
  | offer (event : Event)
  | receive
  | drain
  | abandon
  deriving DecidableEq, Repr

namespace Feed

/-- What a feed does to a mailbox. -/
def change : Feed → Mailbox → Mailbox
  | .offer event, box => box.offer event
  | .receive, box => box.receive
  | .drain, box => box.drain
  | .abandon, box => box.abandon

/-- The event that is offered. -/
def event? : Feed → Option Event
  | .offer event => some event
  | .receive | .drain | .abandon => none

/-- What a receiver gets. -/
def taken : Feed → Mailbox → List Event
  | .receive, box =>
      match box.receipt with
      | .event event => [event]
      | .empty | .closed => []
  | .drain, box => box.queue
  | .offer _, _ | .abandon, _ => []

/-- A mailbox after some feeds. -/
def changeAll (feeds : List Feed) (box : Mailbox) : Mailbox :=
  feeds.foldl (fun box feed => feed.change box) box

/-- What a receiver gets in all. -/
def takenAll : List Feed → Mailbox → List Event
  | [], _ => []
  | feed :: feeds, box => feed.taken box ++ takenAll feeds (feed.change box)

@[simp] theorem capacity_change (feed : Feed) (box : Mailbox) :
    (feed.change box).capacity = box.capacity := by
  cases feed with
  | offer event => exact box.capacity_offer event
  | receive | drain | abandon => rfl

/-- Nothing gives a receiver back. -/
theorem hasReceiver_of_change {feed : Feed} {box : Mailbox}
    (held : (feed.change box).hasReceiver = true) : box.hasReceiver = true := by
  cases feed with
  | offer event => exact box.hasReceiver_offer event ▸ held
  | receive | drain => exact held
  | abandon => contradiction

@[simp] theorem capacity_changeAll (feeds : List Feed) (box : Mailbox) :
    (changeAll feeds box).capacity = box.capacity := by
  induction feeds generalizing box with
  | nil => rfl
  | cons feed feeds inductionHypothesis =>
    exact (inductionHypothesis (feed.change box)).trans (capacity_change feed box)

theorem hasReceiver_of_changeAll {feeds : List Feed} {box : Mailbox}
    (held : (changeAll feeds box).hasReceiver = true) : box.hasReceiver = true := by
  induction feeds generalizing box with
  | nil => exact held
  | cons feed feeds inductionHypothesis => exact hasReceiver_of_change (inductionHypothesis held)

/-! ## Feeds that offer nothing -/

/-- A feed that offers nothing leaves the receiver what was queued, or a beginning of it. -/
theorem taken_of_silent {feed : Feed} (silent : feed.event? = none) (box : Mailbox) :
    (feed.taken box ++ (feed.change box).queue) <+: box.queue ∧
      ((feed.change box).hasReceiver = true →
        feed.taken box ++ (feed.change box).queue = box.queue) := by
  cases feed with
  | offer => contradiction
  | receive =>
    -- The first event only moves from what waits to what was received.
    have same : Feed.receive.taken box ++ box.queue.tail = box.queue := by
      rw [Feed.taken, Mailbox.receipt]
      cases box.queue with
      | nil => cases box.hasSender <;> rfl
      | cons => rfl
    exact ⟨same ▸ List.prefix_rfl, fun _ => same⟩
  | drain =>
    have same : box.queue ++ [] = box.queue := List.append_nil _
    exact ⟨same ▸ List.prefix_rfl, fun _ => same⟩
  | abandon => exact ⟨List.nil_prefix, fun held => by simp [Feed.change, Mailbox.abandon] at held⟩

theorem takenAll_of_silent {feeds : List Feed}
    (silent : feeds.filterMap event? = []) (box : Mailbox) :
    (takenAll feeds box ++ (changeAll feeds box).queue) <+: box.queue ∧
      ((changeAll feeds box).hasReceiver = true → box.hasReceiver = true ∧
        takenAll feeds box ++ (changeAll feeds box).queue = box.queue) := by
  induction feeds generalizing box with
  | nil => exact ⟨List.prefix_rfl, fun held => ⟨held, rfl⟩⟩
  | cons feed feeds inductionHypothesis =>
    obtain ⟨first, rest⟩ := List.forall_mem_cons.1 (List.filterMap_eq_nil_iff.1 silent)
    obtain ⟨got, held⟩ := feed.taken_of_silent first box
    obtain ⟨laterGot, laterHeld⟩ :=
      inductionHypothesis (List.filterMap_eq_nil_iff.2 rest) (feed.change box)
    rw [takenAll, List.append_assoc]
    refine ⟨((List.prefix_append_right_inj _).2 laterGot).trans got, fun isHeld => ?_⟩
    obtain ⟨stillHeld, same⟩ := laterHeld isHeld
    exact ⟨hasReceiver_of_change stillHeld, (congrArg _ same).trans (held stillHeld)⟩

end Feed

/-- An event offered to everybody on a roster. -/
def Roster.feeds (roster : Roster) (event : Event) : List (Nat × Feed) :=
  roster.places.map (·, .offer event)

/-! ## The specification -/

/-- What a queue has kept of all that it was offered, and how much of it still waits. -/
structure Fifo where
  kept : List Event
  waiting : Nat
  deriving DecidableEq, Repr

namespace Fifo

/-- The queue that was offered nothing. -/
def fresh : Fifo := ⟨[], 0⟩

/-- What a queue of some capacity makes of a feed: an event that finds it full is dropped. -/
def next (capacity : Nat) (fifo : Fifo) : Feed → Fifo
  | .offer event =>
      if fifo.waiting < capacity then ⟨fifo.kept ++ [event], fifo.waiting + 1⟩ else fifo
  | .receive => { fifo with waiting := fifo.waiting - 1 }
  | .drain | .abandon => { fifo with waiting := 0 }

/-- The queue of some capacity after some feeds. -/
def fed (capacity : Nat) (feeds : List Feed) : Fifo := feeds.foldl (next capacity) fresh

theorem fed_append (capacity : Nat) (feeds : List Feed) (feed : Feed) :
    fed capacity (feeds ++ [feed]) = (fed capacity feeds).next capacity feed :=
  List.foldl_append

/-- What is kept is some of what was offered, in the same order. -/
theorem kept_sublist (capacity : Nat) (feeds : List Feed) :
    (fed capacity feeds).kept.Sublist (feeds.filterMap Feed.event?) := by
  -- The queue may have been offered something before, else the induction does not go through.
  have general : ∀ (feeds : List Feed) (fifo : Fifo) (offered : List Event),
      fifo.kept.Sublist offered →
        (feeds.foldl (next capacity) fifo).kept.Sublist
          (offered ++ feeds.filterMap Feed.event?) := by
    intro feeds
    induction feeds with
    | nil =>
      intro fifo offered sublist
      simpa using sublist
    | cons feed feeds inductionHypothesis =>
      intro fifo offered sublist
      cases feed with
      | offer event =>
        have both : (next capacity fifo (.offer event)).kept.Sublist (offered ++ [event]) := by
          simp only [next]
          split
          next => exact sublist.append (List.Sublist.refl _)
          next => exact sublist.trans (List.sublist_append_left _ _)
        simpa [Feed.event?] using inductionHypothesis _ _ both
      | receive | drain | abandon => exact inductionHypothesis _ offered sublist
  exact general feeds fresh [] (List.Sublist.refl _)

/-! ## Mailboxes keep to it -/

/-- Whether a receiver has got, and has before it, what a queue keeps; one that gave up has got a
beginning of it. -/
structure Mirrors (fifo : Fifo) (received : List Event) (box : Mailbox) : Prop where
  got : (received ++ box.queue) <+: fifo.kept
  held : box.hasReceiver = true →
    received ++ box.queue = fifo.kept ∧ fifo.waiting = box.queue.length

theorem mirrors_fresh (capacity : Nat) : fresh.Mirrors [] (.fresh capacity) where
  got := List.prefix_rfl
  held := fun _ => ⟨rfl, rfl⟩

theorem kept_next (capacity : Nat) (fifo : Fifo) (feed : Feed) :
    fifo.kept <+: (fifo.next capacity feed).kept := by
  cases feed with
  | offer event =>
    simp only [next]
    split
    next => exact List.prefix_append _ _
    next => exact List.prefix_rfl
  | receive | drain | abandon => exact List.prefix_rfl

/-- What a mailbox lost of its sending end does not matter to its receiver. -/
theorem Mirrors.of_same {fifo : Fifo} {received : List Event} {box other : Mailbox}
    (mirrors : fifo.Mirrors received box) (queue : other.queue = box.queue)
    (hasReceiver : other.hasReceiver = box.hasReceiver) : fifo.Mirrors received other := by
  refine ⟨queue ▸ mirrors.got, fun isHeld => ?_⟩
  rw [queue]
  exact mirrors.held (hasReceiver ▸ isHeld)

/-- A feed that offers nothing adds nothing to what the receiver has got and has before it. -/
theorem Mirrors.of_silent {fifo : Fifo} {received : List Event} {box : Mailbox}
    (mirrors : fifo.Mirrors received box) (feed : Feed) (silent : feed.event? = none) :
    (received ++ feed.taken box ++ (feed.change box).queue) <+: fifo.kept ∧
      ((feed.change box).hasReceiver = true →
        received ++ feed.taken box ++ (feed.change box).queue = fifo.kept ∧
          fifo.waiting = box.queue.length) := by
  obtain ⟨got, held⟩ := feed.taken_of_silent silent box
  rw [List.append_assoc]
  refine ⟨((List.prefix_append_right_inj received).2 got).trans mirrors.got, fun isHeld => ?_⟩
  obtain ⟨kept, waiting⟩ := mirrors.held (Feed.hasReceiver_of_change isHeld)
  exact ⟨(congrArg _ (held isHeld)).trans kept, waiting⟩

/-- A feed changes a mailbox as it changes the queue. -/
theorem Mirrors.next {fifo : Fifo} {received : List Event} {box : Mailbox}
    (mirrors : fifo.Mirrors received box) (feed : Feed) :
    (fifo.next box.capacity feed).Mirrors (received ++ feed.taken box) (feed.change box) := by
  cases feed with
  | offer event =>
    simp only [Feed.change, Feed.taken, List.append_nil]
    have still := box.hasReceiver_offer event
    by_cases delivered : box.verdict = .delivered
    · obtain ⟨isHeld, room⟩ := box.verdict_eq_delivered_iff.1 delivered
      obtain ⟨kept, waiting⟩ := mirrors.held isHeld
      have same : received ++ (box.offer event).queue =
          (fifo.next box.capacity (.offer event)).kept := by
        rw [Mailbox.queue_offer, if_pos delivered, Fifo.next, if_pos (waiting ▸ room), ← kept,
          List.append_assoc]
      refine ⟨same ▸ List.prefix_rfl, fun _ => ⟨same, ?_⟩⟩
      rw [Mailbox.queue_offer, if_pos delivered, Fifo.next, if_pos (waiting ▸ room), waiting,
        List.length_append, List.length_singleton]
    · -- Not delivered: the receiver is gone, or the mailbox is full and so is the queue.
      have unread : (box.offer event).queue = box.queue := by
        rw [Mailbox.queue_offer, if_neg delivered]
      refine Mirrors.of_same ⟨mirrors.got.trans (kept_next _ _ _), fun isHeld => ?_⟩ unread still
      obtain ⟨kept, waiting⟩ := mirrors.held isHeld
      have full : ¬fifo.waiting < box.capacity := by
        rw [waiting]
        exact fun room => delivered (box.verdict_eq_delivered_iff.2 ⟨isHeld, room⟩)
      rw [Fifo.next, if_neg full]
      exact ⟨kept, waiting⟩
  | receive =>
    obtain ⟨got, held⟩ := mirrors.of_silent .receive rfl
    refine ⟨got, fun isHeld => ⟨(held isHeld).1, ?_⟩⟩
    simp [Fifo.next, Feed.change, Mailbox.receive, (held isHeld).2]
  | drain =>
    obtain ⟨got, held⟩ := mirrors.of_silent .drain rfl
    exact ⟨got, fun isHeld => ⟨(held isHeld).1, rfl⟩⟩
  | abandon =>
    obtain ⟨got, _⟩ := mirrors.of_silent .abandon rfl
    exact ⟨got, fun isHeld => by simp [Feed.change, Mailbox.abandon] at isHeld⟩

theorem Mirrors.nextAll {fifo : Fifo} {received : List Event} {box : Mailbox}
    (mirrors : fifo.Mirrors received box) (feeds : List Feed) :
    (feeds.foldl (Fifo.next box.capacity) fifo).Mirrors (received ++ Feed.takenAll feeds box)
      (Feed.changeAll feeds box) := by
  induction feeds generalizing fifo received box with
  | nil => simpa [Feed.takenAll, Feed.changeAll] using mirrors
  | cons feed feeds inductionHypothesis =>
    have later := inductionHypothesis (mirrors.next feed)
    rw [Feed.capacity_change, List.append_assoc] at later
    exact later

end Fifo

end UpdateRelay
