import UpdateRelay.Event

/-!
# Mailboxes

A mailbox is a bounded queue of events with two ends. The sending end never waits: an event that
finds the mailbox full is dropped. The receiving end takes events oldest first, and after the
sending end is gone it still gets what was queued before it is told that nothing will follow.
-/

namespace UpdateRelay

/-- A bounded queue of events, oldest first, and which of its two ends are still held. -/
structure Mailbox where
  capacity : Nat
  queue : List Event
  hasSender : Bool
  hasReceiver : Bool
  deriving DecidableEq, Repr

/-- What became of an event that was offered to a mailbox. -/
inductive Offer
  | delivered
  | dropped
  | disconnected
  deriving DecidableEq, Repr

/-- What the receiving end gets. -/
inductive Receipt
  | event (event : Event)
  | empty
  | closed
  deriving DecidableEq, Repr

namespace Mailbox

/-- The most events that a mailbox can be made to hold. -/
def maxCapacity : Nat := 0x1fffffffffffffff

/-- How many events a mailbox holds that is asked to hold some number: at least one. -/
def effectiveCapacity (requested : Nat) : Nat := max requested 1

/-- Whether a mailbox can be made that is asked to hold some number of events. -/
def canHold (requested : Nat) : Bool := effectiveCapacity requested ≤ maxCapacity

def fresh (requested : Nat) : Mailbox := ⟨effectiveCapacity requested, [], true, true⟩

/-- What an offer of an event comes to. -/
def verdict (box : Mailbox) : Offer :=
  if !box.hasReceiver then .disconnected
  else if box.queue.length < box.capacity then .delivered
  else .dropped

def offer (box : Mailbox) (event : Event) : Mailbox :=
  match box.verdict with
  | .delivered => { box with queue := box.queue ++ [event] }
  | .dropped | .disconnected => box

/-- What the receiving end gets now. -/
def receipt (box : Mailbox) : Receipt :=
  match box.queue with
  | event :: _ => .event event
  | [] => if box.hasSender then .empty else .closed

/-- The mailbox after the receiving end took what it gets. -/
def receive (box : Mailbox) : Mailbox := { box with queue := box.queue.tail }

/-- The mailbox after the receiving end took everything. -/
def drain (box : Mailbox) : Mailbox := { box with queue := [] }

/-- The mailbox without its sending end. -/
def hangUp (box : Mailbox) : Mailbox := { box with hasSender := false }

/-- The mailbox without its receiving end, and so without its events. -/
def abandon (box : Mailbox) : Mailbox := { box with hasReceiver := false, queue := [] }

theorem verdict_eq_delivered_iff (box : Mailbox) :
    box.verdict = .delivered ↔ box.hasReceiver ∧ box.queue.length < box.capacity := by
  unfold verdict
  cases box.hasReceiver <;> by_cases room : box.queue.length < box.capacity <;> simp [room]

theorem verdict_eq_dropped_iff (box : Mailbox) :
    box.verdict = .dropped ↔ box.hasReceiver ∧ box.capacity ≤ box.queue.length := by
  unfold verdict
  cases box.hasReceiver <;> by_cases room : box.queue.length < box.capacity <;> simp [room]
  exact Nat.le_of_not_lt room

theorem verdict_eq_disconnected_iff (box : Mailbox) :
    box.verdict = .disconnected ↔ box.hasReceiver = false := by
  unfold verdict
  cases box.hasReceiver <;> by_cases room : box.queue.length < box.capacity <;> simp [room]

theorem receipt_eq_closed_iff (box : Mailbox) :
    box.receipt = .closed ↔ box.queue = [] ∧ box.hasSender = false := by
  unfold receipt
  cases box.queue <;> cases box.hasSender <;> simp

/-- An offer only adds the event, and this only if it is delivered. -/
theorem offer_eq (box : Mailbox) (event : Event) :
    box.offer event =
      if box.verdict = .delivered then { box with queue := box.queue ++ [event] } else box := by
  unfold offer
  cases box.verdict <;> rfl

theorem capacity_offer (box : Mailbox) (event : Event) :
    (box.offer event).capacity = box.capacity := by
  unfold offer
  cases box.verdict <;> rfl

theorem hasReceiver_offer (box : Mailbox) (event : Event) :
    (box.offer event).hasReceiver = box.hasReceiver := by
  unfold offer
  cases box.verdict <;> rfl

theorem queue_offer (box : Mailbox) (event : Event) :
    (box.offer event).queue =
      if box.verdict = .delivered then box.queue ++ [event] else box.queue := by
  unfold offer
  cases box.verdict <;> rfl

/-- An offer never fills a mailbox beyond its capacity. -/
theorem length_queue_offer_le (box : Mailbox) (event : Event)
    (fits : box.queue.length ≤ box.capacity) :
    (box.offer event).queue.length ≤ (box.offer event).capacity := by
  rw [queue_offer, capacity_offer]
  split
  next delivered =>
      rw [List.length_append]
      exact ((verdict_eq_delivered_iff box).1 delivered).2
  next => exact fits

end Mailbox

/-! ## Mailrooms -/

/-- All mailboxes that were ever opened, each at the place that names it. -/
structure Mailroom where
  boxes : List Mailbox
  deriving DecidableEq, Repr

namespace Mailroom

def empty : Mailroom := ⟨[]⟩

def get? (room : Mailroom) (place : Nat) : Option Mailbox := room.boxes[place]?

def modify (room : Mailroom) (place : Nat) (change : Mailbox → Mailbox) : Mailroom :=
  ⟨room.boxes.modify place change⟩

def nextPlace (room : Mailroom) : Nat := room.boxes.length

/-- The mailroom with a new mailbox at its next place. -/
def add (room : Mailroom) (capacity : Nat) : Mailroom := ⟨room.boxes ++ [.fresh capacity]⟩

theorem get?_modify (room : Mailroom) (place query : Nat) (change : Mailbox → Mailbox) :
    (room.modify place change).get? query =
      if place = query then (room.get? query).map change else room.get? query := by
  unfold modify get?
  rw [List.getElem?_modify]
  split <;> simp

theorem get?_add (room : Mailroom) (capacity query : Nat) :
    (room.add capacity).get? query =
      if query = room.nextPlace then some (.fresh capacity) else room.get? query := by
  unfold add get? nextPlace
  rw [List.getElem?_append]
  split
  next old => rw [if_neg (Nat.ne_of_lt old)]
  next new =>
      by_cases last : query = room.boxes.length
      · simp [last]
      · have beyond : room.boxes.length < query := by omega
        rw [if_neg last, List.getElem?_eq_none (by simp; omega), List.getElem?_eq_none (by omega)]

def verdict (room : Mailroom) (place : Nat) : Offer :=
  match room.get? place with
  | some box => box.verdict
  | none => .disconnected

def receipt (room : Mailroom) (place : Nat) : Receipt :=
  match room.get? place with
  | some box => box.receipt
  | none => .closed

def queue (room : Mailroom) (place : Nat) : List Event :=
  match room.get? place with
  | some box => box.queue
  | none => []

end Mailroom

end UpdateRelay
