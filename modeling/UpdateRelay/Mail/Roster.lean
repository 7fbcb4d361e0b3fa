import UpdateRelay.Mail.Mailbox

/-!
# Rosters of subscribers

The subscribers of one resource, in ascending order of their ids, each with the place of its
mailbox. No id occurs twice. `Roster.place?_insert` and `Roster.place?_without` say what joining
and leaving do. An event is offered to all subscribers, and none of them holds up another.
-/

namespace UpdateRelay

/-- What became of an event that was offered to all subscribers: how many got it, how many had no
room for it, and who is gone. -/
structure Tally where
  delivered : Nat
  dropped : Nat
  gone : List SubscriberId
  deriving DecidableEq, Repr

namespace Tally

def blank : Tally := ⟨0, 0, []⟩

/-- The tally with one more subscriber in front. -/
def note (tally : Tally) (id : SubscriberId) : Offer → Tally
  | .delivered => { tally with delivered := tally.delivered + 1 }
  | .dropped => { tally with dropped := tally.dropped + 1 }
  | .disconnected => { tally with gone := id :: tally.gone }

end Tally

/-- The subscribers of one resource with the places of their mailboxes. -/
structure Roster where
  entries : List (SubscriberId × Nat)
  ordered : entries.Pairwise fun first second => first.1.number < second.1.number
  deriving DecidableEq, Repr

namespace Roster

def empty : Roster := ⟨[], .nil⟩

def size (roster : Roster) : Nat := roster.entries.length

def isEmpty (roster : Roster) : Bool := roster.entries.isEmpty

def place? (roster : Roster) (id : SubscriberId) : Option Nat :=
  (roster.entries.find? fun entry => entry.1 = id).map Prod.snd

def contains (roster : Roster) (id : SubscriberId) : Bool :=
  roster.entries.any fun entry => entry.1 = id

/-- The places of all mailboxes, in the order of the ids. -/
def places (roster : Roster) : List Nat := roster.entries.map Prod.snd

/-! ## Joining and leaving -/

def without (roster : Roster) (id : SubscriberId) : Roster where
  entries := roster.entries.filter fun entry => entry.1 ≠ id
  ordered := roster.ordered.filter _

def withoutAll (roster : Roster) (ids : List SubscriberId) : Roster :=
  ids.foldl without roster

/-- The entries with one more, at the place where its id belongs. -/
def insertSorted (id : SubscriberId) (place : Nat) :
    List (SubscriberId × Nat) → List (SubscriberId × Nat)
  | [] => [(id, place)]
  | entry :: rest =>
      if id.number < entry.1.number then (id, place) :: entry :: rest
      else entry :: insertSorted id place rest

theorem mem_insertSorted {id : SubscriberId} {place : Nat} {entry : SubscriberId × Nat}
    {entries : List (SubscriberId × Nat)} :
    entry ∈ insertSorted id place entries ↔ entry = (id, place) ∨ entry ∈ entries := by
  induction entries with
  | nil => simp [insertSorted]
  | cons first rest ih =>
      unfold insertSorted
      split
      next => simp
      next => simp only [List.mem_cons, ih]; exact or_left_comm

/-- Entries stay in order when an id that none of them has is inserted. -/
theorem ordered_insertSorted {id : SubscriberId} {place : Nat}
    {entries : List (SubscriberId × Nat)}
    (ordered : entries.Pairwise fun first second => first.1.number < second.1.number)
    (absent : ∀ entry ∈ entries, entry.1 ≠ id) :
    (insertSorted id place entries).Pairwise
      fun first second => first.1.number < second.1.number := by
  induction entries with
  | nil => exact List.pairwise_singleton _ _
  | cons first rest ih =>
      have ⟨below, later⟩ := List.pairwise_cons.1 ordered
      unfold insertSorted
      split
      next before =>
          refine List.pairwise_cons.2 ⟨fun entry member => ?_, ordered⟩
          rcases List.mem_cons.1 member with rfl | member
          · exact before
          · exact Nat.lt_trans before (below entry member)
      next notBefore =>
          refine List.pairwise_cons.2 ⟨fun entry member => ?_, ?_⟩
          · rcases mem_insertSorted.1 member with rfl | member
            · have differs : first.1.number ≠ id.number := fun same =>
                absent first List.mem_cons_self (congrArg SubscriberId.mk same)
              exact Nat.lt_of_le_of_ne (Nat.le_of_not_lt notBefore) differs
            · exact below entry member
          · exact ih later fun entry member => absent entry (List.mem_cons_of_mem _ member)

/-- The roster with a subscriber in place of any other of its id. -/
def insert (roster : Roster) (id : SubscriberId) (place : Nat) : Roster where
  entries := insertSorted id place (roster.without id).entries
  ordered := ordered_insertSorted (roster.without id).ordered (by simp [without])

theorem place?_without (roster : Roster) (id query : SubscriberId) :
    (roster.without id).place? query = if query = id then none else roster.place? query := by
  obtain ⟨entries, ordered⟩ := roster
  simp only [place?, without]
  clear ordered
  induction entries with
  | nil => simp
  | cons entry rest ih =>
      by_cases gone : entry.1 = id <;> by_cases hit : entry.1 = query <;>
        by_cases same : query = id <;> simp_all

theorem find?_insertSorted (id query : SubscriberId) (place : Nat)
    (entries : List (SubscriberId × Nat)) (absent : ∀ entry ∈ entries, entry.1 ≠ id) :
    (insertSorted id place entries).find? (fun entry => entry.1 = query) =
      if query = id then some (id, place)
      else entries.find? fun entry => entry.1 = query := by
  induction entries with
  | nil => by_cases same : query = id <;> simp [insertSorted, same, eq_comm]
  | cons first rest ih =>
      have later := ih fun entry member => absent entry (List.mem_cons_of_mem _ member)
      have differs := absent first List.mem_cons_self
      unfold insertSorted
      by_cases same : query = id
      · subst same
        split <;> simp_all
      · by_cases hit : first.1 = query <;> split <;> simp_all [eq_comm]

theorem place?_insert (roster : Roster) (id query : SubscriberId) (place : Nat) :
    (roster.insert id place).place? query =
      if query = id then some place else roster.place? query := by
  have other := roster.place?_without id query
  unfold place? insert at *
  rw [find?_insertSorted _ _ _ _ (by simp [without])]
  by_cases same : query = id
  · simp [same]
  · simpa [same] using other

/-! ## Hanging up -/

/-- The mailroom after the subscriber of an id, if there is one, lost its sending end. -/
def hangUp (roster : Roster) (id : SubscriberId) (room : Mailroom) : Mailroom :=
  match roster.place? id with
  | some place => room.modify place Mailbox.hangUp
  | none => room

/-- The mailroom after the subscribers of some ids lost their sending ends. -/
def hangUpEach (roster : Roster) (ids : List SubscriberId) (room : Mailroom) : Mailroom :=
  ids.foldl (fun room id => roster.hangUp id room) room

def hangUpAll (roster : Roster) (room : Mailroom) : Mailroom :=
  roster.places.foldl (fun room place => room.modify place Mailbox.hangUp) room

/-! ## Offering an event -/

/-- Offers an event to subscribers in turn. -/
def offerEach (event : Event) :
    List (SubscriberId × Nat) → Mailroom → Mailroom × Tally
  | [], room => (room, .blank)
  | (id, place) :: rest, room =>
      let offered := offerEach event rest (room.modify place fun box => box.offer event)
      (offered.1, offered.2.note id (room.verdict place))

def offerAll (roster : Roster) (event : Event) (room : Mailroom) : Mailroom × Tally :=
  offerEach event roster.entries room

end Roster

end UpdateRelay
