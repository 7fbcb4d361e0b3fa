import UpdateRelay.Mail.Roster

/-!
# Mailing lists

A roster beside all mailboxes that were ever made for it. Whoever is put on it gets a new mailbox;
whoever leaves, or whose id is given to another, loses the sending end of its mailbox and may still
take what is in it.
-/

namespace UpdateRelay

/-- The subscribers of a resource, and all mailboxes that were ever made for them. -/
structure MailingList where
  roster : Roster
  room : Mailroom
  deriving DecidableEq, Repr

namespace MailingList

def empty : MailingList := ⟨.empty, .empty⟩

/-- The list with a subscriber that has a new mailbox, in place of any other of its id. -/
def insert (list : MailingList) (id : SubscriberId) (capacity : Nat) : MailingList :=
  ⟨list.roster.insert id list.room.nextPlace, list.roster.hangUp id (list.room.add capacity)⟩

def remove (list : MailingList) (id : SubscriberId) : MailingList :=
  ⟨list.roster.without id, list.roster.hangUp id list.room⟩

/-- Offers an event to all subscribers. -/
def offer (list : MailingList) (event : Event) : MailingList × Tally :=
  let offered := list.roster.offerAll event list.room
  (⟨list.roster, offered.1⟩, offered.2)

/-- Lets all subscribers go. -/
def close (list : MailingList) : MailingList := ⟨.empty, list.roster.hangUpAll list.room⟩

def modifyBox (list : MailingList) (place : Nat) (change : Mailbox → Mailbox) : MailingList :=
  ⟨list.roster, list.room.modify place change⟩

end MailingList

end UpdateRelay
