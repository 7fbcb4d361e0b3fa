import UpdateRelay.Framing
import UpdateRelay.Mail.Mailbox
import UpdateRelay.Session.Basic

/-!
# Connections

How a session and its client reach each other: by messages, through a queue of commands and a
bounded queue of events, or by lines, through two bounded pipes of bytes. A connection holds both
sides. A client that drops its side of a connection by messages gives up the events only; its queue
of commands outlives them.
-/

namespace UpdateRelay

/-- A bounded pipe of bytes, and which of its two ends are still held. -/
structure Pipe where
  capacity : Nat
  bytes : Bytes
  hasWriter : Bool
  hasReader : Bool
  deriving DecidableEq, Repr

namespace Pipe

def fresh (capacity : Nat) : Pipe := ⟨capacity, [], true, true⟩

def space (pipe : Pipe) : Nat := pipe.capacity - pipe.bytes.length

/-- The pipe after as much was written as fits. -/
def write (pipe : Pipe) (bytes : Bytes) : Pipe :=
  { pipe with bytes := pipe.bytes ++ bytes.take pipe.space }

end Pipe

/-- A connection by lines: the client's bytes, what the session has read of them and which items
it has not taken yet; the session's bytes, and the rest of a line that did not fit. -/
structure LineLink where
  inbound : Pipe
  reader : LineReader
  heard : List CommandItem
  outbound : Pipe
  unsent : Bytes

/-- A connection by messages: the commands that were not taken yet, whether more may come, and the
queue of events. -/
structure MessageLink where
  inbox : List CommandItem
  isOpen : Bool
  outbox : Mailbox

inductive Connection
  | messages (link : MessageLink)
  | lines (link : LineLink)

/-- How many bytes are read at a time. -/
def readSize : Nat := 8192

namespace LineLink

def fresh (buffer : Nat) : LineLink := ⟨.fresh buffer, .start, [], .fresh buffer, []⟩

/-- The items that a reader has for the session. -/
def hear (link : LineLink) (reader : LineReader) : LineLink :=
  { link with reader := { reader with said := [] }, heard := link.heard ++ reader.items }

/-- Reads on until there is an item to take or nothing more to read, for some number of reads at
the most. -/
def listen : (reads : Nat) → LineLink → LineLink
  | 0, link => link
  | reads + 1, link =>
      if !link.heard.isEmpty ∨ link.reader.failed then link
      else if link.inbound.bytes.isEmpty then
        if link.inbound.hasWriter then link else link.hear link.reader.finish
      else
        let piece := link.inbound.bytes.take readSize
        let rest := link.inbound.bytes.drop readSize
        listen reads
          ({ link with inbound := { link.inbound with bytes := rest } }.hear
            (link.reader.feed piece))

/-- What the client has for the session. -/
def command (link : LineLink) : Intake CommandItem :=
  match link.heard with
  | item :: _ => .item item
  | [] =>
      if link.reader.failed ∨ (link.inbound.bytes.isEmpty ∧ !link.inbound.hasWriter) then .ended
      else .nothing

/-- Writes as much of an unfinished line as fits. -/
def push (link : LineLink) : LineLink :=
  if link.outbound.hasReader then
    { link with
      outbound := link.outbound.write link.unsent
      unsent := link.unsent.drop link.outbound.space }
  else link

/-- What has come of the line that is being sent. -/
def sent? (link : LineLink) : Option (Except SessionFailure Unit) :=
  if link.unsent.isEmpty then some (.ok ())
  else if link.outbound.hasReader then none
  else some (.error .brokenPipe)

end LineLink

namespace Connection

/-- A new connection by messages, which holds some number of events. -/
def ofMessages (capacity : Nat) : Connection := messages ⟨[], true, .fresh capacity⟩

/-- A new connection by lines, which holds some number of bytes a way. -/
def ofLines (buffer : Nat) : Connection := lines (.fresh buffer)

/-! ## The session's side -/

/-- Reads what the session will look at when it listens. -/
def listen : Connection → Connection
  | messages link => messages link
  | lines link => lines (link.listen (link.inbound.bytes.length / readSize + 2))

def command : Connection → Intake CommandItem
  | messages link =>
      match link.inbox with
      | item :: _ => .item item
      | [] => if link.isOpen then .nothing else .ended
  | lines link => link.command

/-- The connection after the session took a command. -/
def takeCommand : Connection → Connection
  | messages link => messages { link with inbox := link.inbox.tail }
  | lines link => lines { link with heard := link.heard.tail }

/-- Begins to send an event. -/
def beginSend (event : Event) : Connection → Connection
  | messages link => messages link
  | lines link => lines { link with unsent := eventLine event }

/-- Takes the sending of an event as far as there is space for it. -/
def push : Connection → Connection
  | messages link => messages link
  | lines link => lines link.push

/-- What has come of the event that is being sent. -/
def sent? : Connection → Option (Except SessionFailure Unit)
  | messages link =>
      match link.outbox.verdict with
      | .delivered => some (.ok ())
      | .dropped => none
      | .disconnected => some (.error .disconnected)
  | lines link => link.sent?

def endSend (event : Event) : Connection → Connection
  | messages link => messages { link with outbox := link.outbox.offer event }
  | lines link => lines link

def leave : Connection → Connection
  | messages link => messages ⟨[], false, link.outbox.hangUp⟩
  | lines link =>
      lines { link with
        inbound := { link.inbound with hasReader := false }
        heard := []
        outbound := { link.outbound with hasWriter := false }
        unsent := [] }

/-- How many steps a session can take before it needs its client again, beside those for events. -/
def pendingItems : Connection → Nat
  | messages link => link.inbox.length
  | lines link => link.heard.length + link.inbound.bytes.length + link.reader.size

/-! ## The client's side -/

/-- Queues what a client has for the session and tells how many were accepted. -/
def send (items : List CommandItem) : Connection → Connection × Nat
  | messages link =>
      if link.isOpen then (messages { link with inbox := link.inbox ++ items }, items.length)
      else (messages link, 0)
  | lines link => (lines link, 0)

/-- Ends the client's commands. -/
def endCommands : Connection → Connection
  | messages link => messages { link with isOpen := false }
  | lines link => lines { link with inbound := { link.inbound with hasWriter := false } }

def dropClient : Connection → Connection
  | messages link => messages { link with outbox := link.outbox.abandon }
  | lines link =>
      lines { link with
        inbound := { link.inbound with hasWriter := false }
        outbound := { link.outbound with hasReader := false, bytes := [] } }

def receipt : Connection → Receipt
  | messages link => link.outbox.receipt
  | lines _ => .closed

def receive : Connection → Connection
  | messages link => messages { link with outbox := link.outbox.receive }
  | lines link => lines link

/-- The events that the client can take now. -/
def available : Connection → List Event
  | messages link => link.outbox.queue
  | lines _ => []

def drain : Connection → Connection
  | messages link => messages { link with outbox := link.outbox.drain }
  | lines link => lines link

/-- What came of a client's write: all of it fitted, not all of it did, or nobody reads. -/
inductive Written
  | whole
  | blocked
  | broken
  deriving DecidableEq, Repr

/-- Writes as much as fits. -/
def write (bytes : Bytes) : Connection → Connection × Written
  | messages link => (messages link, .broken)
  | lines link =>
      if bytes.isEmpty then (lines link, .whole)
      else if link.inbound.hasReader ∧ link.inbound.hasWriter then
        (lines { link with inbound := link.inbound.write bytes },
          if bytes.length ≤ link.inbound.space then .whole else .blocked)
      else (lines link, .broken)

/-- The bytes that the client can read now. -/
def readable : Connection → Bytes
  | messages _ => []
  | lines link => link.outbound.bytes

def read : Connection → Connection
  | messages link => messages link
  | lines link => lines { link with outbound := { link.outbound with bytes := [] } }

end Connection

end UpdateRelay
