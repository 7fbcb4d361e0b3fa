import UpdateRelay.Journal.Basic

/-!
# Readers that wait

A desk is a journal together with readers that are known by name. A reader can be left waiting for
its next record; those that wait stand in a line and are served in the order in which they began,
whenever the journal has something for them. A waiting reader whose name is taken away stays in
the line, takes one more record and leaves then.
-/

namespace UpdateRelay

/-- What a reader got: a record, or the failure that ends its reading. -/
abbrev ReadResult := Except JournalFailure JournalRecord

/-- What a named reader is doing: nothing, waiting under some number, or having got something that
was not asked for yet. -/
inductive Seat
  | idle (reader : Reader)
  | waiting (ticket : Nat)
  | served (reader : Reader) (result : ReadResult)

/-- A reader that waits in the line. -/
structure Waiter where
  ticket : Nat
  reader : Reader
  deriving DecidableEq, Repr

/-- A journal, its named readers and the line of those that wait. -/
structure Desk where
  journal : Journal
  seats : Table String Seat
  line : List Waiter
  nextTicket : Nat

/-- The reader after it looked for a record, the journal after that, and what it got, if it need
not wait. -/
def Journal.poll (journal : Journal) (reader : Reader) : Reader × Journal × Option ReadResult :=
  let looked := journal.look reader
  match journal.peek reader with
  | .error cause => (looked, journal, some (.error cause))
  | .ok none => (looked, journal, none)
  | .ok (some record) => (looked, journal.take reader, some (.ok record))

namespace Desk

def empty (createsOnDemand : Bool) : Desk := ⟨.empty createsOnDemand, ∅, [], 0⟩

/-! ## Serving the line -/

/-- Who waits under a number, if a name still stands for it. -/
def holder? (desk : Desk) (ticket : Nat) : Option String :=
  (desk.seats.entries.find? fun entry =>
    match entry.2 with
    | .waiting held => held = ticket
    | _ => false).map Prod.fst

/-- Hands a result to the reader that waited for it; one without a name leaves its group. -/
def deliver (desk : Desk) (ticket : Nat) (reader : Reader) (result : ReadResult) : Desk :=
  match desk.holder? ticket with
  | some name => { desk with seats := desk.seats.replace name (.served reader result) }
  | none => { desk with journal := desk.journal.leave reader }

/-- Serves the readers of a line in turn. -/
def serveEach : List Waiter → Desk → Desk
  | [], desk => desk
  | waiter :: rest, desk =>
      if desk.journal.mustLook waiter.reader then
        match desk.journal.poll waiter.reader with
        | (reader, journal, some result) =>
            serveEach rest ({ desk with journal := journal }.deliver waiter.ticket reader result)
        | (reader, journal, none) =>
            -- Another member of the group was faster.
            serveEach rest
              { desk with journal := journal, line := desk.line ++ [⟨waiter.ticket, reader⟩] }
      else serveEach rest { desk with line := desk.line ++ [waiter] }

/-- Serves the line once; who gets nothing keeps its place. -/
def serve (desk : Desk) : Desk := serveEach desk.line { desk with line := [] }

/-- The desk after something happened to its journal, with the line served. -/
def withJournal (desk : Desk) (journal : Journal) : Desk := { desk with journal := journal }.serve

/-! ## Named readers -/

/-- The journal after what a seat holds was given up. -/
def vacate (desk : Desk) (name : String) : Desk :=
  match desk.seats.get? name with
  | some (.idle reader) | some (.served reader _) =>
      { desk with journal := desk.journal.leave reader, seats := desk.seats.erase name }
  | some (.waiting _) => { desk with seats := desk.seats.erase name }
  | none => desk

/-- Opens a reader under a name; a reader that had the name is given up after that. -/
def attach (desk : Desk) (name topic group : String) : Desk × Except JournalFailure Unit :=
  match desk.journal.attach topic group with
  | (journal, .error cause) => ({ desk with journal := journal }, .error cause)
  | (journal, .ok reader) =>
      let vacated := { desk with journal := journal }.vacate name
      ({ vacated with seats := vacated.seats.set name (.idle reader) }, .ok ())

/-- The reader of a name, if it is there and does not wait. -/
def idle? (desk : Desk) (name : String) : Option Reader :=
  match desk.seats.get? name with
  | some (.idle reader) => some reader
  | _ => none

/-- What an idle reader gets without waiting. -/
def next (desk : Desk) (name : String) (reader : Reader) : Desk × Option ReadResult :=
  let (looked, journal, result) := desk.journal.poll reader
  ({ desk with journal := journal, seats := desk.seats.replace name (.idle looked) }, result)

/-- Lets an idle reader wait for its next record. -/
def wait (desk : Desk) (name : String) (reader : Reader) : Desk :=
  match desk.journal.poll reader with
  | (looked, journal, some result) =>
      { desk with journal := journal, seats := desk.seats.replace name (.served looked result) }
  | (looked, journal, none) =>
      { journal := journal
        seats := desk.seats.replace name (.waiting desk.nextTicket)
        line := desk.line ++ [⟨desk.nextTicket, looked⟩]
        nextTicket := desk.nextTicket + 1 }

/-- What the reader of a name got, after which it is idle again. -/
def collect (desk : Desk) (name : String) : Desk × Option ReadResult :=
  match desk.seats.get? name with
  | some (.served reader result) =>
      ({ desk with seats := desk.seats.replace name (.idle reader) }, some result)
  | _ => (desk, none)

/-- Lets an idle reader leave its group, which it stays able to be asked. -/
def closeReader (desk : Desk) (name : String) (reader : Reader) : Desk :=
  { desk with
    journal := desk.journal.leave reader
    seats := desk.seats.replace name (.idle reader.release) }

end Desk

end UpdateRelay
