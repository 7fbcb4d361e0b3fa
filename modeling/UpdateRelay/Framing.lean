import UpdateRelay.Failure
import UpdateRelay.Json.Messages
import UpdateRelay.Text.Blank

/-!
# Lines of commands

A client writes one command a line. `LineReader` takes the client's bytes in pieces of any size and
gives what the lines say, in order: a command, nothing for a line that holds none, or the failure
that ends the reading. `commandItems` does so for a whole connection.
-/

namespace UpdateRelay

def newline : UInt8 := 0x0a

/-- The byte that is dropped before the end of a line. -/
def carriageReturn : UInt8 := 0x0d

/-- How many bytes a line may have before its end. -/
def lineLimit : Nat := 8192

/-- What a client has for a session: a command, or the failure that ends the reading of commands. -/
abbrev CommandItem := Except SessionFailure Command

/-- The line without one carriage return at its end. -/
def dropCarriageReturn (line : Bytes) : Bytes :=
  if line.getLast? = some carriageReturn then line.dropLast else line

/-- The command that the text of a line holds, white space around it aside. -/
def parseCommand? (text : String) : Option Command :=
  if Text.isBlankText text then none
  else Command.ofJson? (Bytes.ofText (Text.trim text))

/-- What a line says; one that is text but holds no command says nothing. -/
def lineItem? (line : Bytes) : Option CommandItem :=
  match Bytes.text? (dropCarriageReturn line) with
  | none => some (.error .lineNotText)
  | some text => (parseCommand? text).map .ok

/-- A line as it is written to a client. -/
def writeLine (content : Bytes) : Bytes := content ++ [newline]

/-- The line that tells a client of an event. -/
def eventLine (event : Event) : Bytes := writeLine event.toJson

/-! ## Reading in pieces -/

/-- A reader of lines: the line that has not ended yet, last byte first, with its size, what the
lines have said, last first, and whether a failure has ended the reading. -/
structure LineReader where
  unfinished : Bytes
  size : Nat
  said : List CommandItem
  failed : Bool
  deriving Repr

namespace LineReader

def start : LineReader := ⟨[], 0, [], false⟩

def fail (reader : LineReader) (cause : SessionFailure) : LineReader :=
  ⟨[], 0, .error cause :: reader.said, true⟩

def endLine (reader : LineReader) : LineReader :=
  match lineItem? reader.unfinished.reverse with
  | none => ⟨[], 0, reader.said, false⟩
  | some (.ok command) => ⟨[], 0, .ok command :: reader.said, false⟩
  | some (.error cause) => reader.fail cause

def feedByte (reader : LineReader) (byte : UInt8) : LineReader :=
  if reader.failed then reader
  else if byte = newline then reader.endLine
  -- A carriage return counts towards the limit, the newline does not.
  else if lineLimit ≤ reader.size then reader.fail .lineTooLong
  else { reader with unfinished := byte :: reader.unfinished, size := reader.size + 1 }

def feed (reader : LineReader) (piece : Bytes) : LineReader :=
  piece.foldl feedByte reader

/-- The reader after the end of the input: a last line need not be ended. -/
def finish (reader : LineReader) : LineReader :=
  if reader.failed ∨ reader.unfinished = [] then reader else reader.endLine

/-- The reader after its input failed. -/
def breakOff (reader : LineReader) (detail : String) : LineReader :=
  if reader.failed then reader else reader.fail (.io detail)

/-- What the lines have said so far, first first. -/
def items (reader : LineReader) : List CommandItem := reader.said.reverse

end LineReader

/-- One read from a connection: bytes, or a failure. -/
inductive Reading
  | piece (bytes : Bytes)
  | failure (detail : String)
  deriving DecidableEq, Repr

/-- The reader after a connection's reads; a failure is the last of them. -/
def LineReader.readAll (reader : LineReader) : List Reading → LineReader
  | [] => reader.finish
  | .piece bytes :: readings => (reader.feed bytes).readAll readings
  | .failure detail :: _ => reader.breakOff detail

def commandItems (readings : List Reading) : List CommandItem :=
  (LineReader.start.readAll readings).items

end UpdateRelay
