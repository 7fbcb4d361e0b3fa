import Mathlib.Data.List.Basic
import UpdateRelay.Proofs.Framing
import UpdateRelay.Proofs.Json.Record
import UpdateRelay.Session.Connection

/-!
# Lines in both directions

An event or a command is written as one line: no byte of its object is a control byte, so that only
the newline behind it ends the line. Cutting the bytes at newlines gives back the lines, and reading
each gives back what was written. `eventLines_read_back` says so of the events that a session sends,
also where the pipe to the client takes a line in several parts; `commandLines_read_back` of the
commands that a client sends, however the bytes arrive.
-/

namespace UpdateRelay

/-! ## Lines -/

theorem writeLine_append (line rest : Bytes) : writeLine line ++ rest = line ++ newline :: rest :=
  List.append_assoc _ _ _

/-- Lines that are written one after the other are found again. -/
theorem endedLines_flatMap_writeLine {lines : List Bytes} (free : ∀ line ∈ lines, newline ∉ line) :
    endedLines (lines.flatMap writeLine) = lines ∧ lastLine (lines.flatMap writeLine) = [] := by
  induction lines with
  | nil => exact ⟨rfl, rfl⟩
  | cons line lines ih =>
      obtain ⟨ended, last⟩ := ih fun other member => free other (List.mem_cons_of_mem line member)
      obtain ⟨first, rest⟩ := lines_append_newline (free line List.mem_cons_self)
        (lines.flatMap writeLine)
      rw [List.flatMap_cons, writeLine_append, first, rest, ended, last]
      exact ⟨rfl, rfl⟩

/-- Bytes without control bytes do not end a line. -/
theorem Json.Plain.not_mem {line : Bytes} (plain : Json.Plain line) :
    newline ∉ line ∧ carriageReturn ∉ line := by
  constructor
  · intro member
    have visible := plain.visible _ member
    contradiction
  · intro member
    have visible := plain.visible _ member
    contradiction

/-! ## Objects on a line -/

/-- What stands in an object, with the braces around it. -/
def Json.braced (inner : String) : String := "\x7b" ++ inner ++ "\x7d"

/-- Characters that do not begin or end with white space are not trimmed. -/
theorem Text.trimChars_of_ends {first last : Char} (opens : Text.isBlank first = false)
    (closes : Text.isBlank last = false) (inner : List Char) :
    Text.trimChars (first :: (inner ++ [last])) = first :: (inner ++ [last]) := by
  have kept : ∀ {c : Char}, Text.isBlank c = false → ∀ rest,
      (c :: rest).dropWhile Text.isBlank = c :: rest := fun visible _ =>
    List.dropWhile_cons_of_neg (by simp [visible])
  rw [Text.trimChars, kept opens, ← List.cons_append, List.reverse_concat, kept closes,
    ← List.reverse_concat, List.reverse_reverse]

theorem Json.trim_braced (inner : String) : Text.trim (braced inner) = braced inner := by
  have chars : (braced inner).toList = '\x7b' :: (inner.toList ++ ['\x7d']) := by
    rw [braced, String.toList_append, String.toList_append]
    rfl
  rw [Text.trim, chars, Text.trimChars_of_ends rfl rfl, ← chars, String.ofList_toList]

theorem Json.Plain.object {members : List (String × Bytes)}
    (values : ∀ member ∈ members, Json.Plain member.2) : Json.Plain (Json.writeObject members) := by
  have opening : Json.Plain [0x7b] := Json.plain_byte (by decide) (by decide)
  have closing : Json.Plain [0x7d] := Json.plain_byte (by decide) (by decide)
  exact opening.append ((Json.plain_members values).append closing)

/-- An object of plain values is a text between braces. -/
theorem Json.writeObject_eq_ofText {members : List (String × Bytes)}
    (values : ∀ member ∈ members, Json.Plain member.2) :
    ∃ inner, Json.writeObject members = Bytes.ofText (Json.braced inner) := by
  obtain ⟨inner, spelled⟩ := (Json.plain_members values).isText
  refine ⟨inner, ?_⟩
  rw [Json.braced, Bytes.ofText_append, Bytes.ofText_append, ← spelled]
  rfl

theorem Event.plain_toJson (event : Event) : Json.Plain event.toJson := by
  refine Json.Plain.object ?_
  simp [Json.plain_quote, Json.plain_writeInteger]

theorem Command.plain_toJson (command : Command) : Json.Plain command.toJson := by
  refine Json.Plain.object ?_
  simp [Json.plain_quote]

/-! ## Events to a client -/

/-- What happens between a session that sends events by lines and its client. -/
inductive Transmission
  | begin (event : Event)
  | push
  | read

/-- A connection with the events whose lines were begun on it and the bytes that the client has
read. -/
structure Transfer where
  connection : Connection
  begun : List Event
  taken : Bytes

namespace Transfer

/-- A new connection by lines, which holds some number of bytes. -/
def fresh (buffer : Nat) : Transfer := ⟨.ofLines buffer, [], []⟩

/-- A line is begun when the one before it is gone. -/
def perform (transfer : Transfer) : Transmission → Transfer
  | .begin event =>
      match transfer.connection.sent? with
      | some (.ok ()) =>
          { transfer with
            connection := transfer.connection.beginSend event
            begun := transfer.begun ++ [event] }
      | _ => transfer
  | .push => { transfer with connection := transfer.connection.push }
  | .read =>
      { transfer with
        connection := transfer.connection.read
        taken := transfer.taken ++ transfer.connection.readable }

def performAll (transfer : Transfer) (course : List Transmission) : Transfer :=
  course.foldl perform transfer

/-- The bytes that have gone into the pipe. -/
def written (transfer : Transfer) : Bytes := transfer.taken ++ transfer.connection.readable

/-- What went into the pipe and what is still to be written are the lines of the events begun. -/
structure Carries (transfer : Transfer) (link : LineLink) : Prop where
  byLines : transfer.connection = .lines link
  hasReader : link.outbound.hasReader = true
  bytes : transfer.written ++ link.unsent = transfer.begun.flatMap eventLine

theorem carries_fresh (buffer : Nat) : (fresh buffer).Carries (.fresh buffer) := ⟨rfl, rfl, rfl⟩

theorem Carries.perform {transfer : Transfer} {link : LineLink} (carries : transfer.Carries link)
    (transmission : Transmission) :
    ∃ after, (transfer.perform transmission).Carries after := by
  obtain ⟨connection, begun, taken⟩ := transfer
  obtain ⟨rfl, hasReader, bytes⟩ := carries
  cases transmission with
  | begin event =>
      -- A line is begun only behind the whole of the one before it.
      by_cases gone : link.unsent = []
      · have ready : (Connection.lines link).sent? = some (.ok ()) := by
          simp [Connection.sent?, LineLink.sent?, gone]
        refine ⟨{ link with unsent := eventLine event }, ?_⟩
        simp only [Transfer.perform, ready]
        rw [gone, List.append_nil] at bytes
        refine ⟨rfl, hasReader, ?_⟩
        rw [List.flatMap_append, ← bytes, List.flatMap_singleton]
        rfl
      · have busy : (Connection.lines link).sent? = none := by
          simp [Connection.sent?, LineLink.sent?, gone, hasReader]
        refine ⟨link, ?_⟩
        simp only [Transfer.perform, busy]
        exact ⟨rfl, hasReader, bytes⟩
  | push =>
      refine ⟨link.push, rfl, ?_, ?_⟩
      · rw [LineLink.push, if_pos hasReader]
        exact hasReader
      · -- What fits goes into the pipe, and the rest of the line waits.
        have moved : link.push.outbound.bytes ++ link.push.unsent =
            link.outbound.bytes ++ link.unsent := by
          rw [LineLink.push, if_pos hasReader]
          simp [Pipe.write]
        calc taken ++ link.push.outbound.bytes ++ link.push.unsent
            = taken ++ (link.outbound.bytes ++ link.unsent) := by rw [List.append_assoc, moved]
          _ = begun.flatMap eventLine := by rw [← List.append_assoc]; exact bytes
  | read =>
      refine ⟨{ link with outbound := { link.outbound with bytes := [] } }, rfl, hasReader, ?_⟩
      exact (congrArg (· ++ link.unsent) (List.append_nil _)).trans bytes

theorem Carries.performAll {transfer : Transfer} {link : LineLink}
    (carries : transfer.Carries link) (course : List Transmission) :
    ∃ after, (transfer.performAll course).Carries after := by
  induction course generalizing transfer link with
  | nil => exact ⟨link, carries⟩
  | cons transmission course ih =>
      obtain ⟨next, step⟩ := carries.perform transmission
      exact ih step

/-- The bytes in the pipe are a start of the lines begun, and all of them once nothing is left to be
written. -/
theorem Carries.written_eq {transfer : Transfer} {link : LineLink}
    (carries : transfer.Carries link) :
    transfer.written <+: transfer.begun.flatMap eventLine ∧
      (transfer.connection.sent? = some (.ok ()) →
        transfer.written = transfer.begun.flatMap eventLine) := by
  refine ⟨⟨link.unsent, carries.bytes⟩, fun sent => ?_⟩
  have gone : link.unsent = [] := by
    rw [carries.byLines] at sent
    simpa [Connection.sent?, LineLink.sent?, carries.hasReader] using sent
  rw [← carries.bytes, gone, List.append_nil]

end Transfer

/-- The bytes of a list of events are one line for each event, which hold neither a newline nor a
carriage return, and reading the lines gives back the events. These are the bytes that a connection
by lines carries, whatever its capacity and whenever its ends take their turns: at any time a start
of the lines of the events begun, and all of them once the last is sent. -/
theorem eventLines_read_back (events : List Event) :
    let bytes := events.flatMap eventLine
    endedLines bytes = events.map Event.toJson ∧ lastLine bytes = [] ∧
      (∀ line ∈ endedLines bytes, newline ∉ line ∧ carriageReturn ∉ line) ∧
      (endedLines bytes).map Event.ofJson? = events.map some ∧
      ∀ buffer course,
        let transfer := (Transfer.fresh buffer).performAll course
        transfer.written <+: transfer.begun.flatMap eventLine ∧
          (transfer.connection.sent? = some (.ok ()) →
            transfer.written = transfer.begun.flatMap eventLine) := by
  have whole : ∀ line ∈ events.map Event.toJson, newline ∉ line ∧ carriageReturn ∉ line := by
    intro line member
    obtain ⟨event, -, rfl⟩ := List.mem_map.mp member
    exact event.plain_toJson.not_mem
  have lines : events.flatMap eventLine = (events.map Event.toJson).flatMap writeLine :=
    (List.flatMap_map Event.toJson writeLine events).symm
  obtain ⟨ended, last⟩ := endedLines_flatMap_writeLine fun line member => (whole line member).1
  rw [← lines] at ended last
  intro bytes
  rw [ended]
  refine ⟨rfl, last, whole, ?_, fun buffer course => ?_⟩
  · rw [List.map_map]
    exact List.map_congr_left fun event _ => event.ofJson?_toJson
  · obtain ⟨link, carries⟩ := (Transfer.carries_fresh buffer).performAll course
    exact carries.written_eq

/-! ## Commands to a session -/

theorem dropCarriageReturn_of_not_mem {line : Bytes} (free : carriageReturn ∉ line) :
    dropCarriageReturn line = line :=
  if_neg fun last => free (List.mem_of_getLast? last)

/-- A command that is not too long for a line is what its line says. -/
theorem lineSays?_toJson {command : Command} (short : command.toJson.length ≤ lineLimit) :
    lineSays? command.toJson = some (.ok command) := by
  obtain ⟨inner, spelled⟩ : ∃ inner, command.toJson = Bytes.ofText (Json.braced inner) :=
    Json.writeObject_eq_ofText (by simp [Json.plain_quote])
  have text : Bytes.text? command.toJson = some (Json.braced inner) :=
    Bytes.text?_eq_some_iff.mpr spelled
  rw [lineSays?, if_neg (Nat.not_lt.mpr short),
    dropCarriageReturn_of_not_mem command.plain_toJson.not_mem.2, text]
  simp only [Json.trim_braced, ← spelled, command.ofJson?_toJson, Option.map_some]

/-- Reads whose bytes stop behind a newline say what the ended lines say. -/
theorem commandItems_of_lastLine_nil {reads : List Bytes} (none : lastLine reads.flatten = []) :
    commandItems (reads.map .piece) =
      throughFailure ((endedLines reads.flatten).filterMap lineSays?) := by
  have fed := LineReader.readAll_pieces reads [] .start
  have heard := LineReader.closing_finish.items_feed reads.flatten LineReader.inLine_start
  rw [List.append_nil] at fed
  rw [List.nil_append, none, if_pos rfl, List.append_nil] at heard
  rw [commandItems, fed]
  exact heard

theorem throughFailure_map_ok (commands : List Command) :
    throughFailure (commands.map .ok) = commands.map .ok := by
  induction commands with
  | nil => rfl
  | cons command commands ih => rw [List.map_cons, throughFailure, ih]

/-- Commands that are written one on a line, none too long for a line, are heard in order and
without a failure, however their bytes are cut into reads. Each asks for the action that its word
spells. -/
theorem commandLines_read_back (commands : List Command)
    (short : ∀ command ∈ commands, command.toJson.length ≤ lineLimit) (reads : List Bytes)
    (cut : reads.flatten = commands.flatMap fun command => writeLine command.toJson) :
    commandItems (reads.map .piece) = commands.map .ok ∧
      ∀ command ∈ commands,
        (command.action? = some .subscribe ↔ command.action = "subscribe") ∧
          (command.action? = some .update ↔ command.action = "update") := by
  refine ⟨?_, fun command _ => ⟨Action.ofWord?_eq_some_iff _ _, Action.ofWord?_eq_some_iff _ _⟩⟩
  have free : ∀ line ∈ commands.map Command.toJson, newline ∉ line := by
    intro line member
    obtain ⟨command, -, rfl⟩ := List.mem_map.mp member
    exact command.plain_toJson.not_mem.1
  obtain ⟨ended, last⟩ := endedLines_flatMap_writeLine free
  rw [List.flatMap_map, ← cut] at ended last
  have heard : (commands.map Command.toJson).filterMap lineSays? = commands.map .ok := by
    rw [List.filterMap_map]
    exact List.filterMap_eq_map_iff_forall_eq_some.mpr fun command member =>
      lineSays?_toJson (short command member)
  rw [commandItems_of_lastLine_nil last, ended, heard, throughFailure_map_ok]

/-- Words with a newline, a quotation mark, a backslash and characters beyond ASCII in them, with
cuts inside of such a character and of an escape. -/
theorem commandLines_read_back_escaped :
    let commands : List Command :=
      [⟨"\n\"\\\u0085é", "subscribe"⟩, ⟨"\r\n", "Update"⟩, ⟨"", "update"⟩]
    let bytes := commands.flatMap fun command => writeLine command.toJson
    let reads := [bytes.take 17, (bytes.take 23).drop 17, bytes.drop 23]
    (∀ command ∈ commands, command.toJson.length ≤ lineLimit) ∧ reads.flatten = bytes ∧
      commandItems (reads.map .piece) = commands.map .ok := by
  intro commands bytes reads
  have short : ∀ command ∈ commands, command.toJson.length ≤ lineLimit := by decide
  have cut : reads.flatten = bytes := by decide
  exact ⟨short, cut, (commandLines_read_back commands short reads cut).1⟩

end UpdateRelay
