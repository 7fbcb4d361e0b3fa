import Mathlib.Data.List.TakeWhile
import UpdateRelay.Framing
import UpdateRelay.Text.Pieces

/-!
# What a client says does not depend on how its bytes arrive

`LineReader` goes through a client's bytes once, in whatever pieces they come. Here the same bytes
are cut at their newlines all at once, `endedLines` and `lastLine`, and each line is looked at by
itself, `lineSays?`. `commandItems_pieces` says that both ways agree: about bytes that come to an
end, and about bytes after which the connection fails.
-/

namespace UpdateRelay

/-! ## Cutting a list with a known start -/

theorem Text.pieces_append {α : Type} [DecidableEq α] {separator : α} {start : List α}
    (free : separator ∉ start) (items : List α) :
    ∃ first more, Text.pieces separator items = first :: more ∧
      Text.pieces separator (start ++ items) = (start ++ first) :: more := by
  obtain ⟨first, more, cut⟩ := List.exists_cons_of_ne_nil (Text.pieces_ne_nil separator items)
  refine ⟨first, more, cut, ?_⟩
  induction start with
  | nil => exact cut
  | cons item start ih =>
      have other : item ≠ separator := fun same => free (same ▸ List.mem_cons_self)
      have rest := ih fun member => free (List.mem_cons_of_mem item member)
      rw [List.cons_append, Text.pieces, if_neg other, rest]
      rfl

theorem Text.pieces_append_separator {α : Type} [DecidableEq α] {separator : α} {start : List α}
    (free : separator ∉ start) (items : List α) :
    Text.pieces separator (start ++ separator :: items) =
      start :: Text.pieces separator items := by
  obtain ⟨first, more, cut, whole⟩ := Text.pieces_append free (separator :: items)
  rw [Text.pieces, if_pos rfl] at cut
  obtain ⟨rfl, rfl⟩ := List.cons.inj cut
  rw [whole, List.append_nil]

/-! ## Lines -/

/-- The lines that a newline ends. -/
def endedLines (bytes : Bytes) : List Bytes := (Text.pieces newline bytes).dropLast

/-- The bytes after the last newline. -/
def lastLine (bytes : Bytes) : Bytes := (Text.pieces newline bytes).getLastD []

/-- All lines; bytes after the last newline are one as well. -/
def linesOf (bytes : Bytes) : List Bytes :=
  endedLines bytes ++ if lastLine bytes = [] then [] else [lastLine bytes]

/-- What a line says by itself. -/
def lineSays? (line : Bytes) : Option CommandItem :=
  if lineLimit < line.length then some (.error .lineTooLong)
  else
    match Bytes.text? (dropCarriageReturn line) with
    | none => some (.error .lineNotText)
    | some text => (Command.ofJson? (Bytes.ofText (Text.trim text))).map .ok

/-- The items up to the first failure, which is the last that is heard. -/
def throughFailure : List CommandItem → List CommandItem
  | [] => []
  | .ok command :: items => .ok command :: throughFailure items
  | .error cause :: _ => [.error cause]

/-- The failure of a connection that fails in the middle of a line. -/
def breakCause (detail : String) (line : Bytes) : SessionFailure :=
  if lineLimit < line.length then .lineTooLong else .io detail

theorem lines_append_newline {line : Bytes} (free : newline ∉ line) (bytes : Bytes) :
    endedLines (line ++ newline :: bytes) = line :: endedLines bytes ∧
      lastLine (line ++ newline :: bytes) = lastLine bytes := by
  have some := Text.pieces_ne_nil newline bytes
  unfold endedLines lastLine
  rw [Text.pieces_append_separator free, List.dropLast_cons_of_ne_nil some]
  refine ⟨rfl, ?_⟩
  rw [List.getLastD_cons, List.getLastD_eq_getLast?, List.getLastD_eq_getLast?,
    List.getLast?_eq_some_getLast some]
  rfl

/-- The line that is being read is the start of the next ended line or of the last one. -/
theorem lines_append {line : Bytes} (free : newline ∉ line) (bytes : Bytes) :
    ∃ first, (endedLines (line ++ bytes) = [] ∧ lastLine (line ++ bytes) = line ++ first) ∨
      ∃ more, endedLines (line ++ bytes) = (line ++ first) :: more := by
  obtain ⟨first, more, -, whole⟩ := Text.pieces_append free bytes
  refine ⟨first, ?_⟩
  unfold endedLines lastLine
  rw [whole]
  cases more with
  | nil => exact .inl ⟨rfl, rfl⟩
  | cons second more => exact .inr ⟨_, rfl⟩

theorem lines_of_not_mem {line : Bytes} (free : newline ∉ line) :
    endedLines line = [] ∧ lastLine line = line := by
  obtain ⟨first, more, cut, whole⟩ := Text.pieces_append free []
  obtain ⟨rfl, rfl⟩ := List.cons.inj cut
  simp only [List.append_nil] at whole
  unfold endedLines lastLine
  rw [whole]
  exact ⟨rfl, rfl⟩

/-! ## One line -/

theorem parseCommand?_eq (text : String) :
    parseCommand? text = Command.ofJson? (Bytes.ofText (Text.trim text)) := by
  unfold parseCommand?
  split
  next blank =>
    have gone : text.toList.dropWhile Text.isBlank = [] :=
      List.dropWhile_eq_nil_iff.mpr (List.all_eq_true.mp blank)
    have trimmed : Text.trim text = "" := by
      rw [Text.trim, Text.trimChars, gone]
      rfl
    rw [trimmed]
    rfl
  next => rfl

theorem lineSays?_eq_lineItem? {line : Bytes} (short : line.length ≤ lineLimit) :
    lineSays? line = lineItem? line := by
  unfold lineSays? lineItem?
  rw [if_neg (Nat.not_lt.mpr short)]
  cases Bytes.text? (dropCarriageReturn line) with
  | none => rfl
  | some text => simp only [parseCommand?_eq]

theorem lineSays?_of_long {line : Bytes} (long : lineLimit < line.length) :
    lineSays? line = some (.error .lineTooLong) := if_pos long

/-! ## The reader -/

namespace LineReader

/-- A reader that is in the middle of a line and has not failed. -/
structure InLine (reader : LineReader) (line : Bytes) : Prop where
  unfinished : reader.unfinished = line.reverse
  size : reader.size = line.length
  sound : reader.failed = false
  short : line.length ≤ lineLimit
  free : newline ∉ line

theorem inLine_start : start.InLine [] := ⟨rfl, rfl, rfl, Nat.zero_le _, List.not_mem_nil⟩

theorem feed_of_failed {reader : LineReader} (failed : reader.failed = true) (piece : Bytes) :
    reader.feed piece = reader := by
  induction piece with
  | nil => rfl
  | cons byte piece ih =>
      have same : reader.feedByte byte = reader := if_pos failed
      rw [feed, List.foldl_cons, same]
      exact ih

theorem items_fail (reader : LineReader) (cause : SessionFailure) :
    (reader.fail cause).items = reader.items ++ [.error cause] := List.reverse_cons

/-- What a reader does at the end of a line: it hears what the line says, and is at the start of
the next line unless that was a failure. -/
theorem endLine_cases {reader : LineReader} {line : Bytes} (inLine : reader.InLine line) :
    reader.endLine.items = reader.items ++ (lineSays? line).toList ∧
      ((∃ cause, lineSays? line = some (.error cause) ∧ reader.endLine.failed = true) ∨
        (∀ cause, lineSays? line ≠ some (.error cause)) ∧ reader.endLine.InLine []) := by
  have fresh : ∀ said, (LineReader.mk [] 0 said false).InLine [] := fun _ =>
    ⟨rfl, rfl, rfl, Nat.zero_le _, List.not_mem_nil⟩
  unfold endLine
  rw [inLine.unfinished, List.reverse_reverse, ← lineSays?_eq_lineItem? inLine.short]
  cases tells : lineSays? line with
  | none => exact ⟨(List.append_nil _).symm, .inr ⟨nofun, fresh _⟩⟩
  | some item =>
      cases item with
      | ok command => exact ⟨List.reverse_cons, .inr ⟨nofun, fresh _⟩⟩
      | error cause => exact ⟨items_fail reader cause, .inl ⟨cause, rfl, rfl⟩⟩

/-- What one byte does to a reader in the middle of a line. -/
inductive Fed (reader : LineReader) (line : Bytes) (byte : UInt8) : Prop
  | ended (same : byte = newline) (turn : reader.feedByte byte = reader.endLine)
  | full (free : newline ∉ line ++ [byte]) (long : lineLimit < (line ++ [byte]).length)
      (turn : reader.feedByte byte = reader.fail .lineTooLong)
  | longer (inLine : (reader.feedByte byte).InLine (line ++ [byte]))
      (heard : (reader.feedByte byte).items = reader.items)

theorem feedByte_cases {reader : LineReader} {line : Bytes} (inLine : reader.InLine line)
    (byte : UInt8) : Fed reader line byte := by
  have sound := inLine.sound
  have size := inLine.size
  have one : (line ++ [byte]).length = line.length + 1 := List.length_append
  by_cases isNewline : byte = newline
  · exact .ended isNewline (by simp [feedByte, sound, isNewline])
  · have free : newline ∉ line ++ [byte] := by
      simpa [Ne.symm isNewline] using inLine.free
    by_cases full : lineLimit ≤ reader.size
    · exact .full free (by omega) (by simp [feedByte, sound, isNewline, full])
    · have turn : reader.feedByte byte =
          { reader with unfinished := byte :: reader.unfinished, size := reader.size + 1 } := by
        simp [feedByte, sound, isNewline, full]
      rw [← inLine.size] at one
      refine .longer ?_ (by rw [turn]; rfl)
      rw [turn]
      exact ⟨by simp [inLine.unfinished], one.symm, sound, by omega, free⟩

/-- A way for the bytes to be over: what a reader does then, and what is heard of the bytes after
the last newline. -/
structure Closing (close : LineReader → LineReader) (last : Bytes → List CommandItem) : Prop where
  failed {reader : LineReader} : reader.failed = true → close reader = reader
  inLine {reader : LineReader} {line : Bytes} : reader.InLine line →
    (close reader).items = reader.items ++ throughFailure (last line)
  long {line : Bytes} : lineLimit < line.length →
    throughFailure (last line) = [.error .lineTooLong]

variable {close : LineReader → LineReader} {last : Bytes → List CommandItem}

/-- Bytes that start with too long a line say that it is too long and nothing else. -/
theorem Closing.throughFailure_of_long (closing : Closing close last) {line : Bytes}
    (free : newline ∉ line) (long : lineLimit < line.length) (bytes : Bytes) :
    throughFailure ((endedLines (line ++ bytes)).filterMap lineSays? ++
      last (lastLine (line ++ bytes))) = [.error .lineTooLong] := by
  have longer : ∀ first, lineLimit < (line ++ first).length := by
    intro first
    rw [List.length_append]
    omega
  obtain ⟨first, ⟨ended, rest⟩ | ⟨more, ended⟩⟩ := lines_append free bytes
  · rw [ended, rest, List.filterMap_nil, List.nil_append, closing.long (longer first)]
  · rw [ended, List.filterMap_cons_some (lineSays?_of_long (longer first))]
    rfl

/-- What a reader in the middle of a line has heard once the bytes that follow are over. -/
theorem Closing.items_feed (closing : Closing close last) (bytes : Bytes) {reader : LineReader}
    {line : Bytes} (inLine : reader.InLine line) :
    (close (reader.feed bytes)).items = reader.items ++
      throughFailure ((endedLines (line ++ bytes)).filterMap lineSays? ++
        last (lastLine (line ++ bytes))) := by
  -- The bytes are taken one at a time; the unfinished line grows into the argument `line`.
  induction bytes generalizing reader line with
  | nil =>
      obtain ⟨ended, whole⟩ := lines_of_not_mem inLine.free
      rw [List.append_nil, ended, whole]
      exact closing.inLine inLine
  | cons byte bytes ih =>
      have step : reader.feed (byte :: bytes) = (reader.feedByte byte).feed bytes := rfl
      rw [step]
      cases feedByte_cases inLine byte with
      | ended same turn =>
          subst same
          obtain ⟨ended, rest⟩ := lines_append_newline inLine.free bytes
          obtain ⟨heard, outcome⟩ := endLine_cases inLine
          rw [turn, ended, rest]
          rcases outcome with ⟨cause, tells, failed⟩ | ⟨fine, fresh⟩
          · rw [feed_of_failed failed, closing.failed failed, heard,
              List.filterMap_cons_some tells, tells]
            rfl
          · rw [ih fresh, heard, List.append_assoc, List.nil_append]
            cases tells : lineSays? line with
            | none => rw [List.filterMap_cons_none tells]; rfl
            | some item =>
                rw [List.filterMap_cons_some tells]
                cases item with
                | ok command => rfl
                | error cause => exact absurd tells (fine cause)
      | full free long turn =>
          have failed : (reader.fail .lineTooLong).failed = true := rfl
          rw [turn, feed_of_failed failed, closing.failed failed, items_fail,
            List.append_cons line byte bytes, closing.throughFailure_of_long free long]
      | longer inLine heard => rw [ih inLine, heard, ← List.append_cons]

/-- The end of the input ends the last line, if there is one. -/
theorem closing_finish :
    Closing finish fun line => if line = [] then [] else (lineSays? line).toList where
  failed failed := if_pos (.inl failed)
  inLine {reader line} inLine := by
    by_cases blank : line = []
    · have none : reader.unfinished = [] := by rw [inLine.unfinished, blank]; rfl
      rw [finish, if_pos (.inr none), if_pos blank]
      exact (List.append_nil _).symm
    · have some : ¬(reader.failed = true ∨ reader.unfinished = []) := by
        simp [inLine.sound, inLine.unfinished, blank]
      rw [finish, if_neg some, if_neg blank, (endLine_cases inLine).1]
      cases lineSays? line with
      | none => rfl
      | some item => cases item <;> rfl
  long {line} long := by
    have some : line ≠ [] := by
      rintro rfl
      contradiction
    rw [if_neg some, lineSays?_of_long long]
    rfl

/-- A failure of the connection is heard in place of a line that could still have ended. -/
theorem closing_breakOff (detail : String) :
    Closing (breakOff · detail) fun line => [.error (breakCause detail line)] where
  failed failed := if_pos failed
  inLine {reader line} inLine := by
    have sound : ¬reader.failed = true := by rw [inLine.sound]; nofun
    have cause : breakCause detail line = .io detail := if_neg (Nat.not_lt.mpr inLine.short)
    rw [breakOff, if_neg sound, items_fail, cause]
    rfl
  long long := by rw [breakCause, if_pos long]; rfl

/-! ## Whole connections -/

/-- Only the bytes of several reads matter. -/
theorem readAll_pieces (reads : List Bytes) (after : List Reading) (reader : LineReader) :
    reader.readAll (reads.map .piece ++ after) = (reader.feed reads.flatten).readAll after := by
  induction reads generalizing reader with
  | nil => rfl
  | cons piece reads ih =>
      have both : reader.feed (piece ++ reads.flatten) = (reader.feed piece).feed reads.flatten :=
        List.foldl_append
      rw [List.flatten_cons, both, ← ih]
      rfl

end LineReader

/-- A connection's items are what the lines of its bytes say, up to the first failure, however the
bytes are cut into reads; if the connection fails, its failure follows what the ended lines say,
unless the line that was being read has become too long already. -/
theorem commandItems_pieces (reads : List Bytes) :
    commandItems (reads.map .piece) =
        throughFailure ((linesOf reads.flatten).filterMap lineSays?) ∧
      ∀ detail after, commandItems (reads.map .piece ++ .failure detail :: after) =
        throughFailure ((endedLines reads.flatten).filterMap lineSays? ++
          [.error (breakCause detail (lastLine reads.flatten))]) := by
  have silent : LineReader.start.items = [] := rfl
  constructor
  · have fed := LineReader.readAll_pieces reads [] .start
    have heard := LineReader.closing_finish.items_feed reads.flatten LineReader.inLine_start
    rw [List.append_nil] at fed
    rw [silent, List.nil_append] at heard
    rw [commandItems, fed, linesOf, List.filterMap_append]
    refine heard.trans ?_
    rw [List.nil_append]
    congr 2
    split
    next => rfl
    next => cases tells : lineSays? (lastLine reads.flatten) <;> simp [tells]
  · intro detail after
    have fed := LineReader.readAll_pieces reads (.failure detail :: after) .start
    have heard := (LineReader.closing_breakOff detail).items_feed reads.flatten
      LineReader.inLine_start
    rw [commandItems, fed]
    exact heard

end UpdateRelay
