import UpdateRelay.Proofs.Bytes
import UpdateRelay.Proofs.Framing
import UpdateRelay.Proofs.Text.Trimming

/-!
# Lines that hold no command

A line that is text but holds no command says nothing, and `LineReader` is after it what it was
before, so that the reading goes on as if the line had not been there. A line whose bytes are not
text is not passed over: it ends the reading. `malformed_line_says_nothing` has both.
-/

namespace UpdateRelay

/-- The command that bytes hold in JSON, white space around it aside. -/
def Command.ofLine? (line : Bytes) : Option Command :=
  (Bytes.text? line).bind fun text => Command.ofJson? (Bytes.ofText (Text.trim text))

/-! ## The end of a line -/

/-- A carriage return at the end of a text's bytes is its last character. -/
theorem Bytes.ofText_eq_append_carriageReturn {front : Bytes} {text : String}
    (spelled : front ++ [carriageReturn] = ofText text) :
    ∃ chars, text = String.ofList (chars ++ ['\r']) ∧ front = ofText (String.ofList chars) := by
  obtain ⟨chars, rfl⟩ : ∃ chars, text = String.ofList chars := ⟨text.toList, by simp⟩
  rw [ofText_ofList] at spelled
  rcases List.eq_nil_or_concat chars with rfl | ⟨chars, last, rfl⟩
  · simp at spelled
  · rw [List.concat_eq_append, List.flatMap_append, List.flatMap_singleton] at spelled
    -- The last byte is the last one of the last character, which is that byte alone.
    obtain ⟨start, byte, ends⟩ := List.eq_nil_or_concat (String.utf8EncodeChar last) |>.resolve_left
      String.utf8EncodeChar_ne_nil
    rw [ends, List.concat_eq_append, ← List.append_assoc] at spelled
    obtain ⟨rfl, same⟩ := List.append_inj' spelled rfl
    obtain rfl := List.singleton_inj.1 same
    have member : carriageReturn ∈ String.utf8EncodeChar last := by simp [ends]
    rcases utf8EncodeChar_cases last with ⟨byte, -, one⟩ | high
    · have alone : String.utf8EncodeChar last = [carriageReturn] := by
        rw [one] at member ⊢
        rw [List.mem_singleton.1 member]
      have isReturn : String.ofList [last] = String.ofList ['\r'] := by
        refine ofText_injective ?_
        rw [ofText_ofList, ofText_ofList, List.flatMap_singleton, alone]
        rfl
      obtain rfl := List.singleton_inj.1 (String.ofList_injective isReturn)
      rw [alone] at ends
      obtain rfl : start = [] := by simpa using ends
      refine ⟨chars, by simp, ?_⟩
      rw [ofText_ofList, List.append_nil]
    · exact absurd (high _ member) (by decide)

/-- A line that is text is text without its carriage return, and the same text but for white
space. -/
theorem text?_dropCarriageReturn {line : Bytes} {text : String}
    (spelled : Bytes.text? line = some text) :
    ∃ kept, Bytes.text? (dropCarriageReturn line) = some kept ∧
      Text.trim kept = Text.trim text := by
  unfold dropCarriageReturn
  split
  next last =>
    obtain ⟨front, rfl⟩ := List.getLast?_eq_some_iff.1 last
    obtain ⟨chars, rfl, rfl⟩ :=
      Bytes.ofText_eq_append_carriageReturn (Bytes.text?_eq_some_iff.1 spelled)
    have blank : Text.AllBlank ['\r'] := by simp [Text.AllBlank, Text.isBlank]
    refine ⟨String.ofList chars, by simp, ?_⟩
    simp [Text.trim, Text.trimChars_append_right blank]
  next => exact ⟨text, spelled, rfl⟩

/-- A line of text that holds no command says nothing. -/
theorem lineSays?_of_malformed {line : Bytes} (short : line.length ≤ lineLimit) {text : String}
    (spelled : Bytes.text? line = some text) (malformed : Command.ofLine? line = none) :
    lineSays? line = none := by
  obtain ⟨kept, isKept, trimmed⟩ := text?_dropCarriageReturn spelled
  have nothing : Command.ofJson? (Bytes.ofText (Text.trim text)) = none := by
    simpa [Command.ofLine?, spelled] using malformed
  simp [lineSays?, Nat.not_lt.2 short, isKept, trimmed, nothing]

/-- A line that is not text is a failure. -/
theorem lineSays?_of_not_text {line : Bytes} (short : line.length ≤ lineLimit)
    (notText : Bytes.text? line = none) : lineSays? line = some (.error .lineNotText) := by
  have still : Bytes.text? (dropCarriageReturn line) = none := by
    unfold dropCarriageReturn
    split
    next last =>
      obtain ⟨front, rfl⟩ := List.getLast?_eq_some_iff.1 last
      rw [List.dropLast_concat]
      refine Option.eq_none_iff_forall_ne_some.2 fun text spelled => ?_
      have whole : front ++ [carriageReturn] = Bytes.ofText (text ++ "\r") := by
        rw [Bytes.ofText_append, ← Bytes.text?_eq_some_iff.1 spelled]
        rfl
      rw [whole, Bytes.text?_ofText] at notText
      contradiction
    next => exact notText
  simp [lineSays?, Nat.not_lt.2 short, still]

/-! ## The reader after a line -/

namespace LineReader

variable {reader : LineReader} {line : Bytes}

theorem feed_append (reader : LineReader) (first second : Bytes) :
    reader.feed (first ++ second) = (reader.feed first).feed second :=
  List.foldl_append

/-- A reader in the middle of a line is known by the line and by what it has heard. -/
theorem InLine.ext {other : LineReader} (inLine : reader.InLine line) (same : other.InLine line)
    (heard : other.items = reader.items) : other = reader := by
  have said : other.said = reader.said := List.reverse_inj.1 heard
  obtain ⟨_, _, _, _⟩ := reader
  obtain ⟨_, _, _, _⟩ := other
  rw [LineReader.mk.injEq]
  exact ⟨same.unfinished.trans inLine.unfinished.symm, same.size.trans inLine.size.symm, said,
    same.sound.trans inLine.sound.symm⟩

/-- More of a line that is not too long says nothing yet. -/
theorem InLine.feed (inLine : reader.InLine line) {more : Bytes} (free : newline ∉ more)
    (short : (line ++ more).length ≤ lineLimit) :
    (reader.feed more).InLine (line ++ more) ∧ (reader.feed more).items = reader.items := by
  induction more generalizing reader line with
  | nil => exact ⟨by simpa [LineReader.feed] using inLine, rfl⟩
  | cons byte more ih =>
    rw [List.append_cons] at short ⊢
    have fits : (line ++ [byte]).length ≤ lineLimit := by
      rw [List.length_append] at short
      exact Nat.le_trans (Nat.le_add_right _ _) short
    cases feedByte_cases inLine byte with
    | ended same => exact absurd (same ▸ List.mem_cons_self) free
    | full _ long => exact absurd fits (Nat.not_le.2 long)
    | longer longer heard =>
      obtain ⟨still, quiet⟩ := ih longer (fun member => free (List.mem_cons_of_mem _ member)) short
      exact ⟨still, quiet.trans heard⟩

/-- A newline ends the line that a reader is in. -/
theorem feed_newline {bytes : Bytes} (inLine : (reader.feed bytes).InLine line) :
    reader.feed (bytes ++ [newline]) = (reader.feed bytes).endLine := by
  have turn : (reader.feed bytes).feed [newline] = (reader.feed bytes).feedByte newline := rfl
  rw [feed_append, turn]
  simp [feedByte, inLine.sound]

/-- A line that says nothing leaves a reader as it was. -/
theorem InLine.feed_silent (inLine : reader.InLine []) (free : newline ∉ line)
    (short : line.length ≤ lineLimit) (silent : lineSays? line = none) :
    reader.feed (line ++ [newline]) = reader := by
  obtain ⟨full, heard⟩ := inLine.feed free short
  obtain ⟨items, ⟨cause, tells, -⟩ | ⟨-, fresh⟩⟩ := endLine_cases full
  · simp [silent] at tells
  · rw [feed_newline full]
    refine inLine.ext fresh ?_
    rw [items, heard, List.nil_append, silent]
    exact List.append_nil _

/-- A line that is a failure is the last that a reader hears. -/
theorem InLine.feed_failing (inLine : reader.InLine []) (free : newline ∉ line)
    (short : line.length ≤ lineLimit) {cause : SessionFailure}
    (tells : lineSays? line = some (.error cause)) :
    (reader.feed (line ++ [newline])).failed = true ∧
      (reader.feed (line ++ [newline])).items = reader.items ++ [.error cause] := by
  obtain ⟨full, heard⟩ := inLine.feed free short
  rw [feed_newline full]
  obtain ⟨items, ⟨_, -, failed⟩ | ⟨fine, -⟩⟩ := endLine_cases full
  · refine ⟨failed, ?_⟩
    rw [items, heard, List.nil_append, tells]
    rfl
  · exact absurd tells (fine cause)

/-! ## The reader after some lines -/

/-- Whether a reader has failed and heard so. -/
def Broken (reader : LineReader) : Prop :=
  reader.failed = true ∧ ∃ cause, .error cause ∈ reader.items

/-- Whether a reader is in the middle of a line and has heard of no failure. -/
structure Hearing (reader : LineReader) (line : Bytes) : Prop where
  inLine : reader.InLine line
  fine : ∀ cause, .error cause ∉ reader.items

theorem hearing_start : start.Hearing [] := ⟨inLine_start, fun _ => List.not_mem_nil⟩

theorem Broken.feed (broken : reader.Broken) (bytes : Bytes) : (reader.feed bytes).Broken := by
  rwa [feed_of_failed broken.1]

theorem Hearing.endLine (hearing : reader.Hearing line) :
    reader.endLine.Broken ∨ reader.endLine.Hearing [] := by
  obtain ⟨heard, ⟨cause, tells, failed⟩ | ⟨fine, fresh⟩⟩ := endLine_cases hearing.inLine
  · exact .inl ⟨failed, cause, by simp [heard, tells]⟩
  · refine .inr ⟨fresh, fun cause member => ?_⟩
    rw [heard, List.mem_append, Option.mem_toList] at member
    exact member.elim (hearing.fine cause) (fine cause)

/-- A reader that has not failed is in the middle of some line. -/
theorem Hearing.feed (hearing : reader.Hearing line) (bytes : Bytes) :
    (reader.feed bytes).Broken ∨ ∃ later, (reader.feed bytes).Hearing later := by
  -- Along the bytes it is the line that changes, and with it the reader.
  induction bytes generalizing reader line with
  | nil => exact .inr ⟨line, hearing⟩
  | cons byte bytes ih =>
    have step : reader.feed (byte :: bytes) = (reader.feedByte byte).feed bytes := rfl
    rw [step]
    cases feedByte_cases hearing.inLine byte with
    | ended _ turn =>
      rw [turn]
      rcases hearing.endLine with broken | fresh
      · exact .inl (broken.feed bytes)
      · exact ih fresh
    | full _ _ turn =>
      have broken : (reader.fail .lineTooLong).Broken := ⟨rfl, .lineTooLong, by simp [items_fail]⟩
      rw [turn]
      exact .inl (broken.feed bytes)
    | longer longer heard => exact ih ⟨longer, heard ▸ hearing.fine⟩

/-- Behind a newline a reader is at the start of a line, unless it has failed. -/
theorem start_feed_outcome {bytes : Bytes} (whole : bytes = [] ∨ bytes.getLast? = some newline) :
    (start.feed bytes).Broken ∨ (start.feed bytes).Hearing [] := by
  rcases whole with rfl | last
  · exact .inr hearing_start
  · obtain ⟨front, rfl⟩ := List.getLast?_eq_some_iff.1 last
    rcases hearing_start.feed front with broken | ⟨line, hearing⟩
    · rw [feed_append]
      exact .inl (broken.feed [newline])
    · rw [feed_newline hearing.inLine]
      exact hearing.endLine

theorem readAll_of_failed (failed : reader.failed = true) (after : List Reading) :
    reader.readAll after = reader := by
  induction after with
  | nil => exact if_pos (.inl failed)
  | cons reading after ih =>
    cases reading with
    | piece bytes => rw [readAll, feed_of_failed failed, ih]
    | failure detail => exact if_pos failed

end LineReader

/-! ## Connections -/

theorem commandItems_eq_readAll (reads : List Bytes) (after : List Reading) :
    commandItems (reads.map .piece ++ after) =
      ((LineReader.start.feed reads.flatten).readAll after).items :=
  congrArg LineReader.items (LineReader.readAll_pieces reads after .start)

/-- Bytes that stop behind a newline say what a reader has heard of them. -/
theorem commandItems_of_outcome {bytes : Bytes}
    (outcome : (LineReader.start.feed bytes).Broken ∨ (LineReader.start.feed bytes).Hearing []) :
    commandItems [.piece bytes] = (LineReader.start.feed bytes).items := by
  have still : (LineReader.start.feed bytes).finish = LineReader.start.feed bytes := by
    rcases outcome with broken | hearing
    · exact if_pos (.inl broken.1)
    · exact if_pos (.inr hearing.inLine.unfinished)
  exact congrArg LineReader.items still

section Line

variable {before line behind : Bytes} {reads : List Bytes}

/-- What a connection's reader has taken in with a line that ends behind other lines. -/
theorem LineReader.feed_line (cut : reads.flatten = before ++ line ++ newline :: behind) :
    start.feed reads.flatten = ((start.feed before).feed (line ++ [newline])).feed behind := by
  rw [cut, ← feed_append, ← feed_append]
  simp

/-- A line of text that holds no command, and any line behind a failure, could be left out. -/
theorem commandItems_without_line
    (outcome : (LineReader.start.feed before).Broken ∨
      (LineReader.start.feed before).Hearing [] ∧ Bytes.text? line ≠ none)
    (free : newline ∉ line) (short : line.length ≤ lineLimit)
    (malformed : Command.ofLine? line = none) {others : List Bytes}
    (cut : reads.flatten = before ++ line ++ newline :: behind)
    (without : others.flatten = before ++ behind) (after : List Reading) :
    commandItems (reads.map .piece ++ after) = commandItems (others.map .piece ++ after) := by
  rw [commandItems_eq_readAll, commandItems_eq_readAll, LineReader.feed_line cut, without,
    LineReader.feed_append .start before behind]
  rcases outcome with broken | ⟨hearing, isText⟩
  · -- Nothing is heard behind a failure, be there the line or not.
    rw [LineReader.feed_of_failed broken.1 (line ++ [newline])]
  · obtain ⟨text, spelled⟩ := Option.ne_none_iff_exists'.1 isText
    rw [hearing.inLine.feed_silent free short (lineSays?_of_malformed short spelled malformed)]

/-- A line that is not text ends the reading. -/
theorem commandItems_of_not_text (hearing : (LineReader.start.feed before).Hearing [])
    (free : newline ∉ line) (short : line.length ≤ lineLimit) (notText : Bytes.text? line = none)
    (cut : reads.flatten = before ++ line ++ newline :: behind) (after : List Reading) :
    commandItems (reads.map .piece ++ after) =
      commandItems [.piece before] ++ [.error .lineNotText] := by
  obtain ⟨failed, items⟩ :=
    hearing.inLine.feed_failing free short (lineSays?_of_not_text short notText)
  rw [commandItems_eq_readAll, LineReader.feed_line cut, LineReader.feed_of_failed failed,
    LineReader.readAll_of_failed failed, items, commandItems_of_outcome (.inr hearing)]

end Line

/-- A line of text that holds no command, and is not too long for a line, says nothing: a
connection's items are those of the bytes without the line, however the bytes are cut into reads and
whatever comes after them. The same is so behind a failure, which is the last that is heard. But
bytes that are not text are a failure themselves, and the last that is heard. -/
theorem malformed_line_says_nothing {before line behind : Bytes}
    (whole : before = [] ∨ before.getLast? = some newline) (free : newline ∉ line)
    (short : line.length ≤ lineLimit) (malformed : Command.ofLine? line = none)
    {reads others : List Bytes} (cut : reads.flatten = before ++ line ++ newline :: behind)
    (without : others.flatten = before ++ behind) (after : List Reading) :
    ((Bytes.text? line ≠ none ∨ ∃ cause, .error cause ∈ commandItems [.piece before]) →
        commandItems (reads.map .piece ++ after) = commandItems (others.map .piece ++ after)) ∧
      (Bytes.text? line = none → (∀ cause, .error cause ∉ commandItems [.piece before]) →
        commandItems (reads.map .piece ++ after) =
          commandItems [.piece before] ++ [.error .lineNotText]) := by
  have outcome := LineReader.start_feed_outcome whole
  have heard := commandItems_of_outcome outcome
  constructor
  · intro passedOver
    refine commandItems_without_line ?_ free short malformed cut without after
    rcases outcome with broken | hearing
    · exact .inl broken
    · refine .inr ⟨hearing, passedOver.resolve_right ?_⟩
      rintro ⟨cause, member⟩
      exact hearing.fine cause (heard ▸ member)
  · intro notText fine
    rcases outcome with ⟨-, cause, member⟩ | hearing
    · exact absurd (heard ▸ member) (fine cause)
    · exact commandItems_of_not_text hearing free short notText cut after

/-- Words between two commands, in reads that cut them, on a connection that fails. -/
theorem malformed_line_between_commands :
    let before := writeLine (Command.toJson ⟨"p", "subscribe"⟩)
    let line := Bytes.ofText " \x7b\"resource_id\":\"p\"\x7d\u00a0\r"
    let behind := writeLine (Command.toJson ⟨"p", "update"⟩)
    let reads := [before, line.take 5, line.drop 5 ++ [newline], behind]
    let others := [before ++ behind]
    let after := [Reading.failure "reset"]
    (before = [] ∨ before.getLast? = some newline) ∧ newline ∉ line ∧ line.length ≤ lineLimit ∧
      Command.ofLine? line = none ∧ reads.flatten = before ++ line ++ newline :: behind ∧
      others.flatten = before ++ behind ∧ Bytes.text? line ≠ none ∧
      commandItems (reads.map .piece ++ after) = commandItems (others.map .piece ++ after) := by
  intro before line behind reads others after
  have whole : before = [] ∨ before.getLast? = some newline := by decide
  have free : newline ∉ line := by decide
  have short : line.length ≤ lineLimit := by decide
  have malformed : Command.ofLine? line = none := by decide
  have isText : Bytes.text? line ≠ none := by decide
  have cut : reads.flatten = before ++ line ++ newline :: behind := by decide
  have without : others.flatten = before ++ behind := by decide
  exact ⟨whole, free, short, malformed, cut, without, isText,
    (malformed_line_says_nothing whole free short malformed cut without after).1 (.inl isText)⟩

/-- One byte that is no text is a line that holds no command, and nothing behind it is heard. -/
theorem line_without_text_ends_reading :
    let line : Bytes := [0xff]
    let behind := writeLine (Command.toJson ⟨"p", "subscribe"⟩)
    newline ∉ line ∧ line.length ≤ lineLimit ∧ Command.ofLine? line = none ∧
      commandItems [.piece (line ++ newline :: behind)] = [.error .lineNotText] ∧
      commandItems [.piece behind] = [.ok ⟨"p", "subscribe"⟩] := by
  intro line behind
  have free : newline ∉ line := by decide
  have short : line.length ≤ lineLimit := by decide
  have notText : Bytes.text? line = none := by decide
  have cut : [line ++ newline :: behind].flatten = [] ++ line ++ newline :: behind := by simp
  have hearing : (LineReader.start.feed []).Hearing [] := LineReader.hearing_start
  exact ⟨free, short, by decide, commandItems_of_not_text hearing free short notText cut [], rfl⟩

end UpdateRelay
