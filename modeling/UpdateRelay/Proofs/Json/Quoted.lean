import UpdateRelay.Json.Quoted
import UpdateRelay.Proofs.Bytes

/-!
# Reading back what was quoted

Whatever bytes a text has, reading it from between its quotation marks undoes the escapes and stops
at the closing mark: `readQuoted_quote`. What stands between the marks is text again, and no byte
of it is a control byte, so that a quoted text never ends the line it stands in: `plain_quote`.
-/

namespace UpdateRelay.Json

/-! ## One escape -/

theorem hexValue?_hexDigit : ∀ value < 16, hexValue? (hexDigit value) = some value := by
  decide

theorem hexUnit?_hexDigit (number : Nat) (small : number < 0x100) :
    hexUnit? 0x30 0x30 (hexDigit (number / 16)) (hexDigit (number % 16)) = some number := by
  have zero : hexValue? 0x30 = some 0 := rfl
  have high := hexValue?_hexDigit (number / 16) (by omega)
  have low := hexValue?_hexDigit (number % 16) (by omega)
  simp only [hexUnit?, zero, high, low, Option.some.injEq]
  omega

theorem escapedByte?_of_shortEscape? {byte letter : UInt8}
    (short : shortEscape? byte = some letter) : escapedByte? letter = some byte := by
  unfold shortEscape? at short
  split at short <;> grind [escapedByte?]

theorem readContent_letter {letter byte : UInt8} (stands : escapedByte? letter = some byte)
    (done rest : Bytes) :
    readContent done (0x5c :: letter :: rest) = readContent (byte :: done) rest := by
  have noUnit : letter ≠ 0x75 := by
    rintro rfl
    contradiction
  rw [readContent.eq_def]
  split <;> grind

/-- An escaped unit that is no half of a pair is a character, whatever follows it. -/
theorem readContent_unit {unit : Nat} {a b c d : UInt8} (units : hexUnit? a b c d = some unit)
    (small : unit < 0xd800) (done rest : Bytes) :
    readContent done (0x5c :: 0x75 :: a :: b :: c :: d :: rest) =
      readContent ((String.utf8EncodeChar (Char.ofNat unit)).reverse ++ done) rest := by
  have notTrailing : isTrailing unit = false := by simp [isTrailing]; omega
  have notLeading : isLeading unit = false := by simp [isLeading]; omega
  rw [readContent.eq_def]
  split <;> grind

theorem readContent_byte {byte : UInt8} (notMark : byte ≠ quoteMark) (notSlash : byte ≠ backslash)
    (notControl : ¬byte < 0x20) (done rest : Bytes) :
    readContent done (byte :: rest) = readContent (byte :: done) rest := by
  rw [readContent.eq_def]
  split <;> grind [quoteMark, backslash]

/-- A byte is written by a letter, by its number or as it is. -/
theorem escapeByte_cases (byte : UInt8) :
    (∃ letter, escapedByte? letter = some byte ∧ letter < 0x80 ∧ 0x20 ≤ letter ∧
        escapeByte byte = [backslash, letter]) ∨
      (byte < 0x20 ∧ escapeByte byte =
        [backslash, 0x75, 0x30, 0x30, hexDigit (byte.toNat / 16), hexDigit (byte.toNat % 16)]) ∨
      (byte ≠ quoteMark ∧ byte ≠ backslash ∧ ¬byte < 0x20 ∧ escapeByte byte = [byte]) := by
  unfold escapeByte
  cases short : shortEscape? byte with
  | some letter =>
      refine Or.inl ⟨letter, escapedByte?_of_shortEscape? short, ?_⟩
      unfold shortEscape? at short
      split at short <;> grind
  | none =>
      have notMark : byte ≠ quoteMark := by
        rintro rfl
        contradiction
      have notSlash : byte ≠ backslash := by
        rintro rfl
        contradiction
      by_cases control : byte < 0x20
      · exact Or.inr (Or.inl ⟨control, if_pos control⟩)
      · exact Or.inr (Or.inr ⟨notMark, notSlash, control, if_neg control⟩)

theorem readContent_escapeByte (byte : UInt8) (done rest : Bytes) :
    readContent done (escapeByte byte ++ rest) = readContent (byte :: done) rest := by
  rcases escapeByte_cases byte with
    ⟨letter, stands, -, -, written⟩ | ⟨control, written⟩ | ⟨notMark, notSlash, visible, written⟩
  · rw [written]
    exact readContent_letter stands done rest
  · have small : byte.toNat < 0x20 := UInt8.lt_iff_toNat_lt.1 control
    have character : String.utf8EncodeChar (Char.ofNat byte.toNat) = [byte] := by
      rw [Bytes.utf8EncodeChar_of_ascii _ (by omega), UInt8.ofNat_toNat]
    have unit := hexUnit?_hexDigit byte.toNat (by omega)
    rw [written]
    refine (readContent_unit unit (by omega) done rest).trans ?_
    rw [character]
    rfl
  · rw [written]
    exact readContent_byte notMark notSlash visible done rest

/-! ## Quoted texts -/

theorem readContent_escape (content done rest : Bytes) :
    readContent done (escape content ++ quoteMark :: rest) =
      some (done.reverse ++ content, rest) := by
  induction content generalizing done with
  | nil =>
      rw [List.append_nil]
      rfl
  | cons byte content ih =>
      rw [escape, List.flatMap_cons, List.append_assoc, readContent_escapeByte]
      refine (ih (byte :: done)).trans ?_
      rw [List.reverse_cons, List.append_assoc]
      rfl

/-- A text is read back from between its quotation marks. -/
theorem readQuoted_quote (text : String) (rest : Bytes) :
    readQuoted (escape (Bytes.ofText text) ++ quoteMark :: rest) = some (text, rest) := by
  rw [readQuoted, readContent_escape]
  simp

/-! ## What stands between the marks -/

/-- Bytes that spell a text without control characters. -/
structure Plain (bytes : Bytes) : Prop where
  isText : bytes.IsText
  visible : ∀ byte ∈ bytes, 0x20 ≤ byte

theorem plain_nil : Plain [] := ⟨Bytes.isText_nil, nofun⟩

theorem Plain.append {first second : Bytes} (isFirst : Plain first) (isSecond : Plain second) :
    Plain (first ++ second) where
  isText := isFirst.isText.append isSecond.isText
  visible byte member := (List.mem_append.1 member).elim (isFirst.visible byte)
    (isSecond.visible byte)

theorem plain_flatMap {α : Type} {items : List α} {write : α → Bytes}
    (each : ∀ item ∈ items, Plain (write item)) : Plain (items.flatMap write) := by
  induction items with
  | nil => exact plain_nil
  | cons item items ih =>
      rw [List.flatMap_cons]
      exact (each item List.mem_cons_self).append
        (ih fun other member => each other (List.mem_cons_of_mem item member))

theorem plain_of_ascii {bytes : Bytes} (ascii : ∀ byte ∈ bytes, 0x20 ≤ byte ∧ byte < 0x80) :
    Plain bytes where
  isText := Bytes.isText_of_ascii fun byte member => (ascii byte member).2
  visible byte member := (ascii byte member).1

theorem plain_byte {byte : UInt8} (visible : 0x20 ≤ byte) (ascii : byte < 0x80) : Plain [byte] :=
  plain_of_ascii fun _ member => List.mem_singleton.1 member ▸ ⟨visible, ascii⟩

theorem hexDigit_ascii : ∀ value < 16, 0x20 ≤ hexDigit value ∧ hexDigit value < 0x80 := by
  decide

theorem plain_escapeByte {byte : UInt8} (ascii : byte < 0x80) : Plain (escapeByte byte) := by
  rcases escapeByte_cases byte with
    ⟨letter, -, small, visible, written⟩ | ⟨control, written⟩ | ⟨-, -, visible, written⟩
  · rw [written]
    exact plain_of_ascii (by simp [backslash, small, visible])
  · have small : byte.toNat < 0x20 := UInt8.lt_iff_toNat_lt.1 control
    have high := hexDigit_ascii (byte.toNat / 16) (by omega)
    have low := hexDigit_ascii (byte.toNat % 16) (by omega)
    rw [written]
    exact plain_of_ascii (by simp [backslash, high, low])
  · rw [written]
    exact plain_of_ascii (by simpa using ⟨UInt8.not_lt.1 visible, ascii⟩)

/-- Bytes outside of ASCII stand for themselves. -/
theorem escape_of_high {bytes : Bytes} (high : ∀ byte ∈ bytes, 0x80 ≤ byte) :
    escape bytes = bytes := by
  induction bytes with
  | nil => rfl
  | cons byte rest ih =>
      have isHigh := high byte List.mem_cons_self
      have itself : escapeByte byte = [byte] := by
        rcases escapeByte_cases byte with
          ⟨letter, stands, -, -, -⟩ | ⟨control, -⟩ | ⟨-, -, -, written⟩
        · unfold escapedByte? at stands
          split at stands <;> grind
        · grind
        · exact written
      rw [escape, List.flatMap_cons, itself]
      exact congrArg (byte :: ·) (ih fun other member => high other (List.mem_cons_of_mem _ member))

theorem plain_escape_utf8EncodeChar (c : Char) : Plain (escape (String.utf8EncodeChar c)) := by
  rcases Bytes.utf8EncodeChar_cases c with ⟨byte, ascii, alone⟩ | high
  · rw [alone, escape, List.flatMap_singleton]
    exact plain_escapeByte ascii
  · rw [escape_of_high high]
    refine ⟨⟨String.ofList [c], ?_⟩, fun byte member => ?_⟩
    · rw [Bytes.ofText_ofList, List.flatMap_singleton]
    · have isHigh := high byte member
      grind

theorem plain_escape (text : String) : Plain (escape (Bytes.ofText text)) := by
  rw [← String.ofList_toList (s := text), Bytes.ofText_ofList, escape, List.flatMap_assoc]
  exact plain_flatMap fun c _ => plain_escape_utf8EncodeChar c

theorem plain_quote (text : String) : Plain (quote text) := by
  have mark : Plain [quoteMark] := plain_byte (by decide) (by decide)
  exact mark.append ((plain_escape text).append mark)

end UpdateRelay.Json
