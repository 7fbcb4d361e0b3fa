import UpdateRelay.Bytes

/-!
# Quoted strings of JSON

How a text is quoted, how a quoted string is read strictly, and how one that nobody asks for is
passed over. Only the quote, the backslash and the control bytes below `0x20` are escaped, so the
bytes of other characters stand for themselves.
-/

namespace UpdateRelay.Json

def quoteMark : UInt8 := 0x22

def backslash : UInt8 := 0x5c

/-! ## Writing -/

def hexDigit (value : Nat) : UInt8 :=
  if value < 10 then UInt8.ofNat (0x30 + value) else UInt8.ofNat (0x57 + value)

/-- The letter that stands for a byte after a backslash, for those that have one. -/
def shortEscape? : UInt8 → Option UInt8
  | 0x22 => some 0x22
  | 0x5c => some 0x5c
  | 0x08 => some 0x62
  | 0x09 => some 0x74
  | 0x0a => some 0x6e
  | 0x0c => some 0x66
  | 0x0d => some 0x72
  | _ => none

/-- One byte as it stands between quotation marks. -/
def escapeByte (byte : UInt8) : Bytes :=
  match shortEscape? byte with
  | some letter => [backslash, letter]
  | none =>
      if byte < 0x20 then
        [backslash, 0x75, 0x30, 0x30, hexDigit (byte.toNat / 16), hexDigit (byte.toNat % 16)]
      else [byte]

/-- The bytes as they stand between quotation marks. -/
def escape (content : Bytes) : Bytes := content.flatMap escapeByte

def quote (text : String) : Bytes :=
  quoteMark :: (escape (Bytes.ofText text) ++ [quoteMark])

/-! ## Reading -/

def hexValue? (byte : UInt8) : Option Nat :=
  if 0x30 ≤ byte ∧ byte ≤ 0x39 then some (byte.toNat - 0x30)
  else if 0x61 ≤ byte ∧ byte ≤ 0x66 then some (byte.toNat - 0x57)
  else if 0x41 ≤ byte ∧ byte ≤ 0x46 then some (byte.toNat - 0x37)
  else none

/-- The number that four hexadecimal digits spell. -/
def hexUnit? (a b c d : UInt8) : Option Nat :=
  match hexValue? a, hexValue? b, hexValue? c, hexValue? d with
  | some a, some b, some c, some d => some (((a * 16 + b) * 16 + c) * 16 + d)
  | _, _, _, _ => none

/-- The byte that a letter after a backslash stands for. -/
def escapedByte? : UInt8 → Option UInt8
  | 0x22 => some 0x22
  | 0x5c => some 0x5c
  | 0x2f => some 0x2f
  | 0x62 => some 0x08
  | 0x66 => some 0x0c
  | 0x6e => some 0x0a
  | 0x72 => some 0x0d
  | 0x74 => some 0x09
  | _ => none

/-- Whether a unit of UTF-16 is the first half of a pair. -/
def isLeading (unit : Nat) : Bool := 0xd800 ≤ unit && unit < 0xdc00

/-- Whether a unit of UTF-16 is the second half of a pair. -/
def isTrailing (unit : Nat) : Bool := 0xdc00 ≤ unit && unit < 0xe000

/-- The bytes of the character that the two halves of a pair stand for. -/
def pairBytes (leading trailing : Nat) : Bytes :=
  String.utf8EncodeChar
    (Char.ofNat (0x10000 + (leading - 0xd800) * 0x400 + (trailing - 0xdc00)))

/-- What comes up to the closing quotation mark, with escapes resolved, after what is `done`
already, and what follows the mark. Control bytes and halves of pairs that stand alone are
refused. -/
def readContent : (done : Bytes) → Bytes → Option (Bytes × Bytes)
  | _, [] => none
  | done, 0x22 :: rest => some (done.reverse, rest)
  -- Two escaped units in a row may be the halves of a pair; the second one is read on its own
  -- where the first one is a character already.
  | done, 0x5c :: 0x75 :: a :: b :: c :: d :: 0x5c :: 0x75 :: e :: f :: g :: h :: rest =>
      match hexUnit? a b c d with
      | none => none
      | some unit =>
          if isTrailing unit then none
          else if isLeading unit then
            match hexUnit? e f g h with
            | none => none
            | some trail =>
                if isTrailing trail then
                  readContent ((pairBytes unit trail).reverse ++ done) rest
                else none
          else
            readContent ((String.utf8EncodeChar (Char.ofNat unit)).reverse ++ done)
              (0x5c :: 0x75 :: e :: f :: g :: h :: rest)
  -- No second unit follows, so the first one has to be a character.
  | done, 0x5c :: 0x75 :: a :: b :: c :: d :: rest =>
      match hexUnit? a b c d with
      | none => none
      | some unit =>
          if isTrailing unit || isLeading unit then none
          else readContent ((String.utf8EncodeChar (Char.ofNat unit)).reverse ++ done) rest
  | done, 0x5c :: letter :: rest =>
      match escapedByte? letter with
      | none => none
      | some byte => readContent (byte :: done) rest
  | done, byte :: rest =>
      if byte < 0x20 ∨ byte = backslash then none else readContent (byte :: done) rest

/-- Reads a quoted string whose opening quotation mark has been read. -/
def readQuoted (bytes : Bytes) : Option (String × Bytes) :=
  match readContent [] bytes with
  | some (content, rest) => (Bytes.text? content).map fun text => (text, rest)
  | none => none

/-- Passes over a quoted string whose opening quotation mark has been read. Neither pairs nor
UTF-8 are looked at. -/
def skipQuoted : Bytes → Option Bytes
  | [] => none
  | 0x22 :: rest => some rest
  | 0x5c :: 0x75 :: a :: b :: c :: d :: rest =>
      if (hexUnit? a b c d).isSome then skipQuoted rest else none
  | 0x5c :: letter :: rest => if (escapedByte? letter).isSome then skipQuoted rest else none
  | byte :: rest => if byte < 0x20 ∨ byte = backslash then none else skipQuoted rest

end UpdateRelay.Json
