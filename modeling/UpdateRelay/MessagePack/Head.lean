import UpdateRelay.Bytes

/-!
# Heads of MessagePack values

Every MessagePack value starts with a marker byte, which for most kinds is followed by a number:
a length, a count or the value itself. `Head` is what the marker and its number say, `readHead`
reads one, and the `write` functions choose the shortest form of a length or an integer.
-/

namespace UpdateRelay.MessagePack

/-- The start of a value: its kind with its own value, its length in bytes or its count of
elements. -/
inductive Head
  | nil
  | boolean (value : Bool)
  | unsigned (value : Nat)
  | signed (value : Int)
  | float (width : Nat)
  | text (length : Nat)
  | binary (length : Nat)
  | array (count : Nat)
  | map (count : Nat)
  | extension (length : Nat)
  deriving DecidableEq, Repr

/-- The first `length` bytes and what follows them, when there are that many. -/
def splitAt? (length : Nat) (bytes : Bytes) : Option (Bytes × Bytes) :=
  if length ≤ bytes.length then some (bytes.take length, bytes.drop length) else none

/-- The number in the first `width` bytes, and what follows them. -/
def readNumber (width : Nat) (bytes : Bytes) : Option (Nat × Bytes) :=
  (splitAt? width bytes).map fun (number, rest) => (Bytes.bigEndian number, rest)

/-- The integer that `width` bytes stand for in two's complement. -/
def asSigned (width number : Nat) : Int :=
  if 2 * number < Bytes.limit width then number else (number : Int) - Bytes.limit width

/-- Reads a number of `width` bytes and makes a head of it. -/
def numbered (width : Nat) (head : Nat → Head) (bytes : Bytes) : Option (Head × Bytes) :=
  (readNumber width bytes).map fun (number, rest) => (head number, rest)

/-- What a marker says, with the number that follows it where the marker asks for one. The
marker `0xc1` is never used. -/
def readMarked (marker : Nat) (rest : Bytes) : Option (Head × Bytes) :=
  -- The marker of a small value holds its number as well.
  if marker < 0x80 then some (.unsigned marker, rest)
  else if marker < 0x90 then some (.map (marker - 0x80), rest)
  else if marker < 0xa0 then some (.array (marker - 0x90), rest)
  else if marker < 0xc0 then some (.text (marker - 0xa0), rest)
  else
    match marker with
    | 0xc0 => some (.nil, rest)
    | 0xc2 => some (.boolean false, rest)
    | 0xc3 => some (.boolean true, rest)
    | 0xc4 => numbered 1 .binary rest
    | 0xc5 => numbered 2 .binary rest
    | 0xc6 => numbered 4 .binary rest
    | 0xc7 => numbered 1 .extension rest
    | 0xc8 => numbered 2 .extension rest
    | 0xc9 => numbered 4 .extension rest
    | 0xca => some (.float 4, rest)
    | 0xcb => some (.float 8, rest)
    | 0xcc => numbered 1 .unsigned rest
    | 0xcd => numbered 2 .unsigned rest
    | 0xce => numbered 4 .unsigned rest
    | 0xcf => numbered 8 .unsigned rest
    | 0xd0 => numbered 1 (fun number => .signed (asSigned 1 number)) rest
    | 0xd1 => numbered 2 (fun number => .signed (asSigned 2 number)) rest
    | 0xd2 => numbered 4 (fun number => .signed (asSigned 4 number)) rest
    | 0xd3 => numbered 8 (fun number => .signed (asSigned 8 number)) rest
    | 0xd4 => some (.extension 1, rest)
    | 0xd5 => some (.extension 2, rest)
    | 0xd6 => some (.extension 4, rest)
    | 0xd7 => some (.extension 8, rest)
    | 0xd8 => some (.extension 16, rest)
    | 0xd9 => numbered 1 .text rest
    | 0xda => numbered 2 .text rest
    | 0xdb => numbered 4 .text rest
    | 0xdc => numbered 2 .array rest
    | 0xdd => numbered 4 .array rest
    | 0xde => numbered 2 .map rest
    | 0xdf => numbered 4 .map rest
    | marker => if 0xe0 ≤ marker then some (.signed (asSigned 1 marker), rest) else none

/-- The head that the bytes start with, and what follows it. -/
def readHead : Bytes → Option (Head × Bytes)
  | [] => none
  | marker :: rest => readMarked marker.toNat rest

/-! ## Shortest forms -/

/-- The head of a text of `length` bytes. -/
def writeTextHead (length : Nat) : Bytes :=
  if length < 32 then [UInt8.ofNat (0xa0 + length)]
  else if length < 0x100 then 0xd9 :: Bytes.ofNat 1 length
  else if length < 0x10000 then 0xda :: Bytes.ofNat 2 length
  else 0xdb :: Bytes.ofNat 4 length

/-- A text: its head and its bytes in UTF-8. -/
def writeText (text : String) : Bytes :=
  writeTextHead (Bytes.ofText text).length ++ Bytes.ofText text

/-- A number in the shortest unsigned form. -/
def writeUnsigned (number : Nat) : Bytes :=
  if number < 0x80 then [UInt8.ofNat number]
  else if number < 0x100 then 0xcc :: Bytes.ofNat 1 number
  else if number < 0x10000 then 0xcd :: Bytes.ofNat 2 number
  else if number < 0x100000000 then 0xce :: Bytes.ofNat 4 number
  else 0xcf :: Bytes.ofNat 8 number

/-- A negative integer in the shortest signed form. -/
def writeNegative (value : Int) : Bytes :=
  if -0x20 ≤ value then [UInt8.ofNat (value + 0x100).toNat]
  else if -0x80 ≤ value then 0xd0 :: Bytes.ofNat 1 (value + 0x100).toNat
  else if -0x8000 ≤ value then 0xd1 :: Bytes.ofNat 2 (value + 0x10000).toNat
  else if -0x80000000 ≤ value then 0xd2 :: Bytes.ofNat 4 (value + 0x100000000).toNat
  else 0xd3 :: Bytes.ofNat 8 (value + 0x10000000000000000).toNat

/-- An integer in its shortest form; one that is not negative takes an unsigned form. -/
def writeInteger (value : Int) : Bytes :=
  if 0 ≤ value then writeUnsigned value.toNat else writeNegative value

end UpdateRelay.MessagePack
