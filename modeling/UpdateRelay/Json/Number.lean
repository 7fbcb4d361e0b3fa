import UpdateRelay.Json.Quoted

/-!
# Numbers of JSON

How integers are written and read, and how a number that nobody asks for is passed over. An
integer is read only where it is written as one: without a point or an exponent, without leading
zeros, and not as `-0`.
-/

namespace UpdateRelay.Json

def isDigit (byte : UInt8) : Bool := 0x30 ≤ byte && byte ≤ 0x39

def writeNatural (number : Nat) : Bytes :=
  if number < 10 then [UInt8.ofNat (0x30 + number)]
  else writeNatural (number / 10) ++ [UInt8.ofNat (0x30 + number % 10)]

def writeInteger (value : Int) : Bytes :=
  if 0 ≤ value then writeNatural value.toNat else 0x2d :: writeNatural value.natAbs

/-- The digits that the bytes start with, and what follows them. -/
def spanDigits (bytes : Bytes) : Bytes × Bytes := bytes.span isDigit

/-- The number that digits spell. -/
def naturalOf (digits : Bytes) : Nat :=
  digits.foldl (fun number digit => number * 10 + (digit.toNat - 0x30)) 0

/-- Reads a natural number: one zero, or digits that do not start with a zero. -/
def readNatural (bytes : Bytes) : Option (Nat × Bytes) :=
  match spanDigits bytes with
  | ([], _) => none
  | (0x30 :: _ :: _, _) => none
  | (digits, rest) => some (naturalOf digits, rest)

def readInteger : Bytes → Option (Int × Bytes)
  | 0x2d :: rest =>
      match readNatural rest with
      | some (0, _) | none => none
      | some (number, rest) => some (-(number : Int), rest)
  | bytes => (readNatural bytes).map fun (number, rest) => ((number : Int), rest)

/-! ## Passing over -/

def skipDigits (bytes : Bytes) : Option Bytes :=
  match spanDigits bytes with
  | ([], _) => none
  | (_, rest) => some rest

def skipFraction : Bytes → Option Bytes
  | 0x2e :: rest => skipDigits rest
  | bytes => some bytes

def skipExponent : Bytes → Option Bytes
  | 0x65 :: 0x2b :: rest | 0x65 :: 0x2d :: rest | 0x45 :: 0x2b :: rest | 0x45 :: 0x2d :: rest
  | 0x65 :: rest | 0x45 :: rest => skipDigits rest
  | bytes => some bytes

/-- Passes over a number without a sign. -/
def skipUnsigned (bytes : Bytes) : Option Bytes :=
  match readNatural bytes with
  | some (_, rest) => (skipFraction rest).bind skipExponent
  | none => none

end UpdateRelay.Json
