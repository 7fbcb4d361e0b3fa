/-!
# Integers in decimal

Reading an integer that is written as ASCII digits after an optional sign. Leading zeros are
allowed, separators are not, and the value must lie in the range that is asked for.
-/

namespace UpdateRelay.Text

/-- A range of integers, both ends included; a minus sign is read only where `signed`. -/
structure IntegerRange where
  least : Int
  greatest : Int
  signed : Bool
  deriving DecidableEq, Repr

/-- Counts of 64 bits. -/
def IntegerRange.count64 : IntegerRange := ⟨0, 0xffffffffffffffff, false⟩

/-- Signed integers of 32 bits. -/
def IntegerRange.signed32 : IntegerRange := ⟨-0x80000000, 0x7fffffff, true⟩

/-- The value of an ASCII digit. -/
def digit? (c : Char) : Option Nat :=
  if '0' ≤ c ∧ c ≤ '9' then some (c.toNat - '0'.toNat) else none

/-- The number that digits spell after a number that was read already. -/
def readDigits (number : Nat) : List Char → Option Nat
  | [] => some number
  | c :: rest =>
      match digit? c with
      | some digit => readDigits (number * 10 + digit) rest
      | none => none

/-- The number that at least one digit spells. -/
def natural? : List Char → Option Nat
  | [] => none
  | chars => readDigits 0 chars

/-- The integer that digits after an optional sign spell. -/
def signed? (signed : Bool) : List Char → Option Int
  | '+' :: rest => (natural? rest).map Int.ofNat
  | '-' :: rest => if signed then (natural? rest).map fun number => -Int.ofNat number else none
  | chars => (natural? chars).map Int.ofNat

/-- The integer that a text spells, if it lies in the range. -/
def integer? (range : IntegerRange) (text : String) : Option Int :=
  (signed? range.signed text.toList).filter fun value =>
    range.least ≤ value ∧ value ≤ range.greatest

end UpdateRelay.Text
