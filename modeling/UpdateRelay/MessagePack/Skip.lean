import UpdateRelay.MessagePack.Head

/-!
# Passing over a MessagePack value

A value that nobody asks for is passed over, whatever its kind, as long as its containers are
not nested too deep. Extensions count as containers.
-/

namespace UpdateRelay.MessagePack

/-- How many containers deep a value that is passed over may be nested. -/
def depthLimit : Nat := 1022

/-- What follows the first `length` bytes. -/
def dropBytes (length : Nat) (bytes : Bytes) : Option Bytes :=
  (splitAt? length bytes).map Prod.snd

/-- Passes over `count` values, each with `skip`. -/
def skipMany (skip : Bytes → Option Bytes) : (count : Nat) → Bytes → Option Bytes
  | 0, bytes => some bytes
  | count + 1, bytes =>
      match skip bytes with
      | some rest => skipMany skip count rest
      | none => none

/-- What follows the first value, which may be nested `depth` containers deep. -/
def skipValue (depth : Nat) (bytes : Bytes) : Option Bytes :=
  match readHead bytes with
  | none => none
  | some (head, rest) =>
      match head, depth with
      | .nil, _ | .boolean _, _ | .unsigned _, _ | .signed _, _ => some rest
      | .float length, _ | .text length, _ | .binary length, _ => dropBytes length rest
      | .extension _, 0 | .array _, 0 | .map _, 0 => none
      | .extension length, _ + 1 => dropBytes (length + 1) rest
      | .array count, depth + 1 => skipMany (skipValue depth) count rest
      | .map count, depth + 1 => skipMany (skipValue depth) (2 * count) rest

end UpdateRelay.MessagePack
