import UpdateRelay.Json.Number

/-!
# Passing over a JSON value

A value that nobody asks for has to be well formed, but neither its size nor its nesting is
limited: the containers around the current place are kept in a list.
-/

namespace UpdateRelay.Json

/-- White space between the tokens of JSON. -/
def isBlank (byte : UInt8) : Bool :=
  byte = 0x20 || byte = 0x09 || byte = 0x0a || byte = 0x0d

/-- The bytes without the white space that leads them. -/
def skipBlank (bytes : Bytes) : Bytes := bytes.dropWhile isBlank

/-- What follows a token that the bytes start with. -/
def dropToken (token bytes : Bytes) : Option Bytes :=
  if token.isPrefixOf bytes then some (bytes.drop token.length) else none

/-- A container that is open around the current place. -/
inductive Container
  | list
  | object
  deriving DecidableEq, Repr

/-- Where a value that is passed over has been left: before a value, or after one. -/
inductive Place
  | before
  | after
  deriving DecidableEq, Repr

/-- Passes over the key of an object's member and the colon after it. -/
def skipKey (bytes : Bytes) : Option Bytes :=
  match skipBlank bytes with
  | 0x22 :: rest =>
      match skipQuoted rest with
      | some rest => dropToken [0x3a] (skipBlank rest)
      | none => none
  | _ => none

/-- The place after the bytes of a scalar, if they were well formed. -/
def afterScalar (around : List Container) (rest : Option Bytes) :
    Option (Place × List Container × Bytes) :=
  rest.map fun rest => (.after, around, rest)

/-- Passes over the start of a value: a scalar, an empty container or an opening bracket. -/
def skipStart (around : List Container) (bytes : Bytes) :
    Option (Place × List Container × Bytes) :=
  match skipBlank bytes with
  | 0x22 :: rest => afterScalar around (skipQuoted rest)
  | 0x6e :: rest => afterScalar around (dropToken [0x75, 0x6c, 0x6c] rest)
  | 0x74 :: rest => afterScalar around (dropToken [0x72, 0x75, 0x65] rest)
  | 0x66 :: rest => afterScalar around (dropToken [0x61, 0x6c, 0x73, 0x65] rest)
  | 0x2d :: rest => afterScalar around (skipUnsigned rest)
  | 0x5b :: rest =>
      match skipBlank rest with
      | 0x5d :: rest => some (.after, around, rest)
      | rest => some (.before, .list :: around, rest)
  | 0x7b :: rest =>
      match skipBlank rest with
      | 0x7d :: rest => some (.after, around, rest)
      | rest => (skipKey rest).map fun rest => (.before, .object :: around, rest)
  | rest => afterScalar around (skipUnsigned rest)

/-- Passes over what follows a value inside a container: a comma or the closing bracket. -/
def skipEnd (container : Container) (around : List Container) (bytes : Bytes) :
    Option (Place × List Container × Bytes) :=
  match container, skipBlank bytes with
  | .list, 0x2c :: rest => some (.before, .list :: around, rest)
  | .list, 0x5d :: rest => some (.after, around, rest)
  | .object, 0x2c :: rest => (skipKey rest).map fun rest => (.before, .object :: around, rest)
  | .object, 0x7d :: rest => some (.after, around, rest)
  | _, _ => none

/-- Passes over the rest of a value in at most `turns` tokens. -/
def skipTurns : (turns : Nat) → Place → List Container → Bytes → Option Bytes
  | 0, _, _, _ => none
  | _ + 1, .after, [], bytes => some bytes
  | turns + 1, .before, around, bytes =>
      match skipStart around bytes with
      | some (place, around, rest) => skipTurns turns place around rest
      | none => none
  | turns + 1, .after, container :: around, bytes =>
      match skipEnd container around bytes with
      | some (place, around, rest) => skipTurns turns place around rest
      | none => none

/-- What follows the value that the bytes start with. Each turn but the last passes over at
least one byte. -/
def skipValue (bytes : Bytes) : Option Bytes :=
  skipTurns (bytes.length + 1) .before [] bytes

end UpdateRelay.Json
