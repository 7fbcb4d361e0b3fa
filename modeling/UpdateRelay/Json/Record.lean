import UpdateRelay.Json.Skip

/-!
# Records in JSON

A record is written as an object of its members. It is read from an object that has each known
member at most once, or from an array of the members in order that may stop early. What has been
read is kept in a draft, so that whoever reads a record decides what a missing member means.
-/

namespace UpdateRelay.Json

/-! ## Writing -/

/-- A member of an object: its name and its value, which is written already. -/
def writeMember (member : String × Bytes) : Bytes :=
  quote member.1 ++ 0x3a :: member.2

def writeObject (members : List (String × Bytes)) : Bytes :=
  0x7b :: ([0x2c].intercalate (members.map writeMember) ++ [0x7d])

/-! ## Reading values -/

def readText (bytes : Bytes) : Option (String × Bytes) :=
  match skipBlank bytes with
  | 0x22 :: rest => readQuoted rest
  | _ => none

/-- Reads an integer that is at least `least` and at most `greatest`. -/
def readBounded (least greatest : Int) (bytes : Bytes) : Option (Int × Bytes) :=
  (readInteger (skipBlank bytes)).filter fun (value, _) => least ≤ value ∧ value ≤ greatest

/-- Reads the elements of an array in at most `turns` elements, after an element or after the
opening bracket when `first`. -/
def readElements {α : Type} (read : Bytes → Option (α × Bytes)) :
    (turns : Nat) → (first : Bool) → Bytes → Option (List α × Bytes)
  | 0, _, _ => none
  | turns + 1, first, bytes =>
      match skipBlank bytes with
      | 0x5d :: rest => some ([], rest)
      | bytes =>
          match if first then some bytes else dropToken [0x2c] bytes with
          | none => none
          | some bytes =>
              match read bytes with
              | none => none
              | some (value, rest) =>
                  (readElements read turns false rest).map fun (values, rest) =>
                    (value :: values, rest)

def readArray {α : Type} (read : Bytes → Option (α × Bytes)) (bytes : Bytes) :
    Option (List α × Bytes) :=
  match skipBlank bytes with
  | 0x5b :: rest => readElements read (rest.length + 1) true rest
  | _ => none

/-! ## Reading records -/

/-- A member that a record may have: its name, whether a draft has it, and how it is read into
a draft. -/
structure Member (σ : Type) where
  name : String
  isPresent : σ → Bool
  read : σ → Bytes → Option (σ × Bytes)

/-- The members of a record, and whether members of other names are passed over. -/
structure Shape (σ : Type) where
  members : List (Member σ)
  isOpen : Bool

variable {σ : Type}

/-- A member whose value goes into one place of the draft. -/
def member {α : Type} (name : String) (get : σ → Option α) (put : σ → α → σ)
    (read : Bytes → Option (α × Bytes)) : Member σ where
  name := name
  isPresent draft := (get draft).isSome
  read draft bytes := (read bytes).map fun (value, rest) => (put draft value, rest)

namespace Shape

/-- Reads the value of a member of that name into the draft. -/
def readNamed (shape : Shape σ) (draft : σ) (name : String) (bytes : Bytes) :
    Option (σ × Bytes) :=
  match shape.members.find? fun member => member.name = name with
  | some member => if member.isPresent draft then none else member.read draft bytes
  | none => if shape.isOpen then (skipValue bytes).map fun rest => (draft, rest) else none

/-- Reads a member: its name, a colon and its value. -/
def readMember (shape : Shape σ) (draft : σ) (bytes : Bytes) : Option (σ × Bytes) :=
  match readText bytes with
  | none => none
  | some (name, rest) =>
      match dropToken [0x3a] (skipBlank rest) with
      | none => none
      | some rest => shape.readNamed draft name rest

/-- Reads the members that follow another one, in at most `turns` members. -/
def readMembers (shape : Shape σ) : (turns : Nat) → σ → Bytes → Option (σ × Bytes)
  | 0, _, _ => none
  | turns + 1, draft, bytes =>
      match skipBlank bytes with
      | 0x7d :: rest => some (draft, rest)
      | 0x2c :: rest =>
          match shape.readMember draft rest with
          | some (draft, rest) => shape.readMembers turns draft rest
          | none => none
      | _ => none

/-- Reads an object whose opening brace has been read. -/
def readObject (shape : Shape σ) (draft : σ) (bytes : Bytes) : Option (σ × Bytes) :=
  match skipBlank bytes with
  | 0x7d :: rest => some (draft, rest)
  | bytes =>
      match shape.readMember draft bytes with
      | some (draft, rest) => shape.readMembers (rest.length + 1) draft rest
      | none => none

/-- Reads the members in order up to the closing bracket of an array, after an element or after
the opening bracket when `first`. -/
def readInOrder (first : Bool) (draft : σ) : List (Member σ) → Bytes → Option (σ × Bytes)
  | [], bytes => (dropToken [0x5d] (skipBlank bytes)).map fun rest => (draft, rest)
  | member :: members, bytes =>
      match skipBlank bytes with
      | 0x5d :: rest => some (draft, rest)
      | bytes =>
          match if first then some bytes else dropToken [0x2c] bytes with
          | none => none
          | some bytes =>
              match member.read draft bytes with
              | some (draft, rest) => readInOrder false draft members rest
              | none => none

/-- Reads a record into a draft. -/
def read (shape : Shape σ) (draft : σ) (bytes : Bytes) : Option (σ × Bytes) :=
  match skipBlank bytes with
  | 0x7b :: rest => shape.readObject draft rest
  | 0x5b :: rest => readInOrder true draft shape.members rest
  | _ => none

/-- The draft of a document that holds one record and nothing else but white space. -/
def document? (shape : Shape σ) (draft : σ) (bytes : Bytes) : Option σ :=
  match shape.read draft bytes with
  | some (draft, rest) => if skipBlank rest = [] then some draft else none
  | none => none

end Shape

end UpdateRelay.Json
