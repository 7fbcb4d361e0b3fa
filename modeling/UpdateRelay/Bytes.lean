/-!
# Byte strings and their text

Keys, values and everything that crosses a connection is a list of bytes. Text is written as
UTF-8 and read back strictly: `Bytes.text?_eq_some_iff` says that reading undoes writing and
accepts nothing else.
-/

namespace UpdateRelay

/-- A string of bytes. -/
abbrev Bytes := List UInt8

namespace Bytes

/-- The UTF-8 bytes of a text. -/
def ofText (text : String) : Bytes :=
  text.toByteArray.data.toList

/-- The text that the bytes spell in UTF-8; bytes that are not well-formed UTF-8 have none. -/
def text? (bytes : Bytes) : Option String :=
  String.fromUTF8? ⟨bytes.toArray⟩

/-- The number that bytes written most significant first stand for. -/
def bigEndian (bytes : Bytes) : Nat :=
  bytes.foldl (fun number byte => number * 256 + byte.toNat) 0

/-- How many numbers can be told apart with some number of bytes. -/
def limit : (width : Nat) → Nat
  | 0 => 1
  | width + 1 => 256 * limit width

/-- The last `width` bytes of a number, most significant first. -/
def ofNat : (width number : Nat) → Bytes
  | 0, _ => []
  | width + 1, number => ofNat width (number / 256) ++ [UInt8.ofNat number]

@[simp] theorem text?_ofText (text : String) : text? (ofText text) = some text := by
  rw [text?, ofText, Array.toArray_toList]
  exact dif_pos text.isValidUTF8

/-- Bytes spell a text just if they are its UTF-8 form. -/
theorem text?_eq_some_iff {bytes : Bytes} {text : String} :
    text? bytes = some text ↔ bytes = ofText text := by
  constructor
  · intro found
    unfold text? String.fromUTF8? at found
    split at found
    next valid =>
        obtain rfl := Option.some.inj found
        rfl
    next => contradiction
  · rintro rfl
    exact text?_ofText text

theorem ofText_injective {first second : String} (same : ofText first = ofText second) :
    first = second :=
  Option.some.inj (by rw [← text?_ofText first, same, text?_ofText])

@[simp] theorem length_ofNat (width number : Nat) : (ofNat width number).length = width := by
  induction width generalizing number with
  | zero => rfl
  | succ width ih => simp [ofNat, ih]

/-- A number that fits the width is read back from its bytes. -/
theorem bigEndian_ofNat (width number : Nat) :
    bigEndian (ofNat width number) = number % limit width := by
  induction width generalizing number with
  | zero => simp [ofNat, bigEndian, limit, Nat.mod_one]
  | succ width ih =>
      have split : bigEndian (ofNat width (number / 256) ++ [UInt8.ofNat number]) =
          bigEndian (ofNat width (number / 256)) * 256 + number % 256 := by
        simp [bigEndian, List.foldl_append]
      rw [ofNat, split, ih, limit, Nat.mod_mul, Nat.mul_comm 256]
      omega

end Bytes

end UpdateRelay
