import Mathlib.Data.List.Induction
import UpdateRelay.Proofs.MessagePack.RoundTrip

/-!
# An event ends where its bytes end

What follows the bytes of an event does not change what is read from them. So no event's bytes are
the start of another's, and events written one after the other can be told apart. The lengths and
integers inside take no more bytes than any other form that reads as the same:
`MessagePack.readHead_leastWidth`.
-/

namespace UpdateRelay.MessagePack

/-! ## Numbers of a width -/

theorem foldl_bigEndian_lt (bytes : Bytes) (start : Nat) :
    bytes.foldl (fun number byte => number * 256 + byte.toNat) start <
      (start + 1) * Bytes.limit bytes.length := by
  induction bytes generalizing start with
  | nil => simp [Bytes.limit]
  | cons byte bytes ih =>
      have small := byte.toNat_lt
      calc List.foldl _ (start * 256 + byte.toNat) bytes
          < (start * 256 + byte.toNat + 1) * Bytes.limit bytes.length := ih _
        _ ≤ ((start + 1) * 256) * Bytes.limit bytes.length := Nat.mul_le_mul_right _ (by omega)
        _ = (start + 1) * Bytes.limit (bytes.length + 1) := by rw [Nat.mul_assoc, Bytes.limit]

theorem bigEndian_lt (bytes : Bytes) : bytes.bigEndian < Bytes.limit bytes.length := by
  simpa [Bytes.bigEndian] using foldl_bigEndian_lt bytes 0

theorem bigEndian_concat (bytes : Bytes) (byte : UInt8) :
    Bytes.bigEndian (bytes ++ [byte]) = bytes.bigEndian * 256 + byte.toNat := by
  rw [Bytes.bigEndian, List.foldl_append]
  rfl

/-- Bytes are the number that they stand for, in as many bytes. -/
theorem ofNat_bigEndian (bytes : Bytes) : Bytes.ofNat bytes.length bytes.bigEndian = bytes := by
  induction bytes using List.reverseRecOn with
  | nil => rfl
  | append_singleton bytes byte inductionHypothesis =>
      have small := byte.toNat_lt
      have above : (Bytes.bigEndian bytes * 256 + byte.toNat) / 256 = Bytes.bigEndian bytes := by
        omega
      have below : UInt8.ofNat (Bytes.bigEndian bytes * 256 + byte.toNat) = byte := by
        apply UInt8.toNat_inj.1
        rw [UInt8.toNat_ofNat']
        omega
      rw [List.length_append, List.length_singleton, bigEndian_concat, Bytes.ofNat, above, below,
        inductionHypothesis]

/-- A number that was read fits its width, and its bytes came before the rest. -/
theorem readNumber_eq_some {width number : Nat} {bytes rest : Bytes}
    (read : readNumber width bytes = some (number, rest)) :
    number < Bytes.limit width ∧ bytes = Bytes.ofNat width number ++ rest := by
  unfold readNumber splitAt? at read
  split at read
  next enough =>
    obtain ⟨rfl, rfl⟩ : Bytes.bigEndian (bytes.take width) = number ∧ bytes.drop width = rest := by
      simpa using read
    have size : (bytes.take width).length = width := List.length_take_of_le enough
    have below := bigEndian_lt (bytes.take width)
    have same := ofNat_bigEndian (bytes.take width)
    rw [size] at below same
    exact ⟨below, by rw [same, List.take_append_drop]⟩
  next => contradiction

theorem numbered_eq_some {width : Nat} {make : Nat → Head} {head : Head} {bytes rest : Bytes}
    (read : numbered width make bytes = some (head, rest)) :
    ∃ number < Bytes.limit width,
      make number = head ∧ bytes = Bytes.ofNat width number ++ rest := by
  unfold numbered at read
  obtain ⟨⟨number, after⟩, found, same⟩ := Option.map_eq_some_iff.mp read
  obtain ⟨made, rfl⟩ := Prod.mk.inj same
  obtain ⟨below, written⟩ := readNumber_eq_some found
  exact ⟨number, below, made, written⟩

theorem asSigned_bounds {width number : Nat} (below : number < Bytes.limit width) :
    -(Bytes.limit width : Int) ≤ 2 * asSigned width number ∧
      2 * asSigned width number < Bytes.limit width := by
  unfold asSigned
  split <;> omega

/-! ## Least widths -/

/-- The fewest bytes after its marker that the length of a text takes. -/
def textWidth (length : Nat) : Nat :=
  if length < 32 then 0 else if length < 0x100 then 1 else if length < 0x10000 then 2 else 4

/-- The fewest bytes after its marker that an integer takes. -/
def integerWidth (value : Int) : Nat :=
  if -0x20 ≤ value ∧ value < 0x80 then 0
  else if -0x80 ≤ value ∧ value < 0x100 then 1
  else if -0x8000 ≤ value ∧ value < 0x10000 then 2
  else if -0x80000000 ≤ value ∧ value < 0x100000000 then 4
  else 8

/-- The fewest bytes after its marker in which a head can be written, for the heads that take
different forms inside an event. -/
def Head.leastWidth : Head → Nat
  | .text length => textWidth length
  | .unsigned value => integerWidth value
  | .signed value => integerWidth value
  | _ => 0

theorem length_writeTextHead (length : Nat) :
    (writeTextHead length).length = textWidth length + 1 := by
  unfold writeTextHead textWidth
  grind [Bytes.length_ofNat]

theorem length_writeInteger (value : Int) :
    (writeInteger value).length = integerWidth value + 1 := by
  unfold writeInteger writeUnsigned writeNegative integerWidth
  grind [Bytes.length_ofNat]

theorem textWidth_le {width length : Nat} (wide : width ∈ [1, 2, 4])
    (below : length < Bytes.limit width) : textWidth length ≤ width := by
  unfold textWidth
  simp only [List.mem_cons, List.not_mem_nil, or_false] at wide
  rcases wide with rfl | rfl | rfl <;> simp only [Bytes.limit] at below <;> grind

/-- An integer that a width can hold, in two's complement or without a sign, needs no more. -/
theorem integerWidth_le {width : Nat} {value : Int} (wide : width ∈ [1, 2, 4, 8])
    (low : -(Bytes.limit width : Int) ≤ 2 * value) (high : value < Bytes.limit width) :
    integerWidth value ≤ width := by
  unfold integerWidth
  simp only [List.mem_cons, List.not_mem_nil, or_false] at wide
  rcases wide with rfl | rfl | rfl | rfl <;> simp only [Bytes.limit] at low high <;> grind

/-- A head made from the number after its marker is no shorter than it has to be, when no number
of that width makes a head that needs more. -/
theorem numbered_leastWidth {width : Nat} {make : Nat → Head} {head : Head} {bytes rest : Bytes}
    (atMost : ∀ number < Bytes.limit width, (make number).leastWidth ≤ width)
    (read : numbered width make bytes = some (head, rest)) :
    head.leastWidth + rest.length ≤ bytes.length := by
  obtain ⟨number, below, rfl, rfl⟩ := numbered_eq_some read
  have least := atMost number below
  rw [List.length_append, Bytes.length_ofNat]
  omega

theorem numbered_text_leastWidth {width : Nat} (wide : width ∈ [1, 2, 4]) {head : Head}
    {bytes rest : Bytes} (read : numbered width .text bytes = some (head, rest)) :
    head.leastWidth + rest.length ≤ bytes.length := by
  refine numbered_leastWidth ?_ read
  intro length below
  exact textWidth_le wide below

theorem numbered_unsigned_leastWidth {width : Nat} (wide : width ∈ [1, 2, 4, 8]) {head : Head}
    {bytes rest : Bytes} (read : numbered width .unsigned bytes = some (head, rest)) :
    head.leastWidth + rest.length ≤ bytes.length := by
  refine numbered_leastWidth ?_ read
  intro number below
  exact integerWidth_le wide (by omega) (by exact_mod_cast below)

theorem numbered_signed_leastWidth {width : Nat} (wide : width ∈ [1, 2, 4, 8]) {head : Head}
    {bytes rest : Bytes}
    (read : numbered width (fun number => .signed (asSigned width number)) bytes =
      some (head, rest)) : head.leastWidth + rest.length ≤ bytes.length := by
  refine numbered_leastWidth ?_ read
  intro number below
  obtain ⟨low, high⟩ := asSigned_bounds below
  exact integerWidth_le wide low (by omega)

theorem readMarked_leastWidth {marker : Nat} (byte : marker < 0x100) {bytes rest : Bytes}
    {head : Head} (read : readMarked marker bytes = some (head, rest)) :
    head.leastWidth + rest.length ≤ bytes.length := by
  -- A head whose marker says it all needs no more bytes.
  have alone : ∀ {small : Head}, small.leastWidth = 0 → some (small, bytes) = some (head, rest) →
      head.leastWidth + rest.length ≤ bytes.length := by
    intro small none same
    obtain ⟨rfl, rfl⟩ := Prod.mk.inj (Option.some.inj same)
    omega
  unfold readMarked at read
  split at read
  next positive =>
    refine alone ?_ read
    rw [Head.leastWidth, integerWidth, if_pos (by omega)]
  iterate 2
    split at read
    next => exact alone rfl read
  split at read
  next short =>
    refine alone ?_ read
    rw [Head.leastWidth, textWidth, if_pos (by omega)]
  split at read
  case h_32 =>
    split at read
    next negative =>
      obtain ⟨low, high⟩ := @asSigned_bounds 1 marker byte
      refine alone ?_ read
      rw [Head.leastWidth, integerWidth, if_pos]
      unfold asSigned
      simp only [Bytes.limit]
      omega
    next => contradiction
  all_goals first
    | exact alone rfl read
    | exact numbered_text_leastWidth (by decide) read
    | exact numbered_unsigned_leastWidth (by decide) read
    | exact numbered_signed_leastWidth (by decide) read
    | exact numbered_leastWidth (fun _ _ => Nat.zero_le _) read

/-- No form of a head is shorter than its marker and its least width. -/
theorem readHead_leastWidth {bytes rest : Bytes} {head : Head}
    (read : readHead bytes = some (head, rest)) :
    head.leastWidth + 1 + rest.length ≤ bytes.length := by
  cases bytes with
  | nil => contradiction
  | cons marker bytes =>
      have least := readMarked_leastWidth marker.toNat_lt read
      rw [List.length_cons]
      omega

/-- The integer that a head is, in whatever form it was written. -/
def Head.integer? : Head → Option Int
  | .unsigned value => some value
  | .signed value => some value
  | _ => none

theorem length_writeText_le {text : String} {bytes rest : Bytes}
    (read : readHead bytes = some (.text (Bytes.ofText text).length, rest)) :
    (writeText text).length + rest.length ≤ bytes.length + (Bytes.ofText text).length := by
  have least := readHead_leastWidth read
  have head := length_writeTextHead (Bytes.ofText text).length
  rw [writeText, List.length_append]
  simp only [Head.leastWidth] at least
  omega

theorem length_writeInteger_le {value : Int} {head : Head} {bytes rest : Bytes}
    (read : readHead bytes = some (head, rest)) (stands : head.integer? = some value) :
    (writeInteger value).length + rest.length ≤ bytes.length := by
  have least := readHead_leastWidth read
  rw [length_writeInteger]
  cases head with
  | unsigned number | signed number =>
      obtain rfl := Option.some.inj stands
      simpa only [Head.leastWidth] using least
  | _ => contradiction

/-! ## Events -/

/-- An event is read back from its bytes whatever follows them. -/
theorem decode?_encode_append {event : Event} (fits : event.Fits) (rest : Bytes) :
    decode? (encode event ++ rest) = some event := by
  have head : ∀ rest, readHead (0x83 :: rest) = some (.map 3, rest) := fun _ => rfl
  simp only [decode?, encode, List.cons_append, List.append_assoc, head, readEntries_encode fits,
    Option.bind_some, Draft.event?]

/-- Bytes that start with an event start with no other one, and go on in one way only. -/
theorem encode_append_inj {first second : Event} (firstFits : first.Fits)
    (secondFits : second.Fits) {firstRest secondRest : Bytes}
    (same : encode first ++ firstRest = encode second ++ secondRest) :
    first = second ∧ firstRest = secondRest := by
  have read := decode?_encode_append firstFits firstRest
  rw [same, decode?_encode_append secondFits secondRest] at read
  obtain rfl := Option.some.inj read
  exact ⟨rfl, List.append_cancel_left same⟩

/-- The bytes of an event read as that event whatever follows them, are the bytes of no other
event, and are not the start of another's unless they are all of it. Each text and the count
inside take as few bytes as any form that reads as the same. -/
theorem encode_self_delimiting {first second : Event} (firstFits : first.Fits)
    (secondFits : second.Fits) (rest : Bytes) :
    decode? (encode first ++ rest) = some first ∧
    (encode first = encode second → first = second) ∧
    (encode first <+: encode second → encode first = encode second) ∧
    (∀ text ∈ [Field.resource.name, first.resource, Field.count.name, Field.message.name,
      first.message], ∀ bytes after,
      readHead bytes = some (.text (Bytes.ofText text).length, after) →
        (writeText text).length + after.length ≤ bytes.length + (Bytes.ofText text).length) ∧
    (∀ head bytes after, readHead bytes = some (head, after) →
      head.integer? = some first.count.toInt →
        (writeInteger first.count.toInt).length + after.length ≤ bytes.length) := by
  refine ⟨decode?_encode_append firstFits rest, ?_, ?_, ?_, ?_⟩
  · intro same
    have appended : encode first ++ [] = encode second ++ [] := by rw [same]
    exact (encode_append_inj firstFits secondFits appended).1
  · rintro ⟨after, same⟩
    have appended : encode first ++ after = encode second ++ [] := by rw [same, List.append_nil]
    rw [(encode_append_inj firstFits secondFits appended).1]
  · intro text _ bytes after read
    exact length_writeText_le read
  · intro head bytes after read stands
    exact length_writeInteger_le read stands

/-- The least count and texts outside ASCII, before bytes that are no event. -/
theorem encode_self_delimiting_extreme :
    decode? (encode ⟨"Zoë", Int64.minValue, "→"⟩ ++ [0xc1]) =
      some ⟨"Zoë", Int64.minValue, "→"⟩ ∧
    ¬encode ⟨"Zoë", Int64.minValue, "→"⟩ <+: encode ⟨"Zoë", Int64.minValue, "→→"⟩ := by
  have fits : (⟨"Zoë", Int64.minValue, "→"⟩ : Event).Fits := by decide
  have otherFits : (⟨"Zoë", Int64.minValue, "→→"⟩ : Event).Fits := by decide
  obtain ⟨read, alone, whole, -, -⟩ := encode_self_delimiting fits otherFits [0xc1]
  refine ⟨read, fun start => ?_⟩
  exact absurd (alone (whole start)) (by decide)

end UpdateRelay.MessagePack
