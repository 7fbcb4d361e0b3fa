import Mathlib.Data.List.TakeDrop
import Mathlib.Data.List.TakeWhile
import UpdateRelay.Json.Record
import UpdateRelay.Proofs.Json.Quoted

/-!
# Reading back integers

An integer is written with the digits that reading takes, and without leading zeros. So it is read
back from in front of anything that does not go on with a digit: `readInteger_writeInteger`.
-/

namespace UpdateRelay.Json

/-- Whether bytes do not start with a digit. -/
def NoDigit (bytes : Bytes) : Prop := ∀ byte ∈ bytes.head?, isDigit byte = false

/-! ## Digits -/

theorem digit_ascii : ∀ digit < 10, isDigit (UInt8.ofNat (0x30 + digit)) = true ∧
    (UInt8.ofNat (0x30 + digit)).toNat = 0x30 + digit := by
  decide

theorem spanDigits_append {digits rest : Bytes} (all : ∀ byte ∈ digits, isDigit byte = true)
    (noDigit : NoDigit rest) : spanDigits (digits ++ rest) = (digits, rest) := by
  have stops : rest.takeWhile isDigit = [] ∧ rest.dropWhile isDigit = rest := by
    cases rest with
    | nil => exact ⟨rfl, rfl⟩
    | cons byte rest =>
        have other : isDigit byte = false := noDigit byte rfl
        simp [other]
  rw [spanDigits, List.span_eq_takeWhile_dropWhile, List.takeWhile_append_of_pos all,
    List.dropWhile_append_of_pos all, stops.1, stops.2, List.append_nil]

theorem naturalOf_append (digits : Bytes) (digit : UInt8) :
    naturalOf (digits ++ [digit]) = naturalOf digits * 10 + (digit.toNat - 0x30) := by
  simp [naturalOf]

/-! ## Natural numbers -/

theorem isDigit_of_mem_writeNatural (number : Nat) :
    ∀ byte ∈ writeNatural number, isDigit byte = true := by
  induction number using writeNatural.induct with
  | case1 number small =>
      rw [writeNatural, if_pos small]
      simpa using (digit_ascii number small).1
  | case2 number large ih =>
      rw [writeNatural, if_neg large]
      intro byte member
      rcases List.mem_append.1 member with front | last
      · exact ih byte front
      · rw [List.mem_singleton.1 last]
        exact (digit_ascii (number % 10) (Nat.mod_lt _ (by omega))).1

theorem naturalOf_writeNatural (number : Nat) : naturalOf (writeNatural number) = number := by
  induction number using writeNatural.induct with
  | case1 number small =>
      have value := (digit_ascii number small).2
      rw [writeNatural, if_pos small]
      simp only [naturalOf, List.foldl_cons, List.foldl_nil, value]
      omega
  | case2 number large ih =>
      have value := (digit_ascii (number % 10) (Nat.mod_lt _ (by omega))).2
      rw [writeNatural, if_neg large, naturalOf_append, ih, value]
      omega

/-- Only zero starts with a zero, and then nothing follows. -/
theorem exists_writeNatural_eq_cons (number : Nat) : ∃ first digits,
    writeNatural number = first :: digits ∧ (first = 0x30 → number = 0 ∧ digits = []) := by
  induction number using writeNatural.induct with
  | case1 number small =>
      refine ⟨_, [], by rw [writeNatural, if_pos small], fun zero => ⟨?_, rfl⟩⟩
      have value := (digit_ascii number small).2
      rw [zero] at value
      simp at value
      omega
  | case2 number large ih =>
      obtain ⟨first, digits, front, zero⟩ := ih
      rw [writeNatural, if_neg large, front]
      refine ⟨first, _, rfl, fun isZero => ?_⟩
      have := (zero isZero).1
      omega

theorem readNatural_writeNatural (number : Nat) {rest : Bytes} (noDigit : NoDigit rest) :
    readNatural (writeNatural number ++ rest) = some (number, rest) := by
  obtain ⟨first, digits, written, zero⟩ := exists_writeNatural_eq_cons number
  have value := naturalOf_writeNatural number
  have span := spanDigits_append (isDigit_of_mem_writeNatural number) noDigit
  rw [written] at value span ⊢
  rw [readNatural, span]
  split
  next none => simp at none
  next leading =>
      obtain ⟨rfl, rfl⟩ := List.cons.inj (Prod.mk.inj leading).1
      exact absurd (zero rfl).2 (List.cons_ne_nil _ _)
  next found =>
      obtain ⟨rfl, rfl⟩ := Prod.mk.inj found
      rw [value]

/-! ## Integers -/

theorem readInteger_writeInteger (value : Int) {rest : Bytes} (noDigit : NoDigit rest) :
    readInteger (writeInteger value ++ rest) = some (value, rest) := by
  by_cases nonnegative : 0 ≤ value
  · have read := readNatural_writeNatural value.toNat noDigit
    obtain ⟨first, digits, written, -⟩ := exists_writeNatural_eq_cons value.toNat
    have digit := isDigit_of_mem_writeNatural value.toNat first (by simp [written])
    have unsigned : ∀ more, writeNatural value.toNat ++ rest ≠ 0x2d :: more := by
      intro more signed
      rw [written, List.cons_append] at signed
      rw [(List.cons.inj signed).1] at digit
      contradiction
    rw [writeInteger, if_pos nonnegative, readInteger.eq_2 _ unsigned, read, Option.map_some]
    exact congrArg (fun number => some (number, rest)) (Int.toNat_of_nonneg nonnegative)
  · have read := readNatural_writeNatural value.natAbs noDigit
    rw [writeInteger, if_neg nonnegative, List.cons_append, readInteger, read]
    split
    next zero =>
        have none : value.natAbs = 0 := (Prod.mk.inj (Option.some.inj zero)).1
        omega
    next => contradiction
    next found =>
        obtain ⟨rfl, rfl⟩ := Prod.mk.inj (Option.some.inj found)
        rw [Int.ofNat_natAbs_of_nonpos (by omega), Int.neg_neg]

theorem plain_writeInteger (value : Int) : Plain (writeInteger value) := by
  have digits : ∀ number, Plain (writeNatural number) := by
    intro number
    refine plain_of_ascii fun byte member => ?_
    have digit := isDigit_of_mem_writeNatural number byte member
    simp only [isDigit, Bool.and_eq_true, decide_eq_true_eq] at digit
    grind
  have minus : Plain [0x2d] := plain_byte (by decide) (by decide)
  unfold writeInteger
  split
  next => exact digits _
  next => exact minus.append (digits _)

theorem not_isBlank_of_isDigit {byte : UInt8} (digit : isDigit byte = true) :
    isBlank byte = false := by
  simp only [isDigit, Bool.and_eq_true, decide_eq_true_eq] at digit
  simp only [isBlank, Bool.or_eq_false_iff, decide_eq_false_iff_not]
  grind

theorem skipBlank_writeInteger (value : Int) (rest : Bytes) :
    skipBlank (writeInteger value ++ rest) = writeInteger value ++ rest := by
  unfold writeInteger
  split
  next =>
      obtain ⟨first, digits, written, -⟩ := exists_writeNatural_eq_cons value.toNat
      have digit := isDigit_of_mem_writeNatural value.toNat first (by simp [written])
      rw [written, List.cons_append, skipBlank,
        List.dropWhile_cons_of_neg (by simp [not_isBlank_of_isDigit digit])]
  next => rfl

/-- An integer within bounds is read back where an integer within these bounds is expected. -/
theorem readBounded_writeInteger {least greatest value : Int} (low : least ≤ value)
    (high : value ≤ greatest) {rest : Bytes} (noDigit : NoDigit rest) :
    readBounded least greatest (writeInteger value ++ rest) = some (value, rest) := by
  rw [readBounded, skipBlank_writeInteger, readInteger_writeInteger value noDigit]
  simp [low, high]

end UpdateRelay.Json
