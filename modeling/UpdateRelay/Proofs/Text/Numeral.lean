import Mathlib.Data.List.Basic
import UpdateRelay.Proofs.Text.Trimming
import UpdateRelay.Text.Integer

/-!
# Numerals

What the reading of an integer takes for one is said by `Text.Numeral` without the reading:
digits with their value in decimal, behind a sign or not. `Text.integer?_eq_some_iff` says that the
reading takes these and no others.
-/

namespace UpdateRelay.Text

/-- Whether characters are digits, at least one. -/
def Digits (chars : List Char) : Prop := chars ≠ [] ∧ ∀ c ∈ chars, c.isDigit

/-- The integers that digits spell behind an optional sign; a minus sign only where `signed`. -/
inductive Numeral (signed : Bool) : List Char → Int → Prop
  | bare {digits} (decimal : Digits digits) :
      Numeral signed digits (Nat.ofDigitChars 10 digits 0)
  | plus {digits} (decimal : Digits digits) :
      Numeral signed ('+' :: digits) (Nat.ofDigitChars 10 digits 0)
  | minus {digits} (allowed : signed = true) (decimal : Digits digits) :
      Numeral signed ('-' :: digits) (-(Nat.ofDigitChars 10 digits 0 : Nat))

/-! ## Digits -/

theorem digit?_eq (c : Char) :
    digit? c = if c.isDigit then some (c.toNat - '0'.toNat) else none := by
  have same : ('0' ≤ c ∧ c ≤ '9') ↔ c.isDigit = true := by
    simp only [Char.isDigit, Bool.and_eq_true, decide_eq_true_eq]
    rfl
  simp only [digit?, same]

theorem readDigits_eq_some_iff {before number : Nat} {chars : List Char} :
    readDigits before chars = some number ↔
      (∀ c ∈ chars, c.isDigit) ∧ number = Nat.ofDigitChars 10 chars before := by
  induction chars generalizing before with
  | nil =>
    simp only [readDigits, Option.some.injEq, List.not_mem_nil, false_implies, implies_true,
      true_and]
    exact eq_comm
  | cons c rest ih =>
    rw [readDigits, digit?_eq]
    by_cases isDigit : c.isDigit
    · simp [isDigit, ih, Nat.ofDigitChars_cons, Nat.mul_comm before]
    · simp [isDigit]

theorem natural?_eq_some_iff {chars : List Char} {number : Nat} :
    natural? chars = some number ↔ Digits chars ∧ number = Nat.ofDigitChars 10 chars 0 := by
  cases chars with
  | nil => simp [natural?, Digits]
  | cons c rest =>
    rw [natural?, readDigits_eq_some_iff]
    · exact and_congr_left fun _ => (and_iff_right (List.cons_ne_nil c rest)).symm
    · exact List.cons_ne_nil c rest

/-- A sign is not a digit. -/
theorem not_digits_of_sign {sign : Char} (isSign : sign.isDigit = false) (rest : List Char) :
    ¬ Digits (sign :: rest) := fun digits => by
  have isDigit := digits.2 sign List.mem_cons_self
  rw [isSign] at isDigit
  contradiction

/-! ## Integers -/

theorem signed?_eq_some_iff {signed : Bool} {chars : List Char} {value : Int} :
    signed? signed chars = some value ↔ Numeral signed chars value := by
  constructor
  · intro read
    unfold signed? at read
    split at read
    next rest =>
      obtain ⟨number, isNumber, rfl⟩ := Option.map_eq_some_iff.1 read
      obtain ⟨digits, rfl⟩ := natural?_eq_some_iff.1 isNumber
      exact .plus digits
    next rest =>
      split at read
      next allowed =>
        obtain ⟨number, isNumber, rfl⟩ := Option.map_eq_some_iff.1 read
        obtain ⟨digits, rfl⟩ := natural?_eq_some_iff.1 isNumber
        exact .minus allowed digits
      next => contradiction
    next =>
      obtain ⟨number, isNumber, rfl⟩ := Option.map_eq_some_iff.1 read
      obtain ⟨digits, rfl⟩ := natural?_eq_some_iff.1 isNumber
      exact .bare digits
  · intro numeral
    cases numeral with
    | plus digits => simp [signed?, natural?_eq_some_iff.2 ⟨digits, rfl⟩]
    | minus allowed digits => simp [signed?, allowed, natural?_eq_some_iff.2 ⟨digits, rfl⟩]
    | bare digits =>
      unfold signed?
      split
      next rest => exact absurd digits (not_digits_of_sign rfl rest)
      next rest => exact absurd digits (not_digits_of_sign rfl rest)
      next => simp [natural?_eq_some_iff.2 ⟨digits, rfl⟩]

/-- The reading takes the numerals whose value lies in the range. -/
theorem integer?_eq_some_iff {range : IntegerRange} {text : String} {value : Int} :
    integer? range text = some value ↔
      Numeral range.signed text.toList value ∧ range.least ≤ value ∧ value ≤ range.greatest := by
  simp [integer?, Option.filter_eq_some_iff, signed?_eq_some_iff]

/-! ## Other spellings of a number -/

theorem isBlank_of_isDigit {c : Char} (isDigit : c.isDigit) : isBlank c = false := by
  have low : c.toNat ≤ '9'.toNat := by
    simp only [Char.isDigit, Bool.and_eq_true, decide_eq_true_eq] at isDigit
    exact UInt32.le_iff_toNat_le.1 isDigit.2
  have checked : ∀ code ≤ '9'.toNat, (Char.ofNat code).isDigit →
      isBlank (Char.ofNat code) = false := by decide
  rw [← Char.ofNat_toNat c] at isDigit ⊢
  exact checked _ low isDigit

namespace Digits

variable {digits : List Char}

/-- Digits by themselves spell one integer. -/
theorem numeral_iff (decimal : Digits digits) {signed : Bool} {value : Int} :
    Numeral signed digits value ↔ value = Nat.ofDigitChars 10 digits 0 := by
  refine ⟨fun numeral => ?_, fun same => same ▸ .bare decimal⟩
  cases numeral with
  | bare => rfl
  | plus => exact absurd decimal (not_digits_of_sign rfl _)
  | minus => exact absurd decimal (not_digits_of_sign rfl _)

theorem solid (decimal : Digits digits) : Solid digits :=
  ⟨decimal.1, fun c member => isBlank_of_isDigit (decimal.2 c member)⟩

/-- A plus sign is no white space either. -/
theorem solid_plus (decimal : Digits digits) : Solid ('+' :: digits) :=
  ⟨List.cons_ne_nil _ _, List.forall_mem_cons.2 ⟨rfl, decimal.solid.2⟩⟩

theorem zeros_append (decimal : Digits digits) (count : Nat) :
    Digits (List.replicate count '0' ++ digits) := by
  refine ⟨List.append_ne_nil_of_right_ne_nil _ decimal.1, fun c member => ?_⟩
  rcases List.mem_append.1 member with zero | digit
  · rw [(List.mem_replicate.1 zero).2]
    rfl
  · exact decimal.2 c digit

/-- A plus sign before digits changes nothing. -/
theorem numeral_plus (decimal : Digits digits) {signed : Bool} {value : Int} :
    Numeral signed ('+' :: digits) value ↔ Numeral signed digits value := by
  rw [decimal.numeral_iff]
  refine ⟨fun numeral => ?_, fun same => same ▸ .plus decimal⟩
  cases numeral with
  | plus => rfl
  | bare wrong => exact absurd wrong (not_digits_of_sign rfl digits)

/-- Zeros before digits change nothing. -/
theorem numeral_zeros (decimal : Digits digits) (count : Nat) {signed : Bool} {value : Int} :
    Numeral signed (List.replicate count '0' ++ digits) value ↔ Numeral signed digits value := by
  rw [(decimal.zeros_append count).numeral_iff, decimal.numeral_iff, Nat.ofDigitChars_append,
    Nat.ofDigitChars_replicate_zero, Nat.mul_zero]

end Digits

end UpdateRelay.Text
