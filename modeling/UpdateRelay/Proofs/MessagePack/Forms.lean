import UpdateRelay.Proofs.MessagePack.Prefix

/-!
# The forms of a head

A head can be written in its marker alone, where its number is small, or in any width that holds the
number. `Head.forms` lists all the ways, and `readAs_form` says that reading a head accepts each of
them.
-/

namespace UpdateRelay.MessagePack

/-! ## Forms -/

/-- A marker, and in how many bytes a number follows it. -/
abbrev Wide := UInt8 × Nat

/-- A number in a marker of its own, where it is below the bound. -/
def narrowForms (marker bound number : Nat) : List Bytes :=
  if number < bound then [[UInt8.ofNat (marker + number)]] else []

/-- A number in each of some widths that hold it. -/
def wideForms (wides : List Wide) (number : Nat) : List Bytes :=
  (wides.filter fun wide => number < Bytes.limit wide.2).map
    fun wide => wide.1 :: Bytes.ofNat wide.2 number

/-- Whether a width holds an integer in two's complement. -/
def Holds (width : Nat) (value : Int) : Prop :=
  -(Bytes.limit width : Int) ≤ 2 * value ∧ 2 * value < Bytes.limit width

instance (width : Nat) (value : Int) : Decidable (Holds width value) :=
  inferInstanceAs (Decidable (_ ∧ _))

/-- The bytes of an integer in two's complement. -/
def signedBytes (width : Nat) (value : Int) : Bytes :=
  Bytes.ofNat width (value % Bytes.limit width).toNat

/-- An integer in two's complement in each of some widths that hold it. -/
def signedForms (wides : List Wide) (value : Int) : List Bytes :=
  (wides.filter fun wide => Holds wide.2 value).map fun wide => wide.1 :: signedBytes wide.2 value

/-- The markers that stand for a number all by themselves. -/
def fixedForms (markers : List (UInt8 × Nat)) (number : Nat) : List Bytes :=
  (markers.filter fun marker => marker.2 = number).map fun marker => [marker.1]

namespace Head

/-- All ways in which a head can be written. -/
def forms : Head → List Bytes
  | nil => [[0xc0]]
  | boolean value => [[if value then 0xc3 else 0xc2]]
  | unsigned value =>
      narrowForms 0 0x80 value ++ wideForms [(0xcc, 1), (0xcd, 2), (0xce, 4), (0xcf, 8)] value
  | signed value =>
      (if -0x20 ≤ value ∧ value < 0 then [signedBytes 1 value] else []) ++
        signedForms [(0xd0, 1), (0xd1, 2), (0xd2, 4), (0xd3, 8)] value
  | float width => fixedForms [(0xca, 4), (0xcb, 8)] width
  | text length => narrowForms 0xa0 32 length ++ wideForms [(0xd9, 1), (0xda, 2), (0xdb, 4)] length
  | binary length => wideForms [(0xc4, 1), (0xc5, 2), (0xc6, 4)] length
  | array count => narrowForms 0x90 16 count ++ wideForms [(0xdc, 2), (0xdd, 4)] count
  | map count => narrowForms 0x80 16 count ++ wideForms [(0xde, 2), (0xdf, 4)] count
  | extension length =>
      fixedForms [(0xd4, 1), (0xd5, 2), (0xd6, 4), (0xd7, 8), (0xd8, 16)] length ++
        wideForms [(0xc7, 1), (0xc8, 2), (0xc9, 4)] length

end Head

/-! ## Every form is read -/

/-- Whether bytes are read as a head, whatever follows them. -/
def ReadAs (form : Bytes) (head : Head) : Prop :=
  ∀ rest, readHead (form ++ rest) = some (head, rest)

theorem readAs_narrow {marker bound : Nat} {make : Nat → Head} (byte : marker + bound ≤ 0x100)
    (reads : ∀ number < bound, ∀ rest,
      readMarked (marker + number) rest = some (make number, rest))
    {number : Nat} {form : Bytes} (isForm : form ∈ narrowForms marker bound number) :
    ReadAs form (make number) := by
  intro rest
  unfold narrowForms at isForm
  split at isForm
  next small =>
    have marked : (UInt8.ofNat (marker + number)).toNat = marker + number :=
      toNat_ofNat (by omega)
    obtain rfl := List.mem_singleton.1 isForm
    rw [List.singleton_append, readHead, marked, reads number small]
  next => contradiction

theorem readAs_wide {wides : List Wide} {make : Nat → Head}
    (reads : (wides.map fun wide => readMarked wide.1.toNat) =
      wides.map fun wide => numbered wide.2 make)
    {number : Nat} {form : Bytes} (isForm : form ∈ wideForms wides number) :
    ReadAs form (make number) := by
  intro rest
  obtain ⟨wide, kept, rfl⟩ := List.mem_map.1 isForm
  obtain ⟨member, fits⟩ := List.mem_filter.1 kept
  rw [List.cons_append, readHead, List.map_inj_left.1 reads wide member,
    numbered_ofNat (of_decide_eq_true fits)]

/-- An integer is read back from its two's complement. -/
theorem asSigned_emod {width : Nat} {value : Int} (holds : Holds width value) :
    (value % Bytes.limit width).toNat < Bytes.limit width ∧
      asSigned width (value % Bytes.limit width).toNat = value := by
  obtain ⟨low, high⟩ := holds
  unfold asSigned
  generalize Bytes.limit width = limit at *
  by_cases negative : value < 0
  · have same : value % limit = value + limit := by
      rw [← Int.add_emod_right, Int.emod_eq_of_lt (by omega) (by omega)]
    rw [same, if_neg (by omega)]
    omega
  · rw [Int.emod_eq_of_lt (by omega) (by omega), if_pos (by omega)]
    omega

theorem readAs_signed {wides : List Wide}
    (reads : (wides.map fun wide => readMarked wide.1.toNat) =
      wides.map fun wide => numbered wide.2 fun number => .signed (asSigned wide.2 number))
    {value : Int} {form : Bytes} (isForm : form ∈ signedForms wides value) :
    ReadAs form (.signed value) := by
  intro rest
  obtain ⟨wide, kept, rfl⟩ := List.mem_map.1 isForm
  obtain ⟨member, holds⟩ := List.mem_filter.1 kept
  obtain ⟨fits, same⟩ := asSigned_emod (of_decide_eq_true holds)
  rw [List.cons_append, readHead, List.map_inj_left.1 reads wide member, signedBytes,
    numbered_ofNat fits, same]

theorem readAs_fixed {markers : List (UInt8 × Nat)} {make : Nat → Head}
    (reads : (markers.map fun marker => readMarked marker.1.toNat) =
      markers.map fun marker rest => some (make marker.2, rest))
    {number : Nat} {form : Bytes} (isForm : form ∈ fixedForms markers number) :
    ReadAs form (make number) := by
  intro rest
  obtain ⟨marker, kept, rfl⟩ := List.mem_map.1 isForm
  obtain ⟨member, same⟩ := List.mem_filter.1 kept
  obtain rfl := of_decide_eq_true same
  rw [List.singleton_append, readHead, List.map_inj_left.1 reads marker member]

/-- A negative number of one byte may stand for itself. -/
theorem readAs_negative {value : Int} (small : -0x20 ≤ value) (negative : value < 0) :
    ReadAs (signedBytes 1 value) (.signed value) := by
  intro rest
  obtain ⟨fits, same⟩ := @asSigned_emod 1 value (by unfold Holds; simp only [Bytes.limit]; omega)
  have large : 0xe0 ≤ (value % Bytes.limit 1).toNat := by
    simp only [Bytes.limit]
    omega
  have marked : (UInt8.ofNat (value % Bytes.limit 1).toNat).toNat = (value % Bytes.limit 1).toNat :=
    toNat_ofNat fits
  rw [signedBytes, Bytes.ofNat, Bytes.ofNat, List.nil_append, List.singleton_append, readHead,
    marked, readMarked_negative large, same]

theorem readAs_form {head : Head} {form : Bytes} (isForm : form ∈ head.forms) :
    ReadAs form head := by
  cases head with
  | nil =>
    obtain rfl := List.mem_singleton.1 isForm
    exact fun _ => rfl
  | boolean value =>
    obtain rfl := List.mem_singleton.1 isForm
    cases value <;> exact fun _ => rfl
  | unsigned value =>
    rcases List.mem_append.1 isForm with narrow | wide
    · refine readAs_narrow (by decide) (fun number small rest => ?_) narrow
      unfold readMarked
      rw [Nat.zero_add, if_pos small]
    · exact readAs_wide rfl wide
  | signed value =>
    rcases List.mem_append.1 isForm with narrow | wide
    · split at narrow
      next small =>
        obtain rfl := List.mem_singleton.1 narrow
        exact readAs_negative small.1 small.2
      next => contradiction
    · exact readAs_signed rfl wide
  | float width => exact readAs_fixed rfl isForm
  | text length =>
    rcases List.mem_append.1 isForm with narrow | wide
    · exact readAs_narrow (by decide) (fun number => readMarked_text) narrow
    · exact readAs_wide rfl wide
  | binary length => exact readAs_wide rfl isForm
  | array count =>
    rcases List.mem_append.1 isForm with narrow | wide
    · refine readAs_narrow (by decide) (fun number small rest => ?_) narrow
      unfold readMarked
      rw [if_neg (by omega), if_neg (by omega), if_pos (by omega), Nat.add_sub_cancel_left]
    · exact readAs_wide rfl wide
  | map count =>
    rcases List.mem_append.1 isForm with narrow | wide
    · refine readAs_narrow (by decide) (fun number small rest => ?_) narrow
      unfold readMarked
      rw [if_neg (by omega), if_pos (by omega), Nat.add_sub_cancel_left]
    · exact readAs_wide rfl wide
  | extension length =>
    rcases List.mem_append.1 isForm with fixed | wide
    · exact readAs_fixed rfl fixed
    · exact readAs_wide rfl wide

end UpdateRelay.MessagePack
