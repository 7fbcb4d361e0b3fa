import UpdateRelay.Bytes

/-!
# Bytes that spell a text

`Bytes.IsText` says that bytes are the UTF-8 form of some text. Bytes of ASCII are, and what is put
together from texts is. A character is one byte of ASCII, or none of its bytes is in ASCII.
-/

namespace UpdateRelay.Bytes

/-- A text is written character by character. -/
theorem ofText_ofList (chars : List Char) :
    ofText (String.ofList chars) = chars.flatMap String.utf8EncodeChar := by
  rw [ofText, String.toByteArray_ofList, List.utf8Encode]
  simp

theorem ofText_append (first second : String) :
    ofText (first ++ second) = ofText first ++ ofText second := by
  simp [ofText]

/-! ## Characters -/

theorem utf8EncodeChar_of_ascii : ∀ number < 0x80,
    String.utf8EncodeChar (Char.ofNat number) = [UInt8.ofNat number] := by
  decide

theorem utf8EncodeChar_cases (c : Char) :
    (∃ byte : UInt8, byte < 0x80 ∧ String.utf8EncodeChar c = [byte]) ∨
      ∀ byte ∈ String.utf8EncodeChar c, 0x80 ≤ byte := by
  simp only [String.utf8EncodeChar]
  generalize c.val.toNat = number
  split
  next ascii => exact Or.inl ⟨_, by simp [UInt8.lt_iff_toNat_lt]; omega, rfl⟩
  -- Every byte of a longer form has its highest bit set.
  next =>
      refine Or.inr ?_
      split
      next => simp [UInt8.le_iff_toNat_le]; omega
      next =>
          split
          next => simp [UInt8.le_iff_toNat_le]; omega
          next => simp [UInt8.le_iff_toNat_le]; omega

/-! ## Texts -/

/-- Whether bytes spell a text. -/
def IsText (bytes : Bytes) : Prop := ∃ text, bytes = ofText text

theorem isText_nil : IsText [] := ⟨"", rfl⟩

theorem IsText.append {first second : Bytes} (isFirst : first.IsText) (isSecond : second.IsText) :
    (first ++ second).IsText := by
  obtain ⟨front, rfl⟩ := isFirst
  obtain ⟨back, rfl⟩ := isSecond
  exact ⟨front ++ back, (ofText_append front back).symm⟩

theorem isText_of_ascii {bytes : Bytes} (ascii : ∀ byte ∈ bytes, byte < 0x80) : bytes.IsText := by
  induction bytes with
  | nil => exact isText_nil
  | cons byte rest ih =>
      have small : byte.toNat < 0x80 := UInt8.lt_iff_toNat_lt.1 (ascii byte List.mem_cons_self)
      have alone : IsText [byte] := by
        refine ⟨String.ofList [Char.ofNat byte.toNat], ?_⟩
        rw [ofText_ofList, List.flatMap_singleton, utf8EncodeChar_of_ascii _ small,
          UInt8.ofNat_toNat]
      exact alone.append (ih fun other member => ascii other (List.mem_cons_of_mem byte member))

end UpdateRelay.Bytes
