import Mathlib.Data.List.TakeWhile
import UpdateRelay.Text.Blank

/-!
# What trimming does not look at

White space put before a text or behind it is trimmed away again, and does not make a blank text of
one that is not.
-/

namespace UpdateRelay.Text

/-- Whether characters are white space, all of them. -/
def AllBlank (chars : List Char) : Prop := ∀ c ∈ chars, isBlank c = true

variable {before chars after : List Char}

theorem AllBlank.reverse (blank : AllBlank chars) : AllBlank chars.reverse :=
  fun c member => blank c (List.mem_reverse.1 member)

theorem AllBlank.dropWhile_append (blank : AllBlank before) (chars : List Char) :
    (before ++ chars).dropWhile isBlank = chars.dropWhile isBlank :=
  List.dropWhile_append_of_pos blank

theorem AllBlank.dropWhile (blank : AllBlank chars) : chars.dropWhile isBlank = [] :=
  List.dropWhile_eq_nil_iff.2 blank

theorem trimChars_append_left (blank : AllBlank before) (chars : List Char) :
    trimChars (before ++ chars) = trimChars chars := by
  rw [trimChars, blank.dropWhile_append, trimChars]

theorem trimChars_append_right (blank : AllBlank after) (chars : List Char) :
    trimChars (chars ++ after) = trimChars chars := by
  simp only [trimChars, List.dropWhile_append]
  split
  next none =>
    rw [List.isEmpty_iff.1 none, blank.dropWhile]
  next => rw [List.reverse_append, blank.reverse.dropWhile_append]

/-- White space around characters is trimmed away again. -/
theorem trimChars_padded (leads : AllBlank before) (trails : AllBlank after) (chars : List Char) :
    trimChars (before ++ chars ++ after) = trimChars chars := by
  rw [trimChars_append_right trails, trimChars_append_left leads]

/-! ## Characters without white space -/

/-- Whether characters are not white space, none of them, and not nothing either. -/
def Solid (chars : List Char) : Prop := chars ≠ [] ∧ ∀ c ∈ chars, isBlank c = false

namespace Solid

theorem reverse (solid : Solid chars) : Solid chars.reverse :=
  ⟨mt List.reverse_eq_nil_iff.1 solid.1, fun c member => solid.2 c (List.mem_reverse.1 member)⟩

theorem dropWhile (solid : Solid chars) : chars.dropWhile isBlank = chars :=
  List.dropWhile_eq_self_iff.2 fun some => by simp [solid.2 _ (List.getElem_mem some)]

/-- Characters without white space are left as they are. -/
theorem trimChars_eq_self (solid : Solid chars) : trimChars chars = chars := by
  rw [trimChars, solid.dropWhile, solid.reverse.dropWhile, List.reverse_reverse]

/-- A text without white space is not blank. -/
theorem not_isBlankText (solid : Solid chars) : isBlankText (String.ofList chars) = false := by
  obtain ⟨c, rest, rfl⟩ := List.exists_cons_of_ne_nil solid.1
  simp [isBlankText, solid.2 c List.mem_cons_self]

end Solid

end UpdateRelay.Text
