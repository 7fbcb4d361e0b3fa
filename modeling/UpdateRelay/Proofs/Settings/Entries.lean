import UpdateRelay.Proofs.Framing
import UpdateRelay.Proofs.Text.Trimming
import UpdateRelay.Settings.Environment

/-!
# Entries of a list in a variable

A value that lists something with commas between has the entries of each piece between the commas,
in order, and a piece has one entry or, if it is blank, none. White space around a piece or around
the value makes no difference.
-/

namespace UpdateRelay

/-! ## Pieces -/

namespace Text

variable {α : Type} [DecidableEq α] {separator : α}

theorem pieces_of_not_mem {items : List α} (free : separator ∉ items) :
    pieces separator items = [items] := by
  obtain ⟨first, more, cut, whole⟩ := pieces_append free []
  obtain ⟨rfl, rfl⟩ := List.cons.inj cut
  simpa using whole

theorem pieces_append_cons (items others : List α) :
    pieces separator (items ++ separator :: others) =
      pieces separator items ++ pieces separator others := by
  induction items with
  | nil => simp [pieces]
  | cons item items ih =>
    rw [List.cons_append]
    by_cases here : item = separator
    · simp [pieces, here, ih]
    · obtain ⟨first, more, cut⟩ := List.exists_cons_of_ne_nil (pieces_ne_nil separator items)
      simp [pieces, here, ih, cut]

theorem pieces_append_right {tail : List α} (free : separator ∉ tail) (items : List α) :
    ∃ front last, pieces separator items = front ++ [last] ∧
      pieces separator (items ++ tail) = front ++ [last ++ tail] := by
  induction items with
  | nil => exact ⟨[], [], rfl, pieces_of_not_mem free⟩
  | cons item items ih =>
    obtain ⟨front, last, cut, whole⟩ := ih
    rw [List.cons_append]
    by_cases here : item = separator
    · exact ⟨[] :: front, last, by simp [pieces, here, cut], by simp [pieces, here, whole]⟩
    · cases front with
      | nil =>
        exact ⟨[], item :: last, by simp [pieces, here, cut], by simp [pieces, here, whole]⟩
      | cons first front =>
        exact ⟨(item :: first) :: front, last, by simp [pieces, here, cut],
          by simp [pieces, here, whole]⟩

/-! ## White space -/

theorem isBlankText_iff {text : String} : isBlankText text = true ↔ AllBlank text.toList :=
  List.all_eq_true

/-- White space around a text does not make it blank. -/
theorem isBlankText_pad {lead trail : String} (leads : isBlankText lead)
    (trails : isBlankText trail) (text : String) :
    isBlankText (lead ++ text ++ trail) = isBlankText text := by
  simp only [isBlankText] at leads trails ⊢
  simp [leads, trails]

theorem trim_pad {lead trail : String} (leads : isBlankText lead) (trails : isBlankText trail)
    (text : String) : trim (lead ++ text ++ trail) = trim text := by
  simp only [trim, String.toList_append,
    trimChars_padded (isBlankText_iff.1 leads) (isBlankText_iff.1 trails)]

/-- There is no comma in white space. -/
theorem AllBlank.not_comma {chars : List Char} (blank : AllBlank chars) : ',' ∉ chars :=
  fun member => absurd (blank ',' member) (by decide)

/-- Texts with commas between are blank if there is no comma and the text is blank. -/
theorem isBlankText_intercalate (texts : List String) :
    isBlankText (",".intercalate texts) = (texts.all isBlankText && texts.length ≤ 1) := by
  match texts with
  | [] => rfl
  | [text] => simp
  | first :: second :: more =>
    have comma : isBlank ',' = false := by decide
    simp [isBlankText, String.toList_intercalate, comma]

end Text

/-! ## Entries -/

namespace Environment

open Text

/-- The entry that a piece is, unless it is blank. -/
def entryOf (piece : String) : List String :=
  [trim piece].filter fun entry => entry ≠ ""

theorem entries_of_not_mem {piece : String} (free : ',' ∉ piece.toList) :
    entries piece = entryOf piece := by
  simp [entries, pieces_of_not_mem free, entryOf, trim]

theorem entries_append_comma (value other : String) :
    entries (value ++ "," ++ other) = entries value ++ entries other := by
  have comma : (",".toList ++ other.toList) = ',' :: other.toList := rfl
  simp only [entries, String.toList_append, List.append_assoc, comma, pieces_append_cons,
    List.map_append, List.filter_append]

/-- The entries of a list are those of its parts. -/
theorem entries_intercalate {parts : List String} (some : parts ≠ []) :
    entries (",".intercalate parts) = parts.flatMap entries := by
  match parts with
  | [part] => simp
  | first :: second :: more =>
    rw [String.intercalate_cons_cons, entries_append_comma,
      entries_intercalate (List.cons_ne_nil second more)]
    rfl

theorem entries_append_blank {trail : String} (trails : isBlankText trail) (value : String) :
    entries (value ++ trail) = entries value := by
  have blank := isBlankText_iff.1 trails
  obtain ⟨front, last, cut, whole⟩ := pieces_append_right blank.not_comma value.toList
  simp [entries, cut, whole, trimChars_append_right blank]

theorem entries_blank_append {lead : String} (leads : isBlankText lead) (value : String) :
    entries (lead ++ value) = entries value := by
  have blank := isBlankText_iff.1 leads
  obtain ⟨first, more, cut, whole⟩ := pieces_append blank.not_comma value.toList
  simp [entries, cut, whole, trimChars_append_left blank]

theorem entries_pad {lead trail : String} (leads : isBlankText lead) (trails : isBlankText trail)
    (value : String) : entries (lead ++ value ++ trail) = entries value := by
  rw [entries_append_blank trails, entries_blank_append leads]

/-- The entries of a value are the trimmed pieces between its commas that are not empty. -/
theorem eq_entries_iff {value : String} {nodes : List String} :
    nodes = entries value ↔
      ∃ pieces : List String, pieces ≠ [] ∧ (∀ piece ∈ pieces, ',' ∉ piece.toList) ∧
        value = ",".intercalate pieces ∧
        nodes = (pieces.map trim).filter fun entry => entry ≠ "" := by
  constructor
  · rintro rfl
    refine ⟨(pieces ',' value.toList).map String.ofList, ?_, ?_, ?_, ?_⟩
    · simpa using pieces_ne_nil ',' value.toList
    · intro piece member
      obtain ⟨chars, isPiece, rfl⟩ := List.mem_map.1 member
      simpa using not_mem_of_mem_pieces isPiece
    · refine String.toList_injective ?_
      have comma : ",".toList = [','] := rfl
      have same : (String.toList ∘ String.ofList) = id := funext fun chars => String.toList_ofList
      rw [String.toList_intercalate, comma, List.map_map, same, List.map_id, intercalate_pieces]
    · have same : (fun piece => String.ofList (trimChars piece)) = trim ∘ String.ofList :=
        funext fun chars => by simp [trim]
      rw [entries, List.map_map, same]
  · rintro ⟨pieces, some, free, rfl, rfl⟩
    -- The value is cut at the commas between the pieces, and nowhere else.
    rw [entries_intercalate some]
    clear some
    induction pieces with
    | nil => rfl
    | cons piece pieces ih =>
      rw [List.flatMap_cons, entries_of_not_mem (free piece List.mem_cons_self),
        ← ih fun other member => free other (List.mem_cons_of_mem _ member), entryOf,
        ← List.filter_append]
      rfl

/-- White space around a piece of a list makes no difference. -/
theorem entries_padPiece {lead trail : String} (leads : isBlankText lead)
    (trails : isBlankText trail) (front back : List String) (piece : String) :
    entries (",".intercalate (front ++ (lead ++ piece ++ trail) :: back)) =
      entries (",".intercalate (front ++ piece :: back)) := by
  rw [entries_intercalate (by simp), entries_intercalate (by simp)]
  simp only [List.flatMap_append, List.flatMap_cons, entries_pad leads trails]

/-- One more piece in a list makes no difference if it is empty. -/
theorem entries_emptyPiece {front back : List String} (some : front ++ back ≠ []) :
    entries (",".intercalate (front ++ "" :: back)) =
      entries (",".intercalate (front ++ back)) := by
  have none : entries "" = [] := rfl
  rw [entries_intercalate (by simp), entries_intercalate some]
  simp only [List.flatMap_append, List.flatMap_cons, none, List.nil_append]

end Environment

end UpdateRelay
