/-!
# Pieces of a list

Cutting a list at each occurrence of a separator. `Text.intercalate_pieces` says that nothing is
lost, and `Text.not_mem_of_mem_pieces` that every separator was cut at.
-/

namespace UpdateRelay.Text

variable {α : Type} [DecidableEq α]

/-- The pieces of a list between separators; there is always one more piece than separators. -/
def pieces (separator : α) : List α → List (List α)
  | [] => [[]]
  | item :: rest =>
      if item = separator then [] :: pieces separator rest
      else
        match pieces separator rest with
        | first :: more => (item :: first) :: more
        | [] => [[item]]

theorem pieces_ne_nil (separator : α) (items : List α) : pieces separator items ≠ [] := by
  cases items with
  | nil => simp [pieces]
  | cons item rest =>
      unfold pieces
      split
      · simp
      · split <;> simp

theorem intercalate_pieces (separator : α) (items : List α) :
    [separator].intercalate (pieces separator items) = items := by
  induction items with
  | nil => rfl
  | cons item rest ih =>
      have some := pieces_ne_nil separator rest
      unfold pieces
      by_cases here : item = separator <;> cases cut : pieces separator rest with
      | nil => exact absurd cut some
      | cons first more => cases more <;> simp_all [List.intercalate, List.intersperse]

theorem not_mem_of_mem_pieces {separator : α} {items piece : List α}
    (member : piece ∈ pieces separator items) : separator ∉ piece := by
  induction items generalizing piece with
  | nil => simp_all [pieces]
  | cons item rest ih =>
      unfold pieces at member
      by_cases here : item = separator <;> cases cut : pieces separator rest <;> grind

end UpdateRelay.Text
