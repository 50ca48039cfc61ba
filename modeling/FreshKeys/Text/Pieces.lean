/-!
# Texts in pieces

Cutting a text at separators keeps every piece, empty ones included: a text with `n` separators has
`n + 1` pieces, and the pieces joined by their separators are the text again.
-/

namespace FreshKeys.Text

/-- The pieces between the separators of a text. -/
def pieces (p : Char → Bool) : List Char → List (List Char)
  | [] => [[]]
  | c :: rest =>
    if p c then [] :: pieces p rest
    else
      match pieces p rest with
      | [] => [[c]]
      | first :: others => (c :: first) :: others

/-- There is always a first piece. -/
theorem pieces_ne_nil (p : Char → Bool) (s : List Char) : pieces p s ≠ [] := by
  cases s with
  | nil => simp [pieces]
  | cons c rest =>
    simp only [pieces]
    split
    · simp
    · split <;> simp

end FreshKeys.Text
