/-!
# Pieces of a text

A text is cut at every occurrence of a separator. There is one more piece than separators, and the
pieces with the separators between them are the text again.
-/

namespace Sigil

/-- The pieces of a text between the occurrences of `sep`. -/
def pieces (sep : Char) : List Char → List (List Char)
  | [] => [[]]
  | c :: text =>
    if c = sep then [] :: pieces sep text
    else
      match pieces sep text with
      | [] => [[c]]
      | piece :: others => (c :: piece) :: others

/-- There is always a piece. -/
theorem pieces_ne_nil (sep : Char) (text : List Char) : pieces sep text ≠ [] := by
  cases text with
  | nil => simp [pieces]
  | cons c text =>
    unfold pieces
    split
    · simp
    · split <;> simp

end Sigil
