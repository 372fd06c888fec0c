/-!
# Similarity of words

How similar two words are is measured by the letters they have in common at nearby places, and by
how many of those stand in a different order. The measure is a fraction between 0 for words with no
letter in common and 1 for equal words.
-/

namespace Sigil

/-- Marks the first letter `c` that is not marked yet, from place `lo` on and before place `hi`. -/
def markLetter? (c : Char) : Nat → Nat → List (Char × Bool) → Option (List (Char × Bool))
  | _, _, [] => none
  | _, 0, _ => none
  | lo, hi + 1, (d, marked) :: rest =>
    if lo = 0 ∧ marked = false ∧ c = d then some ((d, true) :: rest)
    else (markLetter? c (lo - 1) hi rest).map ((d, marked) :: ·)

/-- Pairs each letter of a word, the first of them at place `i`, with a letter of another word that
is at most `reach` places away. Returns the letters that found a partner, and the other word with the
partners marked. -/
def pairLetters (reach : Nat) : Nat → List Char → List (Char × Bool) →
    List Char × List (Char × Bool)
  | _, [], other => ([], other)
  | i, c :: word, other =>
    match markLetter? c (i - reach) (i + reach + 1) other with
    | none => pairLetters reach (i + 1) word other
    | some other =>
      let (paired, other) := pairLetters reach (i + 1) word other
      (c :: paired, other)

/-- How similar two words are. -/
def similarity (a b : List Char) : Rat :=
  if a.isEmpty && b.isEmpty then 1
  else
    let reach := max a.length b.length / 2 - 1
    let (paired, other) := pairLetters reach 0 a (b.map (·, false))
    let partners := (other.filter (·.2)).map (·.1)
    let common := paired.length
    let swapped := ((paired.zip partners).filter fun p => p.1 ≠ p.2).length / 2
    if common = 0 then 0
    else
      ((common : Rat) / a.length + (common : Rat) / b.length +
        ((common - swapped : Nat) : Rat) / common) / 3

end Sigil
