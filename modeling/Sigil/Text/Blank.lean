import Sigil.Text.CharSet

/-!
# Blank characters

A character is blank when it has the Unicode property `White_Space`: the ASCII tab, line feed,
vertical tab, form feed, carriage return and space, and the spaces and separators listed here.
-/

namespace Sigil

/-- Blank characters beyond ASCII. -/
def blankBeyondAscii : CharSet where
  ranges := [
    (0x85, 0x85), (0xa0, 0xa0), (0x1680, 0x1680), (0x2000, 0x200a), (0x2028, 0x2029),
    (0x202f, 0x202f), (0x205f, 0x205f), (0x3000, 0x3000)]

/-- Whether `c` is blank. -/
def isBlank (c : Char) : Bool :=
  c == ' ' || (decide (9 ≤ c.toNat) && decide (c.toNat ≤ 13)) ||
    (decide (128 ≤ c.toNat) && blankBeyondAscii.contains c)

/-- The text without the blanks at its end. -/
def trimEndBlank (text : List Char) : List Char :=
  (text.reverse.dropWhile isBlank).reverse

/-- The text without the blanks at its two ends. -/
def trimBlank (text : List Char) : List Char :=
  trimEndBlank (text.dropWhile isBlank)

/-- The text with every run of blanks made a single space. -/
def squeezeBlank : List Char → List Char
  | [] => []
  | c :: text =>
    if isBlank c then
      match squeezeBlank text with
      | ' ' :: rest => ' ' :: rest
      | rest => ' ' :: rest
    else c :: squeezeBlank text

end Sigil
