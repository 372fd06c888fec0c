import Sigil.Text.Digits

/-!
# Values of numbers

A number stands for an integer: its part before the point. A part of more than one character that
starts with 0 is read in base 8, up to the first character that is no octal digit; any other is
read in base 10, up to the first character that is no digit. Values beyond 31 bits are refused: the
digits are added one by one, and no step may pass the largest integer.
-/

namespace Sigil

/-- The largest integer. -/
def maxInt : Nat := 2147483647

/-- Whether `c` is an octal digit. -/
def isOctalDigit (c : Char) : Bool := decide ('0' ≤ c) && decide (c ≤ '7')

/-- The part of a number before its point. -/
def wholePart (text : List Char) : List Char := text.takeWhile (· != '.')

/-- The integer `n`, unless it is too large. -/
def toInt? (n : Nat) : Option Nat := if n ≤ maxInt then some n else none

/-- The integer that `n` becomes with one more digit behind it. -/
def appendDigit? (base n : Nat) (c : Char) : Option Nat := do
  let shifted ← toInt? (base * n)
  toInt? (shifted + digitValue c)

/-- The integer of a row of digits, unless one of the steps on the way to it is too large. -/
def readDigits? (base : Nat) (digits : List Char) : Option Nat :=
  digits.foldlM (appendDigit? base) 0

/-- The integer that a number stands for, unless it is too large. -/
def numeralValue? (text : String) : Option Nat :=
  match wholePart text.toList with
  | '0' :: c :: rest => readDigits? 8 ((c :: rest).takeWhile isOctalDigit)
  | whole => readDigits? 10 (whole.takeWhile Char.isDigit)

end Sigil
