/-!
# Numbers written in digits

The value of a row of digits in a base, the first digit weighing most. An empty row has the
value 0.
-/

namespace Sigil

/-- The value of the digit `c`. -/
def digitValue (c : Char) : Nat := c.toNat - '0'.toNat

/-- The value of a row of digits in the given base. -/
def digitsValue (base : Nat) (digits : List Char) : Nat :=
  digits.foldl (fun n c => base * n + digitValue c) 0

end Sigil
