/-!
# Sets of characters given by ranges

A property of characters that comes from a standard is a table: the ranges of code points that
have it. A `CharSet` is such a table, and `CharSet.contains` is its only reading.

The tables of this library list code points from 128 on only; each property states its few ASCII
members by itself, which keeps the common case short.
-/

namespace Sigil

/-- A set of characters, as the ranges of code points that it covers. -/
structure CharSet where
  /-- The first and the last code point of each range, both included, in ascending order. -/
  ranges : List (Nat × Nat)

namespace CharSet

/-- Whether `c` lies in one of the ranges. -/
def contains (s : CharSet) (c : Char) : Bool :=
  s.ranges.any fun r => decide (r.1 ≤ c.toNat) && decide (c.toNat ≤ r.2)

/-- Membership is lying between the ends of some range. -/
theorem contains_iff (s : CharSet) (c : Char) :
    s.contains c = true ↔ ∃ r ∈ s.ranges, r.1 ≤ c.toNat ∧ c.toNat ≤ r.2 := by
  simp [contains, List.any_eq_true]

end CharSet

end Sigil
