/-!
# Positions and spans

Everything that is said about a script points at a line of it. A position is a line number together
with the name of the script it counts in; a span runs from one position to another.
-/

namespace Sigil

/-- A line of a named script. Lines count from 1. -/
structure Position where
  /-- The line number; 0 is no line of any script. -/
  line : Nat
  /-- The name of the script. -/
  file : String
  deriving DecidableEq, Inhabited

/-- The position of what has no place in any script. -/
def Position.nowhere : Position := ⟨0, "<null>"⟩

/-- A stretch of a script, from the line it starts on to the line it ends on. -/
structure Span where
  /-- Where the stretch starts. -/
  start : Position
  /-- Where the stretch ends. -/
  stop : Position
  deriving DecidableEq, Inhabited

namespace Span

/-- The span of what has no place in any script. -/
def nowhere : Span := ⟨.nowhere, .nowhere⟩

/-- The span between two lines of one script. -/
def lines (file : String) (first last : Nat) : Span := ⟨⟨first, file⟩, ⟨last, file⟩⟩

/-- The span from the start of `a` to the end of `b`. -/
def merge (a b : Span) : Span := ⟨a.start, b.stop⟩

end Span

end Sigil
