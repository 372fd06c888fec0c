import Sigil.Grammar.Cursor

/-!
# Parsing steps

A parsing step starts at a cursor and replies in one of three ways: it is done, with a value and
the cursor after it; it has failed, with a diagnostic and the cursor it stopped at; or it is
circular, which is what becomes of a rule that calls for itself without moving on.
-/

namespace Sigil

/-- The reply of a parsing step. -/
inductive Reply (α : Type) where
  /-- The step is done. -/
  | done (value : α) (rest : Cursor)
  /-- The step has failed, and the cursor stays where it was then. -/
  | failed (problem : Diagnostic) (stop : Cursor)
  /-- The step would go on forever. -/
  | circular

/-- A parsing step. -/
def Parse (α : Type) : Type := Cursor → Reply α

namespace Parse

/-- One step after another. -/
protected def bind {α β : Type} (p : Parse α) (f : α → Parse β) : Parse β := fun c =>
  match p c with
  | .done a rest => f a rest
  | .failed d stop => .failed d stop
  | .circular => .circular

instance : Monad Parse where
  pure a := fun c => .done a c
  bind := Parse.bind

/-- The step that would go on forever. -/
def circular {α : Type} : Parse α := fun _ => .circular

/-- The step that fails with the diagnostic that `problem` makes of the cursor. -/
def fail {α : Type} (problem : Cursor → Diagnostic) : Parse α := fun c => .failed (problem c) c

/-- Looks at the cursor, which stays where it is. -/
def look {α : Type} (view : Cursor → α) : Parse α := fun c => .done (view c) c

/-- The token that the cursor stands at. -/
def current : Parse Token := fun c => .done c.current c

/-- The kind of the token `offset` places ahead. -/
def peek (offset : Nat) : Parse Kind := fun c => .done (c.peek offset) c

/-- Moves on by one token, and gives the token that is left behind. -/
def advance : Parse Token := fun c => .done c.current c.advance

/-- Moves on past the ends of lines. -/
def skipEndLines : Parse Unit := fun c => .done () c.skipEndLines

/-- Moves on by a token of kind `k`, or fails with the diagnostic that `problem` makes. -/
def expectOr (k : Kind) (problem : Cursor → Diagnostic) : Parse Token := fun c =>
  if c.kind = k then .done c.current c.advance else .failed (problem c) c

/-- Moves on by a token of kind `k`, which is wanted here. -/
def expect (k : Kind) : Parse Token := expectOr k (Cursor.lacking k)

end Parse

end Sigil
