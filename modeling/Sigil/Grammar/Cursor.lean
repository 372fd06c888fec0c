import Sigil.Diagnostic.Basic
import Sigil.Token.Basic

/-!
# Cursors

A cursor is a place in a row of tokens: the token it stands at and those ahead of it. A row of
tokens is closed with an end of the script if it does not have one, so there is always a token to
stand at, and the cursor never moves past the last one.
-/

namespace Sigil

/-- A place in a row of tokens. -/
structure Cursor where
  /-- The name of the script. -/
  file : String
  /-- The token that the cursor stands at. -/
  current : Token
  /-- The tokens after it. -/
  ahead : List Token
  deriving DecidableEq

namespace Cursor

/-- What is put behind a row of tokens that ends in `last` to close it. -/
def closing (file : String) (last : Token) : List Token :=
  if last.kind = .endOfInput then [] else [.endOfInput file last.span.stop.line]

/-- The cursor at the first of the given tokens, closed if need be. -/
def ofTokens (file : String) : List Token → Cursor
  | [] => ⟨file, .endOfInput file 1, []⟩
  | t :: ts => ⟨file, t, ts ++ closing file (ts.getLastD t)⟩

/-- The tokens from the cursor on. -/
def remaining (c : Cursor) : List Token := c.current :: c.ahead

/-- The kind of the token that the cursor stands at. -/
def kind (c : Cursor) : Kind := c.current.kind

/-- The kind of the token `offset` places ahead. -/
def peek (c : Cursor) (offset : Nat) : Kind :=
  match c.remaining[offset]? with
  | some t => t.kind
  | none => .absent

/-- The cursor moved to the next token, if there is one. -/
def advance (c : Cursor) : Cursor :=
  match c.ahead with
  | [] => c
  | t :: ts => ⟨c.file, t, ts⟩

/-- The cursor at the first of the given tokens that is not the end of a line, or at the last. -/
def skipFrom (file : String) (t : Token) : List Token → Cursor
  | [] => ⟨file, t, []⟩
  | u :: us => if t.kind = .endLine then skipFrom file u us else ⟨file, t, u :: us⟩

/-- The cursor moved past the ends of lines that it stands before. -/
def skipEndLines (c : Cursor) : Cursor := skipFrom c.file c.current c.ahead

/-- The line of the token that the cursor stands at, in the script that the cursor walks. -/
def position (c : Cursor) : Position := ⟨c.current.span.start.line, c.file⟩

/-- Nothing can start with the token that the cursor stands at. -/
def unexpected (c : Cursor) : Diagnostic :=
  ⟨.unexpectedToken c.current.value, c.position⟩

/-- Something other than the token that the cursor stands at is wanted, as `message` says. -/
def misplaced (message : String) (c : Cursor) : Diagnostic :=
  ⟨.misplacedToken c.current.value message, c.position⟩

/-- A token of kind `k` is wanted. The diagnostic is placed where the token itself says it is. -/
def lacking (k : Kind) (c : Cursor) : Diagnostic :=
  ⟨.misplacedToken c.current.value ("expected " ++ k.label), c.current.span.start⟩

end Cursor

end Sigil
