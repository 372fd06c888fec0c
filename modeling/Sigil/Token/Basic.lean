import Sigil.Source.Position
import Sigil.Token.Kind

/-!
# Tokens

A token is a kind, a value and the lines it was found on.
-/

namespace Sigil

/-- A word, number, text or sign of a script. -/
structure Token where
  /-- What the token is to the grammar. -/
  kind : Kind
  /-- The text that the token stands for. -/
  value : String
  /-- Where the token stands. -/
  span : Span
  deriving DecidableEq, Inhabited

namespace Token

/-- The token that ends a script on the given line. -/
def endOfInput (file : String) (line : Nat) : Token :=
  ⟨.endOfInput, "EOF", .lines file line line⟩

/-- Whether the grammar can tell two tokens apart. -/
def sameKind (a b : Token) : Bool := a.kind == b.kind

/-- The token as it is shown to the user. -/
def render (t : Token) : String :=
  "Token \x7b\nkind: " ++ t.kind.label ++ ",\nvalue: " ++ t.value ++ "\x7d"

end Token

end Sigil
