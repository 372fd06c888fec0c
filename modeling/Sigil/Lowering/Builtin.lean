import Sigil.Tree.Ty
import Sigil.Typing.Table

/-!
# Builtins

A builtin is a function that scripts can call without there being a script of that name. Scripts
know it by one name, and machine code by the name in its signature.
-/

namespace Sigil

/-- A function that comes with the language or is added to it. -/
structure Builtin where
  /-- What it takes and gives, under the name that machine code knows it by. -/
  signature : Signature
  /-- Where its code lies; the builtins of the language do not say. -/
  address : Option Nat
  deriving DecidableEq

/-- Builtins by the names that scripts know them by. -/
abbrev Registry := Table String Builtin

namespace Registry

/-- Adds a builtin, and gives the one that it replaces. -/
def register (r : Registry) (name : String) (b : Builtin) : Option Builtin × Registry :=
  (r.get? name, r.insert name b)

/-- The builtins of the language: `alert`, which shows an integer, and `abort`, which ends the
program. -/
def standard : Registry :=
  ((Table.empty : Registry).insert "alert" ⟨⟨"BUILTINalert", .int, [.int], none⟩, none⟩).insert
    "abort" ⟨⟨"BUILTINabort", .int, [], none⟩, none⟩

end Registry

/-- What `alert` writes for a value, and its result. -/
def alert (value : Int) : String × Int := (toString value ++ "\n", 0)

end Sigil
