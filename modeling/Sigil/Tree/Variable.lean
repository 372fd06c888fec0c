import Sigil.Text.Digits

/-!
# Variables

A variable is written with a sigil, which fixes where it lives: `$name` lives in the script that
uses it, a bare name is shared by all scripts of a program, and `<>name` is shared and keeps its
value. Local variables named by a number are the arguments of the script, `$0` being the slot for
its result.
-/

namespace Sigil

/-- Where a variable lives. -/
inductive Storage where
  /-- In the script that uses it. -/
  | localSlot
  /-- In the program. -/
  | globalSlot
  /-- In the program, never started afresh. -/
  | persistentSlot
  deriving DecidableEq, Inhabited

namespace Storage

/-- All storages. -/
def all : List Storage := [.localSlot, .globalSlot, .persistentSlot]

/-- The name of a storage. -/
def label : Storage → String
  | localSlot => "local"
  | globalSlot => "global"
  | persistentSlot => "persistent"

/-- The storage with the given name, if there is one. -/
def ofLabel? (text : String) : Option Storage :=
  all.find? fun s => s.label == text

/-- The sign that variables of this storage are written with. -/
def sigil : Storage → String
  | localSlot => "$"
  | globalSlot => ""
  | persistentSlot => "<>"

end Storage

/-- A variable. -/
structure Variable where
  /-- Its name, without the sigil. -/
  name : String
  /-- Where it lives. -/
  storage : Storage
  deriving DecidableEq, Inhabited

namespace Variable

/-- The name of the local variable that holds the result of a script. -/
def resultSlot : String := "0"

/-- The largest number of an argument. -/
def maxArgument : Nat := 4294967295

/-- The number of the argument that the variable is: it is local, and its name is a row of digits
with a value of at most 32 bits. -/
def argumentIndex? (v : Variable) : Option Nat :=
  let digits := v.name.toList
  if v.storage = .localSlot ∧ digits ≠ [] ∧ digits.all Char.isDigit ∧
      digitsValue 10 digits ≤ maxArgument then
    some (digitsValue 10 digits)
  else none

end Variable

end Sigil
