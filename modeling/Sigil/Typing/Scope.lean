import Sigil.Tree.Ty
import Sigil.Tree.Variable
import Sigil.Typing.Table

/-!
# Scopes

A scope lists the variables that were met in a script, with what is known of their types. Arguments
and local variables belong to the script; global and persistent ones are shared by all scripts of a
program, so a script starts from those that are known already, and hands back what it learnt of
them.
-/

namespace Sigil

/-- The variables of a script. -/
structure Scope where
  /-- The arguments, by number. -/
  args : Table Nat Ty
  /-- The local variables, arguments among them, by name. -/
  locals : Table String Ty
  /-- The global variables, by name. -/
  globals : Table String Ty
  /-- The persistent variables, by name. -/
  persistents : Table String Ty

namespace Scope

/-- The scope without variables. -/
def empty : Scope := ⟨.empty, .empty, .empty, .empty⟩

/-- The table with one more thing learnt about a variable. -/
def learn {κ : Type} [Ord κ] [Std.TransOrd κ] (t : Table κ Ty) (key : κ) (type : Ty) :
    Table κ Ty :=
  t.alter key fun old => (old.getD .undetermined).refine type

/-- The table with all that another one knows learnt in addition. -/
def learnAll (t other : Table String Ty) : Table String Ty :=
  other.entries.foldl (fun t e => learn t e.1 e.2) t

/-- The scope that a script starts with in a program whose variables are known from `s`. -/
def fresh (s : Scope) : Scope := ⟨.empty, .empty, s.globals, s.persistents⟩

/-- The scope with what a script has learnt of the variables of the program. -/
def absorb (s other : Scope) : Scope :=
  { s with
    globals := learnAll s.globals other.globals
    persistents := learnAll s.persistents other.persistents }

/-- The scope with a variable that was met with the given type. -/
def record (s : Scope) (v : Variable) (type : Ty) : Scope :=
  match v.storage with
  | .localSlot =>
    { s with
      args :=
        match v.argumentIndex? with
        | some index => learn s.args index type
        | none => s.args
      locals := learn s.locals v.name type }
  | .globalSlot => { s with globals := learn s.globals v.name type }
  | .persistentSlot => { s with persistents := learn s.persistents v.name type }

/-- The number of parameters: the highest number of an argument. -/
def argCount (s : Scope) : Nat := s.args.keys.foldl max 0

/-- Whether the script has a result, that is, uses the slot for it. -/
def usesResult (s : Scope) : Bool := s.locals.contains Variable.resultSlot

end Scope

end Sigil
