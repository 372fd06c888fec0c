/-!
# Types of values

Tagging gives every expression a type. A number that is written down is a `number` until its context
makes it an `int`; what nothing is known about stays `undetermined`.
-/

namespace Sigil

/-- The type of an expression or a variable. -/
inductive Ty where
  /-- Nothing is known yet. -/
  | undetermined
  /-- A number whose exact type is open. -/
  | number
  /-- An integer. -/
  | int
  /-- A text. -/
  | string
  /-- A truth value. -/
  | boolean
  /-- No value. -/
  | void
  deriving DecidableEq, Inhabited

namespace Ty

/-- All types. -/
def all : List Ty := [.undetermined, .number, .int, .string, .boolean, .void]

/-- The name of a type. -/
def label : Ty → String
  | undetermined => "undetermined"
  | number => "number"
  | int => "int"
  | string => "string"
  | boolean => "boolean"
  | void => "void"

/-- The type with the given name, if there is one. -/
def ofLabel? (text : String) : Option Ty :=
  all.find? fun t => t.label == text

/-- Whether anything is known. -/
def isDefined : Ty → Bool
  | undetermined => false
  | _ => true

/-- What is known after `new` was learnt where `old` was known: nothing learnt erases nothing. -/
def refine (old new : Ty) : Ty :=
  if new.isDefined then new else old

end Ty

/-- What a function takes and gives. -/
structure Signature where
  /-- The name of the function. -/
  name : String
  /-- The type of its result. -/
  returns : Ty
  /-- The types of its arguments. -/
  args : List Ty
  /-- The type of the arguments it takes beyond those, if it takes any number of them. -/
  variadic : Option Ty
  deriving DecidableEq

namespace Signature

/-- Whether a call with `count` arguments fits. -/
def accepts (s : Signature) (count : Nat) : Bool :=
  match s.variadic with
  | some _ => decide (s.args.length ≤ count)
  | none => decide (count = s.args.length)

/-- The signature as it is shown to the user, such as `int name(int, string...)`. -/
def render (s : Signature) : String :=
  let args := s.args.map Ty.label ++ (s.variadic.toList.map fun t => t.label ++ "...")
  s.returns.label ++ " " ++ s.name ++ "(" ++ String.intercalate ", " args ++ ")"

end Signature

end Sigil
