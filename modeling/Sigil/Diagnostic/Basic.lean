import Sigil.Source.Position
import Sigil.Text.Quoted

/-!
# Diagnostics

A diagnostic is a cause at a position. The causes cover the whole way of a script, from its text to
machine code. The wording of each is fixed here: a name for the kind of problem, a sentence that
describes it, and a hint for whoever has to mend the script.
-/

namespace Sigil

/-- What is wrong with a script. -/
inductive Cause where
  /-- A text between double quotes has no end. -/
  | unterminatedString
  /-- A token stands where nothing can start with it. -/
  | unexpectedToken (token : String)
  /-- A token stands where something else is wanted, as `message` says. -/
  | misplacedToken (token message : String)
  /-- Something other than a variable is assigned to. -/
  | invalidTarget
  /-- A number is too large for an integer. -/
  | numberOutOfRange (token : String)
  /-- A value has a type that its context does not admit. -/
  | typeMismatch (context expected received : String)
  /-- The operands of an operator have different types. -/
  | implicitCast (operand context : String)
  /-- A number is used where an integer is wanted. -/
  | numberCoercion (context : String)
  /-- A variable has no slot. -/
  | unknownVariable (slot storage : String)
  /-- A function that is called does not exist. -/
  | unknownFunction (function : String)
  /-- A function is called with a wrong number of arguments. -/
  | argumentCount (function : String) (expected received : Nat)
  /-- Two functions have the same name. -/
  | duplicateFunction (function : String)
  /-- An operator has no meaning for machine code. -/
  | invalidOperator (operator : String)
  /-- A type has no values in machine code. -/
  | unsupportedType (type : String)
  /-- The script that is run takes arguments. -/
  | entryTakesArguments (function : String) (count : Nat)
  /-- The code made for a function is not valid. -/
  | invalidFunction (function : String)
  /-- There is no script at all. -/
  | noScript
  /-- Machine code could not be made. -/
  | backend (message : String)
  /-- Machine code could not be run. -/
  | execution (message : String)
  deriving DecidableEq, Inhabited

namespace Cause

/-- The name of the kind of problem. -/
def name : Cause → String
  | unterminatedString => "UnterminatedString"
  | unexpectedToken _ => "UnexpectedToken"
  | misplacedToken _ _ => "UnexpectedTokenDetailed"
  | invalidTarget => "InvalidAssignmentTarget"
  | numberOutOfRange _ => "NumberParseError"
  | typeMismatch _ _ _ => "TypeMatchError"
  | implicitCast _ _ => "ImplicitCast"
  | numberCoercion _ => "NumberCoercion"
  | unknownVariable _ _ => "UnknownVariable"
  | unknownFunction _ => "UnknownFunction"
  | argumentCount _ _ _ => "ArgumentCountMismatch"
  | duplicateFunction _ => "FunctionAlreadyDeclared"
  | invalidOperator _ => "InvalidOperator"
  | unsupportedType _ => "UnsupportedType"
  | entryTakesArguments _ _ => "MainTakesArguments"
  | invalidFunction _ => "InvalidFunction"
  | noScript => "NoCompilationUnit"
  | backend _ => "BackendError"
  | execution _ => "ExecutionError"

/-- The sentence that describes the problem. Texts of the script are quoted in it. -/
def detail : Cause → String
  | unterminatedString => "unterminated string literal"
  | unexpectedToken token => "unexpected token: " ++ quoted token
  | misplacedToken token message =>
    "unexpected token (" ++ quoted message ++ "): " ++ quoted token
  | invalidTarget => "left hand side of `:=` is not a variable"
  | numberOutOfRange token => "error parsing number: " ++ quoted token
  | typeMismatch context expected received =>
    "the " ++ context ++ " must be a " ++ expected ++ ", not a " ++ received
  | implicitCast operand context => "implicit cast of " ++ operand ++ " in " ++ context
  | numberCoercion context => "the " ++ context ++ " is a number, used as an int"
  | unknownVariable slot storage =>
    "unknown " ++ storage ++ " variable " ++ quoted slot
  | unknownFunction function => "unknown function " ++ quoted function
  | argumentCount function expected received =>
    "function " ++ quoted function ++ " expects " ++ toString expected ++
      " arguments, received " ++ toString received
  | duplicateFunction function => "function " ++ quoted function ++ " already declared"
  | invalidOperator operator => "invalid operator " ++ quoted operator
  | unsupportedType type => "unsupported type " ++ type
  | entryTakesArguments function count =>
    "entry function " ++ quoted function ++ " takes " ++ toString count ++ " arguments"
  | invalidFunction function => "function " ++ quoted function ++ " failed verification"
  | noScript => "no compilation unit was given"
  | backend message => "backend error: " ++ message
  | execution message => "execution error: " ++ message

/-- The hint for whoever has to mend the script. Texts of the script are shown as they are. -/
def tip? : Cause → Option String
  | unterminatedString => some "String literal is never closed, did you miss a `\"`?"
  | unexpectedToken token => some ("Unexpected token: `" ++ token ++ "`")
  | misplacedToken token message => some ("Unexpected token: `" ++ token ++ "`, " ++ message)
  | invalidTarget =>
    some "Only `$local`, `<>persistent` or global variables can be assigned with `:=`"
  | numberOutOfRange token =>
    some ("Invalid number: `" ++ token ++ "`, is it above the integer limit?")
  | typeMismatch context expected received =>
    some ("The " ++ context ++ " must be a " ++ expected ++ ", not a " ++ received)
  | implicitCast operand context => some ("Implicit cast of " ++ operand ++ " in " ++ context)
  | numberCoercion context => some ("The " ++ context ++ " number is used as an int")
  | unknownVariable slot storage =>
    some ("Unknown " ++ storage ++ " variable `" ++ slot ++ "`")
  | unknownFunction function => some ("Function `" ++ function ++ "` is not declared")
  | argumentCount function expected received =>
    some ("Function `" ++ function ++ "` expects " ++ toString expected ++
      " arguments, received " ++ toString received)
  | duplicateFunction function => some ("Function `" ++ function ++ "` already declared")
  | invalidOperator operator => some ("Operator `" ++ operator ++ "` is not supported here")
  | unsupportedType type =>
    some ("Values of type " ++ type ++ " cannot be lowered to machine code")
  | entryTakesArguments function count =>
    some ("The last unit `" ++ function ++
      "` is the entry point and cannot take arguments (uses " ++ toString count ++ ")")
  | invalidFunction function => some ("Generated code for `" ++ function ++ "` is invalid")
  | noScript => none
  | backend message => some message
  | execution message => some message

/-- Whether nothing can be said about the rest of the script once this has been met. -/
def isFatal : Cause → Bool
  | unterminatedString => true
  | _ => false

end Cause

/-- A problem and the place it was found at. -/
structure Diagnostic where
  /-- What is wrong. -/
  cause : Cause
  /-- Where it is wrong. -/
  position : Position
  deriving DecidableEq, Inhabited

/-- The diagnostic in one line: script, line and description. -/
def Diagnostic.message (d : Diagnostic) : String :=
  d.position.file ++ ":" ++ toString d.position.line ++ ": " ++ d.cause.detail

end Sigil
