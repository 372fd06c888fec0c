import Sigil.Diagnostic.Basic

/-!
# Events

The work on a program can be watched: whatever is done is an event with a level. A log is a list of
events, and its text has one line for each event that its reader wants to see.
-/

namespace Sigil

/-- How much an event matters. -/
inductive Level where
  /-- Something is wrong. -/
  | error
  /-- Something may be wrong. -/
  | warn
  /-- Something was done. -/
  | info
  /-- How something was done. -/
  | debug
  /-- Every step of how something was done. -/
  | trace
  deriving DecidableEq

namespace Level

/-- The name of a level, five columns wide. -/
def column : Level → String
  | error => "ERROR"
  | warn => " WARN"
  | info => " INFO"
  | debug => "DEBUG"
  | trace => "TRACE"

/-- How far down a reader has to go to see events of this level. -/
def depth : Level → Nat
  | error => 1
  | warn => 2
  | info => 3
  | debug => 4
  | trace => 5

end Level

/-- Something that was done or found. -/
inductive Event where
  /-- A comment was passed over. -/
  | comment (line : Nat)
  /-- A script was split into tokens. -/
  | tokenized (file : String) (count : Nat)
  /-- Tagging has found something wrong. -/
  | reportedError (d : Diagnostic)
  /-- Tagging has found something dubious. -/
  | reportedWarning (d : Diagnostic)
  /-- A procedure was tagged. -/
  | tagged (name : String) (params locals : Nat)
  /-- A script was analysed. -/
  | analyzed (name : String)
  /-- A builtin was made known. -/
  | declaredBuiltin (name signature : String)
  /-- The variables of a program were given their slots. -/
  | createdVariables (globals persistents : Nat)
  /-- A file is about to be read. -/
  | reading (path : String)
  /-- The input could not be read. -/
  | unreadable (reason : String)
  deriving DecidableEq

namespace Event

/-- The level of an event. -/
def level : Event → Level
  | comment _ => .warn
  | tokenized _ _ => .debug
  | reportedError _ => .error
  | reportedWarning _ => .warn
  | tagged _ _ _ => .debug
  | analyzed _ => .debug
  | declaredBuiltin _ _ => .debug
  | createdVariables _ _ => .debug
  | reading _ => .debug
  | unreadable _ => .error

/-- What an event says. -/
def message : Event → String
  | comment _ => "Comments not stored"
  | tokenized _ _ => "Tokenized"
  | reportedError d => d.message
  | reportedWarning d => d.message
  | tagged _ _ _ => "Tagged"
  | analyzed _ => "Parsed and tagged"
  | declaredBuiltin _ _ => "Declared builtin"
  | createdVariables _ _ => "Created module variables"
  | reading _ => "Reading"
  | unreadable reason => "Cannot read input: " ++ reason

/-- The particulars of an event, each with its name. -/
def fields : Event → List (String × String)
  | comment line => [("line", toString line)]
  | tokenized file count => [("file", file), ("count", toString count)]
  | reportedError _ => []
  | reportedWarning _ => []
  | tagged name params locals =>
    [("function", name), ("params", toString params), ("locals", toString locals)]
  | analyzed name => [("unit", name)]
  | declaredBuiltin name signature => [("builtin", name), ("signature", signature)]
  | createdVariables globals persistents =>
    [("globals", toString globals), ("persistents", toString persistents)]
  | reading path => [("file", path)]
  | unreadable _ => []

/-- How a character of a message is written, so that no terminal takes it for a command. -/
def guardedChar (c : Char) : List Char :=
  if c = '\x1b' ∨ c = '\x07' ∨ c = '\x08' ∨ c = '\x0c' ∨ c = '\x7f' then
    ['\\', 'x', Nat.digitChar (c.toNat / 16), Nat.digitChar (c.toNat % 16)]
  else if 0x80 ≤ c.toNat ∧ c.toNat ≤ 0x9f then escapedCode c
  else [c]

/-- The line of an event in the text of a log. -/
def render (e : Event) : String :=
  e.level.column ++ " " ++ String.ofList (e.message.toList.flatMap guardedChar) ++
    String.join (e.fields.map fun f => " " ++ f.1 ++ "=" ++ f.2) ++ "\n"

end Event

end Sigil
