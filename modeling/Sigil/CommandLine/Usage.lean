import Sigil.CommandLine.Parameter
import Sigil.Text.Similarity

/-!
# Help and usage errors

A command line that cannot be understood is answered with what is wrong with it, a hint where there
is one, and a line that shows how the program is used. That line lists the options which were given
already, or stands for all of them if none was.
-/

namespace Sigil

/-- The name of the program. -/
def programName : String := "fourdc"

/-- The version of the program. -/
def programVersion : String := "0.1.0"

/-- How the program is used with the given parameters. -/
def usageLine (used : List Parameter) : String :=
  let options := used.filter (· ≠ .files)
  let shown := if used.isEmpty then ["[OPTIONS]"] else options.map Parameter.render
  let files := if used.contains .files then "<FILES>..." else Parameter.files.render
  "Usage: " ++ " ".intercalate (programName :: shown ++ [files]) ++ "\n"

/-- What can be wrong with a command line. -/
inductive UsageError where
  /-- A letter that is no option. -/
  | unknownLetter (letter : Char)
  /-- A long name that is no option, after the given parameters. -/
  | unknownName (name : String) (used : List Parameter)
  /-- A value for an option that takes none, after the given parameters. -/
  | needlessValue (value : String) (p : Parameter) (used : List Parameter)
  /-- An option that may be given once only. -/
  | repeated (p : Parameter)
  /-- A value is missing or empty. -/
  | missingValue (p : Parameter)
  deriving DecidableEq

/-- The option that a word was most likely meant to be, if there is a similar one; of equally similar
ones, the last. -/
def similarOption? (word : String) : Option Parameter :=
  (Parameter.options.foldl (fun (best : Option (Rat × Parameter)) p =>
    let score := similarity word.toList (p.long?.getD "").toList
    let least := (best.map (·.1)).getD (7 / 10)
    if least ≤ score then some (score, p) else best) none).map (·.2)

namespace UsageError

/-- The hint for a word that was not expected: how to pass it as the name of a file. -/
def escapeTip (word : String) : String :=
  "\n  tip: to pass '" ++ word ++ "' as a value, use '-- " ++ word ++ "'\n"

/-- What is wrong, in one line. -/
def detail : UsageError → String
  | unknownLetter c => "unexpected argument '-" ++ c.toString ++ "' found"
  | unknownName name _ => "unexpected argument '--" ++ name ++ "' found"
  | needlessValue value p _ =>
    "unexpected value '" ++ value ++ "' for '" ++ p.render ++ "' found; no more were expected"
  | repeated p => "the argument '" ++ p.render ++ "' cannot be used multiple times"
  | missingValue p => "a value is required for '" ++ p.render ++ "' but none was supplied"

/-- The hint, and how the program is used. -/
def advice : UsageError → String
  | unknownLetter c => escapeTip ("-" ++ c.toString) ++ "\n" ++ usageLine []
  | unknownName name used =>
    match similarOption? name with
    | none => escapeTip ("--" ++ name) ++ "\n" ++ usageLine used
    | some p =>
      "\n  tip: a similar argument exists: '--" ++ p.long?.getD "" ++ "'\n\n" ++
        usageLine (if used.contains p then used else used ++ [p])
  | needlessValue _ p used => "\n" ++ usageLine (if used.contains p then used else used ++ [p])
  | repeated _ => "\n" ++ usageLine []
  | missingValue _ => ""

/-- The error in full. -/
def render (e : UsageError) : String :=
  "error: " ++ e.detail ++ "\n" ++ e.advice ++ "\nFor more information, try '--help'.\n"

end UsageError

/-- The names of an option, in the column of the list of options that is for them. -/
def Parameter.heading (p : Parameter) : String :=
  match p.letter? with
  | none => "    " ++ p.render
  | some c => "-" ++ c.toString ++ ", " ++ p.render

/-- Two columns, the first as wide as its widest entry. -/
def columns (rows : List (String × String)) : String :=
  let width := (rows.map (·.1.length)).foldl max 0
  String.join <| rows.map fun (left, right) =>
    "  " ++ left ++ String.ofList (List.replicate (width - left.length) ' ') ++ "  " ++ right ++ "\n"

/-- The explanation of the command line. -/
def helpText : String :=
  "Compiles script units to native code and runs the last one\n\n" ++ usageLine [] ++
    "\nArguments:\n" ++ columns [(Parameter.files.render, Parameter.files.purpose)] ++
    "\nOptions:\n" ++ columns (Parameter.options.map fun p => (p.heading, p.purpose))

/-- The name and the version of the program. -/
def versionText : String := programName ++ " " ++ programVersion ++ "\n"

end Sigil
