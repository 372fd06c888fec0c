/-!
# Parameters

What can be said on the command line: the files to read, and options that have a long name and
sometimes a letter. Only one option takes a value; the others are flags, one of which counts how often
it is given.
-/

namespace Sigil

/-- Something that can be said on the command line. -/
inductive Parameter where
  /-- The files to read. -/
  | files
  /-- The file to write the code of the program to. -/
  | emitIr
  /-- Whether to print the code of the program. -/
  | printIr
  /-- Whether to print the syntax trees. -/
  | printAst
  /-- Whether to leave the code as it is. -/
  | noOpt
  /-- Whether to stop before the program is run. -/
  | noRun
  /-- How much to log. -/
  | verbose
  /-- Whether to log errors only. -/
  | quiet
  /-- Whether to explain the command line. -/
  | help
  /-- Whether to tell the version. -/
  | version
  deriving DecidableEq

namespace Parameter

/-- All options, in the order in which they are listed. -/
def options : List Parameter :=
  [emitIr, printIr, printAst, noOpt, noRun, verbose, quiet, help, version]

/-- The long name of an option. -/
def long? : Parameter → Option String
  | files => none
  | emitIr => some "emit-ir"
  | printIr => some "print-ir"
  | printAst => some "print-ast"
  | noOpt => some "no-opt"
  | noRun => some "no-run"
  | verbose => some "verbose"
  | quiet => some "quiet"
  | help => some "help"
  | version => some "version"

/-- The letter of an option. -/
def letter? : Parameter → Option Char
  | verbose => some 'v'
  | quiet => some 'q'
  | help => some 'h'
  | version => some 'V'
  | _ => none

/-- The option with a long name. -/
def ofLong? (name : String) : Option Parameter := options.find? fun p => p.long? == some name

/-- The option with a letter. -/
def ofLetter? (c : Char) : Option Parameter := options.find? fun p => p.letter? == some c

/-- What follows the name of a parameter when it is shown: the value it takes, or a sign that it may
be repeated. -/
def suffix : Parameter → String
  | files => "..."
  | emitIr => " <PATH>"
  | verbose => "..."
  | _ => ""

/-- A parameter as it is shown. -/
def render (p : Parameter) : String :=
  match p.long? with
  | none => "[FILES]" ++ p.suffix
  | some name => "--" ++ name ++ p.suffix

/-- What a parameter is for. -/
def purpose : Parameter → String
  | files =>
    "Source files, one unit each, the last being the entry point. Reads stdin when empty or `-`"
  | emitIr => "Write the LLVM IR of the program to a file"
  | printIr => "Print the LLVM IR of the program"
  | printAst => "Print the tagged syntax tree of every unit"
  | noOpt => "Skip the optimization passes"
  | noRun => "Build without running"
  | verbose => "Enable verbose logging (use multiple times for increased verbosity)"
  | quiet => "Only log errors"
  | help => "Print help"
  | version => "Print version"

end Parameter

end Sigil
