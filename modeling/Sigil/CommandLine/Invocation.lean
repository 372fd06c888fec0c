import Sigil.CommandLine.Usage

/-!
# Invocations

An invocation is what a command line asks for. The arguments are read from left to right. A word that
starts with two hyphens is an option by its long name, perhaps with a value after an equals sign; one
that starts with one hyphen is a row of letters; all else is the name of a file or the value of the
option before it. After a lone `--` there are only files.

Values are taken up late: the files that stand together are looked at when something else follows
them, and so is the value of an option. An unknown name that follows a bad value is therefore what is
complained about.
-/

namespace Sigil

/-- What is asked for. -/
structure Invocation where
  /-- The files to read; none for the standard input. -/
  files : List String := []
  /-- The file to write the code of the program to. -/
  emitIr : Option String := none
  /-- Whether to print the code of the program. -/
  printIr : Bool := false
  /-- Whether to print the syntax trees. -/
  printAst : Bool := false
  /-- Whether to optimize the code. -/
  optimize : Bool := true
  /-- Whether to run the program. -/
  run : Bool := true
  /-- How much to log. -/
  verbosity : Nat := 0
  /-- Whether to log errors only. -/
  quiet : Bool := false
  deriving DecidableEq

/-- Why a command line asks for no work. -/
inductive Halt where
  /-- It asks for an explanation. -/
  | help
  /-- It asks for the version. -/
  | version
  /-- It is not understood. -/
  | misuse (e : UsageError)
  deriving DecidableEq

/-- An argument by its form. -/
inductive Argument where
  /-- A long name, perhaps with a value. -/
  | long (name : String) (value : Option String)
  /-- A row of letters. -/
  | letters (cs : List Char)
  /-- The mark after which there are only files. -/
  | divider
  /-- A file or a value. -/
  | plain (word : String)
  deriving DecidableEq

namespace Argument

/-- The form of an argument. -/
def ofText (word : String) : Argument :=
  match word.toList with
  | ['-', '-'] => divider
  | '-' :: '-' :: rest =>
    let name := String.ofList (rest.takeWhile (· != '='))
    match rest.dropWhile (· != '=') with
    | [] => long name none
    | _ :: value => long name (some (String.ofList value))
  | '-' :: c :: rest => letters (c :: rest)
  | _ => plain word

end Argument

/-- Words that were read and not taken up yet. -/
inductive Waiting where
  /-- There are none. -/
  | nothing
  /-- Files that stand together. -/
  | files (paths : List String)
  /-- The option for a path, and its value if that was read already. -/
  | emitIr (path : Option String)
  deriving DecidableEq

/-- How far a command line was read. -/
structure Progress where
  /-- What it asks for so far. -/
  invocation : Invocation := {}
  /-- The parameters that were given, in order. -/
  used : List Parameter := []
  /-- What was not taken up yet. -/
  waiting : Waiting := .nothing
  deriving DecidableEq

namespace Progress

/-- Leaves words to be taken up later, in place of those that were waiting. -/
def hold (s : Progress) (waiting : Waiting) : Progress := { s with waiting := waiting }

/-- Takes up the value of the option for a path. -/
def takePath (s : Progress) : Option String → Progress × Option UsageError
  | none => (s, some (.missingValue .emitIr))
  | some path =>
    if s.used.contains .emitIr then
      ({ s with used := s.used.erase .emitIr }, some (.repeated .emitIr))
    else
      let s := { s with used := s.used ++ [.emitIr] }
      if path.isEmpty then (s, some (.missingValue .emitIr))
      else ({ s with invocation := { s.invocation with emitIr := some path } }, none)

/-- Takes up files. -/
def takeFiles (s : Progress) (paths : List String) : Progress × Option UsageError :=
  let s := { s with used := if s.used.contains .files then s.used else s.used ++ [.files] }
  if paths.any (·.isEmpty) then (s, some (.missingValue .files))
  else ({ s with invocation := { s.invocation with files := s.invocation.files ++ paths } }, none)

/-- Takes up what is waiting, and says what is wrong with it. -/
def takeWaiting (s : Progress) : Progress × Option UsageError :=
  match s.waiting with
  | .nothing => (s, none)
  | .files paths => (s.hold .nothing).takeFiles paths
  | .emitIr path => (s.hold .nothing).takePath path

/-- Takes up what is waiting, and stops if there is something wrong with it. -/
def settle (s : Progress) : Except Halt Progress :=
  match s.takeWaiting with
  | (s, none) => .ok s
  | (_, some e) => .error (.misuse e)

/-- Takes up a flag that may be given once. -/
def takeOnce (s : Progress) (p : Parameter) (invocation : Invocation) : Except Halt Progress :=
  if s.used.contains p then .error (.misuse (.repeated p))
  else .ok { s with invocation := invocation, used := s.used ++ [p] }

/-- Reads an option that has no value with it. -/
def readOption (s : Progress) (p : Parameter) : Except Halt Progress := do
  let s ← s.settle
  let i := s.invocation
  match p with
  | .files => .ok s
  | .emitIr => .ok (s.hold (.emitIr none))
  | .printIr => s.takeOnce p { i with printIr := true }
  | .printAst => s.takeOnce p { i with printAst := true }
  | .noOpt => s.takeOnce p { i with optimize := false }
  | .noRun => s.takeOnce p { i with run := false }
  | .quiet => s.takeOnce p { i with quiet := true }
  | .verbose =>
    .ok { s with
      invocation := { i with verbosity := i.verbosity + 1 }
      used := s.used.erase .verbose ++ [.verbose] }
  | .help => .error .help
  | .version => .error .version

/-- Reads the letter of an option. -/
def readLetter (s : Progress) (c : Char) : Except Halt Progress :=
  match Parameter.ofLetter? c with
  | none => .error (.misuse (.unknownLetter c))
  | some p => s.readOption p

/-- Reads a long name. -/
def readLong (s : Progress) (name : String) (value : Option String) : Except Halt Progress :=
  match Parameter.ofLong? name, value with
  | none, _ => .error (.misuse (.unknownName name s.takeWaiting.1.used))
  | some p, none => s.readOption p
  | some .emitIr, some path => do ((← s.settle).hold (.emitIr (some path))).settle
  | some p, some value => .error (.misuse (.needlessValue value p s.used))

/-- Reads the name of a file. -/
def readFile (s : Progress) (path : String) : Except Halt Progress :=
  match s.waiting with
  | .files paths => .ok (s.hold (.files (paths ++ [path])))
  | _ => do return (← s.settle).hold (.files [path])

/-- Reads a word that is neither an option nor a divider. -/
def readPlain (s : Progress) (word : String) : Except Halt Progress :=
  match s.waiting with
  | .emitIr none => .ok (s.hold (.emitIr (some word)))
  | _ => s.readFile word

/-- Reads arguments. -/
def read (s : Progress) : List String → Except Halt Progress
  | [] => s.settle
  | word :: words =>
    match Argument.ofText word with
    | .divider => do (← words.foldlM readFile s).settle
    | .long name value => do (← s.readLong name value).read words
    | .letters cs => do (← cs.foldlM readLetter s).read words
    | .plain word => do (← s.readPlain word).read words

end Progress

/-- What a command line asks for. -/
def Invocation.ofArguments (arguments : List String) : Except Halt Invocation :=
  (Progress.read {} arguments).map (·.invocation)

end Sigil
