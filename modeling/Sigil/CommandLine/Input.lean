import Sigil.CommandLine.Invocation
import Sigil.Log.Filter
import Sigil.Program.Script

/-!
# Input

The scripts of a program come from files and from the standard input. Where these are kept is left
open: a supply says how to get at them, so that the same reading works on a disk and on files in
memory. What is read has to be text. The first thing that cannot be read ends the reading, and every
file that is looked at is noted in the log before that.
-/

namespace Sigil

/-- Why something cannot be read. -/
inductive ReadFailure where
  /-- There is no such file. -/
  | missing
  /-- The path goes on after a file. -/
  | notDirectory
  /-- The path leads to a directory. -/
  | isDirectory
  /-- A name in the path is too long. -/
  | nameTooLong
  /-- The bytes are not a text in UTF-8. -/
  | notText
  /-- Something else, in the words of the system. -/
  | other (reason : String)
  deriving DecidableEq

/-- The wording of a failure. -/
def ReadFailure.message : ReadFailure → String
  | missing => "No such file or directory (os error 2)"
  | notDirectory => "Not a directory (os error 20)"
  | isDirectory => "Is a directory (os error 21)"
  | nameTooLong => "File name too long (os error 36)"
  | notText => "stream did not contain valid UTF-8"
  | other reason => reason

/-- Ways to get at files and at the rest of the standard input. -/
structure Supply (m : Type → Type) where
  /-- The bytes of the file at a path. -/
  file : String → m (Except ReadFailure ByteArray)
  /-- The bytes that are left in the standard input. -/
  input : m (Except ReadFailure ByteArray)

/-- The text that bytes stand for. -/
def decodeText (bytes : ByteArray) : Except ReadFailure String :=
  match String.fromUTF8? bytes with
  | some text => .ok text
  | none => .error .notText

/-- Scripts that were read, with the log of the reading. -/
structure Loading where
  /-- What was noted. -/
  log : List Event
  /-- The scripts, or why one could not be read. -/
  result : Except ReadFailure (List Script)

namespace Loading

/-- Reads one more script before the others. -/
def cons (events : List Event) (script : Script) (l : Loading) : Loading :=
  ⟨events ++ l.log, l.result.map (script :: ·)⟩

end Loading

section

variable {m : Type → Type} [Monad m]

/-- Reads the script on the standard input. -/
def Supply.readInput (supply : Supply m) : m (Except ReadFailure Script) := do
  return (← supply.input).bind decodeText |>.map Script.ofInput

/-- Reads the script in a file. -/
def Supply.readFile (supply : Supply m) (path : String) : m (Except ReadFailure Script) := do
  return (← supply.file path).bind decodeText |>.map (Script.ofPath path)

/-- Reads scripts, in order; a lone hyphen stands for the standard input. -/
def Supply.readAll (supply : Supply m) : List String → m Loading
  | [] => return ⟨[], .ok []⟩
  | path :: paths => do
    let events := if path = "-" then [] else [Event.reading path]
    match ← if path = "-" then supply.readInput else supply.readFile path with
    | .error e => return ⟨events, .error e⟩
    | .ok script => return (← supply.readAll paths).cons events script

/-- Reads the scripts that an invocation names, which are on the standard input if it names none. -/
def Supply.load (supply : Supply m) (i : Invocation) : m Loading :=
  supply.readAll (if i.files.isEmpty then ["-"] else i.files)

end

end Sigil
