import Sigil.CommandLine.Run

/-!
# The command line

Runs the program on the files of the disk.
-/

namespace Sigil

/-- A failure of the system, as a reason that something cannot be read. The system gives the number of
a failure with either sign. -/
def ReadFailure.ofError (e : IO.Error) : ReadFailure :=
  match e with
  | .noFileOrDirectory _ _ _ => missing
  | .inappropriateType _ code _ => if min code (0 - code) = 20 then notDirectory else isDirectory
  | _ => other (toString e)

/-- The bytes that an action gets, or why it gets none. -/
def attemptRead (action : IO ByteArray) : IO (Except ReadFailure ByteArray) := do
  match ← action.toBaseIO with
  | .ok bytes => return .ok bytes
  | .error e => return .error (.ofError e)

/-- The files of the disk and the standard input of the process. -/
def diskSupply : Supply IO where
  file path := attemptRead (IO.FS.readBinFile path)
  input := attemptRead do (← IO.getStdin).readBinToEnd

end Sigil

/-- Runs the program and leaves its exit code to the system. -/
def main (arguments : List String) : IO UInt32 := do
  let outcome ← Sigil.run Sigil.diskSupply (← IO.getEnv "RUST_LOG") arguments
  IO.print outcome.output
  IO.eprint outcome.errors
  return outcome.code.toUInt32
