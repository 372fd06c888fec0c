import Sigil.Text.Pieces
import Sigil.Token.Name

/-!
# Scripts

A program is a list of scripts. A script read from a file is called by the name of the file without
its extension, in the normal form of names, so that other scripts can call it.
-/

namespace Sigil

/-- A named text. -/
structure Script where
  /-- The name that other scripts call it by. -/
  name : String
  /-- The text. -/
  source : String
  deriving DecidableEq

/-- The last part of a path that is neither empty nor the directory itself, unless that leads up. -/
def fileName? (path : List Char) : Option (List Char) :=
  match ((pieces '/' path).filter fun p => p ≠ [] ∧ p ≠ ['.']).getLast? with
  | none => none
  | some name => if name = ['.', '.'] then none else some name

/-- A file name without its extension: up to its last point, unless nothing stands before that. -/
def stem (name : List Char) : List Char :=
  match name.reverse.dropWhile (· != '.') with
  | [] | [_] => name
  | _ :: before => before.reverse

namespace Script

/-- The script in the file at the given path. -/
def ofPath (path source : String) : Script :=
  ⟨normalizeName (String.ofList (((fileName? path.toList).map stem).getD path.toList)), source⟩

/-- The script that is read from the standard input. -/
def ofInput (source : String) : Script := ⟨"stdin", source⟩

end Script

end Sigil
