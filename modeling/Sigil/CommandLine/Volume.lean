import Sigil.CommandLine.Input
import Sigil.Text.Pieces

/-!
# Files in memory

A volume is a directory with files, some of them perhaps in directories of their own. A path is
followed part by part: nothing comes after a file, and a directory is there if a file is in it. What
is outside of the volume is not known; only directories are found on the way out of it.
-/

namespace Sigil

/-- Files in a directory. -/
structure Volume where
  /-- The files, each with the names on the way to it. -/
  files : List (List (List Char) × ByteArray)

/-- Where a path has led so far. -/
inductive Place where
  /-- A directory outside of the volume. -/
  | outside
  /-- The directory that is reached by the given names. -/
  | directory (way : List (List Char))
  /-- A file. -/
  | file (bytes : ByteArray)

namespace Volume

/-- A volume with files at the given paths. -/
def ofFiles (files : List (String × ByteArray)) : Volume :=
  ⟨files.map fun (path, bytes) =>
    ((pieces '/' path.toList).filter fun part => part ≠ [] ∧ part ≠ ['.'], bytes)⟩

/-- How many bytes a name may have. -/
def nameLimit : Nat := 255

/-- How many bytes a path may have. -/
def pathLimit : Nat := 4095

/-- Looks a name up in a directory of the volume. -/
def enter (v : Volume) (way : List (List Char)) (name : List Char) : Except ReadFailure Place :=
  let longer := way ++ [name]
  if nameLimit < (String.ofList name).utf8ByteSize then .error .nameTooLong
  else
    match v.files.find? (·.1 = longer) with
    | some (_, bytes) => .ok (.file bytes)
    | none =>
      if v.files.any fun f => longer.isPrefixOf f.1 then .ok (.directory longer)
      else .error .missing

/-- Follows one part of a path. -/
def step (v : Volume) (place : Place) (part : List Char) : Except ReadFailure Place :=
  match place with
  | .file _ => .error .notDirectory
  | .outside =>
    if part = [] ∨ part = ['.'] ∨ part = ['.', '.'] then .ok .outside
    else if nameLimit < (String.ofList part).utf8ByteSize then .error .nameTooLong
    else .error .missing
  | .directory way =>
    if part = [] ∨ part = ['.'] then .ok place
    else if part = ['.', '.'] then
      if way.isEmpty then .ok .outside else .ok (.directory way.dropLast)
    else v.enter way part

/-- The bytes of the file at a path. -/
def read (v : Volume) (path : String) : Except ReadFailure ByteArray := do
  if pathLimit < path.utf8ByteSize then throw .nameTooLong
  let start := if path.toList.head? = some '/' then Place.outside else .directory []
  match ← (pieces '/' path.toList).foldlM v.step start with
  | .file bytes => return bytes
  | _ => throw .isDirectory

/-- The supply of a volume and a standard input, which is used up when it is read. -/
def supply (v : Volume) : Supply (StateM ByteArray) where
  file path := return v.read path
  input := do
    let bytes ← getThenClear
    return .ok bytes
where
  /-- The standard input, which is empty afterwards. -/
  getThenClear : StateM ByteArray ByteArray := modifyGet fun bytes => (bytes, .empty)

end Volume

end Sigil
