import Sigil.Diagnostic.Basic
import Sigil.Source.Lines
import Sigil.Text.Blank

/-!
# Diagnostics with the line they point at

A diagnostic is shown with its hint, its place and, when the script has such a line, the line itself
with carets under it:

```text
Error: UnknownFunction (Function `foo` is not declared)
-> main:3
  |
3 | alert(foo(1))
  | ^^^^^^^^^^^^^
```
-/

namespace Sigil

/-- The part of a line that is shown: without the spaces and tabs it starts with and the blanks it
ends with. -/
def visiblePart (line : List Char) : List Char :=
  trimEndBlank (line.dropWhile fun c => c == ' ' || c == '\t')

/-- The shown line under its number, in a margin as wide as the number. -/
def excerpt (n : Nat) (line : List Char) : String :=
  let shown := visiblePart line
  let number := toString n
  let margin := String.ofList (List.replicate (number.length + 1) ' ')
  let carets := String.ofList (List.replicate (max 1 shown.length) '^')
  margin ++ "|\n" ++ number ++ " | " ++ String.ofList shown ++ "\n" ++ margin ++ "| " ++ carets ++ "\n"

/-- The diagnostic in full, with the line of `source` that it points at. -/
def Diagnostic.render (d : Diagnostic) (source : String) : String :=
  let heading :=
    match d.cause.tip? with
    | none => "Error: " ++ d.cause.name ++ "\n"
    | some tip => "Error: " ++ d.cause.name ++ " (" ++ tip ++ ")\n"
  let place := "-> " ++ d.position.file ++ ":" ++ toString d.position.line ++ "\n"
  match lineText? source d.position.line with
  | none => heading ++ place
  | some line => heading ++ place ++ excerpt d.position.line line

end Sigil
