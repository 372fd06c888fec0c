import Sigil.Text.Pieces

/-!
# Lines of a script

A script is read with one kind of line break: a carriage return, alone or before a line feed, is
folded into a line feed before anything else looks at the text. A line that is shown to the user is
cut out of the text as it was given: it ends at a line feed, and carriage returns before that
line feed are not part of it.
-/

namespace Sigil

/-- The text with every carriage return, and every pair of a carriage return and a line feed, made
a line feed. -/
def foldBreaks : List Char → List Char
  | [] => []
  | '\r' :: '\n' :: text => '\n' :: foldBreaks text
  | '\r' :: text => '\n' :: foldBreaks text
  | c :: text => c :: foldBreaks text

/-- A text without carriage returns is folded already. -/
theorem foldBreaks_of_not_mem {text : List Char} (h : '\r' ∉ text) : foldBreaks text = text := by
  fun_induction foldBreaks text with
  | case1 => rfl
  | case2 text ih => exact absurd List.mem_cons_self h
  | case3 text _ ih => exact absurd List.mem_cons_self h
  | case4 c text _ _ ih => rw [ih fun hmem => h (List.mem_cons_of_mem _ hmem)]

/-- The line without the carriage returns at its end. -/
def dropReturns (line : List Char) : List Char :=
  (line.reverse.dropWhile (· == '\r')).reverse

/-- The text of line `n` of a script, counted from 1, if there is such a line. -/
def lineText? (source : String) (n : Nat) : Option (List Char) :=
  match n with
  | 0 => none
  | n + 1 => ((pieces '\n' source.toList)[n]?).map dropReturns

end Sigil
