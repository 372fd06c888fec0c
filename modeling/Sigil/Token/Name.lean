import Sigil.Text.Alphabetic
import Sigil.Text.Blank
import Sigil.Text.Lowercase
import Sigil.Token.Kind

/-!
# Names

Names may hold blanks, and neither the amount of blank space nor the case of letters matters in
them: `End  If` and `end if` are the same words. Two spellings are the same name when their
normal forms are equal. A few normal forms are reserved for the words of the grammar.
-/

namespace Sigil

/-- The normal form of a name: no blanks at its ends, single spaces inside, lower case. -/
def normalizeName (text : String) : String :=
  String.ofList (lowercase (squeezeBlank (trimBlank text.toList)))

/-- The kind of the reserved word with the given normal form, if it is one. -/
def reserved? : String → Option Kind
  | "if" => some .ifWord
  | "else" => some .elseWord
  | "end if" => some .endIf
  | "for" => some .forWord
  | "end for" => some .endFor
  | "while" => some .whileWord
  | "end while" => some .endWhile
  | "repeat" => some .repeatWord
  | "until" => some .untilWord
  | _ => none

/-- Whether a name can start with `c`. -/
def startsName (c : Char) : Bool :=
  isAlphabetic c || c == '_'

/-- Whether a name can go on with `c`. -/
def continuesName (c : Char) : Bool :=
  isAlphanumeric c || c == '_' || c == ' ' || c == '\t'

end Sigil
