import Sigil.Token.Lexeme
import Sigil.Tree.Stmt

/-!
# Writing trees

A tree can be written as a script again. The lexemes of a line are separated by single spaces, every
statement starts a line of its own, and a block stands between the lines of the words around it. An
operator takes all that follows it as its right operand, so parentheses are needed in two places only:
around a binary expression that is the left operand of another, and around one that is the operand of a
unary expression.

Not every tree is the tree of a script. `WellFormed` says which trees are: their names, numbers, texts
and operators can be written as such, and their types are those of a tree that was not tagged yet.
-/

namespace Sigil

/-! ## The lexemes of a tree -/

namespace Lexeme

/-- The lexeme of a name or a reserved word. -/
def ofWord (w : String) : Lexeme :=
  ⟨(reserved? w).getD .name, w, w.toList⟩

/-- The lexeme of a text between quotes. -/
def ofString (s : String) : Lexeme :=
  ⟨.string, s, '"' :: (s.toList ++ ['"'])⟩

/-- The lexeme of a name behind a sigil, which may be a number as well. -/
def ofSlot (name : String) : Lexeme :=
  if name.toList.head?.any startsName then ofWord name else sign .number name.toList

/-- The lexeme of an operator. -/
def ofOperator (op : String) : Lexeme := sign .operator op.toList

/-- The sign before the names of local variables. -/
def dollar : Lexeme := sign .dollar ['$']

/-- The sign before the names of persistent variables. -/
def diamond : Lexeme := sign .diamond ['<', '>']

/-- An opening parenthesis. -/
def openParen : Lexeme := sign .openParen ['(']

/-- A closing parenthesis. -/
def closeParen : Lexeme := sign .closeParen [')']

/-- The sign between arguments. -/
def semicolon : Lexeme := sign .semicolon [';']

/-- The sign of assignments. -/
def assign : Lexeme := sign .assign [':', '=']

end Lexeme

open Lexeme

/-- The lexemes of a variable: its sigil and its name. -/
def Variable.words (v : Variable) : List Lexeme :=
  match v.storage with
  | .localSlot => [dollar, ofSlot v.name]
  | .persistentSlot => [diamond, ofSlot v.name]
  | .globalSlot => [ofWord v.name]

/-- The lexemes of an expression where a primary expression is wanted: `words`, with parentheses
around them if the expression is a binary one. -/
def Expr.group (e : Expr) (words : List Lexeme) : List Lexeme :=
  match e with
  | .binary .. => openParen :: (words ++ [closeParen])
  | _ => words

mutual

/-- The lexemes of an expression. -/
def Expr.words : Expr → List Lexeme
  | .literal text .string _ => [ofString text]
  | .literal text _ _ => [sign .number text.toList]
  | .var ref _ _ => ref.words
  | .unary op e _ _ => ofOperator op :: e.group e.words
  | .binary op l r _ _ => l.group l.words ++ ofOperator op :: r.words
  | .call name args _ _ => ofWord name :: openParen :: (Expr.wordsAll args ++ [closeParen])
termination_by structural e => e

/-- The lexemes of arguments, with semicolons between them. -/
def Expr.wordsAll : List Expr → List Lexeme
  | [] => []
  | e :: es => e.words ++ (if es.isEmpty then [] else semicolon :: Expr.wordsAll es)
termination_by structural es => es

end

/-- A condition behind the word that it belongs to. -/
def conditionLine (w : String) (c : Expr) : List Lexeme :=
  ofWord w :: openParen :: (c.words ++ [closeParen])

/-- The line that opens a `for`. -/
def countLine (counter first last : Expr) (increment : Option Expr) : List Lexeme :=
  ofWord "for" :: openParen ::
    (Expr.wordsAll (counter :: first :: last :: increment.toList) ++ [closeParen])

mutual

/-- The lines of a statement. -/
def Stmt.lines : Stmt → List (List Lexeme)
  | .expression e _ => [e.words]
  | .assign target value _ => [target.words ++ Lexeme.assign :: value.words]
  | .cond c yes none _ => conditionLine "if" c :: (yes.lines ++ [[ofWord "end if"]])
  | .cond c yes (some no) _ =>
    conditionLine "if" c :: (yes.lines ++ [ofWord "else"] :: (no.lines ++ [[ofWord "end if"]]))
  | .count counter first last increment body _ =>
    countLine counter first last increment :: (body.lines ++ [[ofWord "end for"]])
  | .loop c body _ => conditionLine "while" c :: (body.lines ++ [[ofWord "end while"]])
  | .loopUntil body c _ => [ofWord "repeat"] :: (body.lines ++ [conditionLine "until" c])
termination_by structural s => s

/-- The lines of a block. -/
def Block.lines : Block → List (List Lexeme)
  | .mk body _ => Block.linesAll body
termination_by structural b => b

/-- The lines of a row of statements. -/
def Block.linesAll : List Stmt → List (List Lexeme)
  | [] => []
  | s :: ss => s.lines ++ Block.linesAll ss
termination_by structural ss => ss

end

/-! ## The text of a tree -/

/-- The text of a line, without its end. -/
def lineChars (line : List Lexeme) : List Char :=
  [' '].intercalate (line.map Lexeme.text)

/-- The text of several lines, with their ends. -/
def linesChars (lines : List (List Lexeme)) : List Char :=
  lines.flatMap fun line => lineChars line ++ ['\n']

/-- The script that a block is written as. -/
def Block.written (b : Block) : String :=
  String.ofList (linesChars b.lines)

/-! ## Trees that can be written -/

/-- A number as it is written: digits with at most one point among them, and at least one digit. -/
inductive NumberText : List Char → Prop where
  /-- Digits alone. -/
  | whole {digits : List Char} (hd : ∀ c ∈ digits, c.isDigit = true) (hne : digits ≠ []) :
      NumberText digits
  /-- Digits around a point. -/
  | pointed {digits fraction : List Char} (hd : ∀ c ∈ digits, c.isDigit = true)
      (hf : ∀ c ∈ fraction, c.isDigit = true) (hne : digits ≠ [] ∨ fraction ≠ []) :
      NumberText (digits ++ '.' :: fraction)

/-- The text is a name, or a reserved word, in its normal form. -/
structure IsWord (w : String) : Prop where
  /-- It has the shape of a name. -/
  shape : ∃ c cs, w.toList = c :: cs ∧ startsName c = true ∧ ∀ d ∈ cs, continuesName d = true
  /-- It is its own normal form. -/
  normal : normalizeName w = w

/-- The text is a name in its normal form, and not a reserved word. -/
structure IsName (name : String) : Prop extends IsWord name where
  /-- It is not reserved. -/
  free : reserved? name = none

/-- The character makes an operator by itself. -/
def isOperatorChar (c : Char) : Bool :=
  !isAlphanumeric c && !isBlank c &&
    !(['_', '"', '(', ')', '\x7b', '\x7d', ';', '$', ':'].contains c)

/-- The text is an operator. -/
inductive IsOperator : String → Prop where
  /-- A comparison of two characters. -/
  | comparison {op : String} (h : op ∈ ["<=", ">=", "!="]) : IsOperator op
  /-- A single character. -/
  | single {c : Char} (h : isOperatorChar c = true) : IsOperator (String.ofList [c])

/-- The variable can be written. -/
def Variable.WellFormed (v : Variable) : Prop :=
  IsName v.name ∨ v.storage ≠ .globalSlot ∧ NumberText v.name.toList

/-- The expression can be written, and is not tagged. -/
inductive Expr.WellFormed : Expr → Prop where
  /-- A number. -/
  | number {text : String} {s : Span} (h : NumberText text.toList) :
      WellFormed (.literal text .number s)
  /-- A text without quotes and carriage returns. -/
  | string {text : String} {s : Span} (hq : '"' ∉ text.toList) (hr : '\r' ∉ text.toList) :
      WellFormed (.literal text .string s)
  /-- A variable. -/
  | var {ref : Variable} {s : Span} (h : ref.WellFormed) : WellFormed (.var ref .undetermined s)
  /-- An operator before its operand. -/
  | unary {op : String} {e : Expr} {s : Span} (hop : IsOperator op) (he : WellFormed e) :
      WellFormed (.unary op e .undetermined s)
  /-- An operator between its operands. -/
  | binary {op : String} {l r : Expr} {s : Span} (hop : IsOperator op) (hl : WellFormed l)
      (hr : WellFormed r) : WellFormed (.binary op l r .undetermined s)
  /-- A call. -/
  | call {name : String} {args : List Expr} {s : Span} (hn : IsName name)
      (ha : ∀ e ∈ args, WellFormed e) : WellFormed (.call name args .undetermined s)

/-- The statement can be written: its expressions can, and what it assigns to or counts with is a
variable. -/
inductive Stmt.WellFormed : Stmt → Prop where
  /-- An expression. -/
  | expression {e : Expr} {s : Span} (he : e.WellFormed) : WellFormed (.expression e s)
  /-- An assignment. -/
  | assign {target value : Expr} {s : Span} (ht : target.WellFormed) (hv : target.isVar = true)
      (he : value.WellFormed) : WellFormed (.assign target value s)
  /-- An `if`. -/
  | cond {c : Expr} {yes : Block} {no : Option Block} {s : Span} (hc : c.WellFormed)
      (hy : ∀ x ∈ yes.body, WellFormed x) (hn : ∀ b ∈ no, ∀ x ∈ b.body, WellFormed x) :
      WellFormed (.cond c yes no s)
  /-- A `for`. -/
  | count {counter first last : Expr} {increment : Option Expr} {body : Block} {s : Span}
      (ht : counter.WellFormed) (hv : counter.isVar = true) (hf : first.WellFormed)
      (hl : last.WellFormed) (hi : ∀ e ∈ increment, e.WellFormed)
      (hb : ∀ x ∈ body.body, WellFormed x) :
      WellFormed (.count counter first last increment body s)
  /-- A `while`. -/
  | loop {c : Expr} {body : Block} {s : Span} (hc : c.WellFormed)
      (hb : ∀ x ∈ body.body, WellFormed x) : WellFormed (.loop c body s)
  /-- A `repeat`. -/
  | loopUntil {body : Block} {c : Expr} {s : Span} (hb : ∀ x ∈ body.body, WellFormed x)
      (hc : c.WellFormed) : WellFormed (.loopUntil body c s)

/-- The block can be written: all its statements can. -/
def Block.WellFormed (b : Block) : Prop :=
  ∀ s ∈ b.body, s.WellFormed

end Sigil
