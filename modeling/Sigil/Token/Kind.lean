/-!
# Kinds of tokens

A token belongs to one of a fixed number of kinds. The grammar looks at nothing else: two tokens of
one kind are interchangeable to it.
-/

namespace Sigil

/-- The kind of a token. -/
inductive Kind where
  /-- The end of the script. -/
  | endOfInput
  /-- The end of a line. -/
  | endLine
  /-- A name: letters, digits, underscores and blanks. -/
  | name
  /-- A number. -/
  | number
  /-- A text between double quotes. -/
  | string
  /-- The sigil `$` of local variables. -/
  | dollar
  /-- The sigil `<>` of persistent variables. -/
  | diamond
  /-- An opening parenthesis. -/
  | openParen
  /-- A closing parenthesis. -/
  | closeParen
  /-- An opening brace. -/
  | openCurly
  /-- A closing brace. -/
  | closeCurly
  /-- A semicolon, which separates arguments. -/
  | semicolon
  /-- A colon. -/
  | colon
  /-- The assignment sign `:=`. -/
  | assign
  /-- Any other sign. -/
  | operator
  /-- The word `if`. -/
  | ifWord
  /-- The word `else`. -/
  | elseWord
  /-- The words `end if`. -/
  | endIf
  /-- The word `for`. -/
  | forWord
  /-- The words `end for`. -/
  | endFor
  /-- The word `while`. -/
  | whileWord
  /-- The words `end while`. -/
  | endWhile
  /-- The word `repeat`. -/
  | repeatWord
  /-- The word `until`. -/
  | untilWord
  /-- No token at all: what is found past the end of the script. -/
  | absent
  deriving DecidableEq, Inhabited

namespace Kind

/-- All kinds. -/
def all : List Kind :=
  [.endOfInput, .endLine, .name, .number, .string, .dollar, .diamond, .openParen, .closeParen,
    .openCurly, .closeCurly, .semicolon, .colon, .assign, .operator, .ifWord, .elseWord, .endIf,
    .forWord, .endFor, .whileWord, .endWhile, .repeatWord, .untilWord, .absent]

/-- The name of a kind in messages. -/
def label : Kind → String
  | endOfInput => "EOF"
  | endLine => "EndLine"
  | name => "Identifier"
  | number => "Number"
  | string => "String"
  | dollar => "Dollar"
  | diamond => "Diamond"
  | openParen => "OpenParen"
  | closeParen => "CloseParen"
  | openCurly => "OpenCurly"
  | closeCurly => "CloseCurly"
  | semicolon => "Semicolon"
  | colon => "Colon"
  | assign => "Affect"
  | operator => "Operator"
  | ifWord => "If"
  | elseWord => "Else"
  | endIf => "EndIf"
  | forWord => "For"
  | endFor => "EndFor"
  | whileWord => "While"
  | endWhile => "EndWhile"
  | repeatWord => "Repeat"
  | untilWord => "Until"
  | absent => "Nil"

/-- The kind with the given label, if there is one. -/
def ofLabel? (text : String) : Option Kind :=
  all.find? fun k => k.label == text

/-- Whether a token of this kind ends the block it is met in. It is left to whoever opened the
block. -/
def endsBlock : Kind → Bool
  | endOfInput | elseWord | endIf | endFor | endWhile | untilWord => true
  | _ => false

/-- Every kind is listed. -/
theorem mem_all (k : Kind) : k ∈ all := by
  cases k <;> decide

end Kind

end Sigil
