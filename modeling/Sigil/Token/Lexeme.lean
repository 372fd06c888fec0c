import Sigil.Token.Name

/-!
# Lexemes

A lexeme is the stretch of text that makes one token. `Lexeme.read?` takes the lexeme that a text
starts with: the longest name, number or sign that can be read there, or a text up to its closing
quote. Blanks and comments are not lexemes; the scanner passes over them first.
-/

namespace Sigil

/-- The text of one token, with what the token says. -/
structure Lexeme where
  /-- The kind of the token. -/
  kind : Kind
  /-- The value of the token. -/
  value : String
  /-- The characters that the token is written with. -/
  text : List Char
  deriving DecidableEq

namespace Lexeme

/-- The lexeme of a sign, whose value is its own text. -/
def sign (kind : Kind) (text : List Char) : Lexeme :=
  ⟨kind, String.ofList text, text⟩

/-- The end of a line. Its value is a visible stand-in for the line feed. -/
def endLine : Lexeme := ⟨.endLine, "\\n", ['\n']⟩

/-- The name, or the reserved word, that starts with `c`. -/
def word (c : Char) (rest : List Char) : Lexeme :=
  let text := c :: rest.takeWhile continuesName
  let value := normalizeName (String.ofList text)
  ⟨(reserved? value).getD .name, value, text⟩

/-- Whether a number starts with `c`: a digit, or a point before a digit. -/
def startsNumber (c : Char) (rest : List Char) : Bool :=
  c.isDigit || (c == '.' && (rest.head?.any Char.isDigit))

/-- The number at the start of `text`: digits with at most one point among them. -/
def number (text : List Char) : Lexeme :=
  let whole := text.takeWhile Char.isDigit
  match text.dropWhile Char.isDigit with
  | '.' :: rest => sign .number (whole ++ '.' :: rest.takeWhile Char.isDigit)
  | _ => sign .number whole

/-- The quoted text whose opening quote stands before `rest`, unless it is never closed. -/
def string? (rest : List Char) : Option Lexeme :=
  let inside := rest.takeWhile (· != '"')
  match rest.dropWhile (· != '"') with
  | [] => none
  | _ :: _ => some ⟨.string, String.ofList inside, '"' :: (inside ++ ['"'])⟩

/-- The sign that starts with `c`. Characters without a role of their own are operators. -/
def symbol (c : Char) (rest : List Char) : Lexeme :=
  match c, rest with
  | '(', _ => sign .openParen ['(']
  | ')', _ => sign .closeParen [')']
  | '\x7b', _ => sign .openCurly ['\x7b']
  | '\x7d', _ => sign .closeCurly ['\x7d']
  | ';', _ => sign .semicolon [';']
  | '$', _ => sign .dollar ['$']
  | ':', '=' :: _ => sign .assign [':', '=']
  | ':', _ => sign .colon [':']
  | '<', '>' :: _ => sign .diamond ['<', '>']
  | '<', '=' :: _ => sign .operator ['<', '=']
  | '>', '=' :: _ => sign .operator ['>', '=']
  | '!', '=' :: _ => sign .operator ['!', '=']
  | c, _ => sign .operator [c]

/-- The lexeme at the start of the text `c :: rest`, unless that is a quoted text without an end. -/
def read? (c : Char) (rest : List Char) : Option Lexeme :=
  if c = '\n' then some endLine
  else if startsName c then some (word c rest)
  else if startsNumber c rest then some (number (c :: rest))
  else if c = '"' then string? rest
  else some (symbol c rest)

/-! ## Lexemes are not empty -/

theorem number_text_ne_nil {c : Char} {rest : List Char} (h : startsNumber c rest = true) :
    (number (c :: rest)).text ≠ [] := by
  unfold number
  split
  · simp [sign]
  · rename_i hne
    by_cases hd : c.isDigit = true
    · simp [sign, hd]
    · simp only [startsNumber, Bool.or_eq_true, hd, Bool.and_eq_true, beq_iff_eq, false_or,
        Bool.false_eq_true] at h
      exact absurd (by simp [List.dropWhile, h.1]) (hne rest)

theorem string?_text_ne_nil {rest : List Char} {x : Lexeme} (h : string? rest = some x) :
    x.text ≠ [] := by
  unfold string? at h
  split at h
  · simp at h
  · simp only [Option.some.injEq] at h
    simp [← h]

theorem symbol_text_ne_nil (c : Char) (rest : List Char) : (symbol c rest).text ≠ [] := by
  unfold symbol
  split <;> simp [sign]

/-- Every lexeme has at least one character, so reading one shortens the text. -/
theorem read?_text_ne_nil {c : Char} {rest : List Char} {x : Lexeme} (h : read? c rest = some x) :
    x.text ≠ [] := by
  unfold read? at h
  split at h
  · simp only [Option.some.injEq] at h
    simp [← h, endLine]
  · split at h
    · simp only [Option.some.injEq] at h
      simp [← h, word]
    · split at h
      · rename_i hn
        simp only [Option.some.injEq] at h
        exact h ▸ number_text_ne_nil hn
      · split at h
        · exact string?_text_ne_nil h
        · simp only [Option.some.injEq] at h
          exact h ▸ symbol_text_ne_nil c rest

end Lexeme

end Sigil
