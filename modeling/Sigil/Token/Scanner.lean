import Sigil.Source.Lines
import Sigil.Token.Lexeme
import Sigil.Token.Lexer

/-!
# The scanner

A scanner walks over the text of a script with its line breaks folded, and takes a whole lexeme at a time.
It tells in a few words what tokens a script has: before each token there are blanks and comments, and the
token is the longest lexeme that starts there. Nothing is handed back, because nothing is read too far.

The lexer gives the same tokens, and stands after each of them at the same place of the text.
-/

namespace Sigil

/-! ## Blanks and comments -/

/-- A comment between `/*` and the first `*/` after it: the text after its opening, up to and with
its closing, and what follows. Without a closing it takes all of the text. -/
def blockComment : List Char → List Char × List Char
  | [] => ([], [])
  | '*' :: '/' :: rest => (['*', '/'], rest)
  | c :: rest => (c :: (blockComment rest).1, (blockComment rest).2)

theorem length_blockComment_le (text : List Char) :
    (blockComment text).2.length ≤ text.length := by
  fun_induction blockComment text with
  | case1 => simp
  | case2 rest => simp; omega
  | case3 c rest h ih => simp; omega

theorem length_dropWhile_le (p : Char → Bool) (text : List Char) :
    (text.dropWhile p).length ≤ text.length :=
  (List.dropWhile_suffix p).length_le

/-- What is passed over before a token. -/
structure Trivia where
  /-- The lines on which the comments start, in order. -/
  comments : List Nat
  /-- The text that follows. -/
  rest : List Char
  /-- The line on which that text starts. -/
  line : Nat
  deriving DecidableEq

/-- Passes over the blanks and comments at the start of a text that starts on the given line. A line
feed is no blank here: it is a token. -/
def skipTrivia (line : Nat) (text : List Char) : Trivia :=
  match text with
  | [] => ⟨[], [], line⟩
  | '/' :: '/' :: rest =>
    let t := skipTrivia line (rest.dropWhile (· != '\n'))
    ⟨line :: t.comments, t.rest, t.line⟩
  | '/' :: '*' :: rest =>
    let t := skipTrivia (line + (blockComment rest).1.count '\n') (blockComment rest).2
    ⟨line :: t.comments, t.rest, t.line⟩
  | c :: rest =>
    if isBlank c && c != '\n' then skipTrivia line rest else ⟨[], c :: rest, line⟩
termination_by text.length
decreasing_by
  · have := length_dropWhile_le (· != '\n') rest
    simp only [List.length_cons]
    omega
  · have := length_blockComment_le rest
    simp only [List.length_cons]
    omega
  · simp

/-- Passing over blanks and comments never lengthens the text. -/
theorem length_skipTrivia_le (line : Nat) (text : List Char) :
    (skipTrivia line text).rest.length ≤ text.length := by
  fun_induction skipTrivia line text with
  | case1 => simp
  | case2 line rest t ih =>
    have := length_dropWhile_le (· != '\n') rest
    simp only [List.length_cons, t]
    omega
  | case3 line rest t ih =>
    have := length_blockComment_le rest
    simp only [List.length_cons, t]
    omega
  | case4 line c rest _ _ h ih =>
    simp only [List.length_cons]
    omega
  | case5 => simp

/-! ## The walk over a script -/

/-- A place in the text of a script. -/
structure Scanner where
  /-- The name of the script. -/
  file : String
  /-- The text that is still to be read, with line breaks folded. -/
  rest : List Char
  /-- The line on which that text starts. -/
  line : Nat
  /-- The line of the last character that was looked at. It differs from `line` only right after the
  end of a line. -/
  seen : Nat
  deriving DecidableEq

namespace Scanner

/-- The scanner at the start of a script. -/
def ofSource (file source : String) : Scanner :=
  ⟨file, foldBreaks source.toList, 1, 1⟩

/-- The position that the scanner has reached. -/
def position (s : Scanner) : Position := ⟨s.seen, s.file⟩

/-- Reads the next token. -/
def step (s : Scanner) : Step Scanner :=
  let t := skipTrivia s.line s.rest
  match t.rest with
  | [] => ⟨t.comments, .ok (.endOfInput s.file t.line), ⟨s.file, [], t.line, t.line⟩⟩
  | c :: rest =>
    match Lexeme.read? c rest with
    | none =>
      let last := t.line + rest.count '\n'
      ⟨t.comments, .error ⟨.unterminatedString, ⟨t.line, s.file⟩⟩, ⟨s.file, [], last, last⟩⟩
    | some x =>
      let last := t.line + x.value.toList.count '\n'
      ⟨t.comments, .ok ⟨x.kind, x.value, .lines s.file t.line last⟩,
        ⟨s.file, (c :: rest).drop x.text.length, t.line + x.text.count '\n', last⟩⟩

/-- A step that gives a token other than the end of the script uses up some of the text. -/
theorem length_step_lt {s : Scanner} {token : Token} (h : s.step.result = .ok token)
    (hk : token.kind ≠ .endOfInput) : s.step.next.rest.length < s.rest.length := by
  have hle := length_skipTrivia_le s.line s.rest
  unfold step at h ⊢
  simp only at h ⊢
  split at h
  · simp only [Except.ok.injEq] at h
    exact absurd (by rw [← h]; rfl) hk
  · rename_i c rest heq
    rw [heq] at hle
    split at h
    · simp at h
    · rename_i x hx
      have hpos : 0 < x.text.length := List.length_pos_iff.mpr (Lexeme.read?_text_ne_nil hx)
      simp only [List.length_drop, List.length_cons] at hle ⊢
      omega

end Scanner

/-- All tokens from a place in a script on. -/
def Scanner.scan (s : Scanner) : Scan :=
  match _h : s.step.result with
  | .error d => ⟨s.step.comments, .error d⟩
  | .ok token =>
    if _hk : token.kind = .endOfInput then ⟨s.step.comments, .ok [token]⟩
    else
      let others := s.step.next.scan
      ⟨s.step.comments ++ others.comments, others.result.map (token :: ·)⟩
termination_by s.rest.length
decreasing_by exact length_step_lt _h _hk

end Sigil
