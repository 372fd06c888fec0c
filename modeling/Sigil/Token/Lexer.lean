import Sigil.Diagnostic.Basic
import Sigil.Token.Basic
import Sigil.Token.Name

/-!
# The lexer

A lexer reads the source of a script character by character, as it was given, and makes the tokens of
it one by one. Whatever the style of a line break, it is read as a line feed. Most tokens end where
something else starts, which the lexer finds out by reading one character too many. It hands that
character back, and reads it again for the next token.

Comments are no tokens, but the lexer notes on which line each of them starts. Once the source is used
up, or a quoted text was found to have no end, every further token is the end of the script.

`tokenize` takes all tokens of a script. It fails on the first quoted text without an end, and on
nothing else.
-/

namespace Sigil

/-- A lexer at work on a script. -/
structure Lexer where
  /-- The name of the script. -/
  file : String
  /-- The characters of the source that were not read yet. -/
  source : List Char
  /-- The character that was read last, unless that was the end of the source. -/
  current : Option Char
  /-- Whether `current` was handed back, and is to be read again. -/
  handedBack : Bool
  /-- The line of the first character of `source`. -/
  line : Nat
  /-- The line of `current`. -/
  seen : Nat
  deriving DecidableEq

/-- What was found on the way to a token, by something that walks over a script. -/
structure Step (σ : Type) where
  /-- The lines on which the comments before the token start. -/
  comments : List Nat
  /-- The token, or what is wrong with the text at its place. -/
  result : Except Diagnostic Token
  /-- What goes on with the walk. -/
  next : σ

/-- The tokens of a script, and what was passed over on the way to them. -/
structure Scan where
  /-- The lines on which the comments start, in order. -/
  comments : List Nat
  /-- The tokens, the end of the script being the last, or what is wrong with the text. -/
  result : Except Diagnostic (List Token)

/-- Whether `c` is a blank that no token is made of. -/
def isFiller (c : Char) : Bool := isBlank c && c != '\n'

/-- The line on which a text goes on behind the character `c`. -/
def lineBehind (line : Nat) (c : Char) : Nat := if c = '\n' then line + 1 else line

theorem lineBehind_add_count (line : Nat) (c : Char) (text : List Char) :
    lineBehind line c + text.count '\n' = line + (c :: text).count '\n' := by
  by_cases hc : c = '\n'
  · rw [lineBehind, if_pos hc, hc, List.count_cons_self]
    omega
  · rw [lineBehind, if_neg hc, List.count_cons_of_ne hc]

namespace Lexer

/-- The lexer at the start of a script. -/
def ofSource (file source : String) : Lexer :=
  ⟨file, source.toList, none, false, 1, 1⟩

/-- The position that the lexer has reached. -/
def position (l : Lexer) : Position := ⟨l.seen, l.file⟩

/-! ## Single characters -/

/-- Takes the character `c` from the source, of which `source` is left. -/
def take (c : Char) (source : List Char) (l : Lexer) : Option Char × Lexer :=
  (some c, ⟨l.file, source, some c, false, lineBehind l.line c, l.line⟩)

/-- Reads the next character. A carriage return is read as a line feed, together with the line feed
behind it if there is one. -/
def read (l : Lexer) : Option Char × Lexer :=
  if l.handedBack then (l.current, { l with handedBack := false })
  else
    match l.source with
    | [] => (none, { l with current := none, seen := l.line })
    | '\r' :: '\n' :: source => l.take '\n' source
    | '\r' :: source => l.take '\n' source
    | c :: source => l.take c source

/-- Hands back the character that was read last. -/
def unread (l : Lexer) : Lexer := { l with handedBack := true }

/-- Whether the next character of the source is a digit. It is looked at without being read. -/
def nextIsDigit (l : Lexer) : Bool :=
  !l.handedBack && l.source.head?.any Char.isDigit

/-- How many characters the lexer can still read, if no two of them make one line break. -/
def size (l : Lexer) : Nat := l.source.length + l.handedBack.toNat

theorem handedBack_read (l : Lexer) : l.read.2.handedBack = false := by
  unfold read
  split
  · rfl
  · rename_i h
    split
    · exact Bool.eq_false_iff.mpr h
    all_goals rfl

/-- Every character that is read was there to be read. -/
theorem size_read_le (l : Lexer) : l.read.2.size + l.read.1.isSome.toNat ≤ l.size := by
  unfold size
  rw [l.handedBack_read]
  unfold read
  split
  · rename_i h
    rw [h]
    exact Nat.add_le_add_left (Bool.toNat_le _) _
  · split <;> simp [take, *]

/-! ## Runs of characters -/

/-- What was read in one go. -/
structure Run where
  /-- The characters that belong together. -/
  taken : List Char
  /-- The character behind them, unless they go up to the end of the source. -/
  stop : Option Char
  /-- The lexer after that, which has read `stop` too. -/
  lexer : Lexer

/-- Reads characters as long as `go` lets it, and then one more. What `go` has to know of the characters
before is its state. -/
def readOn {σ : Type} (go : σ → Char → Option σ) (state : σ) (l : Lexer) : Run :=
  match _h : l.read.1 with
  | none => ⟨[], none, l.read.2⟩
  | some c =>
    match go state c with
    | none => ⟨[], some c, l.read.2⟩
    | some state =>
      let run := l.read.2.readOn go state
      ⟨c :: run.taken, run.stop, run.lexer⟩
termination_by l.size
decreasing_by
  have := l.size_read_le
  rw [_h, Option.isSome_some, Bool.toNat_true] at this
  omega

/-- Reads characters as long as they have the property `p`, and then one more. -/
def readWhile (p : Char → Bool) (l : Lexer) : Run :=
  l.readOn (fun _ c => if p c then some () else none) ()

/-- The lexer after a run, when it has handed back the character behind the run. -/
def Run.handBack (run : Run) : Lexer :=
  if run.stop.isSome then run.lexer.unread else run.lexer

/-! ## The rules for tokens -/

/-- Gives a token that starts on the line `start` and ends with the character that was read last. -/
def give (kind : Kind) (value : String) (start : Nat) (l : Lexer) : Step Lexer :=
  ⟨[], .ok ⟨kind, value, .lines l.file start l.seen⟩, l⟩

/-- The name, or the reserved word, that starts with `c`. -/
def name (c : Char) (l : Lexer) : Step Lexer :=
  let run := l.readWhile continuesName
  let value := normalizeName (String.ofList (c :: run.taken))
  run.handBack.give ((reserved? value).getD .name) value l.seen

/-- How a number goes on: with digits, and with a point if there was none in it yet. -/
def continuesNumber (seenPoint : Bool) (c : Char) : Option Bool :=
  if c.isDigit then some seenPoint
  else if c == '.' && !seenPoint then some true
  else none

/-- The number that starts with `c`, which is a digit or a point. -/
def number (c : Char) (l : Lexer) : Step Lexer :=
  let run := l.readOn continuesNumber (c == '.')
  run.handBack.give .number (String.ofList (c :: run.taken)) l.seen

/-- The text behind an opening quote, which must be closed. -/
def string (l : Lexer) : Step Lexer :=
  let run := l.readWhile (· != '"')
  match run.stop with
  | none => ⟨[], .error ⟨.unterminatedString, ⟨l.seen, l.file⟩⟩, run.lexer⟩
  | some _ => run.lexer.give .string (String.ofList run.taken) l.seen

/-- What a sign is found to be. -/
inductive Sign where
  /-- A token. -/
  | token (kind : Kind) (value : String)
  /-- The opening of a comment, which goes on over line breaks if it is long. -/
  | comment (long : Bool)
  deriving DecidableEq

/-- What the sign `c` is before certain characters, in the order in which these are tried. -/
def Sign.before : Char → List (Char × Sign)
  | ':' => [('=', .token .assign ":=")]
  | '<' => [('>', .token .diamond "<>"), ('=', .token .operator "<=")]
  | '>' => [('=', .token .operator ">=")]
  | '!' => [('=', .token .operator "!=")]
  | '/' => [('/', .comment false), ('*', .comment true)]
  | _ => []

/-- What the sign `c` is by itself. Characters without a role of their own are operators. -/
def Sign.alone : Char → Sign
  | '(' => .token .openParen "("
  | ')' => .token .closeParen ")"
  | '\x7b' => .token .openCurly "\x7b"
  | '\x7d' => .token .closeCurly "\x7d"
  | ';' => .token .semicolon ";"
  | '$' => .token .dollar "$"
  | ':' => .token .colon ":"
  | c => .token .operator (String.ofList [c])

/-- Reads one more character if that is `expected`. -/
def follows (expected : Char) (l : Lexer) : Bool × Lexer :=
  match l.read.1 with
  | none => (false, l.read.2)
  | some c => if c = expected then (true, l.read.2) else (false, l.read.2.unread)

/-- Tries one continuation of a sign after the other. -/
def choose (otherwise : Sign) : List (Char × Sign) → Lexer → Sign × Lexer
  | [], l => (otherwise, l)
  | (c, sign) :: more, l =>
    if (l.follows c).1 then (sign, (l.follows c).2) else choose otherwise more (l.follows c).2

/-- How a long comment goes on: up to a slash behind a star. -/
def continuesComment (previous : Option Char) (c : Char) : Option (Option Char) :=
  if previous = some '*' ∧ c = '/' then none else some (some c)

/-- Finds out what the sign `c` is. -/
def sign (c : Char) (l : Lexer) : Sign × Lexer := choose (Sign.alone c) (Sign.before c) l

/-- Passes over a comment whose opening was read. A short one ends before its line does. -/
def skipComment (long : Bool) (l : Lexer) : Lexer :=
  if long then (l.readOn continuesComment none).lexer else (l.readWhile (· != '\n')).handBack

/-! ## Every rule reads what is there -/

theorem handedBack_readOn {σ : Type} (go : σ → Char → Option σ) (state : σ) (l : Lexer) :
    (l.readOn go state).lexer.handedBack = false := by
  fun_induction readOn go state l with
  | case1 state l h => exact l.handedBack_read
  | case2 state l c h hgo => exact l.handedBack_read
  | case3 state l c h state' hgo run ih => exact ih

theorem size_readOn_le {σ : Type} (go : σ → Char → Option σ) (state : σ) (l : Lexer) :
    (l.readOn go state).lexer.size + (l.readOn go state).stop.isSome.toNat ≤ l.size := by
  fun_induction readOn go state l with
  | case1 state l h =>
    have := l.size_read_le
    rwa [h] at this
  | case2 state l c h hgo =>
    have := l.size_read_le
    rwa [h] at this
  | case3 state l c h state' hgo run ih =>
    have := l.size_read_le
    exact Nat.le_trans ih (Nat.le_trans (Nat.le_add_right _ _) this)

theorem size_unread {l : Lexer} (h : l.handedBack = false) : l.unread.size = l.size + 1 := by
  simp [size, unread, h]

theorem size_handBack_le {σ : Type} (go : σ → Char → Option σ) (state : σ) (l : Lexer) :
    (l.readOn go state).handBack.size ≤ l.size := by
  have hle := size_readOn_le go state l
  unfold Run.handBack
  split
  · rename_i h
    rw [size_unread (handedBack_readOn go state l)]
    rwa [h] at hle
  · exact Nat.le_trans (Nat.le_add_right _ _) hle

theorem size_follows_le (c : Char) (l : Lexer) : (l.follows c).2.size ≤ l.size := by
  have hle := l.size_read_le
  unfold follows
  split
  · exact Nat.le_trans (Nat.le_add_right _ _) hle
  · rename_i d h
    rw [h] at hle
    split
    · exact Nat.le_trans (Nat.le_add_right _ _) hle
    · rw [size_unread l.handedBack_read]
      exact hle

theorem size_choose_le (otherwise : Sign) (options : List (Char × Sign)) (l : Lexer) :
    (choose otherwise options l).2.size ≤ l.size := by
  fun_induction choose otherwise options l with
  | case1 l => exact Nat.le_refl _
  | case2 c sign more l h => exact l.size_follows_le c
  | case3 c sign more l h ih => exact Nat.le_trans ih (l.size_follows_le c)

theorem size_skipComment_le (long : Bool) (l : Lexer) : (l.skipComment long).size ≤ l.size := by
  unfold skipComment
  split
  · exact Nat.le_trans (Nat.le_add_right _ _) (size_readOn_le _ _ l)
  · exact size_handBack_le _ _ l

/-- A lexer that finds something behind the blanks has read it. -/
theorem size_readWhile_lt {p : Char → Bool} {l : Lexer} {c : Char}
    (h : (l.readWhile p).stop = some c) : (l.readWhile p).lexer.size < l.size := by
  have hle : (l.readWhile p).lexer.size + (l.readWhile p).stop.isSome.toNat ≤ l.size :=
    size_readOn_le _ _ l
  rwa [h] at hle

theorem size_sign_le (c : Char) (l : Lexer) : (l.sign c).2.size ≤ l.size :=
  size_choose_le _ _ l

/-- A comment uses up its opening at least. -/
theorem size_skipComment_lt {l : Lexer} {c : Char} (h : (l.readWhile isFiller).stop = some c)
    (long : Bool) : (((l.readWhile isFiller).lexer.sign c).2.skipComment long).size < l.size :=
  calc (((l.readWhile isFiller).lexer.sign c).2.skipComment long).size
      ≤ ((l.readWhile isFiller).lexer.sign c).2.size := size_skipComment_le long _
    _ ≤ (l.readWhile isFiller).lexer.size := size_sign_le c _
    _ < l.size := size_readWhile_lt h

/-! ## Tokens -/

/-- Makes the next token. -/
def next (l : Lexer) : Step Lexer :=
  let blanks := l.readWhile isFiller
  let start := blanks.lexer.seen
  match _h : blanks.stop with
  | none => blanks.lexer.give .endOfInput "EOF" start
  | some c =>
    if c = '\n' then blanks.lexer.give .endLine "\\n" start
    else if startsName c then blanks.lexer.name c
    else if c.isDigit || (c == '.' && blanks.lexer.nextIsDigit) then blanks.lexer.number c
    else if c = '"' then blanks.lexer.string
    else
      let found := blanks.lexer.sign c
      match found.1 with
      | .token kind value => found.2.give kind value start
      | .comment long =>
        let step := (found.2.skipComment long).next
        ⟨start :: step.comments, step.result, step.next⟩
termination_by l.size
decreasing_by exact size_skipComment_lt _h long

theorem size_name_le (c : Char) (l : Lexer) : (l.name c).next.size ≤ l.size :=
  size_handBack_le _ _ l

theorem size_number_le (c : Char) (l : Lexer) : (l.number c).next.size ≤ l.size :=
  size_handBack_le _ _ l

theorem size_string_le (l : Lexer) : l.string.next.size ≤ l.size := by
  have hle : (l.readWhile (· != '"')).lexer.size ≤ l.size :=
    Nat.le_trans (Nat.le_add_right _ _) (size_readOn_le _ _ l)
  unfold string
  simp only
  split
  · exact hle
  · exact hle

/-- A token other than the end of the script uses up some of the source. -/
theorem size_next_lt {l : Lexer} {token : Token} (h : l.next.result = .ok token)
    (hk : token.kind ≠ .endOfInput) : l.next.next.size < l.size := by
  fun_induction next l with
  | case1 l blanks start hstop =>
    obtain rfl := Except.ok.inj h
    exact absurd rfl hk
  | case2 l blanks start hstop => exact size_readWhile_lt hstop
  | case3 l blanks c hstop hbreak hname =>
    exact Nat.lt_of_le_of_lt (size_name_le c _) (size_readWhile_lt hstop)
  | case4 l blanks c hstop hbreak hname hnumber =>
    exact Nat.lt_of_le_of_lt (size_number_le c _) (size_readWhile_lt hstop)
  | case5 l blanks hstop hbreak hname hnumber =>
    exact Nat.lt_of_le_of_lt (size_string_le _) (size_readWhile_lt hstop)
  | case6 l blanks start c hstop hbreak hname hnumber hquote found kind value hsign =>
    exact Nat.lt_of_le_of_lt (size_sign_le c _) (size_readWhile_lt hstop)
  | case7 l blanks start c hstop hbreak hname hnumber hquote found long hsign step ih =>
    exact Nat.lt_trans (ih h) (size_skipComment_lt hstop long)

end Lexer

/-- All tokens that a lexer has still to make. -/
def Lexer.scan (l : Lexer) : Scan :=
  match _h : l.next.result with
  | .error d => ⟨l.next.comments, .error d⟩
  | .ok token =>
    if _hk : token.kind = .endOfInput then ⟨l.next.comments, .ok [token]⟩
    else
      let others := l.next.next.scan
      ⟨l.next.comments ++ others.comments, others.result.map (token :: ·)⟩
termination_by l.size
decreasing_by exact size_next_lt _h _hk

/-- All tokens of a script. -/
def tokenize (file source : String) : Scan :=
  (Lexer.ofSource file source).scan

end Sigil
