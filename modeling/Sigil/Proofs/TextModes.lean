import Sigil.Proofs.Legibility
import Sigil.Proofs.Segments

/-!
# What a place in a text is part of

Read from left to right, every place of a text is part of the code, of a quoted text, or of a comment of
one of the two kinds. `Mode.after` is the automaton that keeps track of this: it knows quotes, the two
openings of comments and their ends, and nothing else of the language.

The scanner has no such modes. But passing over blanks and comments, and reading a lexeme, lead from code
to code, so the scanner and the automaton agree wherever a token starts.
-/

namespace Sigil

/-- What a place in a text is part of. -/
inductive Mode where
  /-- Neither a quoted text nor a comment. -/
  | code
  /-- A quoted text. -/
  | string
  /-- A comment that ends with its line. -/
  | lineComment
  /-- A comment that ends with its closing. -/
  | blockComment
  deriving DecidableEq

namespace Mode

/-- The mode at the end of a text whose start is in the given mode. -/
@[simp]
def after : Mode → List Char → Mode
  | m, [] => m
  | code, '"' :: text => after string text
  | code, '/' :: '/' :: text => after lineComment text
  | code, '/' :: '*' :: text => after blockComment text
  | code, _ :: text => after code text
  | string, '"' :: text => after code text
  | string, _ :: text => after string text
  | lineComment, '\n' :: text => after code text
  | lineComment, _ :: text => after lineComment text
  | blockComment, '*' :: '/' :: text => after code text
  | blockComment, _ :: text => after blockComment text

end Mode

/-- The mode at the end of a source, with its line breaks folded. -/
def endMode (source : String) : Mode := Mode.after .code (foldBreaks source.toList)

namespace Mode

/-! ## Code -/

theorem after_code_cons {c : Char} (hquote : c ≠ '"') (hslash : c ≠ '/') (text : List Char) :
    after code (c :: text) = after code text := by
  rw [after]
  · exact fun h => hquote h
  · exact fun _ h => absurd h hslash
  · exact fun _ h => absurd h hslash

/-- A slash opens no comment before anything but a slash or a star. -/
theorem after_code_slash {text : List Char} (h : ∀ d ∈ text.head?, d ≠ '/' ∧ d ≠ '*') :
    after code ('/' :: text) = after code text := by
  rw [after]
  · simp
  · rintro rest - rfl
    exact (h '/' rfl).1 rfl
  · rintro rest - rfl
    exact (h '*' rfl).2 rfl

/-- What has neither quotes nor slashes leads from code to code. -/
theorem after_code_append {word : List Char} (h : ∀ d ∈ word, d ≠ '"' ∧ d ≠ '/')
    (text : List Char) : after code (word ++ text) = after code text := by
  induction word with
  | nil => rfl
  | cons c word ih =>
    obtain ⟨⟨hquote, hslash⟩, hword⟩ := List.forall_mem_cons.mp h
    rw [List.cons_append, after_code_cons hquote hslash, ih hword]

/-! ## Quoted texts and comments -/

/-- A quoted text leads back to code behind its closing quote. -/
theorem after_string_append {inside : List Char} (h : '"' ∉ inside) (text : List Char) :
    after string (inside ++ '"' :: text) = after code text := by
  induction inside with
  | nil => rfl
  | cons c inside ih =>
    rw [List.mem_cons, not_or] at h
    rw [List.cons_append, after, ih h.2]
    exact fun hc => h.1 hc.symm

/-- A comment of one line is followed by the end of its line, or by nothing. -/
theorem after_lineComment (text : List Char) :
    after lineComment text = after code (text.dropWhile (· != '\n')) ∨
      (after lineComment text = lineComment ∧ text.dropWhile (· != '\n') = []) := by
  induction text with
  | nil => exact .inr ⟨rfl, rfl⟩
  | cons c text ih =>
    by_cases hc : c = '\n'
    · left
      subst hc
      rfl
    · have hstay : after lineComment (c :: text) = after lineComment text := by
        rw [after]
        exact fun h => hc h
      rw [hstay, List.dropWhile_cons_of_pos (by simpa using hc)]
      exact ih

/-- A comment is closed in the same place whatever follows, or takes all of the text. -/
theorem after_blockComment (text : List Char) :
    (after blockComment text = after code (Sigil.blockComment text).2 ∧
      ∀ more, Sigil.blockComment (text ++ more) =
        ((Sigil.blockComment text).1, (Sigil.blockComment text).2 ++ more)) ∨
    (after blockComment text = blockComment ∧ (Sigil.blockComment text).2 = []) := by
  fun_induction Sigil.blockComment text with
  | case1 => exact .inr ⟨rfl, rfl⟩
  | case2 rest => exact .inl ⟨rfl, fun _ => rfl⟩
  | case3 c rest hopen ih =>
    have hstay : after blockComment (c :: rest) = after blockComment rest := by
      rw [after]
      exact hopen
    rw [hstay]
    rcases ih with ⟨hcode, hmore⟩ | ih
    · refine .inl ⟨hcode, fun more => ?_⟩
      rw [List.cons_append, Sigil.blockComment, hmore]
      -- A closing that starts at `c` would have its second character in the rest, which is not empty.
      intro rest' hstar hslash
      cases rest with
      | nil => cases hcode
      | cons d rest =>
        obtain ⟨rfl, -⟩ := List.cons.inj hslash
        exact hopen rest hstar rfl
    · exact .inr ih

/-! ## How texts start -/

/-- A text does not start with `d` because something else is put behind it. -/
theorem not_starts_append {rest : List Char} {d e : Char} (hd : d ≠ e)
    (h : ∀ r, rest = d :: r → False) (more r : List Char) : rest ++ e :: more ≠ d :: r := by
  intro heq
  cases rest with
  | nil => exact hd (List.cons.inj heq).1.symm
  | cons e rest =>
    obtain ⟨rfl, -⟩ := List.cons.inj heq
    exact h rest rfl

/-- What is of a kind that neither a quote nor a slash is of. -/
theorem ne_of_kind {p : Char → Bool} (hquote : p '"' = false) (hslash : p '/' = false) {c : Char}
    (h : p c = true) : c ≠ '"' ∧ c ≠ '/' := by
  constructor
  · rintro rfl
    exact absurd (hquote.symm.trans h) Bool.false_ne_true
  · rintro rfl
    exact absurd (hslash.symm.trans h) Bool.false_ne_true

/-! ## Blanks and comments before a token -/

theorem isBlank_ne {c : Char} (h : isBlank c = true) : c ≠ '"' ∧ c ≠ '/' :=
  ne_of_kind (by decide) (by decide) h

/-- The text starts with no comment. -/
def NoComment (text : List Char) : Prop :=
  ∀ rest, text = '/' :: rest → ∀ d ∈ rest.head?, d ≠ '/' ∧ d ≠ '*'

/-- A comment starts with two slashes, or with a slash and a star. -/
theorem noComment_cons {c : Char} {rest : List Char}
    (hline : ∀ r, c = '/' → rest = '/' :: r → False)
    (hblock : ∀ r, c = '/' → rest = '*' :: r → False) : NoComment (c :: rest) := by
  intro rest' heq d hd
  obtain ⟨hc, rfl⟩ := List.cons.inj heq
  obtain ⟨r, rfl⟩ := List.head?_eq_some_iff.mp hd
  constructor
  · rintro rfl
    exact hline r hc rfl
  · rintro rfl
    exact hblock r hc rfl

/-- What is passed over before a token starts and ends in code. -/
theorem after_skipTrivia {line : Nat} {text : List Char} (h : (skipTrivia line text).rest ≠ []) :
    after code (skipTrivia line text).rest = after code text ∧
      NoComment (skipTrivia line text).rest := by
  fun_induction skipTrivia line text with
  | case1 => exact absurd rfl h
  | case2 line rest t ih =>
    obtain ⟨hcode, hstart⟩ := ih h
    refine ⟨?_, hstart⟩
    rw [hcode, after]
    rcases after_lineComment rest with hnext | ⟨-, hnil⟩
    · exact hnext.symm
    · exact absurd (by simp [t, hnil, skipTrivia]) h
  | case3 line rest t ih =>
    obtain ⟨hcode, hstart⟩ := ih h
    refine ⟨?_, hstart⟩
    rw [hcode, after]
    rcases after_blockComment rest with ⟨hnext, -⟩ | ⟨-, hnil⟩
    · exact hnext.symm
    · exact absurd (by simp [t, hnil, skipTrivia]) h
  | case4 line c rest _ _ hblank ih =>
    obtain ⟨hcode, hstart⟩ := ih h
    rw [Bool.and_eq_true] at hblank
    obtain ⟨hquote, hslash⟩ := isBlank_ne hblank.1
    exact ⟨by rw [hcode, after_code_cons hquote hslash], hstart⟩
  | case5 line c rest hline hblock _ => exact ⟨rfl, noComment_cons hline hblock⟩

/-- A line feed behind a text stays outside of what is passed over, unless it falls into a comment that
is not closed. -/
theorem skipTrivia_append (line : Nat) {text : List Char} (h : after code text ≠ blockComment)
    (more : List Char) :
    skipTrivia line (text ++ '\n' :: more) =
      ⟨(skipTrivia line text).comments, (skipTrivia line text).rest ++ '\n' :: more,
        (skipTrivia line text).line⟩ := by
  fun_induction skipTrivia line text with
  | case1 line => exact skipTrivia_of_ne_slash (.inr rfl) (by decide) line more
  | case2 line rest t ih =>
    have hdrop := dropWhile_append_cons (p := (· != '\n')) (c := '\n') rfl rest more
    have hrest : after code (rest.dropWhile (· != '\n')) ≠ blockComment := by
      rcases after_lineComment rest with hnext | ⟨-, hnil⟩
      · rw [← hnext]
        exact h
      · rw [hnil]
        decide
    rw [List.cons_append, List.cons_append, skipTrivia, hdrop, ih hrest]
  | case3 line rest t ih =>
    rcases after_blockComment rest with ⟨hnext, hmore⟩ | ⟨hopen, -⟩
    · rw [List.cons_append, List.cons_append, skipTrivia, hmore, ih]
      rw [← hnext]
      exact h
    · exact absurd hopen h
  | case4 line c rest hline hblock hblank ih =>
    have hc := hblank
    rw [Bool.and_eq_true] at hc
    obtain ⟨hquote, hslash⟩ := isBlank_ne hc.1
    rw [after_code_cons hquote hslash] at h
    rw [List.cons_append, skipTrivia, if_pos hblank, ih h]
    · exact fun _ hc _ => hslash hc
    · exact fun _ hc _ => hslash hc
  | case5 line c rest hline hblock hblank =>
    rw [List.cons_append, skipTrivia, if_neg hblank]
    · exact fun r hc => not_starts_append (by decide) (fun r => hline r hc) more r
    · exact fun r hc => not_starts_append (by decide) (fun r => hblock r hc) more r

end Mode

/-! ## Lexemes -/

namespace Lexeme

theorem word_append_newline (c : Char) (rest more : List Char) :
    word c (rest ++ '\n' :: more) = word c rest := by
  have hstop : continuesName '\n' = false := by decide
  rw [word, takeWhile_append_cons hstop, word]

theorem startsNumber_append_newline (c : Char) (rest more : List Char) :
    startsNumber c (rest ++ '\n' :: more) = startsNumber c rest := by
  cases rest with
  | nil => simp [startsNumber]
  | cons d rest => rfl

theorem number_append_newline (text more : List Char) :
    number (text ++ '\n' :: more) = number text := by
  have hstop : Char.isDigit '\n' = false := by decide
  unfold number
  rw [takeWhile_append_cons hstop, dropWhile_append_cons hstop]
  cases text.dropWhile Char.isDigit with
  | nil => rfl
  | cons c rest =>
    by_cases hc : c = '.'
    · subst hc
      simp only [List.cons_append, takeWhile_append_cons hstop]
    · rw [List.cons_append]
      split
      · rename_i heq
        exact absurd (List.cons.inj heq).1 hc
      · split
        · rename_i heq
          exact absurd (List.cons.inj heq).1 hc
        · rfl

theorem string?_append {rest : List Char} {x : Lexeme} (h : string? rest = some x)
    (more : List Char) : string? (rest ++ more) = some x := by
  obtain ⟨inside, behind, hinside, rfl, rfl⟩ := string?_eq_some_iff.mp h
  rw [List.append_assoc, List.cons_append]
  exact string?_eq_some_iff.mpr ⟨inside, behind ++ more, hinside, rfl, rfl⟩

theorem symbol_append_newline (c : Char) (rest more : List Char) :
    symbol c (rest ++ '\n' :: more) = symbol c rest := by
  unfold symbol
  cases rest <;> split <;> simp_all

/-- A lexeme is read in the same way when a line feed follows the text. -/
theorem read?_append_newline {c : Char} {rest : List Char} {x : Lexeme}
    (h : read? c rest = some x) (more : List Char) : read? c (rest ++ '\n' :: more) = some x := by
  unfold read? at h ⊢
  split at h
  · rename_i hc
    rwa [if_pos hc]
  rename_i hc
  rw [if_neg hc]
  split at h
  · rename_i hname
    rwa [if_pos hname, word_append_newline]
  rename_i hname
  rw [if_neg hname, startsNumber_append_newline]
  split at h
  · rename_i hnumber
    rwa [if_pos hnumber, ← List.cons_append, number_append_newline]
  rename_i hnumber
  rw [if_neg hnumber]
  split at h
  · rename_i hquote
    rw [if_pos hquote]
    exact string?_append h _
  · rename_i hquote
    rwa [if_neg hquote, symbol_append_newline]

theorem mem_number_text {text : List Char} {d : Char} (h : d ∈ (number text).text) :
    d.isDigit = true ∨ d = '.' := by
  have hdigit : ∀ l : List Char, d ∈ l.takeWhile Char.isDigit → d.isDigit = true :=
    fun l hd => List.all_eq_true.mp List.all_takeWhile d hd
  unfold number at h
  split at h
  · rcases List.mem_append.mp h with h | h
    · exact .inl (hdigit _ h)
    · rcases List.mem_cons.mp h with h | h
      · exact .inr h
      · exact .inl (hdigit _ h)
  · exact .inl (hdigit _ h)

theorem mem_symbol_text {c d : Char} {rest : List Char} (h : d ∈ (symbol c rest).text) :
    d = c ∨ d = '=' ∨ d = '>' := by
  unfold symbol at h
  split at h <;> simp only [sign, List.mem_cons, List.not_mem_nil, or_false] at h <;> grind

theorem exists_symbol_eq_sign (c : Char) (rest : List Char) :
    ∃ k text, k ∉ [Kind.string, .name, .number] ∧ symbol c rest = sign k text := by
  unfold symbol
  split <;> exact ⟨_, _, by decide, rfl⟩

theorem symbol_slash (rest : List Char) : (symbol '/' rest).text = ['/'] := by
  unfold symbol
  split <;> simp_all [sign]

/-- A lexeme is a text between quotes, or a slash, or has neither quotes nor slashes in it. -/
theorem text_cases {c : Char} {rest : List Char} {x : Lexeme} (h : read? c rest = some x) :
    (∀ d ∈ x.text, d ≠ '"' ∧ d ≠ '/') ∨
      (∃ inside, '"' ∉ inside ∧ x.text = '"' :: (inside ++ ['"'])) ∨ x.text = ['/'] := by
  cases form_of_read h with
  | endLine hc => exact .inl (List.forall_mem_singleton.mpr (by decide))
  | word hname =>
    refine .inl (List.forall_mem_cons.mpr ⟨Mode.ne_of_kind (by decide) (by decide) hname, fun d hd => ?_⟩)
    have hlater : continuesName d = true := List.all_eq_true.mp List.all_takeWhile d hd
    exact Mode.ne_of_kind (by decide) (by decide) hlater
  | number hnumber =>
    refine .inl fun d hd => ?_
    rcases mem_number_text hd with hd | rfl
    · exact Mode.ne_of_kind (by decide) (by decide) hd
    · decide
  | string hc hinside hrest => exact .inr (.inl ⟨_, hinside, rfl⟩)
  | symbol hbreak hquote =>
    by_cases hslash : c = '/'
    · subst hslash
      exact .inr (.inr (symbol_slash rest))
    · refine .inl fun d hd => ?_
      rcases mem_symbol_text hd with rfl | rfl | rfl
      · exact ⟨hquote, hslash⟩
      · decide
      · decide

/-- Behind a lexeme there is code again. -/
theorem after_read {c : Char} {rest : List Char} {x : Lexeme} (h : read? c rest = some x)
    (hstart : Mode.NoComment (c :: rest)) :
    ∃ behind, c :: rest = x.text ++ behind ∧ Mode.after .code behind = .after .code (c :: rest) := by
  obtain ⟨behind, htext, -⟩ := lexemeOf_read h
  refine ⟨behind, htext, ?_⟩
  rw [htext] at hstart ⊢
  symm
  rcases text_cases h with hplain | ⟨inside, hinside, hquoted⟩ | hslash
  · exact Mode.after_code_append hplain behind
  · rw [hquoted, List.cons_append, Mode.after, List.append_assoc]
    exact Mode.after_string_append hinside behind
  · rw [hslash] at hstart ⊢
    exact Mode.after_code_slash (hstart behind rfl)

end Lexeme

end Sigil
