import Sigil.Proofs.LineCount
import Sigil.Proofs.OpenQuote

/-!
# Lines of comments

The scanner notes the line of every comment that it passes over. These are the lines on which comments are
opened in the text, and `Mode.openings` tells them without any scanning: it goes over the text from left to
right, counts line feeds and knows what each place is part of. Nothing is opened inside of a quoted text, so
where a quote is never closed only the comments before it are listed.
-/

namespace Sigil

namespace Mode

/-- The lines on which comments are opened in a text, in order. The text starts in the given mode, on the
given line. -/
@[simp]
def openings : Mode → Nat → List Char → List Nat
  | _, _, [] => []
  | code, line, '"' :: text => openings string line text
  | code, line, '/' :: '/' :: text => line :: openings lineComment line text
  | code, line, '/' :: '*' :: text => line :: openings blockComment line text
  | code, line, c :: text => openings code (lineBehind line c) text
  | string, line, '"' :: text => openings code line text
  | string, line, c :: text => openings string (lineBehind line c) text
  | lineComment, line, '\n' :: text => openings code (line + 1) text
  | lineComment, line, _ :: text => openings lineComment line text
  | blockComment, line, '*' :: '/' :: text => openings code line text
  | blockComment, line, c :: text => openings blockComment (lineBehind line c) text

end Mode

/-- The lines of a source on which its comments start, in order. -/
def commentLines (source : String) : List Nat := Mode.openings .code 1 (foldBreaks source.toList)

namespace Mode

/-! ## Code -/

/-- Code goes on behind a character that opens nothing. -/
theorem openings_code_cons {c : Char} (hquote : c ≠ '"') (hslash : c ≠ '/') (line : Nat)
    (text : List Char) : openings code line (c :: text) = openings code (lineBehind line c) text := by
  rw [openings]
  · exact fun h => hquote h
  · exact fun _ h => absurd h hslash
  · exact fun _ h => absurd h hslash

theorem openings_code_slash {text : List Char} (h : ∀ d ∈ text.head?, d ≠ '/' ∧ d ≠ '*') (line : Nat) :
    openings code line ('/' :: text) = openings code line text := by
  rw [openings, lineBehind, if_neg (by decide)]
  · simp
  · rintro rest - rfl
    exact (h '/' rfl).1 rfl
  · rintro rest - rfl
    exact (h '*' rfl).2 rfl

theorem openings_code_append {word : List Char} (h : ∀ d ∈ word, d ≠ '"' ∧ d ≠ '/') (line : Nat)
    (text : List Char) :
    openings code line (word ++ text) = openings code (line + word.count '\n') text := by
  induction word generalizing line with
  | nil => rfl
  | cons c word ih =>
    obtain ⟨⟨hquote, hslash⟩, hword⟩ := List.forall_mem_cons.mp h
    rw [List.cons_append, openings_code_cons hquote hslash, ih hword, lineBehind_add_count]

/-! ## Quoted texts and comments -/

theorem openings_string_cons {c : Char} (hc : c ≠ '"') (line : Nat) (text : List Char) :
    openings string line (c :: text) = openings string (lineBehind line c) text := by
  rw [openings]
  exact fun h => hc h

/-- Nothing is opened inside of a quoted text. -/
theorem openings_string_append {inside : List Char} (h : '"' ∉ inside) (line : Nat)
    (text : List Char) :
    openings string line (inside ++ '"' :: text) =
      openings code (line + inside.count '\n') text := by
  induction inside generalizing line with
  | nil => rfl
  | cons c inside ih =>
    rw [List.mem_cons, not_or] at h
    rw [List.cons_append, openings_string_cons (Ne.symm h.1), ih h.2, lineBehind_add_count]

/-- Nothing is opened behind a quote that is never closed. -/
theorem openings_string_of_not_mem {text : List Char} (h : '"' ∉ text) (line : Nat) :
    openings string line text = [] := by
  induction text generalizing line with
  | nil => rfl
  | cons c text ih =>
    rw [List.mem_cons, not_or] at h
    rw [openings_string_cons (Ne.symm h.1), ih h.2]

/-- Nothing is opened in a comment of one line. -/
theorem openings_lineComment (line : Nat) (text : List Char) :
    openings lineComment line text = openings code line (text.dropWhile (· != '\n')) := by
  induction text with
  | nil => rfl
  | cons c text ih =>
    by_cases hc : c = '\n'
    · subst hc
      rfl
    · rw [openings, ih, List.dropWhile_cons_of_pos (by simpa using hc)]
      exact fun h => hc h

/-- Nothing is opened up to the first closing of a comment. -/
theorem openings_blockComment (line : Nat) (text : List Char) :
    openings blockComment line text =
      openings code (line + (Sigil.blockComment text).1.count '\n') (Sigil.blockComment text).2 := by
  fun_induction Sigil.blockComment text generalizing line with
  | case1 => rfl
  | case2 rest => rfl
  | case3 c rest hopen ih =>
    rw [openings, ih, lineBehind_add_count]
    exact hopen

/-! ## The walk over a script -/

/-- What is opened before a token are the comments that are passed over there. -/
theorem openings_skipTrivia (line : Nat) (text : List Char) :
    openings code line text = (skipTrivia line text).comments ++
      openings code (skipTrivia line text).line (skipTrivia line text).rest := by
  fun_induction skipTrivia line text with
  | case1 => rfl
  | case2 line rest t ih => rw [openings, openings_lineComment, ih, List.cons_append]
  | case3 line rest t ih => rw [openings, openings_blockComment, ih, List.cons_append]
  | case4 line c rest _ _ hblank ih =>
    rw [Bool.and_eq_true, bne_iff_ne] at hblank
    obtain ⟨hquote, hslash⟩ := isBlank_ne hblank.1
    rw [openings_code_cons hquote hslash, lineBehind, if_neg hblank.2, ih]
  | case5 => rfl

end Mode

/-- Nothing is opened in a lexeme. -/
theorem Lexeme.openings_read {c : Char} {rest behind : List Char} {x : Lexeme}
    (h : read? c rest = some x) (hstart : Mode.NoComment (c :: rest))
    (htext : c :: rest = x.text ++ behind) (line : Nat) :
    Mode.openings .code line (c :: rest) =
      Mode.openings .code (line + x.text.count '\n') behind := by
  rw [htext] at hstart ⊢
  rcases text_cases h with hplain | ⟨inside, hinside, hquoted⟩ | hslash
  · exact Mode.openings_code_append hplain line behind
  · have hcount : ('"' :: (inside ++ ['"'])).count '\n' = inside.count '\n' := by simp
    rw [hquoted, hcount, List.cons_append, Mode.openings, List.append_assoc]
    exact Mode.openings_string_append hinside line behind
  · rw [hslash] at hstart ⊢
    exact Mode.openings_code_slash (hstart behind rfl) line

/-- The scanner notes the lines of all comments that are opened in its text. -/
theorem Scanner.comments_scan (s : Scanner) : s.scan.comments = Mode.openings .code s.line s.rest := by
  induction s using scanInduction with
  | ended s htext =>
    rw [Mode.openings_skipTrivia, scan_eq, step_of_end htext, htext]
    exact (List.append_nil _).symm
  | unclosed s c rest htext hread =>
    -- The scan ends here. All that follows is in the quoted text, so nothing more is opened.
    obtain ⟨rfl, hopen⟩ := Lexeme.unclosed_of_read hread
    rw [Mode.openings_skipTrivia, htext, Mode.openings, Mode.openings_string_of_not_mem hopen,
      List.append_nil, scan_eq, step_of_unclosed htext hread]
  | lexeme s c rest x htext hread ih =>
    have hne : (skipTrivia s.line s.rest).rest ≠ [] := by simp [htext]
    obtain ⟨-, hstart⟩ := Mode.after_skipTrivia hne
    rw [htext] at hstart
    obtain ⟨behind, hbehind, -⟩ := lexemeOf_read hread
    rw [next_of_lexeme htext hread hbehind] at ih
    rw [Mode.openings_skipTrivia, htext, Lexeme.openings_read hread hstart hbehind, ← ih, scan_eq,
      step_of_lexeme htext hread, hbehind, List.drop_left]
    simp only [Lexeme.token, Lexeme.kind_ne_endOfInput hread, if_false]

/-- The lines of comments that are noted are those on which comments are opened. -/
theorem comments_tokenize (file source : String) :
    (tokenize file source).comments = commentLines source := by
  rw [tokenize_eq_scan]
  exact Scanner.comments_scan (.ofSource file source)

example : commentLines "a /// b /* c\r\n/* d\n// e */ /**/ f\n\"// g\" / /* \" h" = [1, 2, 3, 4] := by
  decide +kernel

end Sigil
