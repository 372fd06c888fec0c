import Sigil.Program.Script
import Sigil.Proofs.Segments

/-!
# Lines of a script

A line of a script ends with a carriage return, a line feed, or one of each in this order. After line
breaks have been folded these are the line feeds, and the scanner keeps count of them: the line that
it is on and the line feeds that it has still to read always add up to the last line of the script.

So every token starts on a line of the script, and the end of the script is on the last one.
-/

namespace Sigil

/-- The number of line breaks in a text. -/
def lineBreaks : List Char → Nat
  | [] => 0
  | '\r' :: '\n' :: text => lineBreaks text + 1
  | '\r' :: text => lineBreaks text + 1
  | '\n' :: text => lineBreaks text + 1
  | _ :: text => lineBreaks text

/-- Folding keeps the number of line breaks. -/
theorem count_foldBreaks (text : List Char) : (foldBreaks text).count '\n' = lineBreaks text := by
  fun_induction lineBreaks text with
  | case1 => rfl
  | case2 text ih => rw [foldBreaks, List.count_cons_self, ih]
  | case3 text hnext ih => rw [foldBreaks, List.count_cons_self, ih]; exact hnext
  | case4 text ih => rw [foldBreaks, List.count_cons_self, ih] <;> simp
  | case5 c text hpair hreturn hfeed ih =>
    have hc : c ≠ '\n' := fun h => hfeed h
    rw [foldBreaks, List.count_cons_of_ne hc, ih]
    · exact hpair
    · exact hreturn

/-- Folding makes no text longer. -/
theorem length_foldBreaks_le (text : List Char) : (foldBreaks text).length ≤ text.length := by
  fun_induction foldBreaks text with
  | case1 => simp
  | case2 text ih => simp only [List.length_cons]; omega
  | case3 text _ ih => simp only [List.length_cons]; omega
  | case4 c text _ _ ih => simp only [List.length_cons]; omega

/-- The parts of a folded text are folded from parts of the text. No line break of two characters is torn
apart. -/
theorem exists_of_foldBreaks_eq_append {text a b : List Char} (h : foldBreaks text = a ++ b) :
    ∃ x y, text = x ++ y ∧ foldBreaks x = a ∧ foldBreaks y = b := by
  cases a with
  | nil => exact ⟨[], text, rfl, rfl, h⟩
  | cons d a =>
    fun_cases foldBreaks text with
    | case1 => cases h
    | case2 text =>
      rw [foldBreaks, List.cons_append, List.cons.injEq] at h
      obtain ⟨x, y, rfl, rfl, rfl⟩ := exists_of_foldBreaks_eq_append h.2
      exact ⟨'\r' :: '\n' :: x, y, rfl, by rw [foldBreaks, h.1], rfl⟩
    | case3 text hnext =>
      rw [foldBreaks, List.cons_append, List.cons.injEq] at h
      · obtain ⟨x, y, rfl, rfl, rfl⟩ := exists_of_foldBreaks_eq_append h.2
        refine ⟨'\r' :: x, y, rfl, ?_, rfl⟩
        rw [foldBreaks, h.1]
        rintro rest rfl
        exact hnext (rest ++ y) rfl
      · exact hnext
    | case4 c text hpair hreturn =>
      rw [foldBreaks, List.cons_append, List.cons.injEq] at h
      · obtain ⟨x, y, rfl, rfl, rfl⟩ := exists_of_foldBreaks_eq_append h.2
        refine ⟨c :: x, y, rfl, ?_, rfl⟩
        rw [foldBreaks, h.1]
        · exact fun rest hc _ => hreturn hc
        · exact hreturn
      · exact hpair
      · exact hreturn
termination_by text.length

/-! ## Passing over blanks and comments -/

theorem count_dropWhile_ne (text : List Char) :
    (text.dropWhile (· != '\n')).count '\n' = text.count '\n' := by
  induction text with
  | nil => rfl
  | cons c text ih =>
    by_cases hc : c = '\n'
    · simp [hc]
    · rw [List.dropWhile_cons_of_pos (by simpa using hc), ih, List.count_cons_of_ne hc]

theorem count_blockComment (text : List Char) :
    (blockComment text).1.count '\n' + (blockComment text).2.count '\n' = text.count '\n' := by
  rw [← List.count_append, blockComment_append]

/-- What is passed over is counted: no line is lost before a token. -/
theorem skipTrivia_line (line : Nat) (text : List Char) :
    line ≤ (skipTrivia line text).line ∧
      (skipTrivia line text).line + (skipTrivia line text).rest.count '\n' =
        line + text.count '\n' := by
  fun_induction skipTrivia line text with
  | case1 line => simp
  | case2 line rest t ih =>
    rw [count_dropWhile_ne] at ih
    simpa [List.count_cons] using ih
  | case3 line rest t ih =>
    have hcount := count_blockComment rest
    have hopening : ('/' :: '*' :: rest).count '\n' = rest.count '\n' := by simp
    rw [hopening]
    simp only [t]
    omega
  | case4 line c rest _ _ h ih =>
    have hc : c ≠ '\n' := by
      rintro rfl
      simp at h
    rwa [List.count_cons_of_ne hc]
  | case5 => simp

/-! ## The walk over a script -/

namespace Scanner

variable {s : Scanner}

/-- The line on which the text ends. -/
def lastLine (s : Scanner) : Nat := s.line + s.rest.count '\n'

/-- The position is on one of the lines that the scanner has still to read. -/
def Ahead (s : Scanner) (p : Position) : Prop :=
  p.file = s.file ∧ s.line ≤ p.line ∧ p.line ≤ s.lastLine

theorem ahead_line_skipTrivia (s : Scanner) : s.Ahead ⟨(skipTrivia s.line s.rest).line, s.file⟩ := by
  obtain ⟨hle, hcount⟩ := skipTrivia_line s.line s.rest
  refine ⟨rfl, hle, ?_⟩
  show (skipTrivia s.line s.rest).line ≤ s.line + s.rest.count '\n'
  omega

/-- What lies ahead of a later place lies ahead of an earlier one. -/
theorem Ahead.of_later {next : Scanner} {p : Position} (h : next.Ahead p)
    (hfile : next.file = s.file) (hline : s.line ≤ next.line) (hlast : next.lastLine = s.lastLine) :
    s.Ahead p := by
  obtain ⟨hp, hfirst, hstop⟩ := h
  exact ⟨hp.trans hfile, Nat.le_trans hline hfirst, hlast ▸ hstop⟩

end Scanner

/-- Behind a lexeme those line feeds are left that it does not have itself. -/
theorem Scanner.later_of_lexeme {s : Scanner} {c : Char} {rest : List Char} {x : Lexeme}
    (htext : (skipTrivia s.line s.rest).rest = c :: rest) (hread : Lexeme.read? c rest = some x) :
    s.step.next.file = s.file ∧ s.line ≤ s.step.next.line ∧ s.step.next.lastLine = s.lastLine := by
  obtain ⟨hle, hcount⟩ := skipTrivia_line s.line s.rest
  obtain ⟨after, hafter, -⟩ := lexemeOf_read hread
  rw [htext, hafter, List.count_append] at hcount
  rw [next_of_lexeme htext hread hafter]
  refine ⟨rfl, Nat.le_add_right_of_le hle, ?_⟩
  simp only [Scanner.lastLine]
  omega

/-- At the end of the text the scanner is on its last line. -/
theorem Scanner.line_skipTrivia_of_end {s : Scanner} (h : (skipTrivia s.line s.rest).rest = []) :
    (skipTrivia s.line s.rest).line = s.lastLine := by
  have hcount := (skipTrivia_line s.line s.rest).2
  rw [h] at hcount
  exact hcount

/-- The tokens start on lines that were still to be read, and the end of the script is on the last of
them; or else a quote on such a line is never closed. -/
theorem Scanner.ahead_of_scan (s : Scanner) :
    match s.scan.result with
    | .ok tokens => (∀ t ∈ tokens, s.Ahead t.span.start) ∧
        tokens.getLast? = some (.endOfInput s.file s.lastLine)
    | .error d => d.cause = .unterminatedString ∧ s.Ahead d.position := by
  induction s using scanInduction with
  | ended s htext =>
    have hahead := s.ahead_line_skipTrivia
    rw [scan_of_end htext]
    rw [line_skipTrivia_of_end htext] at hahead ⊢
    simpa [Token.endOfInput, Span.lines] using hahead
  | unclosed s c rest htext hread =>
    rw [scan_of_unclosed htext hread]
    exact ⟨rfl, s.ahead_line_skipTrivia⟩
  | lexeme s c rest x htext hread ih =>
    obtain ⟨hfile, hline, hlast⟩ := later_of_lexeme htext hread
    rw [scan_of_lexeme htext hread]
    cases hresult : s.step.next.scan.result with
    | error d =>
      rw [hresult] at ih
      exact ⟨ih.1, ih.2.of_later hfile hline hlast⟩
    | ok tokens =>
      rw [hresult] at ih
      obtain ⟨htokens, hend⟩ := ih
      refine ⟨List.forall_mem_cons.mpr ⟨s.ahead_line_skipTrivia, fun t ht => ?_⟩, ?_⟩
      · exact (htokens t ht).of_later hfile hline hlast
      · rw [List.getLast?_cons, hend, hfile, hlast]
        rfl

/-! ## Whole scripts -/

/-- The position is on a line of the script. -/
def Script.Holds (s : Script) (p : Position) : Prop :=
  p.file = s.name ∧ 1 ≤ p.line ∧ p.line ≤ 1 + lineBreaks s.source.toList

/-- The tokens of a script start on its lines, and its end is on the last of them; or else a quote on
one of its lines is never closed. -/
theorem Script.holds_tokens (s : Script) :
    match (tokenize s.name s.source).result with
    | .ok tokens => (∀ t ∈ tokens, s.Holds t.span.start) ∧
        tokens.getLast? = some (.endOfInput s.name (1 + lineBreaks s.source.toList))
    | .error d => d.cause = .unterminatedString ∧ s.Holds d.position := by
  have h := Scanner.ahead_of_scan (.ofSource s.name s.source)
  rw [tokenize_eq_scan]
  simp only [Scanner.Ahead, Scanner.lastLine, Scanner.ofSource, count_foldBreaks] at h
  exact h

end Sigil
