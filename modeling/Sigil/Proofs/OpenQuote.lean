import Sigil.Proofs.TextModes
import Sigil.Proofs.TokenLines

/-!
# Quotes that are never closed

A scan fails in one way only, at a quote that is never closed. Which quote that is can be said without any
scanning: the automaton of modes ends in a quoted text just when the last quote of the text stands in code,
and then that quote is the one that is never closed.
-/

namespace Sigil

/-! ## The last quote of a text -/

/-- What occurs in a text has a last occurrence. -/
theorem exists_last_of_mem {a : Char} {text : List Char} (h : a ∈ text) :
    ∃ before rest, text = before ++ a :: rest ∧ a ∉ rest := by
  obtain ⟨xs, ys, hreverse, hnone⟩ := List.eq_append_cons_of_mem (List.mem_reverse.mpr h)
  refine ⟨ys.reverse, xs.reverse, ?_, by simpa using hnone⟩
  rw [← List.reverse_reverse text, hreverse]
  simp

/-- There is one last place only at which a character stands in a text. -/
theorem eq_of_last_eq {a : Char} {x x' y y' : List Char} (h : x ++ a :: y = x' ++ a :: y')
    (hy : a ∉ y) (hy' : a ∉ y') : x = x' ∧ y = y' := by
  rcases List.append_eq_append_iff.mp h with ⟨z, rfl, hz⟩ | ⟨z, rfl, hz⟩
  · cases z with
    | nil => exact ⟨(List.append_nil _).symm, (List.cons.inj hz).2⟩
    | cons b z =>
      obtain ⟨-, rfl⟩ := List.cons.inj hz
      simp at hy
  · cases z with
    | nil => exact ⟨List.append_nil _, (List.cons.inj hz).2.symm⟩
    | cons b z =>
      obtain ⟨-, rfl⟩ := List.cons.inj hz
      simp at hy'

namespace Mode

/-- The mode behind a quote. -/
def quote : Mode → Mode
  | code => string
  | string => code
  | lineComment => lineComment
  | blockComment => blockComment

/-- A quote is no part of what opens or ends a comment, so that a text can be split there. -/
theorem after_append_quote (m : Mode) (before rest : List Char) :
    after m (before ++ '"' :: rest) = after (after m before).quote rest := by
  fun_induction after m before with
  | case1 m => cases m <;> rfl
  | case2 text ih => exact ih
  | case3 text ih => exact ih
  | case4 text ih => exact ih
  | case5 c text hquote hline hblock ih =>
    rw [List.cons_append, after, ih]
    · exact hquote
    · exact fun r hc => not_starts_append (by decide) (fun r => hline r hc) rest r
    · exact fun r hc => not_starts_append (by decide) (fun r => hblock r hc) rest r
  | case6 text ih => exact ih
  | case7 c text hquote ih =>
    rw [List.cons_append, after, ih]
    exact hquote
  | case8 text ih => exact ih
  | case9 c text hbreak ih =>
    rw [List.cons_append, after, ih]
    exact hbreak
  | case10 text ih => exact ih
  | case11 c text hclose ih =>
    rw [List.cons_append, after, ih]
    exact fun r hc => not_starts_append (by decide) (fun r => hclose r hc) rest r

/-- Without quotes no quoted text is opened, and none is closed. -/
theorem after_eq_string_iff_of_not_mem {m : Mode} {text : List Char} (h : '"' ∉ text) :
    after m text = string ↔ m = string := by
  fun_induction after m text with
  | case1 => rfl
  | case2 text ih => simp at h
  | case6 text ih => simp at h
  | case7 c text hquote ih => exact ih fun hmem => h (List.mem_cons_of_mem c hmem)
  | _ => simp_all

/-- A text ends in a quoted text just when its last quote stands in code. -/
theorem after_code_eq_string_iff {text : List Char} :
    after code text = string ↔
      ∃ before rest, text = before ++ '"' :: rest ∧ after code before = code ∧ '"' ∉ rest := by
  constructor
  · intro h
    by_cases hmem : '"' ∈ text
    · obtain ⟨before, rest, rfl, hnone⟩ := exists_last_of_mem hmem
      rw [after_append_quote, after_eq_string_iff_of_not_mem hnone] at h
      refine ⟨before, rest, rfl, ?_, hnone⟩
      cases hmode : after code before with
      | code => rfl
      | _ =>
        rw [hmode] at h
        cases h
    · cases (after_eq_string_iff_of_not_mem hmem).mp h
  · rintro ⟨before, rest, rfl, hcode, hnone⟩
    rw [after_append_quote, hcode]
    exact (after_eq_string_iff_of_not_mem hnone).mpr rfl

/-- Where nothing but blanks and comments is left, there is no quoted text. -/
theorem after_ne_string_of_skipTrivia {line : Nat} {text : List Char}
    (h : (skipTrivia line text).rest = []) : after code text ≠ string := by
  fun_induction skipTrivia line text with
  | case1 => decide
  | case2 line rest t ih =>
    rw [after]
    rcases after_lineComment rest with hnext | ⟨hnext, -⟩
    · rw [hnext]
      exact ih h
    · rw [hnext]
      decide
  | case3 line rest t ih =>
    rw [after]
    rcases after_blockComment rest with ⟨hnext, -⟩ | ⟨hnext, -⟩
    · rw [hnext]
      exact ih h
    · rw [hnext]
      decide
  | case4 line c rest _ _ hblank ih =>
    rw [Bool.and_eq_true] at hblank
    obtain ⟨hquote, hslash⟩ := isBlank_ne hblank.1
    rw [after_code_cons hquote hslash]
    exact ih h
  | case5 => cases h

end Mode

/-- Only a quote that is never closed starts no lexeme. -/
theorem Lexeme.unclosed_of_read {c : Char} {rest : List Char} (h : read? c rest = none) :
    c = '"' ∧ '"' ∉ rest := by
  unfold read? at h
  split at h
  · cases h
  split at h
  · cases h
  split at h
  · cases h
  split at h
  · rename_i hc
    refine ⟨hc, fun hmem => ?_⟩
    obtain ⟨inside, behind, hrest, hinside⟩ := List.eq_append_cons_of_mem hmem
    rw [string?_eq_some_iff.mpr ⟨inside, behind, hinside, hrest, rfl⟩] at h
    cases h
  · cases h

/-! ## Scans -/

/-- A scan goes on behind what it has taken, in code if it was in code before. -/
theorem Scanner.exists_taken {s : Scanner} {c : Char} {rest : List Char} {x : Lexeme}
    (htext : (skipTrivia s.line s.rest).rest = c :: rest) (hread : Lexeme.read? c rest = some x) :
    ∃ taken, s.rest = taken ++ s.step.next.rest ∧ s.step.next.line = s.line + taken.count '\n' ∧
      s.step.next.file = s.file ∧ Mode.after .code s.step.next.rest = .after .code s.rest := by
  obtain ⟨gap, hgap, -, hline⟩ := s.exists_gap
  have hne : (skipTrivia s.line s.rest).rest ≠ [] := by simp [htext]
  obtain ⟨hcode, hstart⟩ := Mode.after_skipTrivia hne
  rw [htext] at hgap hcode hstart
  obtain ⟨behind, hsplit, hbehind⟩ := Lexeme.after_read hread hstart
  rw [next_of_lexeme htext hread hsplit]
  refine ⟨gap ++ x.text, ?_, ?_, rfl, hbehind.trans hcode⟩
  · rw [hgap, hsplit, List.append_assoc]
  · rw [hline, List.count_append, Nat.add_assoc]

/-- A scan succeeds, and its text does not end in a quoted text; or it fails on the line of the last quote,
and its text ends in the quoted text that is opened there. -/
theorem Scanner.scan_cases (s : Scanner) :
    (∃ tokens, s.scan.result = .ok tokens ∧ Mode.after .code s.rest ≠ .string) ∨
    ∃ before rest, s.rest = before ++ '"' :: rest ∧ '"' ∉ rest ∧
      Mode.after .code s.rest = .string ∧
      s.scan.result = .error ⟨.unterminatedString, ⟨s.line + before.count '\n', s.file⟩⟩ := by
  induction s using scanInduction with
  | ended s htext => exact .inl ⟨_, scan_of_end htext, Mode.after_ne_string_of_skipTrivia htext⟩
  | unclosed s c rest htext hread =>
    right
    obtain ⟨gap, hgap, -, hline⟩ := s.exists_gap
    have hne : (skipTrivia s.line s.rest).rest ≠ [] := by simp [htext]
    obtain ⟨hcode, -⟩ := Mode.after_skipTrivia hne
    obtain ⟨rfl, hnone⟩ := Lexeme.unclosed_of_read hread
    rw [htext] at hgap hcode
    refine ⟨gap, rest, hgap, hnone, ?_, ?_⟩
    · rw [← hcode]
      exact (Mode.after_eq_string_iff_of_not_mem hnone).mpr rfl
    · rw [scan_of_unclosed htext hread, hline]
  | lexeme s c rest x htext hread ih =>
    obtain ⟨taken, htaken, hline, hfile, hmode⟩ := exists_taken htext hread
    have hscan := scan_of_lexeme htext hread
    rcases ih with ⟨tokens, hok, hother⟩ | ⟨before, rest', hrest, hnone, hstring, herror⟩
    · left
      refine ⟨x.token s.file (skipTrivia s.line s.rest).line :: tokens, ?_, hmode ▸ hother⟩
      rw [hscan, hok]
      rfl
    · right
      refine ⟨taken ++ before, rest', ?_, hnone, hmode ▸ hstring, ?_⟩
      · rw [htaken, hrest, List.append_assoc]
      · rw [hscan, herror, hline, hfile, List.count_append, Nat.add_assoc]
        rfl

/-- A scan fails exactly at a quote that opens a quoted text and is the last one. -/
theorem Scanner.scan_eq_error_iff (s : Scanner) (d : Diagnostic) :
    s.scan.result = .error d ↔ ∃ before rest, s.rest = before ++ '"' :: rest ∧
      Mode.after .code before = .code ∧ '"' ∉ rest ∧
      d = ⟨.unterminatedString, ⟨s.line + before.count '\n', s.file⟩⟩ := by
  rcases s.scan_cases with ⟨tokens, hok, hmode⟩ | ⟨before, rest, hrest, hnone, hmode, herror⟩
  · rw [hok]
    constructor
    · intro h
      cases h
    · rintro ⟨before, rest, hrest, hcode, hnone, -⟩
      exact absurd (Mode.after_code_eq_string_iff.mpr ⟨before, rest, hrest, hcode, hnone⟩) hmode
  · rw [herror, Except.error.injEq]
    constructor
    · rintro rfl
      obtain ⟨before', rest', hrest', hcode, hnone'⟩ := Mode.after_code_eq_string_iff.mp hmode
      obtain ⟨rfl, rfl⟩ := eq_of_last_eq (hrest.symm.trans hrest') hnone hnone'
      exact ⟨before, rest, hrest, hcode, hnone, rfl⟩
    · rintro ⟨before', rest', hrest', -, hnone', rfl⟩
      obtain ⟨rfl, rfl⟩ := eq_of_last_eq (hrest.symm.trans hrest') hnone hnone'
      rfl

/-! ## Sources -/

/-- A source may be split before any character but a line feed without tearing a line break apart. -/
theorem foldBreaks_append_cons {c : Char} (hc : c ≠ '\n') (above below : List Char) :
    foldBreaks (above ++ c :: below) = foldBreaks above ++ foldBreaks (c :: below) := by
  fun_induction foldBreaks above with
  | case1 => rfl
  | case2 text ih => rw [List.cons_append, List.cons_append, foldBreaks, ih]; rfl
  | case3 text hnext ih =>
    rw [List.cons_append, foldBreaks, ih]
    · rfl
    · exact fun r => Mode.not_starts_append hc.symm hnext below r
  | case4 d text hpair hreturn ih =>
    rw [List.cons_append, foldBreaks, ih]
    · rfl
    · exact fun rest hd _ => hreturn hd
    · exact hreturn

/-- Folding neither makes nor loses quotes. -/
theorem quote_mem_foldBreaks {text : List Char} : '"' ∈ foldBreaks text ↔ '"' ∈ text := by
  fun_induction foldBreaks text with
  | case1 => rfl
  | _ => simp [*]

theorem foldBreaks_eq_quote_iff {text rest : List Char} :
    foldBreaks text = '"' :: rest ↔ ∃ more, text = '"' :: more ∧ foldBreaks more = rest := by
  fun_cases foldBreaks text with
  | case1 => simp
  | case2 text => simp
  | case3 text hnext => simp
  | case4 c text hpair hreturn => simp [and_assoc]

/-- The last quote of a source is the last quote of the folded text. -/
theorem foldBreaks_eq_append_quote_iff {source a : List Char} :
    (∃ b, foldBreaks source = a ++ '"' :: b ∧ '"' ∉ b) ↔
      ∃ before rest, source = before ++ '"' :: rest ∧ '"' ∉ rest ∧ foldBreaks before = a := by
  constructor
  · rintro ⟨b, hfold, hnone⟩
    obtain ⟨before, text, rfl, rfl, htext⟩ := exists_of_foldBreaks_eq_append hfold
    obtain ⟨rest, rfl, rfl⟩ := foldBreaks_eq_quote_iff.mp htext
    exact ⟨before, rest, rfl, mt quote_mem_foldBreaks.mpr hnone, rfl⟩
  · rintro ⟨before, rest, rfl, hnone, rfl⟩
    refine ⟨foldBreaks rest, ?_, mt quote_mem_foldBreaks.mp hnone⟩
    rw [foldBreaks_append_cons (by decide), foldBreaks_eq_quote_iff.mpr ⟨rest, rfl, rfl⟩]

/-- A script is split into tokens unless its source ends in a quoted text. Then it fails, and it fails in no
other way: the diagnostic names the line of the quote that opens this text, which is the quote that stands
in code and has no other behind it. -/
theorem tokenize_fails_at_open_quote (file source : String) :
    ((∃ d, (tokenize file source).result = .error d) ↔ endMode source = .string) ∧
    ∀ d, (tokenize file source).result = .error d ↔
      ∃ before rest, source.toList = before ++ '"' :: rest ∧
        endMode (String.ofList before) = .code ∧ '"' ∉ rest ∧
        d = ⟨.unterminatedString, ⟨1 + lineBreaks before, file⟩⟩ := by
  have hmode : ∀ before : List Char,
      endMode (String.ofList before) = Mode.after .code (foldBreaks before) := by
    intro before
    rw [endMode, String.toList_ofList]
  rw [tokenize_eq_scan]
  constructor
  · rcases Scanner.scan_cases (.ofSource file source) with
      ⟨tokens, hok, hother⟩ | ⟨before, rest, -, -, hstring, herror⟩
    · refine iff_of_false ?_ hother
      rintro ⟨d, hd⟩
      cases hok.symm.trans hd
    · exact iff_of_true ⟨_, herror⟩ hstring
  · intro d
    refine (Scanner.scan_eq_error_iff _ d).trans ⟨?_, ?_⟩
    · rintro ⟨a, b, hfold, hcode, hnone, rfl⟩
      obtain ⟨before, rest, hsource, hrest, rfl⟩ :=
        foldBreaks_eq_append_quote_iff.mp ⟨b, hfold, hnone⟩
      rw [count_foldBreaks]
      exact ⟨before, rest, hsource, (hmode before).trans hcode, hrest, rfl⟩
    · rintro ⟨before, rest, hsource, hcode, hrest, rfl⟩
      obtain ⟨b, hfold, hnone⟩ :=
        foldBreaks_eq_append_quote_iff.mpr ⟨before, rest, hsource, hrest, rfl⟩
      rw [← count_foldBreaks]
      exact ⟨foldBreaks before, b, hfold, (hmode before).symm.trans hcode, hnone, rfl⟩

/-- A comment that `/*/` leaves open, a quoted text with slashes in it, and a quote in a comment of one line:
only the quote on the second line is never closed. -/
example : endMode "/*/ \" */ \"//\" // \"\r\"" = .string := by decide

end Sigil
