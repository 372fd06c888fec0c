import Sigil.Proofs.Lists
import Sigil.Token.Scanner

/-!
# The steps of a scan

A scan passes over blanks and comments and looks at what comes then: at the end of the text it gives the
end of the script, and before a lexeme it gives the token of that lexeme and goes on behind it.
-/

namespace Sigil

/-! ## Blanks and comments -/

theorem blockComment_append (text : List Char) :
    (blockComment text).1 ++ (blockComment text).2 = text := by
  fun_induction blockComment text with
  | case1 => rfl
  | case2 rest => rfl
  | case3 c rest _ ih => rw [List.cons_append, ih]

/-- A run of blanks is passed over as a whole. -/
theorem skipTrivia_dropWhile (line : Nat) (text : List Char) :
    skipTrivia line text = skipTrivia line (text.dropWhile isFiller) := by
  induction text with
  | nil => rfl
  | cons c text ih =>
    by_cases hc : isFiller c = true
    · have hslash : c ≠ '/' := by
        rintro rfl
        revert hc
        decide
      have hskip : skipTrivia line (c :: text) = skipTrivia line text := by
        rw [skipTrivia]
        · exact if_pos hc
        · intro rest h _
          exact hslash h
        · intro rest h _
          exact hslash h
      rw [hskip, ih, List.dropWhile_cons_of_pos hc]
    · rw [List.dropWhile_cons_of_neg hc]

/-- Nothing is passed over before a character that is not blank, unless it opens a comment. -/
theorem skipTrivia_of_start {c : Char} {text : List Char} (hc : isFiller c = false)
    (hline : ∀ rest, c = '/' → text = '/' :: rest → False)
    (hblock : ∀ rest, c = '/' → text = '*' :: rest → False) (line : Nat) :
    skipTrivia line (c :: text) = ⟨[], c :: text, line⟩ := by
  rw [skipTrivia]
  · exact if_neg (by rw [← isFiller, hc]; simp)
  · exact hline
  · exact hblock

/-! ## Forms of lexemes -/

/-- Words are neither numbers nor quoted texts, nor do they end a script. -/
theorem reserved?_getD_ne {k : Kind} (hk : k ∈ [.endOfInput, .number, .string]) (w : String) :
    (reserved? w).getD .name ≠ k := by
  rintro rfl
  unfold reserved? at hk
  split at hk <;> simp at hk

namespace Lexeme

/-- What a lexeme at the start of the text `c :: rest` can be. -/
inductive Form (c : Char) (rest : List Char) : Lexeme → Prop where
  /-- The end of a line. -/
  | endLine (hc : c = '\n') : Form c rest endLine
  /-- A name or a reserved word. -/
  | word (hc : startsName c = true) : Form c rest (word c rest)
  /-- A number. -/
  | number (hc : startsNumber c rest = true) : Form c rest (number (c :: rest))
  /-- A text between quotes. -/
  | string {inside behind : List Char} (hc : c = '"') (hinside : '"' ∉ inside)
      (hrest : rest = inside ++ '"' :: behind) :
      Form c rest ⟨.string, String.ofList inside, '"' :: (inside ++ ['"'])⟩
  /-- A sign. -/
  | symbol (hbreak : c ≠ '\n') (hquote : c ≠ '"') : Form c rest (symbol c rest)

/-- A text is quoted if it is closed, and then up to the first quote. -/
theorem string?_eq_some_iff {rest : List Char} {x : Lexeme} :
    string? rest = some x ↔ ∃ inside behind, '"' ∉ inside ∧ rest = inside ++ '"' :: behind ∧
      x = ⟨.string, String.ofList inside, '"' :: (inside ++ ['"'])⟩ := by
  constructor
  · intro h
    have hsplit := (List.takeWhile_append_dropWhile (p := (· != '"')) (l := rest)).symm
    unfold string? at h
    split at h
    · cases h
    · rename_i q behind hclosing
      have hq : (q != '"') = false := head?_dropWhile_eq_false _ rest q (by rw [hclosing]; rfl)
      rw [bne_eq_false_iff_eq] at hq
      refine ⟨_, behind, fun hmem => ?_, by rwa [hclosing, hq] at hsplit, (Option.some.inj h).symm⟩
      exact absurd (List.all_eq_true.mp List.all_takeWhile _ hmem) (by decide)
  · rintro ⟨inside, behind, hinside, rfl, rfl⟩
    have hplain := bne_of_not_mem hinside
    have hquote : ('"' != '"') = false := rfl
    rw [string?, takeWhile_append_stop hplain hquote, dropWhile_append_stop hplain hquote]

/-- What is read has one of the forms of lexemes. -/
theorem form_of_read {c : Char} {rest : List Char} {x : Lexeme} (h : read? c rest = some x) :
    Form c rest x := by
  unfold read? at h
  split at h
  · rename_i hc
    exact Option.some.inj h ▸ .endLine hc
  rename_i hbreak
  split at h
  · rename_i hc
    exact Option.some.inj h ▸ .word hc
  split at h
  · rename_i hc
    exact Option.some.inj h ▸ .number hc
  split at h
  · rename_i hc
    obtain ⟨inside, behind, hinside, hrest, rfl⟩ := string?_eq_some_iff.mp h
    exact .string hc hinside hrest
  · rename_i hquote
    exact Option.some.inj h ▸ .symbol hbreak hquote

theorem kind_word_ne {k : Kind} (hk : k ∈ [.endOfInput, .number, .string]) (c : Char)
    (rest : List Char) : (word c rest).kind ≠ k := by
  simp only [word]
  apply reserved?_getD_ne hk

/-- No lexeme is the end of the input. -/
theorem kind_ne_endOfInput {c : Char} {rest : List Char} {x : Lexeme}
    (h : read? c rest = some x) : x.kind ≠ .endOfInput := by
  cases form_of_read h with
  | endLine hc => simp [endLine]
  | word hc => exact kind_word_ne (by decide) c rest
  | number hc =>
    unfold number
    split <;> simp [sign]
  | string hc hinside hrest => simp
  | symbol hbreak hquote =>
    unfold symbol
    split <;> simp [sign]

end Lexeme

/-! ## Steps -/

/-- The token of a lexeme that starts on the given line. -/
def Lexeme.token (x : Lexeme) (file : String) (line : Nat) : Token :=
  ⟨x.kind, x.value, .lines file line (line + x.value.toList.count '\n')⟩

namespace Scanner

variable {s : Scanner} {c : Char} {rest : List Char} {x : Lexeme} {tokens : List Token}

theorem step_of_end (h : (skipTrivia s.line s.rest).rest = []) :
    s.step = ⟨(skipTrivia s.line s.rest).comments,
      .ok (.endOfInput s.file (skipTrivia s.line s.rest).line),
      ⟨s.file, [], (skipTrivia s.line s.rest).line, (skipTrivia s.line s.rest).line⟩⟩ := by
  simp [step, h]

theorem step_of_unclosed (h : (skipTrivia s.line s.rest).rest = c :: rest)
    (hx : Lexeme.read? c rest = none) :
    let last := (skipTrivia s.line s.rest).line + rest.count '\n'
    s.step = ⟨(skipTrivia s.line s.rest).comments,
      .error ⟨.unterminatedString, ⟨(skipTrivia s.line s.rest).line, s.file⟩⟩,
      ⟨s.file, [], last, last⟩⟩ := by
  simp [step, h, hx]

/-- Before a lexeme a step gives its token, with the comments that were passed over. -/
theorem step_of_lexeme (h : (skipTrivia s.line s.rest).rest = c :: rest)
    (hx : Lexeme.read? c rest = some x) :
    let line := (skipTrivia s.line s.rest).line
    s.step = ⟨(skipTrivia s.line s.rest).comments, .ok (x.token s.file line),
      ⟨s.file, (c :: rest).drop x.text.length, line + x.text.count '\n',
        line + x.value.toList.count '\n'⟩⟩ := by
  simp [step, h, hx, Lexeme.token]

/-- Behind a lexeme the scanner has the text that follows it. -/
theorem next_of_lexeme {after : List Char} (h : (skipTrivia s.line s.rest).rest = c :: rest)
    (hx : Lexeme.read? c rest = some x) (hafter : c :: rest = x.text ++ after) :
    let line := (skipTrivia s.line s.rest).line
    s.step.next =
      ⟨s.file, after, line + x.text.count '\n', line + x.value.toList.count '\n'⟩ := by
  rw [step_of_lexeme h hx, hafter, List.drop_left]

/-- The equation of a scan, without the proofs that it ends. -/
theorem scan_eq (s : Scanner) :
    s.scan = match s.step.result with
      | .error d => ⟨s.step.comments, .error d⟩
      | .ok token =>
        if token.kind = .endOfInput then ⟨s.step.comments, .ok [token]⟩
        else ⟨s.step.comments ++ s.step.next.scan.comments,
          s.step.next.scan.result.map (token :: ·)⟩ := by
  rw [Scanner.scan]
  split
  · rename_i d hd
    rw [hd]
  · rename_i token ht
    rw [ht]
    simp only [dite_eq_ite]

/-- At the end of the text a scan gives the end of the script. -/
theorem scan_of_end (h : (skipTrivia s.line s.rest).rest = []) :
    s.scan.result = .ok [.endOfInput s.file (skipTrivia s.line s.rest).line] := by
  rw [scan_eq, step_of_end h]
  simp [Token.endOfInput]

/-- Before a quote that is never closed a scan fails. -/
theorem scan_of_unclosed (h : (skipTrivia s.line s.rest).rest = c :: rest)
    (hx : Lexeme.read? c rest = none) :
    s.scan.result = .error ⟨.unterminatedString, ⟨(skipTrivia s.line s.rest).line, s.file⟩⟩ := by
  rw [scan_eq, step_of_unclosed h hx]

/-- Before a lexeme a scan gives the token of that lexeme, and goes on behind it. -/
theorem scan_of_lexeme (h : (skipTrivia s.line s.rest).rest = c :: rest)
    (hx : Lexeme.read? c rest = some x) :
    s.scan.result =
      s.step.next.scan.result.map (x.token s.file (skipTrivia s.line s.rest).line :: ·) := by
  rw [scan_eq, step_of_lexeme h hx]
  simp only [Lexeme.token, Lexeme.kind_ne_endOfInput hx, if_false]

/-- A scan that succeeds goes on to succeed behind a lexeme. -/
theorem exists_others (h : (skipTrivia s.line s.rest).rest = c :: rest)
    (hx : Lexeme.read? c rest = some x) (hok : s.scan.result = .ok tokens) :
    ∃ others, s.step.next.scan.result = .ok others ∧
      tokens = x.token s.file (skipTrivia s.line s.rest).line :: others := by
  rw [scan_of_lexeme h hx] at hok
  cases hnext : s.step.next.scan.result with
  | error d =>
    rw [hnext] at hok
    cases hok
  | ok others =>
    rw [hnext] at hok
    exact ⟨others, rfl, (Except.ok.inj hok).symm⟩

/-- Induction along a scan. It ends with the text or before a quote that is never closed, and else goes on
behind a lexeme. -/
@[elab_as_elim]
theorem scanInduction {motive : Scanner → Prop}
    (ended : ∀ s : Scanner, (skipTrivia s.line s.rest).rest = [] → motive s)
    (unclosed : ∀ (s : Scanner) c rest, (skipTrivia s.line s.rest).rest = c :: rest →
      Lexeme.read? c rest = none → motive s)
    (lexeme : ∀ (s : Scanner) c rest x, (skipTrivia s.line s.rest).rest = c :: rest →
      Lexeme.read? c rest = some x → motive s.step.next → motive s)
    (s : Scanner) : motive s := by
  cases htext : (skipTrivia s.line s.rest).rest with
  | nil => exact ended s htext
  | cons c rest =>
    cases hread : Lexeme.read? c rest with
    | none => exact unclosed s c rest htext hread
    | some x =>
      have hresult : s.step.result = .ok (x.token s.file (skipTrivia s.line s.rest).line) := by
        rw [step_of_lexeme htext hread]
      have hshort := length_step_lt hresult (Lexeme.kind_ne_endOfInput hread)
      exact lexeme s c rest x htext hread (scanInduction ended unclosed lexeme s.step.next)
termination_by s.rest.length

/-- What holds of the end of a script and of every lexeme holds of every token of a scan. -/
theorem forall_of_scan {P : Kind → String → Prop} (hend : P .endOfInput "EOF")
    (hlexeme : ∀ {c rest x}, Lexeme.read? c rest = some x → P x.kind x.value) (s : Scanner)
    (h : s.scan.result = .ok tokens) : ∀ t ∈ tokens, P t.kind t.value := by
  induction s using scanInduction generalizing tokens with
  | ended s htext =>
    rw [scan_of_end htext] at h
    rw [← Except.ok.inj h]
    exact List.forall_mem_singleton.mpr hend
  | unclosed s c rest htext hread =>
    rw [scan_of_unclosed htext hread] at h
    cases h
  | lexeme s c rest x htext hread ih =>
    obtain ⟨others, hothers, rfl⟩ := exists_others htext hread h
    exact List.forall_mem_cons.mpr ⟨hlexeme hread, ih hothers⟩

end Scanner

end Sigil
