import Sigil.Proofs.LineCount
import Sigil.Proofs.NameForm

/-!
# The lines of tokens

A token starts on the line that the line breaks before it say, and ends as many lines below as there are
line feeds in its value. Where in the source it starts is said without any scanning: the text before it is
made of blanks, comments and the tokens before it, and the text from there on starts with its lexeme.

The steps of a scanner are taken apart once, in `Scanner.step_cases`.
-/

namespace Sigil

/-! ## One step of the scanner -/

namespace Scanner

/-- The scanner at the end of its text. -/
def exhausted (s : Scanner) : Scanner := ⟨s.file, [], s.lastLine, s.lastLine⟩

/-- The next step passes over `gap` and gives `token`, which is written as `text` before `after`. -/
structure Takes (s : Scanner) (gap text after : List Char) (token : Token) : Prop where
  rest : s.rest = gap ++ (text ++ after)
  passed : Gap gap (text ++ after)
  lexeme : LexemeOf after token.kind token.value text
  kind : token.kind ≠ .endOfInput
  span : token.span = .lines s.file (s.line + gap.count '\n')
    (s.line + gap.count '\n' + token.value.toList.count '\n')
  result : s.step.result = .ok token
  file : s.step.next.file = s.file
  left : s.step.next.rest = after
  line : s.step.next.line = s.line + gap.count '\n' + text.count '\n'

theorem exists_gap (s : Scanner) :
    ∃ gap, s.rest = gap ++ (skipTrivia s.line s.rest).rest ∧ Gap gap (skipTrivia s.line s.rest).rest ∧
      (skipTrivia s.line s.rest).line = s.line + gap.count '\n' := by
  obtain ⟨gap, hrest, hgap⟩ := exists_gap_skipTrivia s.line s.rest
  refine ⟨gap, hrest, hgap, ?_⟩
  have hcount := (skipTrivia_line s.line s.rest).2
  have hsplit := congrArg (List.count '\n') hrest
  rw [List.count_append] at hsplit
  omega

/-- A step finds the end of the text, a quote that is never closed, or a token. -/
theorem step_cases (s : Scanner) :
    (Gap s.rest [] ∧ s.step.result = .ok (.endOfInput s.file s.lastLine) ∧
      s.step.next = s.exhausted) ∨
    (∃ d : Diagnostic, d.cause = .unterminatedString ∧ s.step.result = .error d ∧
      s.step.next = s.exhausted) ∨
    ∃ gap text after token, s.Takes gap text after token := by
  obtain ⟨gap, hrest, hgap, hline⟩ := s.exists_gap
  have hlast : (skipTrivia s.line s.rest).line + (skipTrivia s.line s.rest).rest.count '\n' =
      s.lastLine := (skipTrivia_line s.line s.rest).2
  cases htext : (skipTrivia s.line s.rest).rest with
  | nil =>
    left
    have hend := line_skipTrivia_of_end htext
    rw [htext, List.append_nil] at hrest
    rw [htext, ← hrest] at hgap
    refine ⟨hgap, ?_, ?_⟩
    · simp [step, htext, hend]
    · simp [step, htext, hend, exhausted]
  | cons c rest =>
    right
    cases hread : Lexeme.read? c rest with
    | none =>
      left
      have hc : c ≠ '\n' := by
        rintro rfl
        simp [Lexeme.read?] at hread
      rw [htext, List.count_cons_of_ne hc] at hlast
      refine ⟨⟨.unterminatedString, ⟨(skipTrivia s.line s.rest).line, s.file⟩⟩, rfl, ?_, ?_⟩
      · simp [step, htext, hread]
      · simp [step, htext, hread, hlast, exhausted]
    | some x =>
      right
      obtain ⟨after, hafter, hlexeme⟩ := lexemeOf_read hread
      have hdrop : (c :: rest).drop x.text.length = after := by rw [hafter, List.drop_left]
      rw [htext, hafter] at hrest hgap
      refine ⟨gap, x.text, after, ⟨x.kind, x.value, .lines s.file (s.line + gap.count '\n')
        (s.line + gap.count '\n' + x.value.toList.count '\n')⟩, ?_⟩
      constructor
      · exact hrest
      · exact hgap
      · exact hlexeme
      · exact Lexeme.kind_ne_endOfInput hread
      · rfl
      · simp [step, htext, hread, hline]
      · simp [step, htext, hread]
      · simp [step, htext, hread, hdrop]
      · simp [step, htext, hread, hline]

variable {s : Scanner} {gap text after : List Char} {token : Token}

theorem Takes.scan (h : s.Takes gap text after token) :
    s.scan.result = s.step.next.scan.result.map (token :: ·) := by
  rw [scan_eq, h.result]
  simp only [h.kind, if_false]

theorem Takes.length_lt (h : s.Takes gap text after token) :
    s.step.next.rest.length < s.rest.length :=
  length_step_lt h.result h.kind

theorem Takes.lastLine (h : s.Takes gap text after token) : s.step.next.lastLine = s.lastLine := by
  rw [Scanner.lastLine, Scanner.lastLine, h.left, h.line, h.rest, List.count_append,
    List.count_append]
  omega

/-- A scan that goes on behind a token finds that token and others. -/
theorem Takes.exists_others (h : s.Takes gap text after token) {tokens : List Token}
    (hscan : s.scan.result = .ok tokens) :
    ∃ others, s.step.next.scan.result = .ok others ∧ tokens = token :: others := by
  rw [h.scan] at hscan
  cases hnext : s.step.next.scan.result with
  | error d =>
    rw [hnext] at hscan
    cases hscan
  | ok others =>
    rw [hnext] at hscan
    exact ⟨others, rfl, (Except.ok.inj hscan).symm⟩

/-- Induction along the steps of a scanner: to the end of the text, to a quote that is never closed, or over
a token to what comes behind it. -/
@[elab_as_elim]
theorem stepInduction {motive : Scanner → Prop}
    (ended : ∀ s : Scanner, Gap s.rest [] →
      s.step.result = .ok (.endOfInput s.file s.lastLine) → motive s)
    (failed : ∀ (s : Scanner) (d : Diagnostic), d.cause = .unterminatedString →
      s.step.result = .error d → motive s)
    (takes : ∀ (s : Scanner) gap text after token, s.Takes gap text after token →
      motive s.step.next → motive s)
    (s : Scanner) : motive s := by
  rcases s.step_cases with ⟨hgap, hend, -⟩ | ⟨d, hcause, hfail, -⟩ | ⟨gap, text, after, token, htakes⟩
  · exact ended s hgap hend
  · exact failed s d hcause hfail
  · have hshort := htakes.length_lt
    exact takes s gap text after token htakes (stepInduction ended failed takes s.step.next)
termination_by s.rest.length

theorem scan_of_endOfInput {e : Token} (h : s.step.result = .ok e) (he : e.kind = .endOfInput) :
    s.scan.result = .ok [e] := by
  rw [scan_eq, h]
  simp only [he, if_true]

theorem scan_of_error {d : Diagnostic} (h : s.step.result = .error d) :
    s.scan.result = .error d := by
  rw [scan_eq, h]

end Scanner

/-! ## Where a token stands -/

/-- The text starts with the lexeme of `t` and goes on with the tokens `us`, which end with the end of the
script; or no text is left and `t` is that end. -/
inductive Leads : (text : List Char) → (t : Token) → (us : List Token) → Prop where
  | lexeme {text after : List Char} {t e : Token} {us : List Token}
      (hx : LexemeOf after t.kind t.value text) (hus : Segmented after us)
      (he : e.kind = .endOfInput) : Leads (text ++ after) t (us ++ [e])
  | endOfInput {t : Token} (ht : t.kind = .endOfInput) : Leads [] t []

/-- What makes a lexeme before a text makes one before any beginning of that text. -/
theorem LexemeOf.before {after part text : List Char} {kind : Kind} {value : String}
    (h : LexemeOf after kind value text) (hpart : part <+: after) : LexemeOf part kind value text := by
  cases h with
  | endLine => exact .endLine
  | string hvalue => exact .string hvalue
  | plain hk hne => exact .plain hk hne
  | word hc hcs hafter =>
    exact .word hc hcs fun d hd => hafter d (mem_head?_of_beginning hpart hd)

/-- Of the tokens of a scan, those before one of them are the tokens of the text before it, and its line
is counted from there. -/
theorem Scanner.stands_of_scan (s : Scanner) {tokens : List Token}
    (h : s.scan.result = .ok tokens) {ts us : List Token} {t : Token}
    (htokens : tokens = ts ++ t :: us) :
    ∃ before rest, s.rest = before ++ rest ∧ Segmented before ts ∧ Leads rest t us ∧
      t.span = .lines s.file (s.line + before.count '\n')
        (s.line + before.count '\n' + t.value.toList.count '\n') := by
  induction s using stepInduction generalizing tokens ts with
  | ended s hgap hresult =>
    rw [scan_of_endOfInput hresult rfl] at h
    have hsingle : [Token.endOfInput s.file s.lastLine] = ts ++ t :: us :=
      (Except.ok.inj h).trans htokens
    obtain ⟨rfl, rfl, rfl⟩ : ts = [] ∧ t = .endOfInput s.file s.lastLine ∧ us = [] := by
      cases ts with
      | nil => exact ⟨rfl, (List.cons.inj hsingle).1.symm, (List.cons.inj hsingle).2.symm⟩
      | cons u ts => simp at hsingle
    have hsegmented := hgap [] [] List.nil_prefix .nil
    rw [List.append_nil] at hsegmented
    refine ⟨s.rest, [], (List.append_nil _).symm, hsegmented, .endOfInput rfl, ?_⟩
    have hvalue : "EOF".toList.count '\n' = 0 := by decide
    simp only [Token.endOfInput, hvalue, Nat.add_zero]
    rfl
  | failed s d hcause hresult =>
    rw [scan_of_error hresult] at h
    cases h
  | takes s gap text after token htakes ih =>
    obtain ⟨others, hothers, hcons⟩ := htakes.exists_others h
    rw [htokens] at hcons
    cases ts with
    | nil =>
      obtain ⟨rfl, rfl⟩ := List.cons.inj hcons
      obtain ⟨us, e, rfl, he, -, hsegmented⟩ := segmented_of_scan _ hothers
      rw [htakes.left] at hsegmented
      have hnothing := htakes.passed [] [] List.nil_prefix .nil
      rw [List.append_nil] at hnothing
      exact ⟨gap, text ++ after, htakes.rest, hnothing, .lexeme htakes.lexeme hsegmented he,
        htakes.span⟩
    | cons u ts =>
      obtain ⟨rfl, hrest⟩ := List.cons.inj hcons
      obtain ⟨before, rest, hleft, hsegmented, hleads, hspan⟩ := ih hothers hrest.symm
      rw [htakes.left] at hleft
      rw [htakes.file, htakes.line] at hspan
      have hbefore : before <+: after := ⟨rest, hleft.symm⟩
      have hlexeme := Segmented.lexeme (htakes.lexeme.before hbefore) hsegmented
      have hall := htakes.passed _ _ ((List.prefix_append_right_inj text).mpr hbefore) hlexeme
      refine ⟨gap ++ (text ++ before), rest, ?_, hall, hleads, ?_⟩
      · rw [htakes.rest, hleft]
        simp only [List.append_assoc]
      · rw [hspan, List.count_append, List.count_append]
        simp only [Nat.add_assoc]

/-! ## The order of tokens -/

/-- A token has no line feed in its value that is not in its lexeme. -/
theorem LexemeOf.count_value_le {after text : List Char} {kind : Kind} {value : String}
    (h : LexemeOf after kind value text) : value.toList.count '\n' ≤ text.count '\n' := by
  cases h with
  | endLine => decide
  | string hvalue =>
    rw [List.count_cons, List.count_append]
    omega
  | plain hk hne => exact Nat.le_refl _
  | @word c cs hc hcs hafter =>
    have hnone : '\n' ∉ (normalizeName (String.ofList (c :: cs))).toList := by
      intro hmem
      have hspace := eq_space_of_isBlank_of_mem_normalizeName (by decide) hmem
      revert hspace
      decide
    rw [List.count_eq_zero_of_not_mem hnone]
    exact Nat.zero_le _

/-- Every token of a scan ends before those behind it start, or on the same line. -/
theorem Scanner.pairwise_of_scan (s : Scanner) {tokens : List Token}
    (h : s.scan.result = .ok tokens) :
    tokens.Pairwise fun a b => a.span.stop.line ≤ b.span.start.line := by
  induction s using stepInduction generalizing tokens with
  | ended s hgap hresult =>
    rw [scan_of_endOfInput hresult rfl] at h
    rw [← Except.ok.inj h]
    exact List.pairwise_singleton _ _
  | failed s d hcause hresult =>
    rw [scan_of_error hresult] at h
    cases h
  | takes s gap text after token htakes ih =>
    obtain ⟨others, hothers, rfl⟩ := htakes.exists_others h
    have hahead := s.step.next.ahead_of_scan
    rw [hothers] at hahead
    refine List.pairwise_cons.mpr ⟨?_, ih hothers⟩
    intro b hb
    have hvalue := htakes.lexeme.count_value_le
    calc token.span.stop.line
        = s.line + gap.count '\n' + token.value.toList.count '\n' := by rw [htakes.span]; rfl
      _ ≤ s.line + gap.count '\n' + text.count '\n' := Nat.add_le_add_left hvalue _
      _ = s.step.next.line := htakes.line.symm
      _ ≤ b.span.start.line := (hahead.1 b hb).2.1

/-! ## Whole scripts -/

end Sigil
