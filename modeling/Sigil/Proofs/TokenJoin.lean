import Sigil.Proofs.Displacement
import Sigil.Proofs.LineCount
import Sigil.Proofs.ScriptByScript
import Sigil.Proofs.TextModes

/-!
# Joined texts

A line break is a place where a scan starts afresh. Behind a text that is scanned to its end, a line break
and a second text are scanned as the second text would be alone, only further down.
-/

namespace Sigil

/-- The token of the end of the given line. -/
def Token.endLine (file : String) (line : Nat) : Token := ⟨.endLine, "\\n", .lines file line line⟩

/-- A line feed between two texts is not folded into a carriage return before it if there is none. -/
theorem foldBreaks_append_newline {above : List Char} (h : above.getLast? ≠ some '\r')
    (below : List Char) :
    foldBreaks (above ++ '\n' :: below) = foldBreaks above ++ '\n' :: foldBreaks below := by
  have htail : ∀ {c : Char} {text : List Char},
      (c :: text).getLast? ≠ some '\r' → text.getLast? ≠ some '\r' := by
    intro c text hne hlast
    rw [List.getLast?_cons, hlast] at hne
    exact hne rfl
  fun_induction foldBreaks above with
  | case1 =>
    rw [List.nil_append, foldBreaks]
    · rfl
    · simp
    · simp
  | case2 text ih =>
    rw [List.cons_append, List.cons_append, foldBreaks, ih (htail (htail h))]
    rfl
  | case3 text hnext ih =>
    rw [List.cons_append, foldBreaks, ih (htail h)]
    · rfl
    · intro rest heq
      cases text with
      | nil => exact h rfl
      | cons c text =>
        obtain ⟨rfl, -⟩ := List.cons.inj heq
        exact hnext text rfl
  | case4 c text hpair hreturn ih =>
    rw [List.cons_append, foldBreaks, ih (htail h)]
    · rfl
    · exact fun rest hc _ => hreturn hc
    · exact hreturn

namespace Scanner

/-- The scanner with a line break and a further text behind its own. -/
def joined (s : Scanner) (more : List Char) : Scanner :=
  ⟨s.file, s.rest ++ '\n' :: more, s.line, s.seen⟩

/-- Before a lexeme a scan gives the same token, and goes on in the same way, whether or not a line break
and a further text come in the end. -/
theorem joined_of_lexeme {s : Scanner} {c : Char} {rest : List Char} {x : Lexeme}
    (htext : (skipTrivia s.line s.rest).rest = c :: rest) (hread : Lexeme.read? c rest = some x)
    (hmode : Mode.after .code s.rest ≠ .blockComment) :
    (∀ more, (s.joined more).scan.result = (s.step.next.joined more).scan.result.map
      (x.token s.file (skipTrivia s.line s.rest).line :: ·)) ∧
    Mode.after .code s.step.next.rest = .after .code s.rest := by
  have happend := Mode.skipTrivia_append s.line hmode
  have hne : (skipTrivia s.line s.rest).rest ≠ [] := by simp [htext]
  obtain ⟨hcode, hstart⟩ := Mode.after_skipTrivia hne
  rw [htext] at hcode hstart
  obtain ⟨behind, hsplit, hbehind⟩ := Lexeme.after_read hread hstart
  rw [next_of_lexeme htext hread hsplit]
  refine ⟨fun more => ?_, hbehind.trans hcode⟩
  have htext' : (skipTrivia (s.joined more).line (s.joined more).rest).rest =
      c :: (rest ++ '\n' :: more) := by
    rw [joined, happend, htext, List.cons_append]
  have hread' := Lexeme.read?_append_newline hread more
  have hsplit' : c :: (rest ++ '\n' :: more) = x.text ++ (behind ++ '\n' :: more) := by
    rw [← List.cons_append, hsplit, List.append_assoc]
  rw [scan_of_lexeme htext' hread', next_of_lexeme htext' hread' hsplit', joined, happend]
  rfl

/-- At the end of its text a scan gives the end of a line instead of the end of the script if a line break
comes there, and starts afresh behind it. -/
theorem scan_joined_of_end {s : Scanner} (htext : (skipTrivia s.line s.rest).rest = [])
    (hmode : Mode.after .code s.rest ≠ .blockComment) :
    s.scan.result = .ok [.endOfInput s.file s.lastLine] ∧ ∀ more,
      (s.joined more).scan.result =
        (mk s.file more (s.lastLine + 1) s.lastLine).scan.result.map
          (.endLine s.file s.lastLine :: ·) := by
  have happend := Mode.skipTrivia_append s.line hmode
  have hlast := line_skipTrivia_of_end htext
  refine ⟨by rw [scan_of_end htext, hlast], fun more => ?_⟩
  have htext' : (skipTrivia (s.joined more).line (s.joined more).rest).rest = '\n' :: more := by
    rw [joined, happend, htext, List.nil_append]
  have hread : Lexeme.read? '\n' more = some .endLine := rfl
  rw [scan_of_lexeme htext' hread, next_of_lexeme htext' hread rfl, joined, happend, hlast]
  rfl

/-- Behind the tokens of a text a line break gives the end of a line, and a scan starts afresh. -/
theorem scan_joined {s : Scanner} {tokens : List Token} (h : s.scan.result = .ok tokens)
    (hmode : Mode.after .code s.rest ≠ .blockComment) :
    ∃ ts, tokens = ts ++ [.endOfInput s.file s.lastLine] ∧ ∀ more,
      (s.joined more).scan.result =
        (mk s.file more (s.lastLine + 1) s.lastLine).scan.result.map
          (ts ++ .endLine s.file s.lastLine :: ·) := by
  induction s using scanInduction generalizing tokens with
  | ended s htext =>
    obtain ⟨hscan, hjoin⟩ := scan_joined_of_end htext hmode
    rw [hscan] at h
    exact ⟨[], (Except.ok.inj h).symm, hjoin⟩
  | unclosed s c rest htext hread =>
    rw [scan_of_unclosed htext hread] at h
    cases h
  | lexeme s c rest x htext hread ih =>
    obtain ⟨hfile, -, hlast⟩ := later_of_lexeme htext hread
    obtain ⟨hjoin, hcode⟩ := joined_of_lexeme htext hread hmode
    obtain ⟨others, hothers, rfl⟩ := exists_others htext hread h
    obtain ⟨ts, rfl, hrun⟩ := ih hothers (hcode ▸ hmode)
    rw [hfile, hlast] at hrun ⊢
    refine ⟨_ :: ts, rfl, fun more => ?_⟩
    rw [hjoin, hrun]
    cases (mk s.file more (s.lastLine + 1) s.lastLine).scan.result <;> rfl

end Scanner

theorem Scanner.ofSource_join {above : String} (h : above.toList.getLast? ≠ some '\r')
    (file below : String) :
    ofSource file (above ++ "\n" ++ below) =
      (ofSource file above).joined (foldBreaks below.toList) := by
  have htext : (above ++ "\n" ++ below).toList = above.toList ++ '\n' :: below.toList := by
    simp
  rw [ofSource, htext, foldBreaks_append_newline h]
  rfl

/-- The scan of two texts with a line break between them. -/
theorem tokenize_joined {file above : String} {tokens : List Token}
    (htokens : (tokenize file above).result = .ok tokens)
    (hreturn : above.toList.getLast? ≠ some '\r') (hcomment : endMode above ≠ .blockComment) :
    ∃ ts n, tokens = ts ++ [.endOfInput file n] ∧ ∀ below,
      (tokenize file (above ++ "\n" ++ below)).result =
        (((tokenize file below).result.map (List.map (Token.shift n))).mapError
          (Diagnostic.shift n)).map (ts ++ .endLine file n :: ·) := by
  obtain ⟨ts, hts, hjoin⟩ := Scanner.scan_joined (scan_of_tokenize htokens) hcomment
  refine ⟨ts, _, hts, fun below => ?_⟩
  have hshift := Scanner.scan_shift (.ofSource file below) (Scanner.ofSource file above).lastLine
  rw [tokenize_eq_scan, Scanner.ofSource_join hreturn, hjoin, tokenize_eq_scan, ← hshift, Nat.add_comm]
  rfl

/-- A scan starts afresh at a line break. Behind a text that is scanned to its end, and ends neither with a
carriage return nor in a comment without a closing, a line break gives the end of a line, and a further
text gives its own tokens, or fails where it would fail, as many lines further down. -/
theorem tokenize_join {file above : String} {tokens : List Token}
    (htokens : (tokenize file above).result = .ok tokens)
    (hreturn : above.toList.getLast? ≠ some '\r') (hcomment : endMode above ≠ .blockComment) :
    ∃ ts n, tokens = ts ++ [.endOfInput file n] ∧ ∀ below,
      (∀ us, (tokenize file below).result = .ok us →
        (tokenize file (above ++ "\n" ++ below)).result =
          .ok (ts ++ .endLine file n :: us.map (Token.shift n))) ∧
      (∀ d, (tokenize file below).result = .error d →
        (tokenize file (above ++ "\n" ++ below)).result =
          .error ⟨.unterminatedString, ⟨d.position.line + n, file⟩⟩) := by
  obtain ⟨ts, n, hts, hjoin⟩ := tokenize_joined htokens hreturn hcomment
  refine ⟨ts, n, hts, fun below => ⟨fun us hus => ?_, fun d hd => ?_⟩⟩
  · rw [hjoin, hus]
    rfl
  · -- The only fault of a text is a quote without an end, in that text.
    have hfault := Script.holds_tokens ⟨file, below⟩
    rw [hd] at hfault
    obtain ⟨hcause, hfile, -⟩ := hfault
    obtain ⟨cause, position⟩ := d
    obtain ⟨line, file'⟩ := position
    cases hcause
    cases hfile
    rw [hjoin, hd]
    rfl

/-- A quoted text and a comment that are closed again, and a number that could have gone on. -/
theorem tokenize_join_closed :
    let above := "$s := \"a\nb\" /* c\n */ + 1."
    let tokens : List Token := [⟨.dollar, "$", .lines "unit" 1 1⟩, ⟨.name, "s", .lines "unit" 1 1⟩,
      ⟨.assign, ":=", .lines "unit" 1 1⟩, ⟨.string, "a\nb", .lines "unit" 1 2⟩,
      ⟨.operator, "+", .lines "unit" 3 3⟩, ⟨.number, "1.", .lines "unit" 3 3⟩, .endOfInput "unit" 3]
    (tokenize "unit" above).result = .ok tokens ∧ above.toList.getLast? ≠ some '\r' ∧
      endMode above ≠ .blockComment ∧
      ∃ ts n, tokens = ts ++ [.endOfInput "unit" n] ∧ ∀ below,
        (∀ us, (tokenize "unit" below).result = .ok us →
          (tokenize "unit" (above ++ "\n" ++ below)).result =
            .ok (ts ++ .endLine "unit" n :: us.map (Token.shift n))) ∧
        (∀ d, (tokenize "unit" below).result = .error d →
          (tokenize "unit" (above ++ "\n" ++ below)).result =
            .error ⟨.unterminatedString, ⟨d.position.line + n, "unit"⟩⟩) := by
  intro above tokens
  have htokens : (tokenize "unit" above).result = .ok tokens :=
    eq_ok_of_toOption (by decide +kernel)
  have hreturn : above.toList.getLast? ≠ some '\r' := by decide +kernel
  have hcomment : endMode above ≠ .blockComment := by decide +kernel
  exact ⟨htokens, hreturn, hcomment, tokenize_join htokens hreturn hcomment⟩

end Sigil
