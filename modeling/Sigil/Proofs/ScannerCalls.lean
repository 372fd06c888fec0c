import Mathlib.Logic.Function.Iterate
import Sigil.Proofs.TokenLines

/-!
# Asking for one token after another

A lexer may be asked for tokens any number of times, also after it has failed. Whenever it is asked it
stands where a scanner would stand, and gives the same reply. So what can be said of the replies is said of
the scanner: each token uses up some of the source, so there are at most as many tokens as characters. What
comes then is the end of the script, or a quote that is never closed, and from there on nothing but the end
of the script.
-/

namespace Sigil

/-- The reply is the end of the script, or says that a quote is never closed. -/
def Final : Except Diagnostic Token → Prop
  | .ok t => t.kind = .endOfInput
  | .error d => d.cause = .unterminatedString

instance : DecidablePred Final
  | .ok t => inferInstanceAs (Decidable (t.kind = .endOfInput))
  | .error d => inferInstanceAs (Decidable (d.cause = .unterminatedString))

namespace Scanner

/-- The scanner after `n` steps. -/
def after (s : Scanner) (n : Nat) : Scanner := (fun s => s.step.next)^[n] s

/-- What the scanner replies when it has made `n` steps already. -/
def reply (s : Scanner) (n : Nat) : Except Diagnostic Token := (s.after n).step.result

theorem after_succ (s : Scanner) (n : Nat) : s.after (n + 1) = (s.after n).step.next :=
  Function.iterate_succ_apply' (fun s : Scanner => s.step.next) n s

theorem reply_succ (s : Scanner) (n : Nat) : s.reply (n + 1) = s.step.next.reply n := rfl

/-! ## What steps keep -/

/-- A step that takes no token goes to the end of the text. -/
theorem next_cases (s : Scanner) :
    s.step.next = s.exhausted ∨ ∃ gap text after token, s.Takes gap text after token := by
  rcases s.step_cases with ⟨-, -, hnext⟩ | ⟨d, -, -, hnext⟩ | htakes
  · exact .inl hnext
  · exact .inl hnext
  · exact .inr htakes

/-- A step changes neither the file nor the line on which the text ends. -/
theorem step_frame (s : Scanner) :
    s.step.next.file = s.file ∧ s.step.next.lastLine = s.lastLine := by
  rcases s.next_cases with hnext | ⟨gap, text, after, token, htakes⟩
  · rw [hnext]
    exact ⟨rfl, rfl⟩
  · exact ⟨htakes.file, htakes.lastLine⟩

theorem after_frame (s : Scanner) (n : Nat) :
    (s.after n).file = s.file ∧ (s.after n).lastLine = s.lastLine := by
  induction n with
  | zero => exact ⟨rfl, rfl⟩
  | succ n ih =>
    obtain ⟨hfile, hlast⟩ := (s.after n).step_frame
    rw [after_succ]
    exact ⟨hfile.trans ih.1, hlast.trans ih.2⟩

/-- What the scanner has still to read is folded from an end of the source. -/
def Reads (source : List Char) (s : Scanner) : Prop :=
  ∃ read unread, source = read ++ unread ∧ s.rest = foldBreaks unread

variable {source : List Char} {s : Scanner} {t : Token}

/-- A token other than the end of the script takes something from the source. -/
theorem Reads.exists_taken (h : s.Reads source) (hok : s.step.result = .ok t)
    (ht : t.kind ≠ .endOfInput) :
    ∃ read taken left, source = read ++ (taken ++ left) ∧ taken ≠ [] ∧
      s.rest = foldBreaks (taken ++ left) ∧ s.step.next.rest = foldBreaks left := by
  obtain ⟨read, unread, hsource, hrest⟩ := h
  rcases s.step_cases with ⟨-, hresult, -⟩ | ⟨d, -, hresult, -⟩ | ⟨gap, text, after, token, htakes⟩
  · rw [hresult] at hok
    rw [← Except.ok.inj hok] at ht
    exact absurd rfl ht
  · rw [hresult] at hok
    cases hok
  · have hsplit : foldBreaks unread = (gap ++ text) ++ after := by
      rw [← hrest, htakes.rest, List.append_assoc]
    obtain ⟨taken, left, rfl, htaken, hleft⟩ := exists_of_foldBreaks_eq_append hsplit
    refine ⟨read, taken, left, hsource, ?_, hrest, ?_⟩
    · rintro rfl
      have hnothing : gap ++ text = [] := htaken.symm
      exact htakes.lexeme.ne_nil (List.append_eq_nil_iff.mp hnothing).2
    · rw [htakes.left, hleft]

/-- A step goes on in the same source. -/
theorem Reads.next (h : s.Reads source) : s.step.next.Reads source := by
  have hend : s.exhausted.Reads source := ⟨source, [], (List.append_nil _).symm, rfl⟩
  rcases s.next_cases with hnext | ⟨gap, text, after, token, htakes⟩
  · rwa [hnext]
  · obtain ⟨read, taken, left, hsource, -, -, hleft⟩ := h.exists_taken htakes.result htakes.kind
    exact ⟨read ++ taken, left, by rw [hsource, List.append_assoc], hleft⟩

theorem lastLine_ofSource (file source : String) :
    (ofSource file source).lastLine = 1 + lineBreaks source.toList :=
  congrArg (1 + ·) (count_foldBreaks source.toList)

/-- All replies are about the same source. -/
theorem reads_after (file source : String) (n : Nat) :
    ((ofSource file source).after n).Reads source.toList := by
  induction n with
  | zero => exact ⟨[], source.toList, rfl, rfl⟩
  | succ n ih =>
    rw [after_succ]
    exact ih.next

/-! ## How the replies end -/

theorem eq_endOfInput (hok : s.step.result = .ok t) (ht : t.kind = .endOfInput) :
    t = .endOfInput s.file s.lastLine := by
  rcases s.step_cases with ⟨-, hresult, -⟩ | ⟨d, -, hresult, -⟩ | ⟨gap, text, after, token, htakes⟩
  · rw [hresult] at hok
    exact (Except.ok.inj hok).symm
  · rw [hresult] at hok
    cases hok
  · rw [htakes.result] at hok
    rw [← Except.ok.inj hok] at ht
    exact absurd ht htakes.kind

/-- Behind a final reply there is nothing left to read. -/
theorem next_of_final (h : Final s.step.result) : s.step.next = s.exhausted := by
  rcases s.next_cases with hnext | ⟨gap, text, after, token, htakes⟩
  · exact hnext
  · rw [htakes.result] at h
    exact absurd h htakes.kind

theorem step_exhausted (s : Scanner) :
    s.exhausted.step.result = .ok (.endOfInput s.file s.lastLine) ∧
      s.exhausted.step.next = s.exhausted := by
  simp [step, exhausted, skipTrivia]

theorem after_exhausted (s : Scanner) (n : Nat) : s.exhausted.after n = s.exhausted :=
  Function.iterate_fixed s.step_exhausted.2 n

/-- After the end of the script, or after a failure, there is only the end of the script. -/
theorem reply_of_final {n m : Nat} (h : Final (s.reply n)) (hm : n < m) :
    s.reply m = .ok (.endOfInput s.file s.lastLine) := by
  obtain ⟨k, rfl⟩ := Nat.exists_eq_add_of_lt hm
  have hstop : s.after (n + 1) = (s.after n).exhausted := by
    rw [after_succ]
    exact next_of_final h
  have hstays : s.after (n + k + 1) = (s.after n).exhausted := by
    have hsum : n + k + 1 = k + (n + 1) := by omega
    rw [hsum, after, Function.iterate_add_apply]
    show (s.after (n + 1)).after k = _
    rw [hstop, after_exhausted]
  obtain ⟨hfile, hlast⟩ := s.after_frame n
  rw [reply, hstays, (step_exhausted _).1, hfile, hlast]

/-- The replies are tokens, no more of them than there are characters, and then a final one. A scan
collects them. -/
theorem exists_replies (s : Scanner) :
    ∃ ts : List Token, ts.length ≤ s.rest.length ∧
      (∀ n t, ts[n]? = some t → s.reply n = .ok t ∧ t.kind ≠ .endOfInput) ∧
      Final (s.reply ts.length) ∧
      s.scan.result = (s.reply ts.length).map fun e => ts ++ [e] := by
  induction s using stepInduction with
  | ended s hgap hresult =>
    have hreply : s.reply 0 = _ := hresult
    refine ⟨[], Nat.zero_le _, by simp, ?_, ?_⟩
    · rw [List.length_nil, hreply]
      rfl
    · rw [scan_of_endOfInput hresult rfl, List.length_nil, hreply]
      rfl
  | failed s d hcause hresult =>
    have hreply : s.reply 0 = _ := hresult
    refine ⟨[], Nat.zero_le _, by simp, ?_, ?_⟩
    · rw [List.length_nil, hreply]
      exact hcause
    · rw [scan_of_error hresult, List.length_nil, hreply]
      rfl
  | takes s gap text after token htakes ih =>
    have hshort := htakes.length_lt
    obtain ⟨ts, hlength, htokens, hfinal, hscan⟩ := ih
    refine ⟨token :: ts, ?_, ?_, hfinal, ?_⟩
    · rw [List.length_cons]
      omega
    · intro n t ht
      cases n with
      | zero =>
        obtain rfl : token = t := Option.some.inj ht
        exact ⟨htakes.result, htakes.kind⟩
      | succ n => exact htokens n t ht
    · rw [htakes.scan, hscan, List.length_cons, reply_succ]
      cases s.step.next.reply ts.length <;> rfl

end Scanner

/-! ## The replies of a lexer -/

namespace Lexer

/-- The lexer after it was asked for `n` tokens. -/
def after (l : Lexer) (n : Nat) : Lexer := (fun l => l.next.next)^[n] l

/-- What the lexer replies when it was asked for `n` tokens already. -/
def reply (l : Lexer) (n : Nat) : Except Diagnostic Token := (l.after n).next.result

variable {l : Lexer} {s : Scanner}

/-- Asked for any number of tokens, the lexer keeps up with the scanner. -/
theorem StandsAt.after (h : l.StandsAt s) (n : Nat) : (l.after n).StandsAt (s.after n) := by
  induction n with
  | zero => exact h
  | succ n ih =>
    have hstep : l.after (n + 1) = (l.after n).next.next :=
      Function.iterate_succ_apply' (fun l : Lexer => l.next.next) n l
    rw [hstep, Scanner.after_succ]
    exact ((l.after n).next_agrees _ ih).next

/-- A lexer at the place of a scanner gives the replies of the scanner. -/
theorem StandsAt.reply (h : l.StandsAt s) (n : Nat) : l.reply n = s.reply n :=
  ((l.after n).next_agrees _ (h.after n)).result

end Lexer

/-! ## Whole scripts -/

open Scanner (ofSource)

/-- Asked for tokens again and again, the lexer of a script replies what the scanner replies, and stands at
its place each time. The scanner moves on in the source with each token until it replies with the end of the
script or fails at a quote that is never closed. From then on it replies with the end of the script, which
is always on the last line. All tokens of the script are therefore found in finitely many steps: there is
one end of the script among them, which is the last, and at most as many others as the source has
characters. -/
theorem replies_progress_and_end (file source : String) :
    (∀ n, (Lexer.ofSource file source).reply n = (ofSource file source).reply n ∧
      ((Lexer.ofSource file source).after n).StandsAt ((ofSource file source).after n)) ∧
    (∀ n t, (ofSource file source).reply n = .ok t → t.kind ≠ .endOfInput →
      ∃ read taken left, source.toList = read ++ (taken ++ left) ∧ taken ≠ [] ∧
        ((ofSource file source).after n).rest = foldBreaks (taken ++ left) ∧
        ((ofSource file source).after (n + 1)).rest = foldBreaks left) ∧
    (∀ n t, (ofSource file source).reply n = .ok t → t.kind = .endOfInput →
      t = .endOfInput file (1 + lineBreaks source.toList)) ∧
    (∀ n m, Final ((ofSource file source).reply n) → n < m →
      (ofSource file source).reply m = .ok (.endOfInput file (1 + lineBreaks source.toList))) ∧
    (∃ ts : List Token, ts.length ≤ source.length ∧
      (∀ n t, ts[n]? = some t → (ofSource file source).reply n = .ok t ∧ t.kind ≠ .endOfInput) ∧
      Final ((ofSource file source).reply ts.length) ∧
      (tokenize file source).result =
        ((ofSource file source).reply ts.length).map fun e => ts ++ [e]) ∧
    ∀ tokens, (tokenize file source).result = .ok tokens →
      ∃ ts, tokens = ts ++ [.endOfInput file (1 + lineBreaks source.toList)] ∧
        (∀ t ∈ ts, t.kind ≠ .endOfInput) ∧ tokens.length ≤ source.length + 1 := by
  have hend : ∀ n t, (ofSource file source).reply n = .ok t → t.kind = .endOfInput →
      t = .endOfInput file (1 + lineBreaks source.toList) := by
    intro n t hok ht
    obtain ⟨hfile, hline⟩ := (ofSource file source).after_frame n
    rw [Scanner.eq_endOfInput hok ht, hfile, hline, Scanner.lastLine_ofSource]
    rfl
  obtain ⟨ts, hlength, htokens, hfinal, hscan⟩ := (ofSource file source).exists_replies
  have hshort : ts.length ≤ source.length := by
    have hfold := length_foldBreaks_le source.toList
    rw [String.length_toList] at hfold
    exact Nat.le_trans hlength hfold
  rw [← tokenize_eq_scan] at hscan
  have hlexer := Lexer.standsAt_ofSource file source
  refine ⟨fun n => ⟨hlexer.reply n, hlexer.after n⟩, ?_, hend, ?_, ⟨ts, hshort, htokens, hfinal, hscan⟩, ?_⟩
  · intro n t hok ht
    rw [Scanner.after_succ]
    exact (Scanner.reads_after file source n).exists_taken hok ht
  · intro n m hn hm
    rw [Scanner.reply_of_final hn hm, Scanner.lastLine_ofSource]
    rfl
  · intro tokens hok
    have hcollected := hscan.symm.trans hok
    cases hreply : (ofSource file source).reply ts.length with
    | error d =>
      rw [hreply] at hcollected
      cases hcollected
    | ok e =>
      rw [hreply] at hcollected hfinal
      obtain rfl : ts ++ [e] = tokens := Except.ok.inj hcollected
      refine ⟨ts, by rw [hend _ e hreply hfinal], ?_, ?_⟩
      · intro t ht
        obtain ⟨n, hn⟩ := List.mem_iff_getElem?.mp ht
        exact (htokens n t hn).2
      · rw [List.length_append, List.length_singleton]
        omega

/-- A quote on the second line is never closed. The scanner moves on past the name before it, fails, and
replies with the end of the script from then on. -/
theorem replies_progress_and_end_unclosed :
    let source := "a\r\n\"b"
    let s := Scanner.ofSource "demo" source
    let name : Token := ⟨.name, "a", .lines "demo" 1 1⟩
    s.reply 0 = .ok name ∧
      (∃ read taken left, source.toList = read ++ (taken ++ left) ∧ taken ≠ [] ∧
        (s.after 0).rest = foldBreaks (taken ++ left) ∧ (s.after 1).rest = foldBreaks left) ∧
      Final (s.reply 2) ∧ ∀ m, 2 < m → s.reply m = .ok (.endOfInput "demo" 2) := by
  intro source s name
  have hname : s.reply 0 = .ok name := eq_ok_of_toOption (by decide +kernel)
  have hfinal : Final (s.reply 2) := by decide +kernel
  obtain ⟨-, hprogress, -, hends, -, -⟩ := replies_progress_and_end "demo" source
  refine ⟨hname, hprogress 0 name hname (by decide), hfinal, fun m hm => ?_⟩
  have hline : 1 + lineBreaks source.toList = 2 := by decide
  rw [← hline]
  exact hends 2 m hfinal hm

end Sigil
