import Sigil.Program.Analysis
import Sigil.Proofs.Reading

/-!
# Parsing looks no further than where it stops

A rule decides by the tokens that it passes and by the one at which it stops, be it done or failed
there. What stands behind is never looked at: where the same tokens stand, the same is done again.
`Parse.Repeats` says this of a run of one step and all runs of another step that meet the same tokens.
The second step is allowed to be another one because calls nest as deep as there are tokens, so that
the rules for two rows of tokens of different lengths are not the same (`repeats_rules`).

Two places need care. The rule for names looks at the token behind the name before it has passed the
name; but then it passes the name in any case. And at the last token of a row moving on stays where it
is, which would show that nothing follows; but the last token is the end of the script, and no step
passes that.
-/

namespace Sigil

open Parse Cursor

namespace Reply

variable {α : Type}

/-- The cursor that a reply leaves. -/
def stop? : Reply α → Option Cursor
  | done _ d => some d
  | failed _ d => some d
  | circular => none

/-- The same reply, with the cursor left at `d`. -/
def leaving (d : Cursor) : Reply α → Reply α
  | done a _ => done a d
  | failed x _ => failed x d
  | circular => circular

theorem leaving_stop {reply : Reply α} {d : Cursor} (h : reply.stop? = some d) :
    reply.leaving d = reply := by
  cases reply with
  | done a e => rw [leaving, Option.some.inj h]
  | failed x e => rw [leaving, Option.some.inj h]
  | circular => rfl

theorem stop?_leaving {reply : Reply α} {d : Cursor} (h : reply.stop? = some d) (d' : Cursor) :
    (reply.leaving d').stop? = some d' := by
  cases reply with
  | done a e => rfl
  | failed x e => rfl
  | circular => cases h

theorem exists_stop {reply : Reply α} (h : reply ≠ .circular) : ∃ d, reply.stop? = some d := by
  cases reply with
  | done a d => exact ⟨d, rfl⟩
  | failed x d => exact ⟨d, rfl⟩
  | circular => exact absurd rfl h

end Reply

/-- Where the tokens stand that `p` has passed from `c` on, and behind them the token at which it has
stopped, `p'` does what `p` has done. The end of the script is not among the tokens passed. -/
def Parse.Repeats {α : Type} (p p' : Parse α) (c : Cursor) : Prop :=
  ∀ d, (p c).stop? = some d → ∃ ts, c.Passes ts d ∧ Endless ts ∧
    ∀ c' d', c'.Closed → c'.file = c.file → c'.Passes ts d' → d'.current = d.current →
      p' c' = (p c).leaving d'

/-- Two cursors from which the same tokens are passed to the same token stand at the same token. -/
theorem Cursor.Passes.current_eq {c c' d d' : Cursor} {ts : List Token} (h : c.Passes ts d)
    (h' : c'.Passes ts d') (hd : d'.current = d.current) : c'.current = c.current := by
  cases ts with
  | nil => rw [passes_nil_iff.mp h, passes_nil_iff.mp h', hd]
  | cons t ts => rw [(passes_cons_iff.mp h).1, (passes_cons_iff.mp h').1]

namespace Cursor

variable {c c' d : Cursor} {ts : List Token}

/-! What is said about a token does not depend on what stands behind it. -/

theorem unexpected_congr (c c' : Cursor) (hfile : c'.file = c.file) (hcur : c'.current = c.current) :
    c'.unexpected = c.unexpected := by
  rw [unexpected, position, hfile, hcur, unexpected, position]

theorem misplaced_congr (message : String) (c c' : Cursor) (hfile : c'.file = c.file)
    (hcur : c'.current = c.current) : c'.misplaced message = c.misplaced message := by
  rw [misplaced, position, hfile, hcur, misplaced, position]

theorem lacking_congr (k : Kind) (c c' : Cursor) (_ : c'.file = c.file)
    (hcur : c'.current = c.current) : c'.lacking k = c.lacking k := by
  rw [lacking, hcur, lacking]

/-- Behind the ends of lines there is something else. -/
theorem Closed.kind_skipEndLines (h : c.Closed) : c.skipEndLines.kind ≠ .endLine := by
  obtain ⟨file, t, ahead⟩ := c
  induction ahead generalizing t with
  | nil =>
    have ht : t.kind = .endOfInput := h
    simp [Cursor.skipEndLines, skipFrom, Cursor.kind, ht]
  | cons u us ih =>
    by_cases hk : (Cursor.mk file t (u :: us)).kind = .endLine
    · rw [skipEndLines_of_endLine (by simp) hk]
      exact ih u (closed_cons.mp h)
    · rw [skipEndLines_of_ne hk]
      exact hk

/-- Skipping ends where the ends of lines end. -/
theorem Passes.skipEndLines_eq (h : c.Passes ts d) (hlines : ∀ t ∈ ts, t.kind = .endLine)
    (hd : d.kind ≠ .endLine) : c.skipEndLines = d := by
  induction ts generalizing c with
  | nil =>
    obtain rfl := passes_nil_iff.mp h
    exact skipEndLines_of_ne hd
  | cons t ts ih =>
    obtain ⟨hcur, ha, hrest⟩ := passes_cons_iff.mp h
    obtain ⟨ht, hts⟩ := List.forall_mem_cons.mp hlines
    have hk : c.kind = .endLine := by rw [Cursor.kind, hcur, ht]
    rw [skipEndLines_of_endLine ha hk]
    exact ih hrest hts

end Cursor

namespace Parse

variable {α β : Type} {c : Cursor}

/-! ## Steps -/

/-- What is repeated step by step is repeated. -/
theorem Repeats.bind {p p' : Parse α} {f f' : α → Parse β} (hc : c.Closed) (hp : p.Repeats p' c)
    (hf : ∀ a d, d.Closed → p c = .done a d → (f a).Repeats (f' a) d) :
    (p >>= f).Repeats (p' >>= f') c := by
  intro d hd
  have hbind : (p >>= f) c = Parse.bind p f c := rfl
  rw [hbind, Parse.bind] at hd ⊢
  cases hreply : p c with
  | circular =>
    rw [hreply] at hd
    cases hd
  | failed x e =>
    rw [hreply] at hd
    obtain rfl := Option.some.inj hd
    obtain ⟨ts, hts, hne, hsame⟩ := hp e (by rw [hreply]; rfl)
    refine ⟨ts, hts, hne, fun c' d' hc' hfile hts' hcur => ?_⟩
    have hfails := hsame c' d' hc' hfile hts' hcur
    rw [hreply] at hfails
    show Parse.bind p' f' c' = _
    rw [Parse.bind, hfails]
    rfl
  | done a e =>
    rw [hreply] at hd
    obtain ⟨ts, hts, hne, hsame⟩ := hp e (by rw [hreply]; rfl)
    obtain ⟨us, hus, hne', hsame'⟩ := hf a e (hc.of_passes hts) hreply d hd
    refine ⟨ts ++ us, hts.trans hus, endless_append.mpr ⟨hne, hne'⟩,
      fun c' d' hc' hfile hp' hcur => ?_⟩
    -- The second run is at the same place when it has done what `p` does.
    obtain ⟨e', hts', hus'⟩ := passes_append_iff.mp hp'
    have hdone := hsame c' e' hc' hfile hts' (hus.current_eq hus' hcur)
    rw [hreply] at hdone
    have hfile' : e'.file = e.file := by rw [← hts'.1, hfile, hts.1]
    show Parse.bind p' f' c' = _
    rw [Parse.bind, hdone]
    exact hsame' e' d' (hc'.of_passes hts') hfile' hus' hcur

/-- A step that does not move repeats itself if it only looks at the current token. -/
theorem repeats_of_stays {p p' : Parse α} (hstop : (p c).stop? = some c)
    (h : ∀ c', c'.file = c.file → c'.current = c.current → p' c' = (p c).leaving c') :
    p.Repeats p' c := by
  intro d hd
  obtain rfl := Option.some.inj (hstop.symm.trans hd)
  refine ⟨[], passes_refl _, endless_nil, fun c' d' _ hfile hp hcur => ?_⟩
  obtain rfl := passes_nil_iff.mp hp
  exact h c' hfile hcur

theorem repeats_pure (a : α) : (pure a : Parse α).Repeats (pure a) c :=
  repeats_of_stays rfl fun _ _ _ => rfl

/-- A failure that is told by the token it is about is repeated. -/
theorem repeats_fail {problem : Cursor → Diagnostic}
    (h : ∀ c', c'.file = c.file → c'.current = c.current → problem c' = problem c) :
    (fail problem : Parse α).Repeats (fail problem) c := by
  refine repeats_of_stays rfl fun c' hfile hcur => ?_
  show Reply.failed (problem c') c' = .failed (problem c) c'
  rw [h c' hfile hcur]

theorem repeats_current_bind {f f' : Token → Parse β} (hc : c.Closed)
    (h : (f c.current).Repeats (f' c.current) c) : (current >>= f).Repeats (current >>= f') c := by
  have hcurrent : current.Repeats current c := by
    refine repeats_of_stays rfl fun c' _ hcur => ?_
    show Reply.done c'.current c' = .done c.current c'
    rw [hcur]
  refine hcurrent.bind hc ?_
  rintro _ _ - ⟨⟩
  exact h

theorem repeats_advance (hc : c.Closed) (hk : c.kind ≠ .endOfInput) : advance.Repeats advance c := by
  intro d hd
  obtain rfl : c.advance = d := Option.some.inj hd
  refine ⟨[c.current], hc.passes_advance hk, endless_cons.mpr ⟨hk, endless_nil⟩,
    fun c' d' _ _ hp _ => ?_⟩
  obtain ⟨hcur, hp, -⟩ := hp.uncons
  obtain rfl := passes_nil_iff.mp hp
  show Reply.done c'.current c'.advance = .done c.current c'.advance
  rw [hcur]

theorem repeats_advance_bind {f f' : Token → Parse β} (hc : c.Closed) (hk : c.kind ≠ .endOfInput)
    (h : (f c.current).Repeats (f' c.current) c.advance) :
    (advance >>= f).Repeats (advance >>= f') c := by
  refine (repeats_advance hc hk).bind hc ?_
  rintro _ _ - ⟨⟩
  exact h

/-- Whether a token is the expected one does not depend on what follows it. -/
theorem repeats_expectOr {k : Kind} {problem : Cursor → Diagnostic} (hc : c.Closed)
    (hk : k ≠ .endOfInput)
    (h : ∀ c', c'.file = c.file → c'.current = c.current → problem c' = problem c) :
    (expectOr k problem).Repeats (expectOr k problem) c := by
  by_cases hck : c.kind = k
  · intro d hd
    have hne : c.kind ≠ .endOfInput := by rwa [hck]
    have hdone : expectOr k problem c = advance c := if_pos hck
    rw [hdone] at hd ⊢
    obtain ⟨ts, hts, hall, hsame⟩ := repeats_advance hc hne d hd
    refine ⟨ts, hts, hall, fun c' d' hc' hfile hts' hcur => ?_⟩
    have hkind : c'.kind = k := by rw [Cursor.kind, hts.current_eq hts' hcur, ← Cursor.kind, hck]
    rw [← hsame c' d' hc' hfile hts' hcur]
    exact if_pos hkind
  · refine repeats_of_stays (by simp [expectOr, hck, Reply.stop?]) fun c' hfile hcur => ?_
    have hck' : c'.kind ≠ k := by rwa [Cursor.kind, hcur]
    rw [expectOr, if_neg hck', expectOr, if_neg hck, h c' hfile hcur]
    rfl

theorem repeats_expectOr_bind {k : Kind} {problem : Cursor → Diagnostic} {f f' : Token → Parse β}
    (hc : c.Closed) (hk : k ≠ .endOfInput)
    (hproblem : ∀ c', c'.file = c.file → c'.current = c.current → problem c' = problem c)
    (h : c.kind = k → (f c.current).Repeats (f' c.current) c.advance) :
    (expectOr k problem >>= f).Repeats (expectOr k problem >>= f') c := by
  refine (repeats_expectOr hc hk hproblem).bind hc ?_
  intro t d _ hdone
  obtain ⟨hck, rfl, rfl⟩ := expectOr_eq_done_iff.mp hdone
  exact h hck

/-- Passing the ends of lines stops at the first token that is none. -/
theorem repeats_skipEndLines_bind {f f' : Unit → Parse β} (hc : c.Closed)
    (h : (f ()).Repeats (f' ()) c.skipEndLines) :
    (skipEndLines >>= f).Repeats (skipEndLines >>= f') c := by
  have hskip : skipEndLines.Repeats skipEndLines c := by
    intro d hd
    obtain rfl : c.skipEndLines = d := Option.some.inj hd
    obtain ⟨ts, hts, hlines⟩ := hc.passes_skipEndLines
    refine ⟨ts, hts, ?_, fun c' d' _ _ hts' hcur => ?_⟩
    · intro t ht hk
      rw [hlines t ht] at hk
      cases hk
    · have hd' : d'.kind ≠ .endLine := by
        rw [Cursor.kind, hcur]
        exact hc.kind_skipEndLines
      show Reply.done () c'.skipEndLines = .done () d'
      rw [hts'.skipEndLines_eq hlines hd']
  refine hskip.bind hc ?_
  rintro _ _ - ⟨⟩
  exact h

/-- The token behind the current one may be looked at before the current one is passed, if that one is
passed in any case. -/
theorem repeats_peek_advance_bind {f f' : Kind → Token → Parse β} (hc : c.Closed)
    (hk : c.kind ≠ .endOfInput)
    (h : (f c.advance.kind c.current).Repeats (f' c.advance.kind c.current) c.advance) :
    (peek 1 >>= fun next => advance >>= f next).Repeats
      (peek 1 >>= fun next => advance >>= f' next) c := by
  have hpass := hc.passes_advance hk
  have hrun : (peek 1 >>= fun next => advance >>= f next) c =
      f c.advance.kind c.current c.advance := by
    rw [peek_bind, advance_bind, hpass.peek_one]
  intro d hd
  rw [hrun] at hd ⊢
  obtain ⟨ts, hts, hne, hsame⟩ := h d hd
  refine ⟨c.current :: ts, hpass.trans hts, endless_cons.mpr ⟨hk, hne⟩,
    fun c' d' hc' hfile hp' hcur => ?_⟩
  obtain ⟨hcur', hts', -⟩ := hp'.uncons
  have hkind : c'.peek 1 = c.advance.kind := by
    rw [hp'.head.peek_one, Cursor.kind, hts.current_eq hts' hcur, ← Cursor.kind]
  have hfile' : c'.advance.file = c.advance.file := by
    rw [← hp'.head.1, hfile, hpass.1]
  rw [peek_bind, advance_bind, hkind, hcur']
  exact hsame c'.advance d' hc'.advance hfile' hts' hcur

theorem repeats_ite {P : Prop} [Decidable P] {p p' q q' : Parse α} (hp : P → p.Repeats p' c)
    (hq : ¬ P → q.Repeats q' c) : (if P then p else q).Repeats (if P then p' else q') c := by
  by_cases h : P
  · rw [if_pos h, if_pos h]
    exact hp h
  · rw [if_neg h, if_neg h]
    exact hq h

end Parse

/-! ## Rules -/

/-- The calls that are answered by `r` are answered alike by `r'`. -/
def Rules.Repeats (r r' : Rules) : Prop :=
  ∀ (s : Nonterminal) (c : Cursor), c.Closed → s.CalledAt c.kind → (r s).Repeats (r' s) c

section

variable {r r' : Rules} {c : Cursor}

theorem Rules.Repeats.expression (hr : r.Repeats r') (hc : c.Closed) :
    (r.expr .expression).Repeats (r'.expr .expression) c :=
  hr (.expr .expression) c hc trivial

theorem Rules.Repeats.primary (hr : r.Repeats r') (hc : c.Closed) :
    (r.expr .primary).Repeats (r'.expr .primary) c :=
  hr (.expr .primary) c hc trivial

theorem Rules.Repeats.arguments (hr : r.Repeats r') (hc : c.Closed) :
    r.arguments.Repeats r'.arguments c :=
  hr .arguments c hc trivial

theorem Rules.Repeats.block (hr : r.Repeats r') (hc : c.Closed) : r.block.Repeats r'.block c :=
  hr .block c hc trivial

theorem repeats_expressionRule (hr : r.Repeats r') (hc : c.Closed) :
    (expressionRule r).Repeats (expressionRule r') c := by
  refine (hr.primary hc).bind hc fun left d hd _ => ?_
  refine repeats_current_bind hd (repeats_ite (fun hk => ?_) fun _ => repeats_pure _)
  have hne : d.kind ≠ .endOfInput := by simp [Cursor.kind, hk]
  refine repeats_advance_bind hd hne ?_
  exact (hr.expression hd.advance).bind hd.advance fun _ _ _ _ => repeats_pure _

theorem repeats_primaryRule (hr : r.Repeats r') (hc : c.Closed) :
    (primaryRule .standard r).Repeats (primaryRule .standard r') c := by
  refine repeats_current_bind hc ?_
  cases hrule : Grammar.standard.primary c.current.kind with
  | none => exact repeats_fail c.unexpected_congr
  | some rule =>
    have hcalled : (Nonterminal.expr rule).CalledAt c.kind := by
      cases rule <;> trivial
    exact hr (.expr rule) c hc hcalled

theorem repeats_variableRule (storage : Storage) (hc : c.Closed) (hk : c.kind ≠ .endOfInput) :
    (variableRule storage).Repeats (variableRule storage) c := by
  refine repeats_advance_bind hc hk (repeats_current_bind hc.advance ?_)
  refine repeats_ite (fun hn => ?_) fun _ => repeats_fail (misplaced_congr _ _)
  have hne : c.advance.kind ≠ .endOfInput := by
    rcases hn with hn | hn <;> simp [Cursor.kind, hn]
  exact repeats_advance_bind hc.advance hne (repeats_pure _)

/-- Whether a name is called is seen from the token behind it, which is passed or stopped at. -/
theorem repeats_nameRule (hr : r.Repeats r') (hc : c.Closed) (hk : c.kind = .name) :
    (nameRule r).Repeats (nameRule r') c := by
  refine repeats_peek_advance_bind hc (by simp [hk]) ?_
  refine repeats_ite (fun ho => ?_) fun _ => repeats_pure _
  refine repeats_advance_bind hc.advance (by simp [ho]) ?_
  refine repeats_current_bind hc.advance.advance ?_
  have hclose : ∀ (f : Token → Expr) (d : Cursor), d.Closed →
      (expect .closeParen >>= fun close => (pure (f close) : Parse Expr)).Repeats
        (expect .closeParen >>= fun close => pure (f close)) d := fun f d hd =>
    repeats_expectOr_bind hd (by decide) (lacking_congr _ d) fun _ => repeats_pure _
  refine repeats_ite (fun _ => ?_) fun _ => ?_
  · exact (repeats_pure []).bind hc.advance.advance fun _ d hd _ => hclose _ d hd
  · exact (hr.arguments hc.advance.advance).bind hc.advance.advance fun _ d hd _ => hclose _ d hd

theorem repeats_argumentsRule (hr : r.Repeats r') (hc : c.Closed) :
    (argumentsRule r).Repeats (argumentsRule r') c := by
  refine (hr.expression hc).bind hc fun e d hd _ => ?_
  refine repeats_current_bind hd (repeats_ite (fun hk => ?_) fun _ => repeats_pure _)
  have hne : d.kind ≠ .endOfInput := by simp [Cursor.kind, hk]
  refine repeats_advance_bind hd hne ?_
  exact (hr.arguments hd.advance).bind hd.advance fun _ _ _ _ => repeats_pure _

theorem repeats_literalRule (hc : c.Closed) (hk : c.kind ≠ .endOfInput) :
    literalRule.Repeats literalRule c :=
  repeats_advance_bind hc hk (repeats_pure _)

theorem repeats_groupingRule (hr : r.Repeats r') (hc : c.Closed) (hk : c.kind ≠ .endOfInput) :
    (groupingRule r).Repeats (groupingRule r') c := by
  refine repeats_advance_bind hc hk ?_
  refine (hr.expression hc.advance).bind hc.advance fun e d hd _ => ?_
  exact repeats_expectOr_bind hd (by decide) (lacking_congr _ d) fun _ => repeats_pure _

theorem repeats_unaryRule (hr : r.Repeats r') (hc : c.Closed) (hk : c.kind ≠ .endOfInput) :
    (unaryRule r).Repeats (unaryRule r') c := by
  refine repeats_advance_bind hc hk ?_
  exact (hr.primary hc.advance).bind hc.advance fun _ _ _ _ => repeats_pure _

theorem repeats_endStatement (hc : c.Closed) : endStatement.Repeats endStatement c := by
  refine repeats_current_bind hc (repeats_ite (fun hk => ?_) fun _ => ?_)
  · have hne : c.kind ≠ .endOfInput := by simp [Cursor.kind, hk]
    exact repeats_advance_bind hc hne (repeats_pure _)
  · exact repeats_ite (fun _ => repeats_pure _) fun _ => repeats_fail (misplaced_congr _ c)

/-- The statements stop at what ends their block. -/
theorem repeats_statementsRule (hr : r.Repeats r') (hc : c.Closed) :
    (statementsRule r).Repeats (statementsRule r') c := by
  have hd := hc.skipEndLines
  refine repeats_skipEndLines_bind hc (repeats_current_bind hd ?_)
  refine repeats_ite (fun _ => repeats_pure _) fun _ => ?_
  have hstmt := hr (.stmt .statement) c.skipEndLines hd trivial
  refine hstmt.bind hd fun s e he _ => ?_
  have hstmts := hr .statements e he trivial
  exact hstmts.bind he fun _ _ _ _ => repeats_pure _

theorem repeats_blockRule (hr : r.Repeats r') (hc : c.Closed) :
    (blockRule r).Repeats (blockRule r') c := by
  refine repeats_current_bind hc ?_
  have hstmts := hr .statements c hc trivial
  exact hstmts.bind hc fun _ _ hd _ => repeats_current_bind hd (repeats_pure _)

/-- The kind of a statement is told by its first token. -/
theorem repeats_statementRule (hr : r.Repeats r') (hc : c.Closed) :
    (statementRule .standard r).Repeats (statementRule .standard r') c := by
  refine repeats_current_bind hc ?_
  cases hrule : Grammar.standard.statement c.current.kind with
  | some rule =>
    have hcalled : (Nonterminal.stmt rule).CalledAt c.kind := by
      cases rule <;> trivial
    exact hr (.stmt rule) c hc hcalled
  | none =>
    refine (hr.expression hc).bind hc fun e d hd _ => repeats_current_bind hd ?_
    refine repeats_ite (fun hk => ?_) fun _ => ?_
    · refine repeats_ite (fun _ => ?_) fun _ => repeats_fail fun _ _ _ => rfl
      have hne : d.kind ≠ .endOfInput := by simp [Cursor.kind, hk]
      refine repeats_advance_bind hd hne ?_
      refine (hr.expression hd.advance).bind hd.advance fun v d₁ hd₁ _ => ?_
      exact (repeats_endStatement hd₁).bind hd₁ fun _ _ _ _ => repeats_pure _
    · exact (repeats_endStatement hd).bind hd fun _ _ _ _ => repeats_pure _

theorem repeats_conditionRule (hr : r.Repeats r') (hc : c.Closed) :
    (conditionRule r).Repeats (conditionRule r') c := by
  refine repeats_expectOr_bind hc (by decide) (lacking_congr _ c) fun _ => ?_
  refine (hr.expression hc.advance).bind hc.advance fun e d hd _ => ?_
  exact repeats_expectOr_bind hd (by decide) (lacking_congr _ d) fun _ => repeats_pure _

/-- Whether there is an alternative is seen from the token at which the block stops. -/
theorem repeats_elseRule (hr : r.Repeats r') (hc : c.Closed) :
    (elseRule r).Repeats (elseRule r') c := by
  refine repeats_current_bind hc (repeats_ite (fun hk => ?_) fun _ => repeats_pure _)
  have hne : c.kind ≠ .endOfInput := by simp [Cursor.kind, hk]
  refine repeats_advance_bind hc hne ?_
  exact (hr.block hc.advance).bind hc.advance fun _ _ _ _ => repeats_pure _

theorem repeats_conditionalRule (hr : r.Repeats r') (hc : c.Closed) (hk : c.kind ≠ .endOfInput) :
    (conditionalRule r).Repeats (conditionalRule r') c := by
  refine repeats_advance_bind hc hk ?_
  refine (repeats_conditionRule hr hc.advance).bind hc.advance fun e c₁ hc₁ _ => ?_
  refine (hr.block hc₁).bind hc₁ fun yes c₂ hc₂ _ => ?_
  refine (repeats_elseRule hr hc₂).bind hc₂ fun no c₃ hc₃ _ => ?_
  refine repeats_expectOr_bind hc₃ (by decide) (misplaced_congr _ c₃) fun _ => ?_
  exact (repeats_endStatement hc₃.advance).bind hc₃.advance fun _ _ _ _ => repeats_pure _

/-- Whether there is an increment is seen from the token at which the bound stops. -/
theorem repeats_incrementRule (hr : r.Repeats r') (hc : c.Closed) :
    (incrementRule r).Repeats (incrementRule r') c := by
  refine repeats_current_bind hc (repeats_ite (fun hk => ?_) fun _ => repeats_pure _)
  have hne : c.kind ≠ .endOfInput := by simp [Cursor.kind, hk]
  refine repeats_advance_bind hc hne ?_
  exact (hr.expression hc.advance).bind hc.advance fun _ _ _ _ => repeats_pure _

theorem repeats_counterRule (hr : r.Repeats r') (hc : c.Closed) :
    (counterRule r).Repeats (counterRule r') c := by
  refine (hr.primary hc).bind hc fun e d hd _ => ?_
  exact repeats_ite (fun _ => repeats_pure _) fun _ => repeats_fail fun _ _ _ => rfl

theorem repeats_countingRule (hr : r.Repeats r') (hc : c.Closed) (hk : c.kind ≠ .endOfInput) :
    (countingRule r).Repeats (countingRule r') c := by
  refine repeats_advance_bind hc hk ?_
  refine repeats_expectOr_bind hc.advance (by decide) (lacking_congr _ _) fun _ => ?_
  have hco := hc.advance.advance
  refine (repeats_counterRule hr hco).bind hco fun v c₁ hc₁ _ => ?_
  refine repeats_expectOr_bind hc₁ (by decide) (lacking_congr _ c₁) fun _ => ?_
  refine (hr.expression hc₁.advance).bind hc₁.advance fun a c₂ hc₂ _ => ?_
  refine repeats_expectOr_bind hc₂ (by decide) (lacking_congr _ c₂) fun _ => ?_
  refine (hr.expression hc₂.advance).bind hc₂.advance fun b c₃ hc₃ _ => ?_
  refine (repeats_incrementRule hr hc₃).bind hc₃ fun i c₄ hc₄ _ => ?_
  refine repeats_expectOr_bind hc₄ (by decide) (lacking_congr _ c₄) fun _ => ?_
  refine (hr.block hc₄.advance).bind hc₄.advance fun body c₅ hc₅ _ => ?_
  refine repeats_expectOr_bind hc₅ (by decide) (misplaced_congr _ c₅) fun _ => ?_
  exact (repeats_endStatement hc₅.advance).bind hc₅.advance fun _ _ _ _ => repeats_pure _

theorem repeats_testedLoopRule (hr : r.Repeats r') (hc : c.Closed) (hk : c.kind ≠ .endOfInput) :
    (testedLoopRule r).Repeats (testedLoopRule r') c := by
  refine repeats_advance_bind hc hk ?_
  refine (repeats_conditionRule hr hc.advance).bind hc.advance fun e c₁ hc₁ _ => ?_
  refine (hr.block hc₁).bind hc₁ fun body c₂ hc₂ _ => ?_
  refine repeats_expectOr_bind hc₂ (by decide) (misplaced_congr _ c₂) fun _ => ?_
  exact (repeats_endStatement hc₂.advance).bind hc₂.advance fun _ _ _ _ => repeats_pure _

theorem repeats_repeatedLoopRule (hr : r.Repeats r') (hc : c.Closed) (hk : c.kind ≠ .endOfInput) :
    (repeatedLoopRule r).Repeats (repeatedLoopRule r') c := by
  refine repeats_advance_bind hc hk ?_
  refine (hr.block hc.advance).bind hc.advance fun body c₁ hc₁ _ => ?_
  refine repeats_expectOr_bind hc₁ (by decide) (misplaced_congr _ c₁) fun _ => ?_
  refine (repeats_conditionRule hr hc₁.advance).bind hc₁.advance fun e c₂ hc₂ _ => ?_
  exact (repeats_endStatement hc₂).bind hc₂ fun _ _ _ _ => repeats_pure _

end

/-- What stands in the tables is not called for at the end of the script. -/
theorem Nonterminal.CalledAt.ne_endOfInput {s : Nonterminal} {k : Kind} (h : s.CalledAt k)
    (hs : s.IsTabled) : k ≠ .endOfInput := by
  rintro rfl
  match s with
  | .expr .localVariable => cases h
  | .expr .persistentVariable => cases h
  | .expr .name => cases h
  | .expr .literal => cases h
  | .expr .grouping => cases h
  | .expr .unary => cases h
  | .stmt .conditional => cases h
  | .stmt .counting => cases h
  | .stmt .testedLoop => cases h
  | .stmt .repeatedLoop => cases h

/-- One more level of calls is answered. -/
theorem repeats_answer {r r' : Rules} (hr : r.Repeats r') :
    (Grammar.standard.answer r).Repeats (Grammar.standard.answer r') := by
  intro s c hc hs
  have hk := hs.ne_endOfInput
  match s with
  | .block => exact repeats_blockRule hr hc
  | .statements => exact repeats_statementsRule hr hc
  | .arguments => exact repeats_argumentsRule hr hc
  | .stmt .statement => exact repeats_statementRule hr hc
  | .stmt .conditional => exact repeats_conditionalRule hr hc (hk rfl)
  | .stmt .counting => exact repeats_countingRule hr hc (hk rfl)
  | .stmt .testedLoop => exact repeats_testedLoopRule hr hc (hk rfl)
  | .stmt .repeatedLoop => exact repeats_repeatedLoopRule hr hc (hk rfl)
  | .expr .expression => exact repeats_expressionRule hr hc
  | .expr .primary => exact repeats_primaryRule hr hc
  | .expr .localVariable => exact repeats_variableRule .localSlot hc (hk rfl)
  | .expr .persistentVariable => exact repeats_variableRule .persistentSlot hc (hk rfl)
  | .expr .name => exact repeats_nameRule hr hc (Grammar.standardPrimary_eq_name.mp hs)
  | .expr .literal => exact repeats_literalRule hc (hk rfl)
  | .expr .grouping => exact repeats_groupingRule hr hc (hk rfl)
  | .expr .unary => exact repeats_unaryRule hr hc (hk rfl)

/-- Calls that are answered at some depth are answered alike at every greater depth. -/
theorem repeats_rules {depth depth' : Nat} (h : depth ≤ depth') :
    Rules.Repeats (Grammar.standard.rules depth) (Grammar.standard.rules depth') := by
  induction depth generalizing depth' with
  | zero =>
    intro s c _ _ d hd
    cases hd
  | succ depth ih =>
    obtain ⟨depth', rfl⟩ := Nat.exists_eq_add_of_le' (show 1 ≤ depth' by omega)
    exact repeats_answer (ih (by omega))

/-- At the depth of a row all calls are answered, so more depth changes nothing. -/
theorem rules_eq_run {s : Nonterminal} {c : Cursor} {depth : Nat} (hc : c.Closed)
    (hs : s.CalledAt c.kind) (h : Grammar.depthFrom c ≤ depth) :
    Grammar.standard.rules depth s c = Grammar.standard.run s c := by
  have hreplies := replies_run s hc.on hs.ne_endOfInput
  have hne : Grammar.standard.run s c ≠ .circular := by
    intro hcircular
    unfold Replies at hreplies
    rw [hcircular] at hreplies
    exact hreplies
  obtain ⟨d, hd⟩ := Reply.exists_stop hne
  obtain ⟨ts, hts, -, hsame⟩ := repeats_rules h s c hc hs d hd
  rw [hsame c d hc rfl hts rfl]
  exact Reply.leaving_stop hd

theorem repeats_run {s : Nonterminal} {c : Cursor} (hc : c.Closed) (hs : s.CalledAt c.kind) :
    (Grammar.standard.run s).Repeats (Grammar.standard.run s) c := by
  intro d hd
  obtain ⟨ts, hts, hne, -⟩ := repeats_rules (Nat.le_refl _) s c hc hs d hd
  refine ⟨ts, hts, hne, fun c' d' hc' hfile hts' hcur => ?_⟩
  -- The two runs are compared at a depth that is enough for both.
  have hle := Nat.le_max_left (Grammar.depthFrom c) (Grammar.depthFrom c')
  have hle' := Nat.le_max_right (Grammar.depthFrom c) (Grammar.depthFrom c')
  obtain ⟨us, hus, -, hsame⟩ := repeats_rules hle s c hc hs d hd
  obtain rfl : us = ts := List.append_cancel_right (hus.2.symm.trans hts.2)
  have hs' : s.CalledAt c'.kind := by
    rw [Cursor.kind, hts.current_eq hts' hcur]
    exact hs
  rw [← rules_eq_run hc' hs' hle']
  exact hsame c' d' hc' hfile hts' hcur

/-- A script is parsed in the same way wherever the same tokens stand. -/
theorem repeats_scriptRule {c : Cursor} (hc : c.Closed) : scriptRule.Repeats scriptRule c := by
  have hblock : (Grammar.standard.run .block).Repeats (Grammar.standard.run .block) c :=
    repeats_run hc trivial
  refine hblock.bind hc fun b d hd _ => repeats_current_bind hd ?_
  exact repeats_ite (fun _ => repeats_pure _) fun _ => repeats_fail d.unexpected_congr

/-! ## Whole scripts -/

/-- The tokens as they are walked: with an end of the script behind them if they have none. -/
def closedRow (file : String) (tokens : List Token) : List Token :=
  (Cursor.ofTokens file tokens).remaining

/-- The cursor is left at the token of index `k` of the row. -/
def Reply.StopsAt {α : Type} (reply : Reply α) (row : List Token) (k : Nat) : Prop :=
  ∃ d, reply.stop? = some d ∧ d.remaining = row.drop k

/-- An end of the script is put behind the tokens if they have none. -/
theorem closedRow_eq_append (file : String) (tokens : List Token) :
    ∃ zs, closedRow file tokens = tokens ++ zs := by
  cases tokens with
  | nil => exact ⟨_, rfl⟩
  | cons t ts => exact ⟨_, rfl⟩

/-- Parsing stops behind tokens none of which is the end of the script. -/
theorem parse_stops (file : String) (tokens : List Token) :
    ∃ ts d, (parse file tokens).stop? = some d ∧ closedRow file tokens = ts ++ d.remaining ∧
      Endless ts := by
  obtain ⟨d, hd⟩ := Reply.exists_stop (parse_ne_circular file tokens)
  obtain ⟨ts, hts, hne, -⟩ := repeats_scriptRule (closed_ofTokens file tokens) d hd
  exact ⟨ts, d, hd, hts.2, hne⟩

/-- Tokens that are the same up to where parsing stops are parsed alike. -/
theorem parse_eq_leaving {file : String} {tokens tokens' ts us : List Token} {d : Cursor}
    (hd : (parse file tokens).stop? = some d) (h : closedRow file tokens = ts ++ d.remaining)
    (h' : closedRow file tokens' = ts ++ d.current :: us) :
    parse file tokens' = (parse file tokens).leaving ⟨file, d.current, us⟩ := by
  have hfile := Cursor.file_ofTokens file tokens
  have hfile' := Cursor.file_ofTokens file tokens'
  obtain ⟨vs, hvs, -, hsame⟩ := repeats_scriptRule (closed_ofTokens file tokens) d hd
  obtain rfl : vs = ts := List.append_cancel_right (hvs.2.symm.trans h)
  exact hsame _ ⟨file, d.current, us⟩ (closed_ofTokens file tokens') (hfile'.trans hfile.symm)
    ⟨hfile', h'⟩ rfl

theorem Reply.toExcept_leaving {α : Type} {reply reply' : Reply α} {d : Cursor}
    {h : reply ≠ .circular} {h' : reply' ≠ .circular} (heq : reply' = reply.leaving d) :
    reply'.toExcept h' = reply.toExcept h := by
  subst heq
  cases reply with
  | done a e => rfl
  | failed x e => rfl
  | circular => exact absurd rfl h

theorem eq_append_of_take_eq {row row' ts us : List Token} {t : Token} (h : row = ts ++ t :: us)
    (h' : row'.take (ts.length + 1) = row.take (ts.length + 1)) :
    row' = ts ++ t :: row'.drop (ts.length + 1) := by
  have htake : row.take (ts.length + 1) = ts ++ [t] := by
    rw [h, List.take_append, List.take_of_length_le (by omega)]
    simp
  calc row' = row'.take (ts.length + 1) ++ row'.drop (ts.length + 1) :=
        (List.take_append_drop _ _).symm
    _ = ts ++ t :: row'.drop (ts.length + 1) := by rw [h', htake, List.append_assoc]; rfl

/-- A row that is split before `e` has the tokens in front of that split which do not contain `e`. -/
theorem length_le_of_not_mem {ps ds ts us : List Token} {e : Token} (h : ps ++ ds = ts ++ e :: us)
    (he : e ∉ ps) : ps.length ≤ ts.length := by
  rcases List.append_eq_append_iff.mp h with ⟨vs, rfl, -⟩ | ⟨vs, rfl, hvs⟩
  · rw [List.length_append]
    omega
  · cases vs with
    | nil => simp
    | cons v vs =>
      rw [(List.cons.inj hvs).1] at he
      simp at he

/-- Parsing looks at nothing behind the token at which it leaves the cursor: rows of tokens that are the
same up to there have the same outcome, and the cursor is left at the same place. So nothing that stands
behind an end of the script matters. -/
theorem parse_looks_no_further (file : String) (tokens : List Token) :
    ∃ k, (parse file tokens).StopsAt (closedRow file tokens) k ∧
      (∀ tokens', (closedRow file tokens').take (k + 1) = (closedRow file tokens).take (k + 1) →
        parseTokens file tokens' = parseTokens file tokens ∧
          (parse file tokens').StopsAt (closedRow file tokens') k) ∧
      ∀ ts e us us', tokens = ts ++ e :: us → e.kind = .endOfInput →
        k ≤ ts.length ∧ parseTokens file (ts ++ e :: us') = parseTokens file tokens ∧
          (parse file (ts ++ e :: us')).StopsAt (closedRow file (ts ++ e :: us')) k := by
  obtain ⟨ps, d, hd, hrow, hne⟩ := parse_stops file tokens
  have hagree : ∀ tokens', (closedRow file tokens').take (ps.length + 1) =
      (closedRow file tokens).take (ps.length + 1) →
      parseTokens file tokens' = parseTokens file tokens ∧
        (parse file tokens').StopsAt (closedRow file tokens') ps.length := by
    intro tokens' htake
    have hrow' := eq_append_of_take_eq hrow htake
    generalize (closedRow file tokens').drop (ps.length + 1) = us at hrow'
    have hparse := parse_eq_leaving hd hrow hrow'
    refine ⟨Reply.toExcept_leaving hparse, ⟨file, d.current, us⟩, ?_, ?_⟩
    · rw [hparse]
      exact Reply.stop?_leaving hd _
    · rw [hrow', List.drop_left]
      rfl
  refine ⟨ps.length, ⟨d, hd, by rw [hrow, List.drop_left]⟩, hagree, ?_⟩
  intro ts e us us' htokens he
  have hbegin : ∀ vs, ∃ ws, closedRow file (ts ++ e :: vs) = (ts ++ [e]) ++ ws := by
    intro vs
    obtain ⟨zs, hzs⟩ := closedRow_eq_append file (ts ++ e :: vs)
    exact ⟨vs ++ zs, by simp [hzs]⟩
  obtain ⟨ws, hws⟩ := hbegin us
  obtain ⟨ws', hws'⟩ := hbegin us'
  have hsplit : ps ++ d.remaining = ts ++ e :: ws := by
    rw [← hrow, htokens, hws, List.append_assoc]
    rfl
  have hshort := length_le_of_not_mem hsplit fun hmem => hne e hmem he
  have hlength : ps.length + 1 ≤ (ts ++ [e]).length := by
    rw [List.length_append]
    exact Nat.succ_le_succ hshort
  refine ⟨hshort, hagree _ ?_⟩
  rw [htokens, hws, hws', List.take_append_of_le_length hlength, List.take_append_of_le_length hlength]

/-- Behind `a` and the end of the script it does not matter whether there is an `else` or a
parenthesis. -/
theorem parse_looks_no_further_than_end :
    let token (k : Kind) (text : String) : Token := ⟨k, text, .lines "unit" 1 1⟩
    let tokens := [token .name "a", token .endOfInput "EOF", token .elseWord "else"]
    let tokens' := [token .name "a", token .endOfInput "EOF", token .openParen "("]
    parseTokens "unit" tokens' = parseTokens "unit" tokens := by
  intro token tokens tokens'
  obtain ⟨k, -, hagree, hend⟩ := parse_looks_no_further "unit" tokens
  have hk : k ≤ 1 := (hend [token .name "a"] (token .endOfInput "EOF") _ [] rfl rfl).1
  refine (hagree tokens' ?_).1
  obtain rfl | rfl : k = 0 ∨ k = 1 := by omega
  · rfl
  · rfl

end Sigil
