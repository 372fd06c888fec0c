import Sigil.Proofs.Phrase

/-!
# Rules read phrases

Whatever a rule of the parser has passed over when it is done is a phrase of the grammar, and stands for
the tree that the rule gives (`sound_rules`). The proof is by induction on how deep calls are nested:
one lemma for each rule says that it keeps to the grammar if the answers to its calls do.
-/

namespace Sigil

open Parse Cursor

/-- The phrases of the language: what is assigned to, or counted with, is a variable. -/
abbrev Sentence (s : Nonterminal) (next : Kind) (ts : List Token) (tree : s.Tree) : Prop :=
  Phrase (fun e => e.isVar = true) s next ts tree

namespace Cursor

variable {c d : Cursor} {ts : List Token} {k : Kind}

/-- The last token stays the last. -/
theorem Closed.of_passes (h : c.Closed) (hp : c.Passes ts d) : d.Closed := by
  induction ts generalizing c with
  | nil => rwa [← passes_nil_iff.mp hp]
  | cons t ts ih => exact ih h.advance (passes_cons_iff.mp hp).2.2

/-- A token that is not the end of the script is passed first. -/
theorem Closed.cons (h : c.Closed) (hk : c.kind = k) (hne : k ≠ .endOfInput)
    (hp : c.advance.Passes ts d) : c.Passes (c.current :: ts) d :=
  (h.passes_advance (by rwa [hk])).trans hp

end Cursor

/-- An operand is never an expression as it stands. -/
theorem Grammar.standardPrimary_ne_expression (k : Kind) :
    Grammar.standardPrimary k ≠ some .expression := by
  cases k <;> simp [Grammar.standardPrimary]

namespace Grammar

/-! The tables give each rule its kinds of tokens. -/

variable {k : Kind}

theorem standardPrimary_eq_localVariable :
    standardPrimary k = some .localVariable ↔ k = .dollar := by
  cases k <;> simp [standardPrimary]

theorem standardPrimary_eq_persistentVariable :
    standardPrimary k = some .persistentVariable ↔ k = .diamond := by
  cases k <;> simp [standardPrimary]

theorem standardPrimary_eq_name : standardPrimary k = some .name ↔ k = .name := by
  cases k <;> simp [standardPrimary]

theorem standardPrimary_eq_literal :
    standardPrimary k = some .literal ↔ k = .number ∨ k = .string := by
  cases k <;> simp [standardPrimary]

theorem standardPrimary_eq_grouping : standardPrimary k = some .grouping ↔ k = .openParen := by
  cases k <;> simp [standardPrimary]

theorem standardPrimary_eq_unary : standardPrimary k = some .unary ↔ k = .operator := by
  cases k <;> simp [standardPrimary]

theorem standardStatement_eq_conditional :
    standardStatement k = some .conditional ↔ k = .ifWord := by
  cases k <;> simp [standardStatement]

theorem standardStatement_eq_counting : standardStatement k = some .counting ↔ k = .forWord := by
  cases k <;> simp [standardStatement]

theorem standardStatement_eq_testedLoop :
    standardStatement k = some .testedLoop ↔ k = .whileWord := by
  cases k <;> simp [standardStatement]

theorem standardStatement_eq_repeatedLoop :
    standardStatement k = some .repeatedLoop ↔ k = .repeatWord := by
  cases k <;> simp [standardStatement]

end Grammar

/-! ## What is passed over is a phrase -/

namespace Nonterminal

/-- Whether a nonterminal is called for at tokens of kind `k`: what stands in the tables only where
it stands there. -/
def CalledAt : Nonterminal → Kind → Prop
  | expr .expression, _ => True
  | expr .primary, _ => True
  | expr rule, k => Grammar.standardPrimary k = some rule
  | stmt .statement, _ => True
  | stmt rule, k => Grammar.standardStatement k = some rule
  | _, _ => True

/-- The phrases that a nonterminal reads. What stands in the tables reads operands and statements. -/
def Reads : (s : Nonterminal) → Kind → List Token → s.Tree → Prop
  | expr .expression, next, ts, e => Sentence (.expr .expression) next ts e.unplaced
  | expr _, next, ts, e => Sentence (.expr .primary) next ts e.unplaced
  | arguments, next, ts, es =>
    Sentence .arguments next ts (Expr.mapSpansAll (fun _ => .nowhere) es)
  | stmt _, next, ts, s => Sentence (.stmt .statement) next ts s.unplaced
  | statements, next, ts, ss =>
    Sentence .statements next ts (Block.mapSpansAll (fun _ => .nowhere) ss)
  | block, next, ts, b => Sentence .block next ts b.unplaced

end Nonterminal

/-- What is passed over when a call has been answered is a phrase for the answer. -/
def Rules.Sound (r : Rules) : Prop :=
  ∀ (s : Nonterminal) (c : Cursor) (tree : s.Tree) (d : Cursor), c.Closed → s.CalledAt c.kind →
    r s c = .done tree d → ∃ ts, c.Passes ts d ∧ s.Reads d.kind ts tree

section

variable {r : Rules} {c d : Cursor} {e : Expr}

theorem Rules.Sound.expression (hr : r.Sound) (hc : c.Closed)
    (h : r.expr .expression c = .done e d) :
    ∃ ts, c.Passes ts d ∧ Sentence (.expr .expression) d.kind ts e.unplaced :=
  hr (.expr .expression) c e d hc trivial h

theorem Rules.Sound.primary (hr : r.Sound) (hc : c.Closed) (h : r.expr .primary c = .done e d) :
    ∃ ts, c.Passes ts d ∧ Sentence (.expr .primary) d.kind ts e.unplaced :=
  hr (.expr .primary) c e d hc trivial h

theorem Rules.Sound.block (hr : r.Sound) (hc : c.Closed) {b : Block} (h : r.block c = .done b d) :
    ∃ ts, c.Passes ts d ∧ Sentence .block d.kind ts b.unplaced :=
  hr .block c b d hc trivial h

/-- What was read as an expression is one. -/
theorem sound_expressionRule (hr : r.Sound) (hc : c.Closed) (h : expressionRule r c = .done e d) :
    ∃ ts, c.Passes ts d ∧ Sentence (.expr .expression) d.kind ts e.unplaced := by
  simp only [expressionRule, bind_eq_done_iff, current_eq_done_iff] at h
  obtain ⟨left, c₁, hleft, t, _, ⟨rfl, rfl⟩, h⟩ := h
  obtain ⟨ts, hts, pleft⟩ := hr.primary hc hleft
  have hc₁ := hc.of_passes hts
  split at h
  · next hk =>
    simp only [bind_eq_done_iff, advance_eq_done_iff, pure_eq_done_iff] at h
    obtain ⟨_, _, ⟨rfl, rfl⟩, right, c₂, hright, rfl, rfl⟩ := h
    obtain ⟨us, hus, pright⟩ := hr.expression hc₁.advance hright
    rw [Cursor.kind, hk] at pleft
    exact ⟨_, hts.trans (hc₁.cons hk (by decide) hus), .binary pleft hk pright⟩
  · obtain ⟨rfl, rfl⟩ := pure_eq_done_iff.mp h
    exact ⟨ts, hts, .primary pleft⟩

theorem sound_primaryRule (hr : r.Sound) (hc : c.Closed)
    (h : primaryRule .standard r c = .done e d) :
    ∃ ts, c.Passes ts d ∧ Sentence (.expr .primary) d.kind ts e.unplaced := by
  simp only [primaryRule, bind_eq_done_iff, current_eq_done_iff] at h
  obtain ⟨t, _, ⟨rfl, rfl⟩, h⟩ := h
  cases hrule : Grammar.standard.primary c.current.kind with
  | none =>
    rw [hrule] at h
    exact absurd (fail_eq_done_iff.mp h) id
  | some rule =>
    rw [hrule] at h
    -- The rule is called for at the token that the table has it for.
    have hcalled : (Nonterminal.expr rule).CalledAt c.kind := by
      cases rule <;> trivial
    obtain ⟨ts, hts, p⟩ := hr (.expr rule) c e d hc hcalled h
    refine ⟨ts, hts, ?_⟩
    cases rule with
    | expression => exact absurd hrule (Grammar.standardPrimary_ne_expression _)
    | _ => exact p

theorem sound_variableRule {storage : Storage} (hc : c.Closed) (hk : c.kind ≠ .endOfInput)
    (h : variableRule storage c = .done e d) :
    ∃ sigil name, c.Passes [sigil, name] d ∧ sigil.kind = c.kind ∧
      (name.kind = .name ∨ name.kind = .number) ∧
      e.unplaced = .var ⟨name.value, storage⟩ .undetermined .nowhere := by
  simp only [variableRule, bind_eq_done_iff, advance_eq_done_iff, current_eq_done_iff] at h
  obtain ⟨_, _, ⟨rfl, rfl⟩, t, _, ⟨rfl, rfl⟩, h⟩ := h
  split at h
  · next hn =>
    simp only [bind_eq_done_iff, advance_eq_done_iff, pure_eq_done_iff] at h
    obtain ⟨_, _, ⟨rfl, rfl⟩, rfl, rfl⟩ := h
    have hne : c.advance.kind ≠ .endOfInput := by
      rcases hn with hn | hn <;> simp [Cursor.kind, hn]
    exact ⟨c.current, c.advance.current,
      (hc.passes_advance hk).trans (hc.advance.passes_advance hne), rfl, hn, rfl⟩
  · exact absurd (fail_eq_done_iff.mp h) id

/-- A name was followed by a parenthesis, and is called, or it was not, and is a variable. -/
theorem sound_nameRule (hr : r.Sound) (hc : c.Closed) (hk : c.kind = .name)
    (h : nameRule r c = .done e d) :
    ∃ ts, c.Passes ts d ∧ Sentence (.expr .primary) d.kind ts e.unplaced := by
  have hname : c.Passes [c.current] c.advance := hc.passes_advance (by simp [hk])
  simp only [nameRule, bind_eq_done_iff, advance_eq_done_iff, peek_eq_done_iff] at h
  obtain ⟨_, _, ⟨rfl, rfl⟩, _, _, ⟨rfl, rfl⟩, h⟩ := h
  rw [hname.peek_one] at h
  -- A parenthesis makes it a call; without one it is a variable.
  split at h
  · next ho =>
    simp only [bind_eq_done_iff, advance_eq_done_iff, current_eq_done_iff] at h
    obtain ⟨_, _, ⟨rfl, rfl⟩, t, _, ⟨rfl, rfl⟩, h⟩ := h
    split at h
    · simp only [bind_eq_done_iff, expect_eq_done_iff, pure_eq_done_iff] at h
      obtain ⟨_, _, ⟨rfl, rfl⟩, _, _, ⟨hp, rfl, rfl⟩, rfl, rfl⟩ := h
      have hclose := hc.advance.advance.cons hp (by decide) (passes_refl _)
      exact ⟨_, hname.trans (hc.advance.cons ho (by decide) hclose), .emptyCall hk ho hp⟩
    · simp only [bind_eq_done_iff, expect_eq_done_iff, pure_eq_done_iff] at h
      obtain ⟨args, c₁, hargs, _, _, ⟨hp, rfl, rfl⟩, rfl, rfl⟩ := h
      obtain ⟨ts, hts, p⟩ := hr .arguments _ _ _ hc.advance.advance trivial hargs
      have hclose := (hc.advance.advance.of_passes hts).cons hp (by decide) (passes_refl _)
      rw [hp] at p
      exact ⟨_, hname.trans (hc.advance.cons ho (by decide) (hts.trans hclose)), .call hk ho p hp⟩
  · next ho =>
    obtain ⟨rfl, rfl⟩ := pure_eq_done_iff.mp h
    exact ⟨_, hname, .globalVariable hk ho⟩

theorem sound_argumentsRule (hr : r.Sound) (hc : c.Closed) {es : List Expr}
    (h : argumentsRule r c = .done es d) :
    ∃ ts, c.Passes ts d ∧ Nonterminal.arguments.Reads d.kind ts es := by
  simp only [argumentsRule, bind_eq_done_iff, current_eq_done_iff] at h
  obtain ⟨e, c₁, he, t, _, ⟨rfl, rfl⟩, h⟩ := h
  obtain ⟨ts, hts, p⟩ := hr.expression hc he
  have hc₁ := hc.of_passes hts
  split at h
  · next hk =>
    simp only [bind_eq_done_iff, advance_eq_done_iff, pure_eq_done_iff] at h
    obtain ⟨_, _, ⟨rfl, rfl⟩, es, c₂, hes, rfl, rfl⟩ := h
    obtain ⟨us, hus, ps⟩ := hr .arguments _ _ _ hc₁.advance trivial hes
    rw [Cursor.kind, hk] at p
    exact ⟨_, hts.trans (hc₁.cons hk (by decide) hus), .moreArguments p hk ps⟩
  · obtain ⟨rfl, rfl⟩ := pure_eq_done_iff.mp h
    exact ⟨ts, hts, .lastArgument p⟩

theorem sound_literalRule (hc : c.Closed) (hk : c.kind = .number ∨ c.kind = .string)
    (h : literalRule c = .done e d) :
    ∃ ts, c.Passes ts d ∧ Sentence (.expr .primary) d.kind ts e.unplaced := by
  simp only [literalRule, bind_eq_done_iff, advance_eq_done_iff, pure_eq_done_iff] at h
  obtain ⟨_, _, ⟨rfl, rfl⟩, rfl, rfl⟩ := h
  rcases hk with hk | hk
  · refine ⟨_, hc.passes_advance (by simp [hk]), ?_⟩
    have hs : c.current.kind ≠ .string := by rw [← Cursor.kind, hk]; decide
    rw [if_neg hs]
    exact .number hk
  · refine ⟨_, hc.passes_advance (by simp [hk]), ?_⟩
    have hs : c.current.kind = .string := hk
    rw [if_pos hs]
    exact .string hs

theorem sound_groupingRule (hr : r.Sound) (hc : c.Closed) (hk : c.kind = .openParen)
    (h : groupingRule r c = .done e d) :
    ∃ ts, c.Passes ts d ∧ Sentence (.expr .primary) d.kind ts e.unplaced := by
  simp only [groupingRule, bind_eq_done_iff, advance_eq_done_iff, expect_eq_done_iff,
    pure_eq_done_iff] at h
  obtain ⟨_, _, ⟨rfl, rfl⟩, e, c₁, he, _, _, ⟨hp, rfl, rfl⟩, rfl, rfl⟩ := h
  obtain ⟨ts, hts, p⟩ := hr.expression hc.advance he
  have hclose := (hc.advance.of_passes hts).cons hp (by decide) (passes_refl _)
  rw [hp] at p
  exact ⟨_, hc.cons hk (by decide) (hts.trans hclose), .grouping hk p hp⟩

theorem sound_unaryRule (hr : r.Sound) (hc : c.Closed) (hk : c.kind = .operator)
    (h : unaryRule r c = .done e d) :
    ∃ ts, c.Passes ts d ∧ Sentence (.expr .primary) d.kind ts e.unplaced := by
  simp only [unaryRule, bind_eq_done_iff, advance_eq_done_iff, pure_eq_done_iff] at h
  obtain ⟨_, _, ⟨rfl, rfl⟩, e, c₁, he, rfl, rfl⟩ := h
  obtain ⟨ts, hts, p⟩ := hr.primary hc.advance he
  exact ⟨_, hc.cons hk (by decide) hts, .unary hk p⟩

/-- A statement was ended by its line, or by what ends the block. -/
theorem sound_endStatement (hc : c.Closed) {u : Unit} (h : endStatement c = .done u d) :
    ∃ zs, c.Passes zs d ∧ Ending d.kind zs := by
  simp only [endStatement, bind_eq_done_iff, current_eq_done_iff] at h
  obtain ⟨t, _, ⟨rfl, rfl⟩, h⟩ := h
  split at h
  · next hk =>
    simp only [bind_eq_done_iff, advance_eq_done_iff, pure_eq_done_iff] at h
    obtain ⟨_, _, ⟨rfl, rfl⟩, -, rfl⟩ := h
    exact ⟨_, hc.cons hk (by decide) (passes_refl _), .line hk⟩
  · split at h
    · next hk =>
      obtain ⟨-, rfl⟩ := pure_eq_done_iff.mp h
      exact ⟨[], passes_refl _, .block hk⟩
    · exact absurd (fail_eq_done_iff.mp h) id

/-- Ends of lines before statements do not count. -/
theorem Phrase.blankLines {target : Expr → Prop} {next : Kind} {bs ts : List Token}
    {ss : List Stmt} (hbs : ∀ t ∈ bs, t.kind = .endLine)
    (h : Phrase target .statements next ts ss) : Phrase target .statements next (bs ++ ts) ss := by
  induction bs with
  | nil => exact h
  | cons b bs ih =>
    rw [List.forall_mem_cons] at hbs
    exact .blankLine hbs.1 (ih hbs.2)

/-- What was read as statements are statements, with empty lines between them. -/
theorem sound_statementsRule (hr : r.Sound) (hc : c.Closed) {ss : List Stmt}
    (h : statementsRule r c = .done ss d) :
    ∃ ts, c.Passes ts d ∧ Nonterminal.statements.Reads d.kind ts ss := by
  simp only [statementsRule, bind_eq_done_iff, skipEndLines_eq_done_iff, current_eq_done_iff] at h
  obtain ⟨_, _, rfl, t, _, ⟨rfl, rfl⟩, h⟩ := h
  obtain ⟨bs, hbs, hlines⟩ := hc.passes_skipEndLines
  split at h
  · obtain ⟨rfl, rfl⟩ := pure_eq_done_iff.mp h
    exact ⟨bs ++ [], hbs.trans (passes_refl _), .blankLines hlines .noStatement⟩
  · simp only [bind_eq_done_iff, pure_eq_done_iff] at h
    obtain ⟨s, c₁, hs, ss, c₂, hss, rfl, rfl⟩ := h
    obtain ⟨ts, hts, p⟩ := hr (.stmt .statement) _ _ _ hc.skipEndLines trivial hs
    obtain ⟨us, hus, ps⟩ :=
      hr .statements _ _ _ (hc.skipEndLines.of_passes hts) trivial hss
    rw [hus.kind_eq] at p
    exact ⟨_, hbs.trans (hts.trans hus), .blankLines hlines (.moreStatements p ps)⟩

theorem sound_blockRule (hr : r.Sound) (hc : c.Closed) {b : Block} (h : blockRule r c = .done b d) :
    ∃ ts, c.Passes ts d ∧ Sentence .block d.kind ts b.unplaced := by
  simp only [blockRule, bind_eq_done_iff, current_eq_done_iff, pure_eq_done_iff] at h
  obtain ⟨_, _, ⟨rfl, rfl⟩, ss, c₁, hss, _, _, ⟨rfl, rfl⟩, rfl, rfl⟩ := h
  obtain ⟨ts, hts, p⟩ := hr .statements _ _ _ hc trivial hss
  exact ⟨ts, hts, .block p⟩

theorem sound_statementRule (hr : r.Sound) (hc : c.Closed) {s : Stmt}
    (h : statementRule .standard r c = .done s d) :
    ∃ ts, c.Passes ts d ∧ Sentence (.stmt .statement) d.kind ts s.unplaced := by
  simp only [statementRule, bind_eq_done_iff, current_eq_done_iff] at h
  obtain ⟨t, _, ⟨rfl, rfl⟩, h⟩ := h
  cases hrule : Grammar.standard.statement c.current.kind with
  | some rule =>
    rw [hrule] at h
    have hcalled : (Nonterminal.stmt rule).CalledAt c.kind := by
      cases rule <;> trivial
    exact hr (.stmt rule) c s d hc hcalled h
  | none =>
    rw [hrule] at h
    simp only [bind_eq_done_iff, current_eq_done_iff] at h
    obtain ⟨e, c₁, he, t, _, ⟨rfl, rfl⟩, h⟩ := h
    obtain ⟨ts, hts, pe⟩ := hr.expression hc he
    have hc₁ := hc.of_passes hts
    split at h
    · next hk =>
      split at h
      · next hvar =>
        simp only [bind_eq_done_iff, advance_eq_done_iff, pure_eq_done_iff] at h
        obtain ⟨_, _, ⟨rfl, rfl⟩, v, c₂, hv, _, c₃, hend, rfl, rfl⟩ := h
        obtain ⟨us, hus, pv⟩ := hr.expression hc₁.advance hv
        obtain ⟨zs, hzs, pz⟩ := sound_endStatement (hc₁.advance.of_passes hus) hend
        rw [Cursor.kind, hk] at pe
        rw [hzs.kind_eq] at pv
        exact ⟨_, hts.trans (hc₁.cons hk (by decide) (hus.trans hzs)),
          .assign pe (by rwa [Expr.isVar_mapSpans]) hk pv pz⟩
      · exact absurd (fail_eq_done_iff.mp h) id
    · simp only [bind_eq_done_iff, pure_eq_done_iff] at h
      obtain ⟨_, c₂, hend, rfl, rfl⟩ := h
      obtain ⟨zs, hzs, pz⟩ := sound_endStatement hc₁ hend
      rw [hzs.kind_eq] at pe
      exact ⟨_, hts.trans hzs, .expression pe pz⟩

/-- A condition is passed with its parentheses, whatever is passed after it. -/
theorem sound_conditionRule (hr : r.Sound) (hc : c.Closed) (h : conditionRule r c = .done e d) :
    d.Closed ∧ ∃ o ts p, o.kind = .openParen ∧
      Sentence (.expr .expression) .closeParen ts e.unplaced ∧ p.kind = .closeParen ∧
      ∀ {us c'}, d.Passes us c' → c.Passes (o :: (ts ++ p :: us)) c' := by
  simp only [conditionRule, bind_eq_done_iff, expect_eq_done_iff, pure_eq_done_iff] at h
  obtain ⟨_, _, ⟨ho, rfl, rfl⟩, e, c₁, he, _, _, ⟨hp, rfl, rfl⟩, rfl, rfl⟩ := h
  obtain ⟨ts, hts, pe⟩ := hr.expression hc.advance he
  have hc₁ := hc.advance.of_passes hts
  rw [hp] at pe
  refine ⟨hc₁.advance, c.current, ts, c₁.current, ho, pe, hp, fun hus => ?_⟩
  exact hc.cons ho (by decide) (hts.trans (hc₁.cons hp (by decide) hus))

theorem sound_conditionalRule (hr : r.Sound) (hc : c.Closed) (hk : c.kind = .ifWord) {s : Stmt}
    (h : conditionalRule r c = .done s d) :
    ∃ ts, c.Passes ts d ∧ Sentence (.stmt .statement) d.kind ts s.unplaced := by
  simp only [conditionalRule, elseRule, bind_eq_done_iff, advance_eq_done_iff,
    current_eq_done_iff, expectOr_eq_done_iff, pure_eq_done_iff] at h
  obtain ⟨_, _, ⟨rfl, rfl⟩, e, c₁, he, yes, c₂, hyes, no, c₃, ⟨t, _, ⟨rfl, rfl⟩, hno⟩, _, _,
    ⟨hf, rfl, rfl⟩, _, c₄, hend, rfl, rfl⟩ := h
  obtain ⟨hc₁, o, ts, p, ho, pe, hp, hcond⟩ := sound_conditionRule hr hc.advance he
  obtain ⟨ys, hys, py⟩ := hr.block hc₁ hyes
  have hc₂ := hc₁.of_passes hys
  split at hno
  · next hw =>
    simp only [bind_eq_done_iff, advance_eq_done_iff, pure_eq_done_iff] at hno
    obtain ⟨_, _, ⟨rfl, rfl⟩, no, _, hno, rfl, rfl⟩ := hno
    obtain ⟨ns, hns, pn⟩ := hr.block hc₂.advance hno
    have hc₃ := hc₂.advance.of_passes hns
    obtain ⟨zs, hzs, pz⟩ := sound_endStatement hc₃.advance hend
    rw [Cursor.kind, hw] at py
    rw [hf] at pn
    have hrest := hc₂.cons hw (by decide) (hns.trans (hc₃.cons hf (by decide) hzs))
    exact ⟨_, hc.cons hk (by decide) (hcond (hys.trans hrest)),
      .condElse hk ho pe hp py hw pn hf pz⟩
  · obtain ⟨rfl, rfl⟩ := pure_eq_done_iff.mp hno
    obtain ⟨zs, hzs, pz⟩ := sound_endStatement hc₂.advance hend
    rw [hf] at py
    exact ⟨_, hc.cons hk (by decide) (hcond (hys.trans (hc₂.cons hf (by decide) hzs))),
      .cond hk ho pe hp py hf pz⟩

theorem sound_testedLoopRule (hr : r.Sound) (hc : c.Closed) (hk : c.kind = .whileWord) {s : Stmt}
    (h : testedLoopRule r c = .done s d) :
    ∃ ts, c.Passes ts d ∧ Sentence (.stmt .statement) d.kind ts s.unplaced := by
  simp only [testedLoopRule, bind_eq_done_iff, advance_eq_done_iff, expectOr_eq_done_iff,
    pure_eq_done_iff] at h
  obtain ⟨_, _, ⟨rfl, rfl⟩, e, c₁, he, body, c₂, hbody, _, _, ⟨hf, rfl, rfl⟩, _, c₃, hend, rfl,
    rfl⟩ := h
  obtain ⟨hc₁, o, ts, p, ho, pe, hp, hcond⟩ := sound_conditionRule hr hc.advance he
  obtain ⟨ys, hys, py⟩ := hr.block hc₁ hbody
  have hc₂ := hc₁.of_passes hys
  obtain ⟨zs, hzs, pz⟩ := sound_endStatement hc₂.advance hend
  rw [hf] at py
  exact ⟨_, hc.cons hk (by decide) (hcond (hys.trans (hc₂.cons hf (by decide) hzs))),
    .loop hk ho pe hp py hf pz⟩

theorem sound_repeatedLoopRule (hr : r.Sound) (hc : c.Closed) (hk : c.kind = .repeatWord)
    {s : Stmt} (h : repeatedLoopRule r c = .done s d) :
    ∃ ts, c.Passes ts d ∧ Sentence (.stmt .statement) d.kind ts s.unplaced := by
  simp only [repeatedLoopRule, bind_eq_done_iff, advance_eq_done_iff, expectOr_eq_done_iff,
    pure_eq_done_iff] at h
  obtain ⟨_, _, ⟨rfl, rfl⟩, body, c₁, hbody, _, _, ⟨hu, rfl, rfl⟩, e, c₂, he, _, c₃, hend, rfl,
    rfl⟩ := h
  obtain ⟨ys, hys, py⟩ := hr.block hc.advance hbody
  have hc₁ := hc.advance.of_passes hys
  obtain ⟨hc₂, o, ts, p, ho, pe, hp, hcond⟩ := sound_conditionRule hr hc₁.advance he
  obtain ⟨zs, hzs, pz⟩ := sound_endStatement hc₂ hend
  rw [hu] at py
  exact ⟨_, hc.cons hk (by decide) (hys.trans (hc₁.cons hu (by decide) (hcond hzs))),
    .loopUntil hk py hu ho pe hp pz⟩

/-- What is counted with was found to be a variable. -/
theorem sound_counterRule (hr : r.Sound) (hc : c.Closed) (h : counterRule r c = .done e d) :
    ∃ ts, c.Passes ts d ∧ Sentence (.expr .primary) d.kind ts e.unplaced ∧
      e.unplaced.isVar = true := by
  simp only [counterRule, bind_eq_done_iff] at h
  obtain ⟨v, c₁, hv, h⟩ := h
  obtain ⟨ts, hts, pv⟩ := hr.primary hc hv
  split at h
  · next hvar =>
    obtain ⟨rfl, rfl⟩ := pure_eq_done_iff.mp h
    exact ⟨ts, hts, pv, by rwa [Expr.isVar_mapSpans]⟩
  · exact absurd (fail_eq_done_iff.mp h) id

theorem sound_countingRule (hr : r.Sound) (hc : c.Closed) (hk : c.kind = .forWord) {s : Stmt}
    (h : countingRule r c = .done s d) :
    ∃ ts, c.Passes ts d ∧ Sentence (.stmt .statement) d.kind ts s.unplaced := by
  -- The heading is taken apart in steps: each `rfl` goes through all that is still to be taken apart.
  simp only [countingRule, bind_eq_done_iff, advance_eq_done_iff, expect_eq_done_iff] at h
  obtain ⟨_, _, ⟨rfl, rfl⟩, _, _, ⟨ho, rfl, rfl⟩, v, c₁, hv, _, _, ⟨h₁, rfl, rfl⟩, h⟩ := h
  obtain ⟨a, c₂, ha, _, _, ⟨h₂, rfl, rfl⟩, b, c₃, hb, i, c₄, hi, h⟩ := h
  simp only [incrementRule, bind_eq_done_iff, current_eq_done_iff, expectOr_eq_done_iff,
    pure_eq_done_iff] at hi h
  obtain ⟨t, _, ⟨rfl, rfl⟩, hi⟩ := hi
  obtain ⟨_, _, ⟨hp, rfl, rfl⟩, body, c₅, hbody, _, _, ⟨hf, rfl, rfl⟩, _, c₆, hend, rfl, rfl⟩ := h
  have hco := hc.advance.advance
  obtain ⟨vs, hvs, pv, ht⟩ := sound_counterRule hr hco hv
  have hc₁ := hco.of_passes hvs
  obtain ⟨as, has, pa⟩ := hr.expression hc₁.advance ha
  have hc₂ := hc₁.advance.of_passes has
  obtain ⟨bs, hbs, pb⟩ := hr.expression hc₂.advance hb
  have hc₃ := hc₂.advance.of_passes hbs
  rw [h₁] at pv
  rw [h₂] at pa
  split at hi
  · next h₃ =>
    simp only [bind_eq_done_iff, advance_eq_done_iff, pure_eq_done_iff] at hi
    obtain ⟨_, _, ⟨rfl, rfl⟩, i, _, hi, rfl, rfl⟩ := hi
    obtain ⟨is, his, pi⟩ := hr.expression hc₃.advance hi
    have hc₄ := hc₃.advance.of_passes his
    obtain ⟨ys, hys, py⟩ := hr.block hc₄.advance hbody
    have hc₅ := hc₄.advance.of_passes hys
    obtain ⟨zs, hzs, pz⟩ := sound_endStatement hc₅.advance hend
    rw [Cursor.kind, h₃] at pb
    rw [hp] at pi
    rw [hf] at py
    have hbody := his.trans (hc₄.cons hp (by decide) (hys.trans (hc₅.cons hf (by decide) hzs)))
    have hbounds := has.trans (hc₂.cons h₂ (by decide) (hbs.trans (hc₃.cons h₃ (by decide) hbody)))
    have hheading := hc.advance.cons ho (by decide) (hvs.trans (hc₁.cons h₁ (by decide) hbounds))
    exact ⟨_, hc.cons hk (by decide) hheading,
      .countBy hk ho pv ht h₁ pa h₂ pb h₃ pi hp py hf pz⟩
  · obtain ⟨rfl, rfl⟩ := pure_eq_done_iff.mp hi
    obtain ⟨ys, hys, py⟩ := hr.block hc₃.advance hbody
    have hc₅ := hc₃.advance.of_passes hys
    obtain ⟨zs, hzs, pz⟩ := sound_endStatement hc₅.advance hend
    rw [hp] at pb
    rw [hf] at py
    have hbody := hbs.trans (hc₃.cons hp (by decide) (hys.trans (hc₅.cons hf (by decide) hzs)))
    have hbounds := has.trans (hc₂.cons h₂ (by decide) hbody)
    have hheading := hc.advance.cons ho (by decide) (hvs.trans (hc₁.cons h₁ (by decide) hbounds))
    exact ⟨_, hc.cons hk (by decide) hheading,
      .count hk ho pv ht h₁ pa h₂ pb hp py hf pz⟩

end

/-- One more level of calls is answered. -/
theorem sound_answer {r : Rules} (hr : r.Sound) : (Grammar.standard.answer r).Sound := by
  intro s c tree d hc hs h
  match s with
  | .block => exact sound_blockRule hr hc h
  | .statements => exact sound_statementsRule hr hc h
  | .arguments => exact sound_argumentsRule hr hc h
  | .stmt .statement => exact sound_statementRule hr hc h
  | .stmt .conditional =>
    exact sound_conditionalRule hr hc (Grammar.standardStatement_eq_conditional.mp hs) h
  | .stmt .counting =>
    exact sound_countingRule hr hc (Grammar.standardStatement_eq_counting.mp hs) h
  | .stmt .testedLoop =>
    exact sound_testedLoopRule hr hc (Grammar.standardStatement_eq_testedLoop.mp hs) h
  | .stmt .repeatedLoop =>
    exact sound_repeatedLoopRule hr hc (Grammar.standardStatement_eq_repeatedLoop.mp hs) h
  | .expr .expression => exact sound_expressionRule hr hc h
  | .expr .primary => exact sound_primaryRule hr hc h
  | .expr .localVariable =>
    have hk := Grammar.standardPrimary_eq_localVariable.mp hs
    obtain ⟨sigil, name, hp, hs, hn, he⟩ := sound_variableRule hc (by simp [hk]) h
    refine ⟨_, hp, ?_⟩
    show Sentence (.expr .primary) d.kind [sigil, name] (Expr.unplaced tree)
    rw [he]
    exact .localVariable (hs.trans hk) hn
  | .expr .persistentVariable =>
    have hk := Grammar.standardPrimary_eq_persistentVariable.mp hs
    obtain ⟨sigil, name, hp, hs, hn, he⟩ := sound_variableRule hc (by simp [hk]) h
    refine ⟨_, hp, ?_⟩
    show Sentence (.expr .primary) d.kind [sigil, name] (Expr.unplaced tree)
    rw [he]
    exact .persistentVariable (hs.trans hk) hn
  | .expr .name => exact sound_nameRule hr hc (Grammar.standardPrimary_eq_name.mp hs) h
  | .expr .literal => exact sound_literalRule hc (Grammar.standardPrimary_eq_literal.mp hs) h
  | .expr .grouping =>
    exact sound_groupingRule hr hc (Grammar.standardPrimary_eq_grouping.mp hs) h
  | .expr .unary => exact sound_unaryRule hr hc (Grammar.standardPrimary_eq_unary.mp hs) h

/-- Whatever a rule passes over when it is done is a phrase for its tree. -/
theorem sound_rules (depth : Nat) : Rules.Sound (Grammar.standard.rules depth) := by
  induction depth with
  | zero => exact fun s c tree d _ _ h => by simp [Grammar.rules, circular] at h
  | succ depth ih => exact sound_answer ih

end Sigil
