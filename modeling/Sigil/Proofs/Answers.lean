import Sigil.Program.Analysis
import Sigil.Proofs.Reading

/-!
# What rules do with answers to their calls

A rule calls other rules and goes on behind what they have read. Given that each call answers with some
tree, the rule answers with the tree that it makes of them. One lemma says so for each way in which a
phrase can be built.
-/

namespace Sigil

open Parse Cursor

/-! ## What phrases start with -/

namespace Nonterminal

/-- Whether phrases of a nonterminal can start with a token of kind `k`. Blocks are not restricted: they
may be empty. -/
def CanStart : Nonterminal → Kind → Prop
  | expr _, k => (Grammar.standardPrimary k).isSome
  | arguments, k => (Grammar.standardPrimary k).isSome
  | stmt _, k => (Grammar.standardPrimary k).isSome ∨ (Grammar.standardStatement k).isSome
  | _, _ => True

end Nonterminal

/-- A phrase starts with a token that its nonterminal can start with. -/
theorem Phrase.canStart {target : Expr → Prop} {s : Nonterminal} {next : Kind} {ts : List Token}
    {tree : s.Tree} (h : Phrase target s next ts tree) (k : Kind) :
    s.CanStart (firstKind ts k) := by
  induction h generalizing k with
  | primary _ ih => exact ih k
  | binary _ _ _ ih _ => rw [firstKind_append]; exact ih _
  | localVariable hs | persistentVariable hs =>
    simp [Nonterminal.CanStart, hs, Grammar.standardPrimary]
  | globalVariable hn | emptyCall hn | call hn =>
    simp [Nonterminal.CanStart, hn, Grammar.standardPrimary]
  | number ht | string ht => simp [Nonterminal.CanStart, ht, Grammar.standardPrimary]
  | grouping ho => simp [Nonterminal.CanStart, ho, Grammar.standardPrimary]
  | unary hop => simp [Nonterminal.CanStart, hop, Grammar.standardPrimary]
  | lastArgument _ ih => exact ih k
  | moreArguments _ _ _ ih _ => rw [firstKind_append]; exact ih _
  | expression _ _ ih => rw [firstKind_append]; exact .inl (ih _)
  | assign _ _ _ _ _ ih _ => rw [firstKind_append]; exact .inl (ih _)
  | cond hi | condElse hi => simp [Nonterminal.CanStart, hi, Grammar.standardStatement]
  | count hw | countBy hw | loop hw | loopUntil hw =>
    simp [Nonterminal.CanStart, hw, Grammar.standardStatement]
  | noStatement | blankLine | moreStatements | block => trivial

/-- What starts a statement neither ends a line nor a block. -/
theorem Nonterminal.CanStart.of_statement {k : Kind} (h : CanStart (.stmt .statement) k) :
    k ≠ .endLine ∧ k.endsBlock = false := by
  cases k <;>
    simp_all [CanStart, Grammar.standardPrimary, Grammar.standardStatement, Kind.endsBlock]

/-- No statement is empty. -/
theorem Phrase.statement_ne_nil {target : Expr → Prop} {next : Kind} {ts : List Token} {s : Stmt}
    (h : Phrase target (.stmt .statement) next ts s) : ts ≠ [] := by
  rintro rfl
  exact absurd rfl (h.canStart .endLine).of_statement.1

/-- What starts an operand neither starts a statement of its own kind nor closes anything. -/
theorem Grammar.of_standardPrimary {k : Kind} (h : (standardPrimary k).isSome) :
    standardStatement k = none ∧ k ≠ .closeParen := by
  cases k <;> simp_all [standardPrimary, standardStatement]

theorem Kind.ne_endLine_of_endsBlock {k : Kind} (h : k.endsBlock = true) : k ≠ .endLine := by
  rintro rfl
  exact absurd h (by decide)

/-! ## Answers -/

/-- The tree without its places. -/
def Nonterminal.unplaced : (s : Nonterminal) → s.Tree → s.Tree
  | expr _, e => e.unplaced
  | arguments, es => Expr.mapSpansAll (fun _ => .nowhere) es
  | stmt _, s => s.unplaced
  | statements, ss => Block.mapSpansAll (fun _ => .nowhere) ss
  | block, b => b.unplaced

/-- A call for `s` at `c` is answered with `tree`, up to places, and leaves the cursor at `d`. -/
def Rules.Answers (r : Rules) (s : Nonterminal) (c : Cursor) (tree : s.Tree) (d : Cursor) : Prop :=
  ∃ placed, r s c = .done placed d ∧ s.unplaced placed = tree

namespace Rules.Answers

variable {r : Rules} {c d : Cursor}

theorem expr {rule : ExprRule} {e : Expr} (h : r.Answers (.expr rule) c e d) :
    ∃ x, r.expr rule c = .done x d ∧ x.unplaced = e := h

theorem arguments {es : List Expr} (h : r.Answers .arguments c es d) :
    ∃ xs, r.arguments c = .done xs d ∧ Expr.mapSpansAll (fun _ => .nowhere) xs = es := h

theorem stmt {rule : StmtRule} {s : Stmt} (h : r.Answers (.stmt rule) c s d) :
    ∃ x, r.stmt rule c = .done x d ∧ x.unplaced = s := h

theorem statements {ss : List Stmt} (h : r.Answers .statements c ss d) :
    ∃ xs, r.statements c = .done xs d ∧ Block.mapSpansAll (fun _ => .nowhere) xs = ss := h

theorem block {b : Block} (h : r.Answers .block c b d) :
    ∃ x, r.block c = .done x d ∧ x.unplaced = b := h

end Rules.Answers

section

variable {r : Rules} {c c₁ c₂ d : Cursor} {e e₁ e₂ : Expr}

/-- An expression is its first part, if no operator comes next. -/
theorem answers_primary (h : r.Answers (.expr .primary) c e d) (hk : d.current.kind ≠ .operator) :
    (Grammar.standard.answer r).Answers (.expr .expression) c e d := by
  obtain ⟨x, hx, rfl⟩ := h.expr
  refine ⟨x, ?_, rfl⟩
  show expressionRule r c = .done x d
  rw [expressionRule, bind_of_done hx, current_bind, if_neg hk]
  rfl

/-- Behind an operator the rest of the expression is its right operand. -/
theorem answers_binary (h₁ : r.Answers (.expr .primary) c e₁ c₁)
    (hk : c₁.current.kind = .operator) (h₂ : r.Answers (.expr .expression) c₁.advance e₂ d) :
    (Grammar.standard.answer r).Answers (.expr .expression) c
      (.binary c₁.current.value e₁ e₂ .undetermined .nowhere) d := by
  obtain ⟨x, hx, rfl⟩ := h₁.expr
  obtain ⟨y, hy, rfl⟩ := h₂.expr
  refine ⟨.binary c₁.current.value x y .undetermined (x.span.merge y.span), ?_, rfl⟩
  show expressionRule r c = _
  rw [expressionRule, bind_of_done hx, current_bind, if_pos hk, advance_bind, bind_of_done hy]
  rfl

/-- An operand is read by the rule that the table has for its first token. -/
theorem answers_of_standardPrimary {rule : ExprRule}
    (hrule : Grammar.standardPrimary c.kind = some rule) (h : r.Answers (.expr rule) c e d) :
    (Grammar.standard.answer r).Answers (.expr .primary) c e d := by
  obtain ⟨x, hx, rfl⟩ := h.expr
  refine ⟨x, ?_, rfl⟩
  show primaryRule .standard r c = .done x d
  have hrule : Grammar.standard.primary c.current.kind = some rule := hrule
  rw [primaryRule, current_bind, hrule]
  exact hx

/-- Behind a sigil both a name and a number can stand. -/
theorem variableRule_eq_done {storage : Storage}
    (hn : c.advance.current.kind = .name ∨ c.advance.current.kind = .number) :
    variableRule storage c = .done
      (.var ⟨c.advance.current.value, storage⟩ .undetermined
        (c.current.span.merge c.advance.current.span)) c.advance.advance := by
  rw [variableRule, advance_bind, current_bind, if_pos hn, advance_bind]
  rfl

theorem answers_globalVariable (hk : c.peek 1 ≠ .openParen) :
    (Grammar.standard.answer r).Answers (.expr .name) c
      (.var ⟨c.current.value, .globalSlot⟩ .undetermined .nowhere) c.advance := by
  refine ⟨.var ⟨c.current.value, .globalSlot⟩ .undetermined c.current.span, ?_, rfl⟩
  show nameRule r c = _
  rw [nameRule, peek_bind, advance_bind, if_neg hk]
  rfl

theorem answers_emptyCall (ho : c.peek 1 = .openParen)
    (hp : c.advance.advance.current.kind = .closeParen) :
    (Grammar.standard.answer r).Answers (.expr .name) c
      (.call c.current.value [] .undetermined .nowhere) c.advance.advance.advance := by
  refine ⟨.call c.current.value [] .undetermined
    (c.current.span.merge c.advance.advance.current.span), ?_, rfl⟩
  show nameRule r c = _
  -- The choice between no arguments and some is a computation of its own, which `pure` ends.
  rw [nameRule, peek_bind, advance_bind, if_pos ho, advance_bind, current_bind, if_pos hp,
    bind_of_done (pure_eq_done_iff.mpr ⟨rfl, rfl⟩)]
  exact expect_bind _ hp

/-- The arguments of a call go up to the closing parenthesis. -/
theorem answers_call {args : List Expr} (ho : c.peek 1 = .openParen)
    (hne : c.advance.advance.current.kind ≠ .closeParen)
    (h : r.Answers .arguments c.advance.advance args d) (hp : d.current.kind = .closeParen) :
    (Grammar.standard.answer r).Answers (.expr .name) c
      (.call c.current.value args .undetermined .nowhere) d.advance := by
  obtain ⟨xs, hxs, rfl⟩ := h.arguments
  refine ⟨.call c.current.value xs .undetermined (c.current.span.merge d.current.span), ?_, rfl⟩
  show nameRule r c = _
  rw [nameRule, peek_bind, advance_bind, if_pos ho, advance_bind, current_bind, if_neg hne,
    bind_of_done hxs]
  exact expect_bind _ hp

theorem answers_lastArgument (h : r.Answers (.expr .expression) c e d)
    (hk : d.current.kind ≠ .semicolon) :
    (Grammar.standard.answer r).Answers .arguments c [e] d := by
  obtain ⟨x, hx, rfl⟩ := h.expr
  refine ⟨[x], ?_, rfl⟩
  show argumentsRule r c = .done [x] d
  rw [argumentsRule, bind_of_done hx, current_bind, if_neg hk]
  rfl

theorem answers_moreArguments {es : List Expr} (h : r.Answers (.expr .expression) c e c₁)
    (hk : c₁.current.kind = .semicolon) (hs : r.Answers .arguments c₁.advance es d) :
    (Grammar.standard.answer r).Answers .arguments c (e :: es) d := by
  obtain ⟨x, hx, rfl⟩ := h.expr
  obtain ⟨xs, hxs, rfl⟩ := hs.arguments
  refine ⟨x :: xs, ?_, rfl⟩
  show argumentsRule r c = .done (x :: xs) d
  rw [argumentsRule, bind_of_done hx, current_bind, if_pos hk, advance_bind, bind_of_done hxs]
  rfl

theorem answers_literal (ty : Ty) (ht : (if c.current.kind = .string then Ty.string else .number) = ty) :
    (Grammar.standard.answer r).Answers (.expr .literal) c
      (.literal c.current.value ty .nowhere) c.advance := by
  refine ⟨.literal c.current.value ty c.current.span, ?_, rfl⟩
  show literalRule c = _
  rw [literalRule, advance_bind, ← ht]
  rfl

theorem answers_grouping (h : r.Answers (.expr .expression) c.advance e d)
    (hp : d.current.kind = .closeParen) :
    (Grammar.standard.answer r).Answers (.expr .grouping) c e d.advance := by
  obtain ⟨x, hx, rfl⟩ := h.expr
  refine ⟨x, ?_, rfl⟩
  show groupingRule r c = .done x d.advance
  rw [groupingRule, advance_bind, bind_of_done hx, expect_bind _ hp]
  rfl

theorem answers_unary (h : r.Answers (.expr .primary) c.advance e d) :
    (Grammar.standard.answer r).Answers (.expr .unary) c
      (.unary c.current.value e .undetermined .nowhere) d := by
  obtain ⟨x, hx, rfl⟩ := h.expr
  refine ⟨.unary c.current.value x .undetermined (c.current.span.merge x.span), ?_, rfl⟩
  show unaryRule r c = _
  rw [unaryRule, advance_bind, bind_of_done hx]
  rfl

/-- A statement ends with its line, or before something that ends the block. -/
theorem endStatement_eq_done {zs : List Token} (hz : Ending d.kind zs) (hp : c.Passes zs d) :
    endStatement c = .done () d := by
  cases hz with
  | line ht =>
    obtain ⟨rfl, hp, -⟩ := hp.uncons
    rw [endStatement, current_bind, if_pos ht, ← passes_nil_iff.mp hp]
    rfl
  | block hk =>
    obtain rfl := passes_nil_iff.mp hp
    have hk : c.current.kind.endsBlock = true := hk
    rw [endStatement, current_bind, if_neg (Kind.ne_endLine_of_endsBlock hk), if_pos hk]
    rfl

theorem answers_noStatement (hk : c.kind.endsBlock = true) :
    (Grammar.standard.answer r).Answers .statements c [] c := by
  refine ⟨[], ?_, rfl⟩
  show statementsRule r c = .done [] c
  rw [statementsRule, skipEndLines_bind, skipEndLines_of_ne (Kind.ne_endLine_of_endsBlock hk),
    current_bind]
  exact congrFun (if_pos hk) c

/-- What can start a statement is read as one, and the others follow. -/
theorem answers_moreStatements {s : Stmt} {ss : List Stmt}
    (hk : Nonterminal.CanStart (.stmt .statement) c.kind)
    (h : r.Answers (.stmt .statement) c s c₁) (hs : r.Answers .statements c₁ ss d) :
    (Grammar.standard.answer r).Answers .statements c (s :: ss) d := by
  obtain ⟨x, hx, rfl⟩ := h.stmt
  obtain ⟨xs, hxs, rfl⟩ := hs.statements
  refine ⟨x :: xs, ?_, rfl⟩
  have hne : ¬ c.current.kind.endsBlock = true := by
    rw [← Cursor.kind, hk.of_statement.2]
    exact Bool.false_ne_true
  show statementsRule r c = .done (x :: xs) d
  rw [statementsRule, skipEndLines_bind, skipEndLines_of_ne hk.of_statement.1, current_bind,
    if_neg hne, bind_of_done hx, bind_of_done hxs]
  rfl

/-- The end of a line before statements makes no difference. -/
theorem statementsRule_of_endLine (ha : c.ahead ≠ []) (hk : c.kind = .endLine) :
    statementsRule r c = statementsRule r c.advance := by
  rw [statementsRule, skipEndLines_bind, skipEndLines_bind, skipEndLines_of_endLine ha hk]

theorem answers_blankLine {ss : List Stmt} (ha : c.ahead ≠ []) (hk : c.kind = .endLine)
    (h : (Grammar.standard.answer r).Answers .statements c.advance ss d) :
    (Grammar.standard.answer r).Answers .statements c ss d := by
  obtain ⟨xs, hxs, rfl⟩ := h
  refine ⟨xs, ?_, rfl⟩
  rw [← hxs]
  exact statementsRule_of_endLine ha hk

theorem answers_block {ss : List Stmt} (h : r.Answers .statements c ss d) :
    (Grammar.standard.answer r).Answers .block c (.mk ss .nowhere) d := by
  obtain ⟨xs, hxs, rfl⟩ := h.statements
  refine ⟨.mk xs (c.current.span.merge d.current.span), ?_, rfl⟩
  show blockRule r c = _
  rw [blockRule, current_bind, bind_of_done hxs, current_bind]
  rfl

/-- A statement is read by the rule that the table has for its first token. -/
theorem answers_of_standardStatement {rule : StmtRule} {s : Stmt}
    (hrule : Grammar.standardStatement c.kind = some rule) (h : r.Answers (.stmt rule) c s d) :
    (Grammar.standard.answer r).Answers (.stmt .statement) c s d := by
  obtain ⟨x, hx, rfl⟩ := h.stmt
  refine ⟨x, ?_, rfl⟩
  show statementRule .standard r c = .done x d
  have hrule : Grammar.standard.statement c.current.kind = some rule := hrule
  rw [statementRule, current_bind, hrule]
  exact hx

/-- A statement that starts like an expression is one, unless `:=` follows. -/
theorem answers_expression {zs : List Token} (hk : Nonterminal.CanStart (.expr .expression) c.kind)
    (h : r.Answers (.expr .expression) c e c₁) (hp : c₁.Passes zs d) (hz : Ending d.kind zs)
    (hne : c₁.current.kind ≠ .assign) :
    (Grammar.standard.answer r).Answers (.stmt .statement) c (.expression e .nowhere) d := by
  obtain ⟨x, hx, rfl⟩ := h.expr
  refine ⟨.expression x x.span, ?_, rfl⟩
  have hrule : Grammar.standard.statement c.current.kind = none := (Grammar.of_standardPrimary hk).1
  show statementRule .standard r c = _
  rw [statementRule, current_bind, hrule]
  show (r.expr .expression >>= _) c = _
  rw [bind_of_done hx, current_bind, if_neg hne, bind_of_done (endStatement_eq_done hz hp)]
  rfl

/-- What is assigned to is read as an expression, which must be a variable. -/
theorem answers_assign {zs : List Token} (hk : Nonterminal.CanStart (.expr .expression) c.kind)
    (h₁ : r.Answers (.expr .expression) c e₁ c₁) (ha : c₁.current.kind = .assign)
    (hvar : e₁.isVar = true) (h₂ : r.Answers (.expr .expression) c₁.advance e₂ c₂)
    (hp : c₂.Passes zs d) (hz : Ending d.kind zs) :
    (Grammar.standard.answer r).Answers (.stmt .statement) c (.assign e₁ e₂ .nowhere) d := by
  obtain ⟨x, hx, rfl⟩ := h₁.expr
  obtain ⟨y, hy, rfl⟩ := h₂.expr
  rw [Expr.isVar_mapSpans] at hvar
  refine ⟨.assign x y (x.span.merge y.span), ?_, rfl⟩
  have hrule : Grammar.standard.statement c.current.kind = none := (Grammar.of_standardPrimary hk).1
  show statementRule .standard r c = _
  rw [statementRule, current_bind, hrule]
  show (r.expr .expression >>= _) c = _
  rw [bind_of_done hx, current_bind, if_pos ha, if_pos hvar, advance_bind, bind_of_done hy,
    bind_of_done (endStatement_eq_done hz hp)]
  rfl

theorem conditionRule_eq_done {x : Expr} (ho : c.current.kind = .openParen)
    (h : r.expr .expression c.advance = .done x d) (hp : d.current.kind = .closeParen) :
    conditionRule r c = .done x d.advance := by
  rw [conditionRule, expect_bind _ ho, bind_of_done h, expect_bind _ hp]
  rfl

theorem answers_cond {yes : Block} {zs : List Token} (ho : c.advance.current.kind = .openParen)
    (h : r.Answers (.expr .expression) c.advance.advance e c₁)
    (hp : c₁.current.kind = .closeParen) (hb : r.Answers .block c₁.advance yes c₂)
    (hf : c₂.current.kind = .endIf) (hzs : c₂.advance.Passes zs d) (hz : Ending d.kind zs) :
    (Grammar.standard.answer r).Answers (.stmt .conditional) c (.cond e yes none .nowhere) d := by
  obtain ⟨x, hx, rfl⟩ := h.expr
  obtain ⟨y, hy, rfl⟩ := hb.block
  refine ⟨.cond x y none (c.current.span.merge c₂.current.span), ?_, rfl⟩
  have helse : elseRule r c₂ = .done none c₂ := by
    rw [elseRule, current_bind, if_neg (by simp [hf])]
    rfl
  show conditionalRule r c = _
  rw [conditionalRule, advance_bind, bind_of_done (conditionRule_eq_done ho hx hp),
    bind_of_done hy, bind_of_done helse, expectOr_bind _ hf,
    bind_of_done (endStatement_eq_done hz hzs)]
  rfl

/-- With an alternative there are two blocks, one behind the other. -/
theorem answers_condElse {c₃ : Cursor} {yes no : Block} {zs : List Token}
    (ho : c.advance.current.kind = .openParen)
    (h : r.Answers (.expr .expression) c.advance.advance e c₁)
    (hp : c₁.current.kind = .closeParen) (hb : r.Answers .block c₁.advance yes c₂)
    (hw : c₂.current.kind = .elseWord) (hno : r.Answers .block c₂.advance no c₃)
    (hf : c₃.current.kind = .endIf) (hzs : c₃.advance.Passes zs d) (hz : Ending d.kind zs) :
    (Grammar.standard.answer r).Answers (.stmt .conditional) c
      (.cond e yes (some no) .nowhere) d := by
  obtain ⟨x, hx, rfl⟩ := h.expr
  obtain ⟨y, hy, rfl⟩ := hb.block
  obtain ⟨n, hn, rfl⟩ := hno.block
  refine ⟨.cond x y (some n) (c.current.span.merge c₃.current.span), ?_, rfl⟩
  have helse : elseRule r c₂ = .done (some n) c₃ := by
    rw [elseRule, current_bind, if_pos hw, advance_bind, bind_of_done hn]
    rfl
  show conditionalRule r c = _
  rw [conditionalRule, advance_bind, bind_of_done (conditionRule_eq_done ho hx hp),
    bind_of_done hy, bind_of_done helse, expectOr_bind _ hf,
    bind_of_done (endStatement_eq_done hz hzs)]
  rfl

theorem answers_loop {body : Block} {zs : List Token} (ho : c.advance.current.kind = .openParen)
    (h : r.Answers (.expr .expression) c.advance.advance e c₁)
    (hp : c₁.current.kind = .closeParen) (hb : r.Answers .block c₁.advance body c₂)
    (hf : c₂.current.kind = .endWhile) (hzs : c₂.advance.Passes zs d) (hz : Ending d.kind zs) :
    (Grammar.standard.answer r).Answers (.stmt .testedLoop) c (.loop e body .nowhere) d := by
  obtain ⟨x, hx, rfl⟩ := h.expr
  obtain ⟨y, hy, rfl⟩ := hb.block
  refine ⟨.loop x y (c.current.span.merge c₂.current.span), ?_, rfl⟩
  show testedLoopRule r c = _
  rw [testedLoopRule, advance_bind, bind_of_done (conditionRule_eq_done ho hx hp),
    bind_of_done hy, expectOr_bind _ hf, bind_of_done (endStatement_eq_done hz hzs)]
  rfl

theorem answers_loopUntil {body : Block} {zs : List Token}
    (hb : r.Answers .block c.advance body c₁) (hu : c₁.current.kind = .untilWord)
    (ho : c₁.advance.current.kind = .openParen)
    (h : r.Answers (.expr .expression) c₁.advance.advance e c₂)
    (hp : c₂.current.kind = .closeParen) (hzs : c₂.advance.Passes zs d) (hz : Ending d.kind zs) :
    (Grammar.standard.answer r).Answers (.stmt .repeatedLoop) c (.loopUntil body e .nowhere) d := by
  obtain ⟨x, hx, rfl⟩ := h.expr
  obtain ⟨y, hy, rfl⟩ := hb.block
  -- The span ends with the condition, not with its parenthesis.
  refine ⟨.loopUntil y x (c.current.span.merge x.span), ?_, rfl⟩
  show repeatedLoopRule r c = _
  rw [repeatedLoopRule, advance_bind, bind_of_done hy, expectOr_bind _ hu,
    bind_of_done (conditionRule_eq_done ho hx hp), bind_of_done (endStatement_eq_done hz hzs)]
  rfl

/-- The head of a counting loop has a variable, two bounds and perhaps an increment. -/
theorem answers_count {c₃ c₄ c₅ : Cursor} {v a b : Expr} {i : Option Expr} {body : Block}
    {zs : List Token} (ho : c.advance.current.kind = .openParen)
    (hv : r.Answers (.expr .primary) c.advance.advance v c₁) (hvar : v.isVar = true)
    (h₁ : c₁.current.kind = .semicolon) (ha : r.Answers (.expr .expression) c₁.advance a c₂)
    (h₂ : c₂.current.kind = .semicolon) (hb : r.Answers (.expr .expression) c₂.advance b c₃)
    (hi : ∃ x, incrementRule r c₃ = .done x c₄ ∧ x.map Expr.unplaced = i)
    (hp : c₄.current.kind = .closeParen) (hy : r.Answers .block c₄.advance body c₅)
    (hf : c₅.current.kind = .endFor) (hzs : c₅.advance.Passes zs d) (hz : Ending d.kind zs) :
    (Grammar.standard.answer r).Answers (.stmt .counting) c (.count v a b i body .nowhere) d := by
  obtain ⟨x, hx, rfl⟩ := hv.expr
  obtain ⟨x₁, hx₁, rfl⟩ := ha.expr
  obtain ⟨x₂, hx₂, rfl⟩ := hb.expr
  obtain ⟨x₃, hx₃, rfl⟩ := hi
  obtain ⟨y, hbody, rfl⟩ := hy.block
  rw [Expr.isVar_mapSpans] at hvar
  refine ⟨.count x x₁ x₂ x₃ y (c.current.span.merge c₅.current.span), ?_, rfl⟩
  have hcounter : counterRule r c.advance.advance = .done x c₁ := by
    rw [counterRule, bind_of_done hx, if_pos hvar]
    rfl
  show countingRule r c = _
  rw [countingRule, advance_bind, expect_bind _ ho, bind_of_done hcounter, expect_bind _ h₁,
    bind_of_done hx₁, expect_bind _ h₂, bind_of_done hx₂, bind_of_done hx₃, expect_bind _ hp,
    bind_of_done hbody, expectOr_bind _ hf, bind_of_done (endStatement_eq_done hz hzs)]
  rfl

theorem incrementRule_eq_none (hk : c.current.kind ≠ .semicolon) :
    incrementRule r c = .done none c := by
  rw [incrementRule, current_bind, if_neg hk]
  rfl

theorem incrementRule_eq_some {x : Expr} (hk : c.current.kind = .semicolon)
    (h : r.expr .expression c.advance = .done x d) : incrementRule r c = .done (some x) d := by
  rw [incrementRule, current_bind, if_pos hk, advance_bind, bind_of_done h]
  rfl

end

end Sigil
