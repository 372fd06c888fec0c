import Sigil.Proofs.Acceptance
import Sigil.Proofs.Outcome

/-!
# The loose grammar

In the loose grammar any expression may be assigned to, and any operand may be counted with. The
parser does not go by it, but nearly: where a phrase of the loose grammar stands, a rule reads it to
its end unless it finds fault with what is assigned to or counted with there (`Phrase.walks`). It
never stumbles over a token.

What follows a phrase matters little. `Phrase.before` says what another token has to be for the phrase
to stand before that one as well.
-/

namespace Sigil

open Parse Cursor

/-- The phrases of the loose grammar. -/
abbrev LoosePhrase (s : Nonterminal) (next : Kind) (ts : List Token) (tree : s.Tree) : Prop :=
  Phrase (fun _ => True) s next ts tree

/-- Whether something other than a variable is assigned to or counted with. -/
def Cause.aboutTarget : Cause → Bool
  | .invalidTarget => true
  | .misplacedToken _ message => message == "expected a loop variable"
  | _ => false

/-! ## Changing what a phrase stands among -/

/-- Where more may be assigned to, there are more phrases. -/
theorem Phrase.mono {target target' : Expr → Prop} (hsub : ∀ e, target e → target' e)
    {s : Nonterminal} {next : Kind} {ts : List Token} {tree : s.Tree}
    (h : Phrase target s next ts tree) : Phrase target' s next ts tree := by
  induction h with
  | primary _ ih => exact .primary ih
  | binary _ hop _ ihl ihr => exact .binary ihl hop ihr
  | localVariable hs hn => exact .localVariable hs hn
  | persistentVariable hs hn => exact .persistentVariable hs hn
  | globalVariable hn hnext => exact .globalVariable hn hnext
  | emptyCall hn ho hp => exact .emptyCall hn ho hp
  | call hn ho _ hp ih => exact .call hn ho ih hp
  | number ht => exact .number ht
  | string ht => exact .string ht
  | grouping ho _ hp ih => exact .grouping ho ih hp
  | unary hop _ ih => exact .unary hop ih
  | lastArgument _ ih => exact .lastArgument ih
  | moreArguments _ hsep _ ihe ihes => exact .moreArguments ihe hsep ihes
  | expression _ hz ih => exact .expression ih hz
  | assign _ ht ha _ hz ihe ihv => exact .assign ihe (hsub _ ht) ha ihv hz
  | cond hi ho _ hp _ hf hz ihc ihy => exact .cond hi ho ihc hp ihy hf hz
  | condElse hi ho _ hp _ hw _ hf hz ihc ihy ihn => exact .condElse hi ho ihc hp ihy hw ihn hf hz
  | count hw ho _ ht h₁ _ h₂ _ hp _ hf hz ihv iha ihb ihy =>
    exact .count hw ho ihv (hsub _ ht) h₁ iha h₂ ihb hp ihy hf hz
  | countBy hw ho _ ht h₁ _ h₂ _ h₃ _ hp _ hf hz ihv iha ihb ihi ihy =>
    exact .countBy hw ho ihv (hsub _ ht) h₁ iha h₂ ihb h₃ ihi hp ihy hf hz
  | loop hw ho _ hp _ hf hz ihc ihy => exact .loop hw ho ihc hp ihy hf hz
  | loopUntil hw _ hu ho _ hp hz ihy ihc => exact .loopUntil hw ihy hu ho ihc hp hz
  | noStatement => exact .noStatement
  | blankLine ht _ ih => exact .blankLine ht ih
  | moreStatements _ _ ihs ihss => exact .moreStatements ihs ihss
  | block _ ih => exact .block ih

/-- Whether what stands before a token of kind `next` may stand before one of kind `next'`: no
parenthesis may come behind a name, and if the end of the block has ended a statement then the block
still has to end. -/
def Nonterminal.MayPrecede : Nonterminal → Kind → Kind → Prop
  | expr _, _, next' => next' ≠ .openParen
  | arguments, _, next' => next' ≠ .openParen
  | _, next, next' => next' ≠ .openParen ∧ (next.endsBlock = true → next'.endsBlock = true)

theorem Ending.before {next next' : Kind} {zs : List Token} (h : Ending next zs)
    (hends : next.endsBlock = true → next'.endsBlock = true) : Ending next' zs := by
  cases h with
  | line ht => exact .line ht
  | block hnext => exact .block (hends hnext)

theorem firstKind_ne_openParen {zs : List Token} {next next' : Kind} (hz : Ending next zs)
    (hnext : next' ≠ .openParen) : firstKind zs next' ≠ .openParen := by
  cases hz with
  | line ht => simp [ht]
  | block => exact hnext

/-- A phrase may stand before another token, if that does not continue it. -/
theorem Phrase.before {target : Expr → Prop} {s : Nonterminal} {next next' : Kind} {ts : List Token}
    {tree : s.Tree} (h : Phrase target s next ts tree) (hnext : s.MayPrecede next next') :
    Phrase target s next' ts tree := by
  induction h generalizing next' with
  | primary _ ih => exact .primary (ih hnext)
  | binary hl hop _ _ ihr => exact .binary hl hop (ihr hnext)
  | localVariable hs hn => exact .localVariable hs hn
  | persistentVariable hs hn => exact .persistentVariable hs hn
  | globalVariable hn _ => exact .globalVariable hn hnext
  | emptyCall hn ho hp => exact .emptyCall hn ho hp
  | call hn ho ha hp _ => exact .call hn ho ha hp
  | number ht => exact .number ht
  | string ht => exact .string ht
  | grouping ho he hp _ => exact .grouping ho he hp
  | unary hop _ ih => exact .unary hop (ih hnext)
  | lastArgument _ ih => exact .lastArgument (ih hnext)
  | moreArguments he hsep _ _ ihes => exact .moreArguments he hsep (ihes hnext)
  | expression _ hz ih =>
    exact .expression (ih (firstKind_ne_openParen hz hnext.1)) (hz.before hnext.2)
  | assign he ht ha _ hz _ ihv =>
    exact .assign he ht ha (ihv (firstKind_ne_openParen hz hnext.1)) (hz.before hnext.2)
  | cond hi ho hc hp hy hf hz => exact .cond hi ho hc hp hy hf (hz.before hnext.2)
  | condElse hi ho hc hp hy hw hn hf hz =>
    exact .condElse hi ho hc hp hy hw hn hf (hz.before hnext.2)
  | count hw ho hv ht h₁ ha h₂ hb hp hy hf hz =>
    exact .count hw ho hv ht h₁ ha h₂ hb hp hy hf (hz.before hnext.2)
  | countBy hw ho hv ht h₁ ha h₂ hb h₃ hi hp hy hf hz =>
    exact .countBy hw ho hv ht h₁ ha h₂ hb h₃ hi hp hy hf (hz.before hnext.2)
  | loop hw ho hc hp hy hf hz => exact .loop hw ho hc hp hy hf (hz.before hnext.2)
  | loopUntil hw hy hu ho hc hp hz => exact .loopUntil hw hy hu ho hc hp (hz.before hnext.2)
  | noStatement => exact .noStatement
  | blankLine ht _ ih => exact .blankLine ht (ih hnext)
  | @moreStatements next ts us s ss hs _ ihs ihss =>
    refine .moreStatements ?_ (ihss hnext)
    -- With statements behind it, what follows the first one is one of them.
    cases us with
    | nil => exact ihs hnext
    | cons u us => exact hs
  | block _ ih => exact .block (ih hnext)

theorem Ending.endless {next : Kind} {zs : List Token} (h : Ending next zs) : Endless zs := by
  cases h with
  | line ht => simp [ht]
  | block => exact endless_nil

/-- The end of the script is in no phrase. -/
theorem Phrase.endless {target : Expr → Prop} {s : Nonterminal} {next : Kind} {ts : List Token}
    {tree : s.Tree} (h : Phrase target s next ts tree) : Endless ts := by
  induction h with
  | localVariable hs hn | persistentVariable hs hn => rcases hn with hn | hn <;> simp [hs, hn]
  | expression _ hz ih => simp [ih, hz.endless]
  | assign _ _ ha _ hz ihe ihv => simp [ihe, ha, ihv, hz.endless]
  | cond hi ho _ hp _ hf hz ihc ihy => simp [hi, ho, ihc, hp, ihy, hf, hz.endless]
  | condElse hi ho _ hp _ hw _ hf hz ihc ihy ihn =>
    simp [hi, ho, ihc, hp, ihy, hw, ihn, hf, hz.endless]
  | count hw ho _ _ h₁ _ h₂ _ hp _ hf hz ihv iha ihb ihy =>
    simp [hw, ho, ihv, h₁, iha, h₂, ihb, hp, ihy, hf, hz.endless]
  | countBy hw ho _ _ h₁ _ h₂ _ h₃ _ hp _ hf hz ihv iha ihb ihi ihy =>
    simp [hw, ho, ihv, h₁, iha, h₂, ihb, h₃, ihi, hp, ihy, hf, hz.endless]
  | loop hw ho _ hp _ hf hz ihc ihy => simp [hw, ho, ihc, hp, ihy, hf, hz.endless]
  | loopUntil hw _ hu ho _ hp hz ihy ihc => simp [hw, ihy, hu, ho, ihc, hp, hz.endless]
  -- What is left has its tokens and phrases side by side, without an end of a statement.
  | _ => simp_all

/-! ## Loose phrases are read to their end -/

/-- The rule for `s` reads the tokens to their end, unless it finds fault with a target. -/
def Walks (s : Nonterminal) (next : Kind) (ts : List Token) : Prop :=
  ∀ {c d : Cursor}, c.Passes ts d → d.kind = next → s.StopsAt next → ∀ depth,
    (Grammar.standard.rules depth s c).Meets (fun _ e => e = d)
      (fun x _ => x.cause.aboutTarget = true)

section

variable {next : Kind} {ts us vs ws ys ns zs : List Token}
variable {t op name sigil sep a w w' o p f s₁ s₂ s₃ : Token}

/-- A walk to a place meets whatever holds there. -/
theorem Reply.Meets.walk {α : Type} {reply : Reply α} {post : α → Cursor → Prop} {d : Cursor}
    (h : reply.Meets (fun _ e => e = d) (fun x _ => x.cause.aboutTarget = true))
    (hpost : ∀ a, post a d) : reply.Meets post (fun x _ => x.cause.aboutTarget = true) :=
  h.mono (fun a _ he => he ▸ hpost a) fun _ _ hx => hx

theorem walks_primary (ih : Walks (.expr .primary) next ts) : Walks (.expr .expression) next ts := by
  intro c d hp hd hstop
  refine meets_rules fun depth => ?_
  subst hd
  have hne : d.current.kind ≠ .operator := hstop
  simp only [Grammar.answer, expressionRule, meets_bind, meets_current]
  refine (ih hp rfl trivial depth).walk fun e => ?_
  rw [if_neg hne]
  rfl

/-- Behind an operator the walk goes on with the rest of the expression. -/
theorem walks_binary (ihl : Walks (.expr .primary) .operator ts) (hop : op.kind = .operator)
    (ihr : Walks (.expr .expression) next us) :
    Walks (.expr .expression) next (ts ++ op :: us) := by
  intro c d hp hd hstop
  refine meets_rules fun depth => ?_
  obtain ⟨c₁, hts, rfl, hus, -⟩ := hp.meets
  simp only [Grammar.answer, expressionRule, meets_bind, meets_current]
  refine (ihl hts hop trivial depth).walk fun l => ?_
  simp only [if_pos hop, meets_bind, meets_advance]
  exact (ihr hus hd hstop depth).walk fun r => rfl

/-- An operand is read by the rule that the table has for its first token. -/
theorem meets_primary {c : Cursor} {post : Expr → Cursor → Prop}
    {wrong : Diagnostic → Cursor → Prop} {rule : ExprRule}
    (hrule : Grammar.standardPrimary c.kind = some rule)
    (h : ∀ depth,
      (Grammar.standard.answer (Grammar.standard.rules depth) (.expr rule) c).Meets post wrong)
    (depth : Nat) : (Grammar.standard.rules depth (.expr .primary) c).Meets post wrong := by
  refine meets_rules (fun depth => ?_) depth
  have hrule : Grammar.standard.primary c.current.kind = some rule := hrule
  simp only [Grammar.answer, primaryRule, meets_bind, meets_current, hrule]
  exact meets_rules h depth

/-- A statement is read by the rule that the table has for its first token. -/
theorem meets_statement {c : Cursor} {post : Stmt → Cursor → Prop}
    {wrong : Diagnostic → Cursor → Prop} {rule : StmtRule}
    (hrule : Grammar.standardStatement c.kind = some rule)
    (h : ∀ depth,
      (Grammar.standard.answer (Grammar.standard.rules depth) (.stmt rule) c).Meets post wrong)
    (depth : Nat) : (Grammar.standard.rules depth (.stmt .statement) c).Meets post wrong := by
  refine meets_rules (fun depth => ?_) depth
  have hrule : Grammar.standard.statement c.current.kind = some rule := hrule
  simp only [Grammar.answer, statementRule, meets_bind, meets_current, hrule]
  exact meets_rules h depth

theorem walks_variable {rule : ExprRule} {storage : Storage}
    (hs : Grammar.standardPrimary sigil.kind = some rule)
    (hrule : ∀ r : Rules, Grammar.standard.answer r (.expr rule) = variableRule storage)
    (hn : name.kind = .name ∨ name.kind = .number) :
    Walks (.expr .primary) next [sigil, name] := by
  intro c d hp hd hstop
  obtain ⟨rfl, hp, -⟩ := hp.uncons
  obtain ⟨rfl, hp, -⟩ := hp.uncons
  obtain rfl := passes_nil_iff.mp hp
  refine meets_primary hs fun depth => ?_
  rw [hrule, variableRule_eq_done hn]
  rfl

/-- A name is passed by itself where no parenthesis follows. -/
theorem walks_globalVariable (hn : name.kind = .name) (hnext : next ≠ .openParen) :
    Walks (.expr .primary) next [name] := by
  intro c d hp hd hstop
  have hpeek := hp.peek_one
  obtain ⟨rfl, hp, -⟩ := hp.uncons
  obtain rfl := passes_nil_iff.mp hp
  refine meets_primary (Grammar.standardPrimary_eq_name.mpr hn) fun depth => ?_
  have hne : c.peek 1 ≠ .openParen := by rwa [hpeek, hd]
  simp only [Grammar.answer, nameRule, meets_bind, meets_peek, meets_advance, if_neg hne]
  rfl

theorem walks_emptyCall (hn : name.kind = .name) (ho : o.kind = .openParen)
    (hclose : p.kind = .closeParen) : Walks (.expr .primary) next [name, o, p] := by
  intro c d hp hd hstop
  have hpeek := hp.head.peek_one
  obtain ⟨rfl, hp, -⟩ := hp.uncons
  obtain ⟨rfl, hp, -⟩ := hp.uncons
  obtain ⟨rfl, hp, -⟩ := hp.uncons
  obtain rfl := passes_nil_iff.mp hp
  refine meets_primary (Grammar.standardPrimary_eq_name.mpr hn) fun depth => ?_
  have ho : c.peek 1 = .openParen := hpeek.trans ho
  simp only [Grammar.answer, nameRule, meets_bind, meets_peek, meets_advance, meets_current,
    meets_pure, meets_expect, if_pos ho, if_pos hclose]
  exact ⟨fun hne => absurd hclose hne, fun _ => trivial⟩

theorem walks_call {args : List Expr} (hn : name.kind = .name) (ho : o.kind = .openParen)
    (ha : LoosePhrase .arguments .closeParen ts args) (iha : Walks .arguments .closeParen ts)
    (hclose : p.kind = .closeParen) : Walks (.expr .primary) next (name :: o :: (ts ++ [p])) := by
  intro c d hp hd hstop
  have hpeek := hp.head.peek_one
  obtain ⟨rfl, hp, -⟩ := hp.uncons
  obtain ⟨rfl, hp, -⟩ := hp.uncons
  obtain ⟨c₁, hts, rfl, hp, -⟩ := hp.meets
  obtain rfl := passes_nil_iff.mp hp
  refine meets_primary (Grammar.standardPrimary_eq_name.mpr hn) fun depth => ?_
  have ho : c.peek 1 = .openParen := hpeek.trans ho
  have hstart : Nonterminal.CanStart .arguments c.advance.advance.kind :=
    hts.kind_eq ▸ ha.canStart _
  have hne : c.advance.advance.current.kind ≠ .closeParen := (Grammar.of_standardPrimary hstart).2
  simp only [Grammar.answer, nameRule, meets_bind, meets_peek, meets_advance, meets_current,
    meets_expect, if_pos ho, if_neg hne]
  refine (iha hts hclose ⟨by decide, by decide⟩ depth).walk fun args => ?_
  exact ⟨fun hne => absurd hclose hne, fun _ => rfl⟩

theorem walks_literal (hk : t.kind = .number ∨ t.kind = .string) :
    Walks (.expr .primary) next [t] := by
  intro c d hp hd hstop
  obtain ⟨rfl, hp, -⟩ := hp.uncons
  obtain rfl := passes_nil_iff.mp hp
  exact meets_primary (Grammar.standardPrimary_eq_literal.mpr hk) fun depth => rfl

theorem walks_grouping (ho : o.kind = .openParen) (ih : Walks (.expr .expression) .closeParen ts)
    (hclose : p.kind = .closeParen) : Walks (.expr .primary) next (o :: (ts ++ [p])) := by
  intro c d hp hd hstop
  obtain ⟨rfl, hp, -⟩ := hp.uncons
  obtain ⟨c₁, hts, rfl, hp, -⟩ := hp.meets
  obtain rfl := passes_nil_iff.mp hp
  refine meets_primary (Grammar.standardPrimary_eq_grouping.mpr ho) fun depth => ?_
  simp only [Grammar.answer, groupingRule, meets_bind, meets_advance, meets_expect]
  refine (ih hts hclose (by simp [Nonterminal.StopsAt]) depth).walk fun e => ?_
  exact ⟨fun hne => absurd hclose hne, fun _ => rfl⟩

theorem walks_unary (hop : op.kind = .operator) (ih : Walks (.expr .primary) next ts) :
    Walks (.expr .primary) next (op :: ts) := by
  intro c d hp hd hstop
  obtain ⟨rfl, hp, -⟩ := hp.uncons
  refine meets_primary (Grammar.standardPrimary_eq_unary.mpr hop) fun depth => ?_
  simp only [Grammar.answer, unaryRule, meets_bind, meets_advance]
  exact (ih hp hd trivial depth).walk fun e => rfl

theorem walks_lastArgument (ih : Walks (.expr .expression) next ts) : Walks .arguments next ts := by
  intro c d hp hd hstop
  refine meets_rules fun depth => ?_
  subst hd
  have hne : d.current.kind ≠ .semicolon := hstop.2
  simp only [Grammar.answer, argumentsRule, meets_bind, meets_current]
  refine (ih hp rfl hstop.1 depth).walk fun e => ?_
  rw [if_neg hne]
  rfl

theorem walks_moreArguments (ihe : Walks (.expr .expression) .semicolon ts)
    (hsep : sep.kind = .semicolon) (ihes : Walks .arguments next us) :
    Walks .arguments next (ts ++ sep :: us) := by
  intro c d hp hd hstop
  refine meets_rules fun depth => ?_
  obtain ⟨c₁, hts, rfl, hus, -⟩ := hp.meets
  simp only [Grammar.answer, argumentsRule, meets_bind, meets_current]
  refine (ihe hts hsep (by simp [Nonterminal.StopsAt]) depth).walk fun e => ?_
  simp only [if_pos hsep, meets_bind, meets_advance]
  exact (ihes hus hd hstop depth).walk fun es => rfl

theorem meets_endStatement {c d : Cursor} {post : Unit → Cursor → Prop}
    {wrong : Diagnostic → Cursor → Prop} (hz : Ending d.kind zs) (hp : c.Passes zs d)
    (h : post () d) : (endStatement c).Meets post wrong := by
  rw [endStatement_eq_done hz hp]
  exact h

/-- The walk over an expression tells a statement that is one from an assignment by the token behind it. -/
theorem walks_expression {e : Expr} (he : LoosePhrase (.expr .expression) (firstKind zs next) ts e)
    (ih : Walks (.expr .expression) (firstKind zs next) ts) (hz : Ending next zs) :
    Walks (.stmt .statement) next (ts ++ zs) := by
  intro c d hp hd hstop
  obtain ⟨c₁, hts, hzs⟩ := passes_append_iff.mp hp
  subst hd
  refine meets_rules fun depth => ?_
  have hstart : Nonterminal.CanStart (.expr .expression) c.kind := hts.kind_eq ▸ he.canStart _
  have hrule : Grammar.standard.statement c.current.kind = none :=
    (Grammar.of_standardPrimary hstart).1
  have hk : c₁.kind = firstKind zs d.kind := hzs.kind_eq
  have hne : c₁.current.kind ≠ .assign := by
    rw [← Cursor.kind, hk]
    exact hz.firstKind_ne.2
  simp only [Grammar.answer, statementRule, meets_bind, meets_current, hrule]
  refine (ih hts hk hz.firstKind_ne.1 depth).walk fun e => ?_
  simp only [if_neg hne, meets_bind]
  exact meets_endStatement hz hzs rfl

/-- Whether the target of an assignment is a variable is found out before `:=` is passed. -/
theorem walks_assign {e : Expr} (he : LoosePhrase (.expr .expression) .assign ts e)
    (ihe : Walks (.expr .expression) .assign ts) (ha : a.kind = .assign)
    (ihv : Walks (.expr .expression) (firstKind zs next) us) (hz : Ending next zs) :
    Walks (.stmt .statement) next (ts ++ a :: (us ++ zs)) := by
  intro c d hp hd hstop
  obtain ⟨c₁, hts, rfl, hp, -⟩ := hp.meets
  obtain ⟨c₂, hus, hzs⟩ := passes_append_iff.mp hp
  subst hd
  refine meets_rules fun depth => ?_
  have hstart : Nonterminal.CanStart (.expr .expression) c.kind := hts.kind_eq ▸ he.canStart _
  have hrule : Grammar.standard.statement c.current.kind = none :=
    (Grammar.of_standardPrimary hstart).1
  simp only [Grammar.answer, statementRule, meets_bind, meets_current, hrule]
  refine (ihe hts ha (by simp [Nonterminal.StopsAt]) depth).walk fun target => ?_
  rw [if_pos ha]
  by_cases hvar : target.isVar = true
  · simp only [if_pos hvar, meets_bind, meets_advance]
    refine (ihv hus hzs.kind_eq hz.firstKind_ne.1 depth).walk fun v => ?_
    exact meets_endStatement hz hzs rfl
  · rw [if_neg hvar]
    rfl

/-- A condition is walked over up to its closing parenthesis. -/
theorem walks_condition {c c₁ : Cursor} {post : Expr → Cursor → Prop} {depth : Nat}
    (ho : c.current.kind = .openParen) (ih : Walks (.expr .expression) .closeParen ts)
    (hts : c.advance.Passes ts c₁) (hclose : c₁.current.kind = .closeParen)
    (h : ∀ e, post e c₁.advance) :
    (conditionRule (Grammar.standard.rules depth) c).Meets post
      (fun x _ => x.cause.aboutTarget = true) := by
  simp only [conditionRule, meets_bind, meets_expect]
  refine ⟨fun hne => absurd ho hne, fun _ => ?_⟩
  refine (ih hts hclose (by simp [Nonterminal.StopsAt]) depth).walk fun e => ?_
  exact ⟨fun hne => absurd hclose hne, fun _ => h e⟩

theorem walks_cond (hi : w.kind = .ifWord) (ho : o.kind = .openParen)
    (ihc : Walks (.expr .expression) .closeParen ts) (hclose : p.kind = .closeParen)
    (ihy : Walks .block .endIf ys) (hf : f.kind = .endIf) (hz : Ending next zs) :
    Walks (.stmt .statement) next (w :: o :: (ts ++ p :: (ys ++ f :: zs))) := by
  intro c d hp hd hstop
  obtain ⟨rfl, hp, -⟩ := hp.uncons
  obtain ⟨rfl, hp, -⟩ := hp.uncons
  obtain ⟨c₁, hcs, rfl, hp, -⟩ := hp.meets
  obtain ⟨c₂, hys, rfl, hzs, -⟩ := hp.meets
  subst hd
  refine meets_statement (Grammar.standardStatement_eq_conditional.mpr hi) fun depth => ?_
  have hne : c₂.current.kind ≠ .elseWord := by simp [hf]
  simp only [Grammar.answer, conditionalRule, elseRule, meets_bind, meets_advance, meets_current,
    meets_expectOr]
  refine walks_condition ho ihc hcs hclose fun e => ?_
  refine (ihy hys hf rfl depth).walk fun yes => ?_
  rw [if_neg hne]
  exact ⟨fun hne => absurd hf hne, fun _ => meets_endStatement hz hzs rfl⟩

theorem walks_condElse (hi : w.kind = .ifWord) (ho : o.kind = .openParen)
    (ihc : Walks (.expr .expression) .closeParen ts) (hclose : p.kind = .closeParen)
    (ihy : Walks .block .elseWord ys) (hw : w'.kind = .elseWord) (ihn : Walks .block .endIf ns)
    (hf : f.kind = .endIf) (hz : Ending next zs) :
    Walks (.stmt .statement) next (w :: o :: (ts ++ p :: (ys ++ w' :: (ns ++ f :: zs)))) := by
  intro c d hp hd hstop
  obtain ⟨rfl, hp, -⟩ := hp.uncons
  obtain ⟨rfl, hp, -⟩ := hp.uncons
  obtain ⟨c₁, hcs, rfl, hp, -⟩ := hp.meets
  obtain ⟨c₂, hys, rfl, hp, -⟩ := hp.meets
  obtain ⟨c₃, hns, rfl, hzs, -⟩ := hp.meets
  subst hd
  refine meets_statement (Grammar.standardStatement_eq_conditional.mpr hi) fun depth => ?_
  simp only [Grammar.answer, conditionalRule, elseRule, meets_bind, meets_advance, meets_current,
    meets_expectOr]
  refine walks_condition ho ihc hcs hclose fun e => ?_
  refine (ihy hys hw rfl depth).walk fun yes => ?_
  simp only [if_pos hw, meets_bind, meets_advance]
  refine (ihn hns hf rfl depth).walk fun no => ?_
  exact ⟨fun hne => absurd hf hne, fun _ => meets_endStatement hz hzs rfl⟩

theorem walks_loop (hw : w.kind = .whileWord) (ho : o.kind = .openParen)
    (ihc : Walks (.expr .expression) .closeParen ts) (hclose : p.kind = .closeParen)
    (ihy : Walks .block .endWhile ys) (hf : f.kind = .endWhile) (hz : Ending next zs) :
    Walks (.stmt .statement) next (w :: o :: (ts ++ p :: (ys ++ f :: zs))) := by
  intro c d hp hd hstop
  obtain ⟨rfl, hp, -⟩ := hp.uncons
  obtain ⟨rfl, hp, -⟩ := hp.uncons
  obtain ⟨c₁, hcs, rfl, hp, -⟩ := hp.meets
  obtain ⟨c₂, hys, rfl, hzs, -⟩ := hp.meets
  subst hd
  refine meets_statement (Grammar.standardStatement_eq_testedLoop.mpr hw) fun depth => ?_
  simp only [Grammar.answer, testedLoopRule, meets_bind, meets_advance, meets_expectOr]
  refine walks_condition ho ihc hcs hclose fun e => ?_
  refine (ihy hys hf rfl depth).walk fun body => ?_
  exact ⟨fun hne => absurd hf hne, fun _ => meets_endStatement hz hzs rfl⟩

theorem walks_loopUntil (hw : w.kind = .repeatWord) (ihy : Walks .block .untilWord ys)
    (hu : w'.kind = .untilWord) (ho : o.kind = .openParen)
    (ihc : Walks (.expr .expression) .closeParen ts) (hclose : p.kind = .closeParen)
    (hz : Ending next zs) :
    Walks (.stmt .statement) next (w :: (ys ++ w' :: o :: (ts ++ p :: zs))) := by
  intro c d hp hd hstop
  obtain ⟨rfl, hp, -⟩ := hp.uncons
  obtain ⟨c₁, hys, rfl, hp, -⟩ := hp.meets
  obtain ⟨rfl, hp, -⟩ := hp.uncons
  obtain ⟨c₂, hcs, rfl, hzs, -⟩ := hp.meets
  subst hd
  refine meets_statement (Grammar.standardStatement_eq_repeatedLoop.mpr hw) fun depth => ?_
  simp only [Grammar.answer, repeatedLoopRule, meets_bind, meets_advance, meets_expectOr]
  refine (ihy hys hu rfl depth).walk fun body => ?_
  refine ⟨fun hne => absurd hu hne, fun _ => ?_⟩
  refine walks_condition ho ihc hcs hclose fun e => ?_
  exact meets_endStatement hz hzs rfl

/-- Whether the counter is a variable is found out before the first semicolon. -/
theorem walks_counter {c d : Cursor} {post : Expr → Cursor → Prop} {depth : Nat}
    (ih : Walks (.expr .primary) .semicolon ts) (hts : c.Passes ts d)
    (hsep : d.current.kind = .semicolon) (h : ∀ e, post e d) :
    (counterRule (Grammar.standard.rules depth) c).Meets post
      (fun x _ => x.cause.aboutTarget = true) := by
  simp only [counterRule, meets_bind]
  refine (ih hts hsep trivial depth).walk fun e => ?_
  by_cases hvar : e.isVar = true
  · rw [if_pos hvar]
    exact h e
  · rw [if_neg hvar]
    exact beq_self_eq_true "expected a loop variable"

theorem walks_count (hw : w.kind = .forWord) (ho : o.kind = .openParen)
    (ihv : Walks (.expr .primary) .semicolon ts) (h₁ : s₁.kind = .semicolon)
    (iha : Walks (.expr .expression) .semicolon us) (h₂ : s₂.kind = .semicolon)
    (ihb : Walks (.expr .expression) .closeParen vs) (hclose : p.kind = .closeParen)
    (ihy : Walks .block .endFor ys) (hf : f.kind = .endFor) (hz : Ending next zs) :
    Walks (.stmt .statement) next
      (w :: o :: (ts ++ s₁ :: (us ++ s₂ :: (vs ++ p :: (ys ++ f :: zs))))) := by
  intro c d hp hd hstop
  obtain ⟨rfl, hp, -⟩ := hp.uncons
  obtain ⟨rfl, hp, -⟩ := hp.uncons
  obtain ⟨c₁, hvs, rfl, hp, -⟩ := hp.meets
  obtain ⟨c₂, has, rfl, hp, -⟩ := hp.meets
  obtain ⟨c₃, hbs, rfl, hp, -⟩ := hp.meets
  obtain ⟨c₄, hys, rfl, hzs, -⟩ := hp.meets
  subst hd
  refine meets_statement (Grammar.standardStatement_eq_counting.mpr hw) fun depth => ?_
  have hne : c₃.current.kind ≠ .semicolon := by simp [hclose]
  simp only [Grammar.answer, countingRule, incrementRule, meets_bind, meets_advance, meets_current,
    meets_expect, meets_expectOr]
  refine ⟨fun hne => absurd ho hne, fun _ => walks_counter ihv hvs h₁ fun v => ?_⟩
  refine ⟨fun hne => absurd h₁ hne, fun _ => ?_⟩
  refine (iha has h₂ (by simp [Nonterminal.StopsAt]) depth).walk fun a => ?_
  refine ⟨fun hne => absurd h₂ hne, fun _ => ?_⟩
  refine (ihb hbs hclose (by simp [Nonterminal.StopsAt]) depth).walk fun b => ?_
  rw [if_neg hne]
  refine ⟨fun hne => absurd hclose hne, fun _ => ?_⟩
  refine (ihy hys hf rfl depth).walk fun body => ?_
  exact ⟨fun hne => absurd hf hne, fun _ => meets_endStatement hz hzs rfl⟩

theorem walks_countBy (hw : w.kind = .forWord) (ho : o.kind = .openParen)
    (ihv : Walks (.expr .primary) .semicolon ts) (h₁ : s₁.kind = .semicolon)
    (iha : Walks (.expr .expression) .semicolon us) (h₂ : s₂.kind = .semicolon)
    (ihb : Walks (.expr .expression) .semicolon vs) (h₃ : s₃.kind = .semicolon)
    (ihi : Walks (.expr .expression) .closeParen ws) (hclose : p.kind = .closeParen)
    (ihy : Walks .block .endFor ys) (hf : f.kind = .endFor) (hz : Ending next zs) :
    Walks (.stmt .statement) next
      (w :: o :: (ts ++ s₁ :: (us ++ s₂ :: (vs ++ s₃ :: (ws ++ p :: (ys ++ f :: zs)))))) := by
  intro c d hp hd hstop
  obtain ⟨rfl, hp, -⟩ := hp.uncons
  obtain ⟨rfl, hp, -⟩ := hp.uncons
  obtain ⟨c₁, hvs, rfl, hp, -⟩ := hp.meets
  obtain ⟨c₂, has, rfl, hp, -⟩ := hp.meets
  obtain ⟨c₃, hbs, rfl, hp, -⟩ := hp.meets
  obtain ⟨c₄, his, rfl, hp, -⟩ := hp.meets
  obtain ⟨c₅, hys, rfl, hzs, -⟩ := hp.meets
  subst hd
  refine meets_statement (Grammar.standardStatement_eq_counting.mpr hw) fun depth => ?_
  simp only [Grammar.answer, countingRule, incrementRule, meets_bind, meets_advance, meets_current,
    meets_expect, meets_expectOr]
  refine ⟨fun hne => absurd ho hne, fun _ => walks_counter ihv hvs h₁ fun v => ?_⟩
  refine ⟨fun hne => absurd h₁ hne, fun _ => ?_⟩
  refine (iha has h₂ (by simp [Nonterminal.StopsAt]) depth).walk fun a => ?_
  refine ⟨fun hne => absurd h₂ hne, fun _ => ?_⟩
  refine (ihb hbs h₃ (by simp [Nonterminal.StopsAt]) depth).walk fun b => ?_
  simp only [if_pos h₃, meets_bind, meets_advance]
  refine (ihi his hclose (by simp [Nonterminal.StopsAt]) depth).walk fun i => ?_
  refine ⟨fun hne => absurd hclose hne, fun _ => ?_⟩
  refine (ihy hys hf rfl depth).walk fun body => ?_
  exact ⟨fun hne => absurd hf hne, fun _ => meets_endStatement hz hzs rfl⟩

theorem walks_noStatement : Walks .statements next [] := by
  intro c d hp hd hstop
  obtain rfl := passes_nil_iff.mp hp
  refine meets_rules fun depth => ?_
  have hends : c.current.kind.endsBlock = true := by
    rw [← Cursor.kind, hd]
    exact hstop
  simp only [Grammar.answer, statementsRule, meets_bind, meets_skipEndLines, meets_current,
    skipEndLines_of_ne (Kind.ne_endLine_of_endsBlock hends), if_pos hends, meets_pure]

theorem walks_blankLine (ht : t.kind = .endLine) (ih : Walks .statements next ts) :
    Walks .statements next (t :: ts) := by
  intro c d hp hd hstop depth
  obtain ⟨rfl, ha, hp⟩ := passes_cons_iff.mp hp
  have hrest := ih hp hd hstop depth
  cases depth with
  | zero => trivial
  -- No call is made for a blank line: the rule that passes it is the one that goes on behind it.
  | succ depth =>
    show (statementsRule (Grammar.standard.rules depth) c).Meets _ _
    rw [statementsRule_of_endLine ha ht]
    exact hrest

/-- The statements behind the first are walked over from its end. -/
theorem walks_moreStatements {s : Stmt}
    (hs : LoosePhrase (.stmt .statement) (firstKind us next) ts s)
    (ihs : Walks (.stmt .statement) (firstKind us next) ts) (ihss : Walks .statements next us) :
    Walks .statements next (ts ++ us) := by
  intro c d hp hd hstop
  obtain ⟨c₁, hts, hus⟩ := passes_append_iff.mp hp
  subst hd
  refine meets_rules fun depth => ?_
  have hstart : Nonterminal.CanStart (.stmt .statement) c.kind := hts.kind_eq ▸ hs.canStart _
  have hends : ¬ c.current.kind.endsBlock = true := by
    rw [← Cursor.kind, hstart.of_statement.2]
    exact Bool.false_ne_true
  simp only [Grammar.answer, statementsRule, meets_bind, meets_skipEndLines, meets_current,
    skipEndLines_of_ne hstart.of_statement.1, if_neg hends]
  refine (ihs hts hus.kind_eq trivial depth).walk fun s => ?_
  exact (ihss hus rfl hstop depth).walk fun ss => rfl

theorem walks_block (ih : Walks .statements next ts) : Walks .block next ts := by
  intro c d hp hd hstop
  refine meets_rules fun depth => ?_
  simp only [Grammar.answer, blockRule, meets_bind, meets_current]
  exact (ih hp hd hstop depth).walk fun ss => rfl

end

/-- Over a loose phrase the rules walk to its end, or complain about a target. -/
theorem Phrase.walks {s : Nonterminal} {next : Kind} {ts : List Token} {tree : s.Tree}
    (h : LoosePhrase s next ts tree) : Walks s next ts := by
  induction h with
  | primary _ ih => exact walks_primary ih
  | binary _ hop _ ihl ihr => exact walks_binary ihl hop ihr
  | localVariable hs hn =>
    exact walks_variable (Grammar.standardPrimary_eq_localVariable.mpr hs) (fun _ => rfl) hn
  | persistentVariable hs hn =>
    exact walks_variable (Grammar.standardPrimary_eq_persistentVariable.mpr hs) (fun _ => rfl) hn
  | globalVariable hn hnext => exact walks_globalVariable hn hnext
  | emptyCall hn ho hclose => exact walks_emptyCall hn ho hclose
  | call hn ho ha hclose iha => exact walks_call hn ho ha iha hclose
  | number ht => exact walks_literal (.inl ht)
  | string ht => exact walks_literal (.inr ht)
  | grouping ho _ hclose ih => exact walks_grouping ho ih hclose
  | unary hop _ ih => exact walks_unary hop ih
  | lastArgument _ ih => exact walks_lastArgument ih
  | moreArguments _ hsep _ ihe ihes => exact walks_moreArguments ihe hsep ihes
  | expression he hz ih => exact walks_expression he ih hz
  | assign he _ ha _ hz ihe ihv => exact walks_assign he ihe ha ihv hz
  | cond hi ho _ hclose _ hf hz ihc ihy => exact walks_cond hi ho ihc hclose ihy hf hz
  | condElse hi ho _ hclose _ hw _ hf hz ihc ihy ihn =>
    exact walks_condElse hi ho ihc hclose ihy hw ihn hf hz
  | count hw ho _ _ h₁ _ h₂ _ hclose _ hf hz ihv iha ihb ihy =>
    exact walks_count hw ho ihv h₁ iha h₂ ihb hclose ihy hf hz
  | countBy hw ho _ _ h₁ _ h₂ _ h₃ _ hclose _ hf hz ihv iha ihb ihi ihy =>
    exact walks_countBy hw ho ihv h₁ iha h₂ ihb h₃ ihi hclose ihy hf hz
  | loop hw ho _ hclose _ hf hz ihc ihy => exact walks_loop hw ho ihc hclose ihy hf hz
  | loopUntil hw _ hu ho _ hclose hz ihy ihc => exact walks_loopUntil hw ihy hu ho ihc hclose hz
  | noStatement => exact walks_noStatement
  | blankLine ht _ ih => exact walks_blankLine ht ih
  | moreStatements hs _ ihs ihss => exact walks_moreStatements hs ihs ihss
  | block _ ih => exact walks_block ih

end Sigil
