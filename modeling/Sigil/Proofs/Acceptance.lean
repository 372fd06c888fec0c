import Sigil.Proofs.Answers

/-!
# Phrases are accepted

A rule that is called for where a phrase of the grammar stands is done after it, with the tree of the
phrase (`Phrase.runs`). This takes two things: what follows must not be a token that the rule would go on
with, and the calls must be allowed to nest as deep as ranks and tokens ask for.

Together with the converse, the parser accepts exactly the rows of tokens that the grammar derives a tree
from, and gives that tree (`parse_iff_derives`).
-/

namespace Sigil

open Parse Cursor

/-! ## Phrases are read to their end -/

namespace Nonterminal

/-- Whether a phrase of the nonterminal can end before a token of kind `next`: the rule for it must not
take that token for more of the phrase. -/
def StopsAt : Nonterminal → Kind → Prop
  | expr .expression, next => next ≠ .operator
  | arguments, next => next ≠ .operator ∧ next ≠ .semicolon
  | statements, next => next.endsBlock = true
  | block, next => next.endsBlock = true
  | _, _ => True

end Nonterminal

/-- No expression goes on over the end of a statement, nor is it assigned to there. -/
theorem Ending.firstKind_ne {next : Kind} {zs : List Token} (h : Ending next zs) :
    firstKind zs next ≠ .operator ∧ firstKind zs next ≠ .assign := by
  cases h with
  | line ht => simp [ht]
  | block hnext => cases next <;> simp_all [Kind.endsBlock]

/-- The rule for `s` reads the tokens to their end and answers with the tree, if calls may nest deep
enough: by the rank of the nonterminal, and by eight for each token ahead, which is more than the ranks
that a call can go up after a token. -/
def Runs (s : Nonterminal) (next : Kind) (ts : List Token) (tree : s.Tree) : Prop :=
  ∀ {c d : Cursor} {depth : Nat}, c.Passes ts d → d.kind = next → s.StopsAt next →
    s.rank + 8 * c.ahead.length < depth →
    Rules.Answers (Grammar.standard.rules depth) s c tree d

section

variable {next : Kind} {ts us vs ws ys ns zs : List Token}
variable {t op name sigil sep a w w' o p f s₁ s₂ s₃ : Token}
variable {e l r v : Expr} {args : List Expr} {s : Stmt} {ss : List Stmt} {body no : Block}

/-- Before anything but an operator an expression ends with its first part. -/
theorem runs_primary (ih : Runs (.expr .primary) next ts e) :
    Runs (.expr .expression) next ts e := by
  intro c d depth hp hd hstop hb
  simp only [Runs, Nonterminal.rank] at ih hb
  -- One level is spent on this call. What is called for next has a lower rank here, and fewer tokens
  -- ahead where a token was passed before: this is all that the bound on the depth is asked for.
  obtain ⟨depth, rfl⟩ := Nat.exists_eq_add_of_le' (show 1 ≤ depth by omega)
  subst hd
  exact answers_primary (ih hp rfl trivial (by omega)) hstop

/-- An operator takes all that follows it as its right operand. -/
theorem runs_binary (ihl : Runs (.expr .primary) .operator ts l) (hop : op.kind = .operator)
    (ihr : Runs (.expr .expression) next us r) :
    Runs (.expr .expression) next (ts ++ op :: us)
      (.binary op.value l r .undetermined .nowhere) := by
  intro c d depth hp hd hstop hb
  simp only [Runs, Nonterminal.rank] at ihl ihr hb
  obtain ⟨depth, rfl⟩ := Nat.exists_eq_add_of_le' (show 1 ≤ depth by omega)
  obtain ⟨c₁, hts, rfl, hus, hlt⟩ := hp.meets
  exact answers_binary (ihl hts hop trivial (by omega)) hop (ihr hus hd hstop (by omega))

/-- A sigil and a name make a variable of the storage that belongs to the sigil. -/
theorem runs_variable {rule : ExprRule} {storage : Storage}
    (hs : Grammar.standardPrimary sigil.kind = some rule)
    (hrule : ∀ r : Rules, Grammar.standard.answer r (.expr rule) = variableRule storage)
    (hn : name.kind = .name ∨ name.kind = .number) :
    Runs (.expr .primary) next [sigil, name]
      (.var ⟨name.value, storage⟩ .undetermined .nowhere) := by
  intro c d depth hp hd hstop hb
  simp only [Nonterminal.rank] at hb
  obtain ⟨depth, rfl⟩ := Nat.exists_eq_add_of_le' (show 2 ≤ depth by omega)
  obtain ⟨rfl, hp, -⟩ := hp.uncons
  obtain ⟨rfl, hp, -⟩ := hp.uncons
  obtain rfl := passes_nil_iff.mp hp
  have hanswer := (congrFun (hrule (Grammar.standard.rules depth)) c).trans (variableRule_eq_done hn)
  exact answers_of_standardPrimary hs ⟨_, hanswer, rfl⟩

/-- A name that no parenthesis follows is that of a global variable. -/
theorem runs_globalVariable (hn : name.kind = .name) (hnext : next ≠ .openParen) :
    Runs (.expr .primary) next [name] (.var ⟨name.value, .globalSlot⟩ .undetermined .nowhere) := by
  intro c d depth hp hd hstop hb
  simp only [Nonterminal.rank] at hb
  obtain ⟨depth, rfl⟩ := Nat.exists_eq_add_of_le' (show 2 ≤ depth by omega)
  -- The rule looks at what is behind the name before it passes the name.
  have hpeek := hp.peek_one
  obtain ⟨rfl, hp, -⟩ := hp.uncons
  obtain rfl := passes_nil_iff.mp hp
  refine answers_of_standardPrimary (Grammar.standardPrimary_eq_name.mpr hn) ?_
  exact answers_globalVariable (by rwa [hpeek, hd])

theorem runs_emptyCall (hn : name.kind = .name) (ho : o.kind = .openParen)
    (hclose : p.kind = .closeParen) :
    Runs (.expr .primary) next [name, o, p] (.call name.value [] .undetermined .nowhere) := by
  intro c d depth hp hd hstop hb
  simp only [Nonterminal.rank] at hb
  obtain ⟨depth, rfl⟩ := Nat.exists_eq_add_of_le' (show 2 ≤ depth by omega)
  have hpeek := hp.head.peek_one
  obtain ⟨rfl, hp, -⟩ := hp.uncons
  obtain ⟨rfl, hp, -⟩ := hp.uncons
  obtain ⟨rfl, hp, -⟩ := hp.uncons
  obtain rfl := passes_nil_iff.mp hp
  refine answers_of_standardPrimary (Grammar.standardPrimary_eq_name.mpr hn) ?_
  exact answers_emptyCall (hpeek.trans ho) hclose

theorem runs_call (hn : name.kind = .name) (ho : o.kind = .openParen)
    (ha : Sentence .arguments .closeParen ts args) (iha : Runs .arguments .closeParen ts args)
    (hclose : p.kind = .closeParen) :
    Runs (.expr .primary) next (name :: o :: (ts ++ [p]))
      (.call name.value args .undetermined .nowhere) := by
  intro c d depth hp hd hstop hb
  simp only [Runs, Nonterminal.rank] at iha hb
  obtain ⟨depth, rfl⟩ := Nat.exists_eq_add_of_le' (show 2 ≤ depth by omega)
  have hpeek := hp.head.peek_one
  obtain ⟨rfl, hp, hlt⟩ := hp.uncons
  obtain ⟨rfl, hp, hlt'⟩ := hp.uncons
  obtain ⟨c₁, hts, rfl, hp, -⟩ := hp.meets
  obtain rfl := passes_nil_iff.mp hp
  have hstart := Grammar.of_standardPrimary (hts.kind_eq ▸ ha.canStart _)
  refine answers_of_standardPrimary (Grammar.standardPrimary_eq_name.mpr hn) ?_
  exact answers_call (hpeek.trans ho) hstart.2
    (iha hts hclose ⟨by decide, by decide⟩ (by omega)) hclose

theorem runs_literal {type : Ty} (hk : t.kind = .number ∨ t.kind = .string)
    (htype : (if t.kind = .string then Ty.string else .number) = type) :
    Runs (.expr .primary) next [t] (.literal t.value type .nowhere) := by
  intro c d depth hp hd hstop hb
  simp only [Nonterminal.rank] at hb
  obtain ⟨depth, rfl⟩ := Nat.exists_eq_add_of_le' (show 2 ≤ depth by omega)
  obtain ⟨rfl, hp, -⟩ := hp.uncons
  obtain rfl := passes_nil_iff.mp hp
  refine answers_of_standardPrimary (Grammar.standardPrimary_eq_literal.mpr hk) ?_
  exact answers_literal type htype

theorem runs_grouping (ho : o.kind = .openParen) (ih : Runs (.expr .expression) .closeParen ts e)
    (hclose : p.kind = .closeParen) : Runs (.expr .primary) next (o :: (ts ++ [p])) e := by
  intro c d depth hp hd hstop hb
  simp only [Runs, Nonterminal.rank] at ih hb
  obtain ⟨depth, rfl⟩ := Nat.exists_eq_add_of_le' (show 2 ≤ depth by omega)
  obtain ⟨rfl, hp, hlt⟩ := hp.uncons
  obtain ⟨c₁, hts, rfl, hp, -⟩ := hp.meets
  obtain rfl := passes_nil_iff.mp hp
  refine answers_of_standardPrimary (Grammar.standardPrimary_eq_grouping.mpr ho) ?_
  exact answers_grouping (ih hts hclose (by simp [Nonterminal.StopsAt]) (by omega)) hclose

theorem runs_unary (hop : op.kind = .operator) (ih : Runs (.expr .primary) next ts e) :
    Runs (.expr .primary) next (op :: ts) (.unary op.value e .undetermined .nowhere) := by
  intro c d depth hp hd hstop hb
  simp only [Runs, Nonterminal.rank] at ih hb
  obtain ⟨depth, rfl⟩ := Nat.exists_eq_add_of_le' (show 2 ≤ depth by omega)
  obtain ⟨rfl, hp, hlt⟩ := hp.uncons
  refine answers_of_standardPrimary (Grammar.standardPrimary_eq_unary.mpr hop) ?_
  exact answers_unary (ih hp hd trivial (by omega))

theorem runs_lastArgument (ih : Runs (.expr .expression) next ts e) :
    Runs .arguments next ts [e] := by
  intro c d depth hp hd hstop hb
  simp only [Runs, Nonterminal.rank] at ih hb
  obtain ⟨depth, rfl⟩ := Nat.exists_eq_add_of_le' (show 1 ≤ depth by omega)
  subst hd
  exact answers_lastArgument (ih hp rfl hstop.1 (by omega)) hstop.2

theorem runs_moreArguments (ihe : Runs (.expr .expression) .semicolon ts e)
    (hsep : sep.kind = .semicolon) (ihes : Runs .arguments next us args) :
    Runs .arguments next (ts ++ sep :: us) (e :: args) := by
  intro c d depth hp hd hstop hb
  simp only [Runs, Nonterminal.rank] at ihe ihes hb
  obtain ⟨depth, rfl⟩ := Nat.exists_eq_add_of_le' (show 1 ≤ depth by omega)
  obtain ⟨c₁, hts, rfl, hus, hlt⟩ := hp.meets
  exact answers_moreArguments (ihe hts hsep (by simp [Nonterminal.StopsAt]) (by omega)) hsep
    (ihes hus hd hstop (by omega))

theorem runs_expression (he : Sentence (.expr .expression) (firstKind zs next) ts e)
    (ih : Runs (.expr .expression) (firstKind zs next) ts e) (hz : Ending next zs) :
    Runs (.stmt .statement) next (ts ++ zs) (.expression e .nowhere) := by
  intro c d depth hp hd hstop hb
  simp only [Runs, Nonterminal.rank] at ih hb
  obtain ⟨depth, rfl⟩ := Nat.exists_eq_add_of_le' (show 1 ≤ depth by omega)
  obtain ⟨c₁, hts, hzs⟩ := passes_append_iff.mp hp
  subst hd
  -- What follows is the end of the line, or what ends the block: neither continues an expression.
  have hk : c₁.current.kind = _ := hzs.kind_eq
  refine answers_expression (hts.kind_eq ▸ he.canStart _) ?_ hzs hz (hk ▸ hz.firstKind_ne.2)
  exact ih hts hk hz.firstKind_ne.1 (by omega)

/-- What stands before `:=` is read as an expression first, and is then found to be a variable. -/
theorem runs_assign (he : Sentence (.expr .expression) .assign ts e)
    (ihe : Runs (.expr .expression) .assign ts e) (ht : e.isVar = true) (ha : a.kind = .assign)
    (ihv : Runs (.expr .expression) (firstKind zs next) us v) (hz : Ending next zs) :
    Runs (.stmt .statement) next (ts ++ a :: (us ++ zs)) (.assign e v .nowhere) := by
  intro c d depth hp hd hstop hb
  simp only [Runs, Nonterminal.rank] at ihe ihv hb
  obtain ⟨depth, rfl⟩ := Nat.exists_eq_add_of_le' (show 1 ≤ depth by omega)
  obtain ⟨c₁, hts, rfl, hp, hlt⟩ := hp.meets
  obtain ⟨c₂, hus, hzs⟩ := passes_append_iff.mp hp
  subst hd
  exact answers_assign (hts.kind_eq ▸ he.canStart _)
    (ihe hts ha (by simp [Nonterminal.StopsAt]) (by omega)) ha ht
    (ihv hus hzs.kind_eq hz.firstKind_ne.1 (by omega)) hzs hz

theorem runs_cond (hi : w.kind = .ifWord) (ho : o.kind = .openParen)
    (ihe : Runs (.expr .expression) .closeParen ts e) (hclose : p.kind = .closeParen)
    (ihy : Runs .block .endIf ys body) (hf : f.kind = .endIf) (hz : Ending next zs) :
    Runs (.stmt .statement) next (w :: o :: (ts ++ p :: (ys ++ f :: zs)))
      (.cond e body none .nowhere) := by
  intro c d depth hp hd hstop hb
  simp only [Runs, Nonterminal.rank] at ihe ihy hb
  obtain ⟨depth, rfl⟩ := Nat.exists_eq_add_of_le' (show 2 ≤ depth by omega)
  obtain ⟨rfl, hp, hlt₀⟩ := hp.uncons
  obtain ⟨rfl, hp, hlt₁⟩ := hp.uncons
  obtain ⟨c₁, hcs, rfl, hp, hlt₂⟩ := hp.meets
  obtain ⟨c₂, hys, rfl, hzs, -⟩ := hp.meets
  subst hd
  refine answers_of_standardStatement (Grammar.standardStatement_eq_conditional.mpr hi) ?_
  exact answers_cond ho (ihe hcs hclose (by simp [Nonterminal.StopsAt]) (by omega)) hclose
    (ihy hys hf rfl (by omega)) hf hzs hz

/-- The block of a condition ends with the word of the alternative, if there is one. -/
theorem runs_condElse (hi : w.kind = .ifWord) (ho : o.kind = .openParen)
    (ihe : Runs (.expr .expression) .closeParen ts e) (hclose : p.kind = .closeParen)
    (ihy : Runs .block .elseWord ys body) (hw : w'.kind = .elseWord)
    (ihn : Runs .block .endIf ns no) (hf : f.kind = .endIf) (hz : Ending next zs) :
    Runs (.stmt .statement) next (w :: o :: (ts ++ p :: (ys ++ w' :: (ns ++ f :: zs))))
      (.cond e body (some no) .nowhere) := by
  intro c d depth hp hd hstop hb
  simp only [Runs, Nonterminal.rank] at ihe ihy ihn hb
  obtain ⟨depth, rfl⟩ := Nat.exists_eq_add_of_le' (show 2 ≤ depth by omega)
  obtain ⟨rfl, hp, hlt₀⟩ := hp.uncons
  obtain ⟨rfl, hp, hlt₁⟩ := hp.uncons
  obtain ⟨c₁, hcs, rfl, hp, hlt₂⟩ := hp.meets
  obtain ⟨c₂, hys, rfl, hp, hlt₃⟩ := hp.meets
  obtain ⟨c₃, hns, rfl, hzs, -⟩ := hp.meets
  subst hd
  refine answers_of_standardStatement (Grammar.standardStatement_eq_conditional.mpr hi) ?_
  exact answers_condElse ho (ihe hcs hclose (by simp [Nonterminal.StopsAt]) (by omega)) hclose
    (ihy hys hw rfl (by omega)) hw (ihn hns hf rfl (by omega)) hf hzs hz

theorem runs_count (hw : w.kind = .forWord) (ho : o.kind = .openParen)
    (ihv : Runs (.expr .primary) .semicolon ts v) (ht : v.isVar = true) (h₁ : s₁.kind = .semicolon)
    (iha : Runs (.expr .expression) .semicolon us l) (h₂ : s₂.kind = .semicolon)
    (ihb : Runs (.expr .expression) .closeParen vs r) (hclose : p.kind = .closeParen)
    (ihy : Runs .block .endFor ys body) (hf : f.kind = .endFor) (hz : Ending next zs) :
    Runs (.stmt .statement) next
      (w :: o :: (ts ++ s₁ :: (us ++ s₂ :: (vs ++ p :: (ys ++ f :: zs)))))
      (.count v l r none body .nowhere) := by
  intro c d depth hp hd hstop hb
  simp only [Runs, Nonterminal.rank] at ihv iha ihb ihy hb
  obtain ⟨depth, rfl⟩ := Nat.exists_eq_add_of_le' (show 2 ≤ depth by omega)
  obtain ⟨rfl, hp, hlt₀⟩ := hp.uncons
  obtain ⟨rfl, hp, hlt₁⟩ := hp.uncons
  obtain ⟨c₁, hvs, rfl, hp, hlt₂⟩ := hp.meets
  obtain ⟨c₂, has, rfl, hp, hlt₃⟩ := hp.meets
  obtain ⟨c₃, hbs, rfl, hp, hlt₄⟩ := hp.meets
  obtain ⟨c₄, hys, rfl, hzs, -⟩ := hp.meets
  subst hd
  refine answers_of_standardStatement (Grammar.standardStatement_eq_counting.mpr hw) ?_
  exact answers_count ho (ihv hvs h₁ trivial (by omega)) ht h₁
    (iha has h₂ (by simp [Nonterminal.StopsAt]) (by omega)) h₂
    (ihb hbs hclose (by simp [Nonterminal.StopsAt]) (by omega))
    ⟨none, incrementRule_eq_none (by simp [hclose]), rfl⟩ hclose
    (ihy hys hf rfl (by omega)) hf hzs hz

/-- A third semicolon in the head of a counting loop announces the increment. -/
theorem runs_countBy (hw : w.kind = .forWord) (ho : o.kind = .openParen)
    (ihv : Runs (.expr .primary) .semicolon ts v) (ht : v.isVar = true) (h₁ : s₁.kind = .semicolon)
    (iha : Runs (.expr .expression) .semicolon us l) (h₂ : s₂.kind = .semicolon)
    (ihb : Runs (.expr .expression) .semicolon vs r) (h₃ : s₃.kind = .semicolon)
    (ihi : Runs (.expr .expression) .closeParen ws e) (hclose : p.kind = .closeParen)
    (ihy : Runs .block .endFor ys body) (hf : f.kind = .endFor) (hz : Ending next zs) :
    Runs (.stmt .statement) next
      (w :: o :: (ts ++ s₁ :: (us ++ s₂ :: (vs ++ s₃ :: (ws ++ p :: (ys ++ f :: zs))))))
      (.count v l r (some e) body .nowhere) := by
  intro c d depth hp hd hstop hb
  simp only [Runs, Nonterminal.rank] at ihv iha ihb ihi ihy hb
  obtain ⟨depth, rfl⟩ := Nat.exists_eq_add_of_le' (show 2 ≤ depth by omega)
  obtain ⟨rfl, hp, hlt₀⟩ := hp.uncons
  obtain ⟨rfl, hp, hlt₁⟩ := hp.uncons
  obtain ⟨c₁, hvs, rfl, hp, hlt₂⟩ := hp.meets
  obtain ⟨c₂, has, rfl, hp, hlt₃⟩ := hp.meets
  obtain ⟨c₃, hbs, rfl, hp, hlt₄⟩ := hp.meets
  obtain ⟨c₄, his, rfl, hp, hlt₅⟩ := hp.meets
  obtain ⟨c₅, hys, rfl, hzs, -⟩ := hp.meets
  subst hd
  obtain ⟨x, hx, rfl⟩ := (@ihi _ _ depth his hclose (by simp [Nonterminal.StopsAt]) (by omega)).expr
  refine answers_of_standardStatement (Grammar.standardStatement_eq_counting.mpr hw) ?_
  exact answers_count ho (ihv hvs h₁ trivial (by omega)) ht h₁
    (iha has h₂ (by simp [Nonterminal.StopsAt]) (by omega)) h₂
    (ihb hbs h₃ (by simp [Nonterminal.StopsAt]) (by omega))
    ⟨some x, incrementRule_eq_some h₃ hx, rfl⟩ hclose (ihy hys hf rfl (by omega)) hf hzs hz

theorem runs_loop (hw : w.kind = .whileWord) (ho : o.kind = .openParen)
    (ihe : Runs (.expr .expression) .closeParen ts e) (hclose : p.kind = .closeParen)
    (ihy : Runs .block .endWhile ys body) (hf : f.kind = .endWhile) (hz : Ending next zs) :
    Runs (.stmt .statement) next (w :: o :: (ts ++ p :: (ys ++ f :: zs)))
      (.loop e body .nowhere) := by
  intro c d depth hp hd hstop hb
  simp only [Runs, Nonterminal.rank] at ihe ihy hb
  obtain ⟨depth, rfl⟩ := Nat.exists_eq_add_of_le' (show 2 ≤ depth by omega)
  obtain ⟨rfl, hp, hlt₀⟩ := hp.uncons
  obtain ⟨rfl, hp, hlt₁⟩ := hp.uncons
  obtain ⟨c₁, hcs, rfl, hp, hlt₂⟩ := hp.meets
  obtain ⟨c₂, hys, rfl, hzs, -⟩ := hp.meets
  subst hd
  refine answers_of_standardStatement (Grammar.standardStatement_eq_testedLoop.mpr hw) ?_
  exact answers_loop ho (ihe hcs hclose (by simp [Nonterminal.StopsAt]) (by omega)) hclose
    (ihy hys hf rfl (by omega)) hf hzs hz

theorem runs_loopUntil (hw : w.kind = .repeatWord) (ihy : Runs .block .untilWord ys body)
    (hu : w'.kind = .untilWord) (ho : o.kind = .openParen)
    (ihe : Runs (.expr .expression) .closeParen ts e) (hclose : p.kind = .closeParen)
    (hz : Ending next zs) :
    Runs (.stmt .statement) next (w :: (ys ++ w' :: o :: (ts ++ p :: zs)))
      (.loopUntil body e .nowhere) := by
  intro c d depth hp hd hstop hb
  simp only [Runs, Nonterminal.rank] at ihe ihy hb
  obtain ⟨depth, rfl⟩ := Nat.exists_eq_add_of_le' (show 2 ≤ depth by omega)
  obtain ⟨rfl, hp, hlt₀⟩ := hp.uncons
  obtain ⟨c₁, hys, rfl, hp, hlt₁⟩ := hp.meets
  obtain ⟨rfl, hp, hlt₂⟩ := hp.uncons
  obtain ⟨c₂, hcs, rfl, hzs, -⟩ := hp.meets
  subst hd
  refine answers_of_standardStatement (Grammar.standardStatement_eq_repeatedLoop.mpr hw) ?_
  exact answers_loopUntil (ihy hys hu rfl (by omega)) hu ho
    (ihe hcs hclose (by simp [Nonterminal.StopsAt]) (by omega)) hclose hzs hz

theorem runs_noStatement : Runs .statements next [] [] := by
  intro c d depth hp hd hstop hb
  obtain ⟨depth, rfl⟩ := Nat.exists_eq_add_of_le' (show 1 ≤ depth by omega)
  obtain rfl := passes_nil_iff.mp hp
  exact answers_noStatement (hd ▸ hstop)

theorem runs_blankLine (ht : t.kind = .endLine) (ih : Runs .statements next ts ss) :
    Runs .statements next (t :: ts) ss := by
  intro c d depth hp hd hstop hb
  obtain ⟨depth, rfl⟩ := Nat.exists_eq_add_of_le' (show 1 ≤ depth by omega)
  obtain ⟨rfl, ha, hp'⟩ := passes_cons_iff.mp hp
  have hlt := hp.uncons.2.2
  -- No call is made for a blank line: the rule that passes it is the one that goes on behind it.
  exact answers_blankLine ha ht (@ih _ _ (depth + 1) hp' hd hstop (by omega))

theorem runs_moreStatements (hs : Sentence (.stmt .statement) (firstKind us next) ts s)
    (ihs : Runs (.stmt .statement) (firstKind us next) ts s) (ihss : Runs .statements next us ss) :
    Runs .statements next (ts ++ us) (s :: ss) := by
  intro c d depth hp hd hstop hb
  simp only [Runs, Nonterminal.rank] at ihs ihss hb
  obtain ⟨depth, rfl⟩ := Nat.exists_eq_add_of_le' (show 1 ≤ depth by omega)
  obtain ⟨c₁, hts, hus⟩ := passes_append_iff.mp hp
  -- The statements behind have the same rank, so the one before them must have taken a token.
  have hlt := hts.length_lt hs.statement_ne_nil
  subst hd
  exact answers_moreStatements (hts.kind_eq ▸ hs.canStart _)
    (ihs hts hus.kind_eq trivial (by omega)) (ihss hus rfl hstop (by omega))

theorem runs_block (ih : Runs .statements next ts ss) : Runs .block next ts (.mk ss .nowhere) := by
  intro c d depth hp hd hstop hb
  simp only [Runs, Nonterminal.rank] at ih hb
  obtain ⟨depth, rfl⟩ := Nat.exists_eq_add_of_le' (show 1 ≤ depth by omega)
  exact answers_block (ih hp hd hstop (by omega))

end

/-- Whatever the grammar derives is read to its end, as the tree that it was derived with. -/
theorem Phrase.runs {s : Nonterminal} {next : Kind} {ts : List Token} {tree : s.Tree}
    (h : Sentence s next ts tree) : Runs s next ts tree := by
  induction h with
  | primary _ ih => exact runs_primary ih
  | binary _ hop _ ihl ihr => exact runs_binary ihl hop ihr
  | localVariable hs hn =>
    exact runs_variable (Grammar.standardPrimary_eq_localVariable.mpr hs) (fun _ => rfl) hn
  | persistentVariable hs hn =>
    exact runs_variable (Grammar.standardPrimary_eq_persistentVariable.mpr hs) (fun _ => rfl) hn
  | globalVariable hn hnext => exact runs_globalVariable hn hnext
  | emptyCall hn ho hclose => exact runs_emptyCall hn ho hclose
  | call hn ho ha hclose iha => exact runs_call hn ho ha iha hclose
  | number ht => exact runs_literal (.inl ht) (if_neg (by simp [ht]))
  | string ht => exact runs_literal (.inr ht) (if_pos ht)
  | grouping ho _ hclose ih => exact runs_grouping ho ih hclose
  | unary hop _ ih => exact runs_unary hop ih
  | lastArgument _ ih => exact runs_lastArgument ih
  | moreArguments _ hsep _ ihe ihes => exact runs_moreArguments ihe hsep ihes
  | expression he hz ih => exact runs_expression he ih hz
  | assign he ht ha _ hz ihe ihv => exact runs_assign he ihe ht ha ihv hz
  | cond hi ho _ hclose _ hf hz ihe ihy => exact runs_cond hi ho ihe hclose ihy hf hz
  | condElse hi ho _ hclose _ hw _ hf hz ihe ihy ihn =>
    exact runs_condElse hi ho ihe hclose ihy hw ihn hf hz
  | count hw ho _ ht h₁ _ h₂ _ hclose _ hf hz ihv iha ihb ihy =>
    exact runs_count hw ho ihv ht h₁ iha h₂ ihb hclose ihy hf hz
  | countBy hw ho _ ht h₁ _ h₂ _ h₃ _ hclose _ hf hz ihv iha ihb ihi ihy =>
    exact runs_countBy hw ho ihv ht h₁ iha h₂ ihb h₃ ihi hclose ihy hf hz
  | loop hw ho _ hclose _ hf hz ihe ihy => exact runs_loop hw ho ihe hclose ihy hf hz
  | loopUntil hw _ hu ho _ hclose hz ihy ihe => exact runs_loopUntil hw ihy hu ho ihe hclose hz
  | noStatement => exact runs_noStatement
  | blankLine ht _ ih => exact runs_blankLine ht ih
  | moreStatements hs _ ihs ihss => exact runs_moreStatements hs ihs ihss
  | block _ ih => exact runs_block ih

/-! ## Whole scripts -/

/-- The end of the script is the last of the tokens, and is met there only. -/
def EndsOnce (tokens : List Token) : Prop :=
  ∃ ts e, tokens = ts ++ [e] ∧ e.kind = .endOfInput ∧ ∀ t ∈ ts, t.kind ≠ .endOfInput

/-- Tokens that end with the end of the script are walked as they are. -/
theorem Cursor.ofTokens_append (file : String) {ts : List Token} {e : Token}
    (he : e.kind = .endOfInput) :
    (Cursor.ofTokens file (ts ++ [e])).Passes ts ⟨file, e, []⟩ := by
  cases ts with
  | nil => simp [Cursor.ofTokens, Cursor.closing, he, Passes, remaining]
  | cons t ts => simp [Cursor.ofTokens, Cursor.closing, he, Passes, remaining]

/-- Before the only end of the script there is nothing but the tokens that are passed. -/
theorem EndsOnce.eq_append {tokens ts : List Token} {c d : Cursor} (h : EndsOnce tokens)
    (hc : c.remaining = tokens) (hp : c.Passes ts d) (hd : d.kind = .endOfInput) :
    tokens = ts ++ [d.current] := by
  obtain ⟨us, e, rfl, -, hus⟩ := h
  have heq : us ++ [e] = ts ++ d.current :: d.ahead := hc.symm.trans hp.2
  rcases List.eq_nil_or_concat d.ahead with ha | ⟨vs, v, ha⟩
  · rw [heq, ha]
  -- With something ahead, the end that was met would not be the last token.
  · rw [ha, List.concat_eq_append, ← List.cons_append, ← List.append_assoc] at heq
    have hmem : d.current ∈ us := by
      rw [(List.append_inj_left' heq rfl)]
      simp
    exact absurd hd (hus _ hmem)

/-- A script is accepted if a block can be read that is followed by the end of the input. -/
theorem parseTokens_eq_ok_iff {file : String} {tokens : List Token} {b : Block} :
    parseTokens file tokens = .ok b ↔
      ∃ d, Grammar.standard.run .block (.ofTokens file tokens) = .done b d ∧
        d.kind = .endOfInput := by
  rw [parseTokens, Reply.toExcept_eq_ok_iff]
  simp only [parse, scriptRule, bind_eq_done_iff, current_eq_done_iff]
  constructor
  · rintro ⟨rest, b', d, hrun, t, _, ⟨rfl, rfl⟩, h⟩
    split at h
    · next hd =>
      obtain ⟨rfl, rfl⟩ := pure_eq_done_iff.mp h
      exact ⟨d, hrun, hd⟩
    · exact absurd (fail_eq_done_iff.mp h) id
  · rintro ⟨d, hrun, hd⟩
    have hd : d.current.kind = .endOfInput := hd
    refine ⟨d, b, d, hrun, d.current, d, ⟨rfl, rfl⟩, ?_⟩
    rw [if_pos hd]
    rfl

/-- The tokens of an accepted script derive its tree. -/
theorem derives_of_parseTokens {file : String} {tokens : List Token} {b : Block}
    (h : EndsOnce tokens) (hb : parseTokens file tokens = .ok b) : Derives tokens b.unplaced := by
  obtain ⟨d, hrun, hd⟩ := parseTokens_eq_ok_iff.mp hb
  have hclosed := closed_ofTokens file tokens
  obtain ⟨ts, hts, p⟩ := sound_rules _ .block _ _ _ hclosed trivial hrun
  have hremaining : (Cursor.ofTokens file tokens).remaining = tokens := by
    obtain ⟨us, e, rfl, he, -⟩ := h
    exact (Cursor.ofTokens_append file he).2
  refine ⟨ts, d.current, h.eq_append hremaining hts hd, hd, ?_⟩
  rw [hd] at p
  exact p

/-- Tokens that derive a tree are accepted, and give that tree. -/
theorem parseTokens_of_derives {file : String} {tokens : List Token} {b : Block}
    (h : Derives tokens b) : ∃ b', parseTokens file tokens = .ok b' ∧ b'.unplaced = b := by
  obtain ⟨ts, e, rfl, he, p⟩ := h
  have hpass : (Cursor.ofTokens file (ts ++ [e])).Passes ts ⟨file, e, []⟩ :=
    Cursor.ofTokens_append file he
  have hdepth : Nonterminal.block.rank + 8 * (Cursor.ofTokens file (ts ++ [e])).ahead.length <
      Grammar.depthFrom (.ofTokens file (ts ++ [e])) := by
    simp only [Grammar.depthFrom, Nonterminal.count, Nonterminal.rank, Cursor.remaining,
      List.length_cons]
    omega
  obtain ⟨b', hrun, hb'⟩ := (p.runs hpass he rfl hdepth).block
  exact ⟨b', parseTokens_eq_ok_iff.mpr ⟨⟨file, e, []⟩, hrun, he⟩, hb'⟩

/-- The parser accepts exactly its grammar and builds the tree that the grammar assigns. -/
theorem parse_iff_derives (file : String) (tokens : List Token) (b : Block)
    (h : EndsOnce tokens) :
    (∃ b', parseTokens file tokens = .ok b' ∧ b'.unplaced = b.unplaced) ↔
      Derives tokens b.unplaced := by
  constructor
  · rintro ⟨b', hb', hsame⟩
    rw [← hsame]
    exact derives_of_parseTokens h hb'
  · exact parseTokens_of_derives

/-- An operator before an operand takes that operand only, and one after it all that follows:
`a := - b + 1 * c`. -/
theorem derives_operators :
    let tokens : List Token :=
      [⟨.name, "a", .nowhere⟩, ⟨.assign, ":=", .nowhere⟩, ⟨.operator, "-", .nowhere⟩,
        ⟨.name, "b", .nowhere⟩, ⟨.operator, "+", .nowhere⟩, ⟨.number, "1", .nowhere⟩,
        ⟨.operator, "*", .nowhere⟩, ⟨.name, "c", .nowhere⟩, ⟨.endOfInput, "EOF", .nowhere⟩]
    let global (name : String) : Expr := .var ⟨name, .globalSlot⟩ .undetermined .nowhere
    let tree : Block := .mk [.assign (global "a")
      (.binary "+" (.unary "-" (global "b") .undetermined .nowhere)
        (.binary "*" (.literal "1" .number .nowhere) (global "c") .undetermined .nowhere)
        .undetermined .nowhere) .nowhere] .nowhere
    EndsOnce tokens ∧ Derives tokens tree.unplaced := by
  intro tokens global tree
  have h : EndsOnce tokens := ⟨tokens.dropLast, ⟨.endOfInput, "EOF", .nowhere⟩, rfl, rfl, by decide⟩
  exact ⟨h, (parse_iff_derives "unit" tokens tree h).mp ⟨_, rfl, rfl⟩⟩

end Sigil
