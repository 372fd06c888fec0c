import Sigil.Proofs.Locality
import Sigil.Proofs.LooseGrammar

/-!
# The first token at fault

When the parser stumbles over a token, that token is the first one at fault. What was passed before it
can still be completed to a script, if one does not mind what is assigned to or counted with. With the
token itself it cannot be completed any more.

The first half is a walk through the rules. At each place where a rule may fail, something is missing
for the phrase that it reads, and the walk shows what may be put there (`Rules.Guides`). The second
half needs no walk of its own: were there a completion, then the parser would do on it what it has
done (`parse_eq_leaving`), but it reads phrases of the loose grammar without stumbling
(`Phrase.walks`).
-/

namespace Sigil

open Parse Cursor

/-! ## Completions -/

/-- A token of the given kind, to complete phrases with. -/
def Kind.token (k : Kind) : Token := ⟨k, "", .nowhere⟩

theorem Kind.kind_token (k : Kind) : k.token.kind = k := rfl

/-- The diagnostic shows the token, and is on the line that the token starts on. -/
def Diagnostic.Shows (x : Diagnostic) (t : Token) : Prop :=
  (x.cause = .unexpectedToken t.value ∨ ∃ message, x.cause = .misplacedToken t.value message) ∧
    x.position.line = t.span.start.line

/-- The fault is with a target; or else it is with the token at `stop`, and what was passed from `c`
on can be completed to something that is `L`. -/
def Blames (c : Cursor) (L : List Token → Prop) (x : Diagnostic) (stop : Cursor) : Prop :=
  x.cause.aboutTarget = true ∨
    x.Shows stop.current ∧ ∃ ts rest, c.Passes ts stop ∧ L (ts ++ rest)

section

variable {c d stop : Cursor} {pre : List Token} {L K : List Token → Prop} {x : Diagnostic}

/-- What a part of a phrase can be completed with completes the phrase, if the rest of it can be put behind.
-/
theorem Blames.lift (h : Blames d K x stop) (hpre : c.Passes pre d)
    (hK : ∀ us, K us → ∃ rest, L (pre ++ (us ++ rest))) : Blames c L x stop := by
  rcases h with h | ⟨hx, us, rest, hus, hK'⟩
  · exact .inl h
  · obtain ⟨rest', hL⟩ := hK _ hK'
    refine .inr ⟨hx, pre ++ us, rest ++ rest', hpre.trans hus, ?_⟩
    simpa only [List.append_assoc] using hL

/-- A token that nothing can start with is at fault, if something can be put in its place. -/
theorem blames_unexpected (hpre : c.Passes pre d) (rest : List Token) (hL : L (pre ++ rest)) :
    Blames c L d.unexpected d :=
  .inr ⟨⟨.inl rfl, rfl⟩, pre, rest, hpre, hL⟩

theorem blames_misplaced (message : String) (hpre : c.Passes pre d) (rest : List Token)
    (hL : L (pre ++ rest)) : Blames c L (d.misplaced message) d :=
  .inr ⟨⟨.inr ⟨message, rfl⟩, rfl⟩, pre, rest, hpre, hL⟩

/-- A token in place of another one is at fault, if that one and more can be put there. -/
theorem blames_lacking (k : Kind) (hpre : c.Passes pre d) (rest : List Token)
    (hL : L (pre ++ rest)) : Blames c L (d.lacking k) d :=
  .inr ⟨⟨.inr ⟨_, rfl⟩, rfl⟩, pre, rest, hpre, hL⟩

end

/-- The tokens are a phrase of `s` before whatever such a phrase can stand before. -/
def Nonterminal.Stands : Nonterminal → List Token → Prop
  | expr .expression, ts => ∃ e, ∀ next, LoosePhrase (.expr .expression) next ts e
  | expr _, ts => ∃ e, ∀ next, LoosePhrase (.expr .primary) next ts e
  | arguments, ts => ∃ es, ∀ next, LoosePhrase .arguments next ts es
  | stmt _, ts => ∃ s, ∀ next, LoosePhrase (.stmt .statement) next ts s
  | statements, ts => ∃ ss, ∀ next, next.endsBlock = true → LoosePhrase .statements next ts ss
  | block, ts => ∃ b, ∀ next, next.endsBlock = true → LoosePhrase .block next ts b

/-- Calls are answered with the trees of phrases, and where an answer fails the phrase can be
completed. -/
structure Rules.Guides (r : Rules) : Prop where
  sound : r.Sound
  blames : ∀ (s : Nonterminal) (c : Cursor), c.Closed → s.CalledAt c.kind →
    (r s c).Meets (fun _ _ => True) (Blames c s.Stands)

theorem Kind.ne_openParen_of_endsBlock {k : Kind} (h : k.endsBlock = true) : k ≠ .openParen := by
  rintro rfl
  cases h

theorem Nonterminal.Stands.of_eq {s : Nonterminal} {ts ts' : List Token} (h : s.Stands ts)
    (hts : ts' = ts) : s.Stands ts' := hts ▸ h

/-- Where an expression is missing, a number can be put. -/
theorem loosePhrase_number (next : Kind) :
    LoosePhrase (.expr .expression) next [Kind.number.token] (.literal "" .number .nowhere) :=
  .primary (.number rfl)

/-- Where a block is missing, nothing has to be put. -/
theorem loosePhrase_block (next : Kind) : LoosePhrase .block next [] (.mk [] .nowhere) :=
  .block .noStatement

theorem Sentence.loose {s : Nonterminal} {next : Kind} {ts : List Token} {tree : s.Tree}
    (h : Sentence s next ts tree) : LoosePhrase s next ts tree :=
  h.mono fun _ _ => trivial

/-! ## Expressions -/

section

variable {r : Rules} {c d : Cursor} {pre : List Token} {L : List Token → Prop}

/-- A rule goes on behind a call, or fails where the call fails. Then it has to be seen to that the
phrase of the rule can be completed once that of the call is. -/
theorem Rules.Guides.call (hr : r.Guides) (s : Nonterminal) {post : s.Tree → Cursor → Prop}
    (hd : d.Closed) (hs : s.CalledAt d.kind) (hpre : c.Passes pre d)
    (hfail : ∀ us, s.Stands us → ∃ rest, L (pre ++ (us ++ rest)))
    (hdone : ∀ tree d' us, d'.Closed → c.Passes (pre ++ us) d' → s.Reads d'.kind us tree →
      post tree d') : (r s d).Meets post (Blames c L) := by
  have hblames := hr.blames s d hd hs
  cases hreply : r s d with
  | done tree d' =>
    obtain ⟨us, hus, hreads⟩ := hr.sound s d tree d' hd hs hreply
    exact hdone tree d' us (hd.of_passes hus) (hpre.trans hus) hreads
  | failed x d' =>
    rw [hreply] at hblames
    exact Blames.lift hblames hpre hfail
  | circular => trivial

/-- An operand is missing at most, and it can be a number. -/
theorem blames_expressionRule (hr : r.Guides) (hc : c.Closed) :
    (expressionRule r c).Meets (fun _ _ => True)
      (Blames c (Nonterminal.Stands (.expr .expression))) := by
  simp only [expressionRule, meets_bind, meets_current]
  refine hr.call (.expr .primary) hc trivial (passes_refl c) ?_ ?_
  · rintro us ⟨e, he⟩
    exact ⟨[], e, fun next => by simpa using Phrase.primary (he next)⟩
  · intro l c₁ us hc₁ hus pl
    split
    · next hop =>
      have hoperator := hus.trans (hc₁.passes_advance (by simp [Cursor.kind, hop]))
      have pl := (Sentence.loose pl).before (show Kind.operator ≠ .openParen by decide)
      simp only [meets_bind, meets_advance]
      refine hr.call (.expr .expression) hc₁.advance trivial hoperator ?_ ?_
      · rintro vs ⟨e, he⟩
        exact ⟨[], _, fun next => by simpa using Phrase.binary pl hop (he next)⟩
      · intros
        trivial
    · trivial

theorem blames_primaryRule (hr : r.Guides) (hc : c.Closed) :
    (primaryRule .standard r c).Meets (fun _ _ => True)
      (Blames c (Nonterminal.Stands (.expr .primary))) := by
  simp only [primaryRule, meets_bind, meets_current]
  cases hrule : Grammar.standard.primary c.current.kind with
  | none =>
    exact blames_unexpected (passes_refl c) [Kind.number.token] ⟨_, fun next => .number rfl⟩
  | some rule =>
    have hcalled : (Nonterminal.expr rule).CalledAt c.kind := by
      cases rule <;> trivial
    have hblames := hr.blames (.expr rule) c hc hcalled
    cases rule with
    | expression => exact absurd hrule (Grammar.standardPrimary_ne_expression _)
    | _ => exact hblames

theorem blames_variableRule {storage : Storage} (hc : c.Closed) (hk : c.kind ≠ .endOfInput)
    (hL : Nonterminal.Stands (.expr .primary) [c.current, Kind.name.token]) :
    (variableRule storage c).Meets (fun _ _ => True)
      (Blames c (Nonterminal.Stands (.expr .primary))) := by
  simp only [variableRule, meets_bind, meets_advance, meets_current]
  split
  · trivial
  · exact blames_misplaced _ (hc.passes_advance hk) [Kind.name.token] hL

/-- In a call an argument or the closing parenthesis is missing at most. -/
theorem blames_nameRule (hr : r.Guides) (hc : c.Closed) (hk : c.kind = .name) :
    (nameRule r c).Meets (fun _ _ => True) (Blames c (Nonterminal.Stands (.expr .primary))) := by
  have hname : c.Passes [c.current] c.advance := hc.passes_advance (by simp [hk])
  simp only [nameRule, meets_bind, meets_peek, meets_advance, hname.peek_one]
  by_cases ho : c.advance.kind = .openParen
  · have hopen := hname.trans (hc.advance.passes_advance (by simp [ho]))
    by_cases hclose : c.advance.advance.current.kind = .closeParen
    · simp only [if_pos ho, if_pos hclose, meets_bind, meets_advance, meets_current, meets_pure,
        meets_expect]
      exact ⟨fun hne => absurd hclose hne, fun _ => trivial⟩
    · simp only [if_pos ho, if_neg hclose, meets_bind, meets_advance, meets_current, meets_expect]
      refine hr.call .arguments hc.advance.advance trivial hopen ?_ ?_
      · rintro us ⟨es, hes⟩
        exact ⟨[Kind.closeParen.token], _, fun next => .call hk ho (hes .closeParen) rfl⟩
      · intro es c₁ us _ hus pes
        have pes := (Sentence.loose pes).before (show Kind.closeParen ≠ .openParen by decide)
        refine ⟨fun _ => ?_, fun _ => trivial⟩
        refine blames_lacking _ hus [Kind.closeParen.token] ?_
        exact .of_eq ⟨_, fun next => .call hk ho pes (Kind.kind_token _)⟩ (by simp)
  · rw [if_neg ho]
    trivial

theorem blames_argumentsRule (hr : r.Guides) (hc : c.Closed) :
    (argumentsRule r c).Meets (fun _ _ => True) (Blames c (Nonterminal.Stands .arguments)) := by
  simp only [argumentsRule, meets_bind, meets_current]
  refine hr.call (.expr .expression) hc trivial (passes_refl c) ?_ ?_
  · rintro us ⟨e, he⟩
    exact ⟨[], [e], fun next => by simpa using Phrase.lastArgument (he next)⟩
  · intro e c₁ us hc₁ hus pe
    split
    · next hsep =>
      have hsemicolon := hus.trans (hc₁.passes_advance (by simp [Cursor.kind, hsep]))
      have pe := (Sentence.loose pe).before (show Kind.semicolon ≠ .openParen by decide)
      simp only [meets_bind, meets_advance]
      refine hr.call .arguments hc₁.advance trivial hsemicolon ?_ ?_
      · rintro vs ⟨es, hes⟩
        exact ⟨[], _, fun next => by simpa using Phrase.moreArguments pe hsep (hes next)⟩
      · intros
        trivial
    · trivial

theorem blames_groupingRule (hr : r.Guides) (hc : c.Closed) (hk : c.kind = .openParen) :
    (groupingRule r c).Meets (fun _ _ => True)
      (Blames c (Nonterminal.Stands (.expr .primary))) := by
  have hopen : c.Passes [c.current] c.advance := hc.passes_advance (by simp [hk])
  simp only [groupingRule, meets_bind, meets_advance, meets_expect]
  refine hr.call (.expr .expression) hc.advance trivial hopen ?_ ?_
  · rintro us ⟨e, he⟩
    exact ⟨[Kind.closeParen.token], e, fun next => .grouping hk (he .closeParen) rfl⟩
  · intro e c₁ us _ hus pe
    have pe := (Sentence.loose pe).before (show Kind.closeParen ≠ .openParen by decide)
    refine ⟨fun _ => ?_, fun _ => trivial⟩
    refine blames_lacking _ hus [Kind.closeParen.token] ?_
    exact .of_eq ⟨_, fun next => .grouping hk pe (Kind.kind_token _)⟩ (by simp)

theorem blames_unaryRule (hr : r.Guides) (hc : c.Closed) (hk : c.kind = .operator) :
    (unaryRule r c).Meets (fun _ _ => True) (Blames c (Nonterminal.Stands (.expr .primary))) := by
  have hop : c.Passes [c.current] c.advance := hc.passes_advance (by simp [hk])
  simp only [unaryRule, meets_bind, meets_advance]
  refine hr.call (.expr .primary) hc.advance trivial hop ?_ ?_
  · rintro us ⟨e, he⟩
    exact ⟨[], _, fun next => by simpa using Phrase.unary hk (he next)⟩
  · intros
    trivial

end

/-! ## Statements

Each kind of statement is completed with the end of its line, so that anything may follow it. -/

/-- An expression in parentheses, as loops and conditionals have it. -/
def Condition (us : List Token) : Prop :=
  ∃ o cs p e, o.kind = .openParen ∧ LoosePhrase (.expr .expression) .closeParen cs e ∧
    p.kind = .closeParen ∧ us = o :: (cs ++ [p])

/-- What closes the head of a `for`, with its body and the end of its line. -/
def CountedBody (us : List Token) : Prop :=
  ∃ p ys b f, p.kind = .closeParen ∧ LoosePhrase .block .endFor ys b ∧ f.kind = .endFor ∧
    us = p :: (ys ++ [f, Kind.endLine.token])

/-- A body without statements. -/
def emptyBody : List Token := [Kind.closeParen.token, Kind.endFor.token, Kind.endLine.token]

theorem countedBody_emptyBody : CountedBody emptyBody :=
  ⟨_, [], _, _, rfl, loosePhrase_block _, rfl, rfl⟩

theorem condition_number :
    Condition [Kind.openParen.token, Kind.number.token, Kind.closeParen.token] :=
  ⟨_, [Kind.number.token], _, _, rfl, loosePhrase_number _, rfl, rfl⟩

section

variable {ts us vs ws ys ns : List Token} {w o p u f a s₁ s₂ s₃ : Token} {e v i : Expr} {b n : Block}

/-- An expression and the end of a line are a statement before anything. -/
theorem stands_expression (he : LoosePhrase (.expr .expression) .endLine ts e) :
    Nonterminal.Stands (.stmt .statement) (ts ++ [Kind.endLine.token]) :=
  ⟨_, fun _ => .expression he (.line rfl)⟩

theorem stands_assign (he : LoosePhrase (.expr .expression) .assign ts e) (ha : a.kind = .assign)
    (hv : LoosePhrase (.expr .expression) .endLine us v) :
    Nonterminal.Stands (.stmt .statement) (ts ++ a :: (us ++ [Kind.endLine.token])) :=
  ⟨_, fun _ => .assign he trivial ha hv (.line rfl)⟩

theorem stands_cond (hw : w.kind = .ifWord) (hc : Condition ts) (hb : LoosePhrase .block .endIf ys b)
    (hf : f.kind = .endIf) :
    Nonterminal.Stands (.stmt .statement) (w :: (ts ++ (ys ++ [f, Kind.endLine.token]))) := by
  obtain ⟨o, cs, p, e, ho, he, hp, rfl⟩ := hc
  exact .of_eq ⟨_, fun _ => .cond hw ho he hp hb hf (.line (Kind.kind_token _))⟩ (by simp)

theorem stands_condElse (hw : w.kind = .ifWord) (hc : Condition ts)
    (hb : LoosePhrase .block .elseWord ys b) (hu : u.kind = .elseWord)
    (hn : LoosePhrase .block .endIf ns n) (hf : f.kind = .endIf) :
    Nonterminal.Stands (.stmt .statement)
      (w :: (ts ++ (ys ++ u :: (ns ++ [f, Kind.endLine.token])))) := by
  obtain ⟨o, cs, p, e, ho, he, hp, rfl⟩ := hc
  exact .of_eq ⟨_, fun _ => .condElse hw ho he hp hb hu hn hf (.line (Kind.kind_token _))⟩ (by simp)

theorem stands_count (hw : w.kind = .forWord) (ho : o.kind = .openParen)
    (hv : LoosePhrase (.expr .primary) .semicolon ts v) (h₁ : s₁.kind = .semicolon)
    (ha : LoosePhrase (.expr .expression) .semicolon us e) (h₂ : s₂.kind = .semicolon)
    (hi : LoosePhrase (.expr .expression) .closeParen vs i) (hys : CountedBody ys) :
    Nonterminal.Stands (.stmt .statement)
      (w :: o :: (ts ++ s₁ :: (us ++ s₂ :: (vs ++ ys)))) := by
  obtain ⟨p, bs, b, f, hp, hb, hf, rfl⟩ := hys
  exact ⟨_, fun _ => .count hw ho hv trivial h₁ ha h₂ hi hp hb hf (.line rfl)⟩

theorem stands_countBy {j : Expr} (hw : w.kind = .forWord) (ho : o.kind = .openParen)
    (hv : LoosePhrase (.expr .primary) .semicolon ts v) (h₁ : s₁.kind = .semicolon)
    (ha : LoosePhrase (.expr .expression) .semicolon us e) (h₂ : s₂.kind = .semicolon)
    (hi : LoosePhrase (.expr .expression) .semicolon vs i) (h₃ : s₃.kind = .semicolon)
    (hj : LoosePhrase (.expr .expression) .closeParen ws j) (hys : CountedBody ys) :
    Nonterminal.Stands (.stmt .statement)
      (w :: o :: (ts ++ s₁ :: (us ++ s₂ :: (vs ++ s₃ :: (ws ++ ys))))) := by
  obtain ⟨p, bs, b, f, hp, hb, hf, rfl⟩ := hys
  exact ⟨_, fun _ => .countBy hw ho hv trivial h₁ ha h₂ hi h₃ hj hp hb hf (.line rfl)⟩

theorem stands_loop (hw : w.kind = .whileWord) (hc : Condition ts)
    (hb : LoosePhrase .block .endWhile ys b) (hf : f.kind = .endWhile) :
    Nonterminal.Stands (.stmt .statement) (w :: (ts ++ (ys ++ [f, Kind.endLine.token]))) := by
  obtain ⟨o, cs, p, e, ho, he, hp, rfl⟩ := hc
  exact .of_eq ⟨_, fun _ => .loop hw ho he hp hb hf (.line (Kind.kind_token _))⟩ (by simp)

theorem stands_loopUntil (hw : w.kind = .repeatWord) (hb : LoosePhrase .block .untilWord ys b)
    (hu : u.kind = .untilWord) (hc : Condition ts) :
    Nonterminal.Stands (.stmt .statement) (w :: (ys ++ u :: (ts ++ [Kind.endLine.token]))) := by
  obtain ⟨o, cs, p, e, ho, he, hp, rfl⟩ := hc
  exact .of_eq ⟨_, fun _ => .loopUntil hw hb hu ho he hp (.line (Kind.kind_token _))⟩ (by simp)

end

section

variable {r : Rules} {c d : Cursor} {pre : List Token} {L K : List Token → Prop}

/-- A rule that reads a part of a phrase first blames what reading the part does. -/
theorem Reply.Meets.lift {α : Type} {reply : Reply α} {post post' : α → Cursor → Prop}
    (h : reply.Meets post (Blames d K)) (hpre : c.Passes pre d)
    (hK : ∀ us, K us → ∃ rest, L (pre ++ (us ++ rest))) (hpost : ∀ a e, post a e → post' a e) :
    reply.Meets post' (Blames c L) :=
  h.mono hpost fun _ _ hx => hx.lift hpre hK

/-- Where the end of a statement is missing, the end of a line may be put. -/
theorem blames_endStatement (c : Cursor) :
    (endStatement c).Meets (fun _ _ => True) (Blames c (· = [Kind.endLine.token])) := by
  have hmissing : Blames c (· = [Kind.endLine.token]) (c.misplaced "expected end of line") c :=
    blames_misplaced _ (passes_refl c) [Kind.endLine.token] rfl
  simp only [endStatement, meets_bind, meets_current]
  split
  · trivial
  · split
    · trivial
    · exact hmissing

theorem blames_statementsRule (hr : r.Guides) (hc : c.Closed) :
    (statementsRule r c).Meets (fun _ _ => True) (Blames c (Nonterminal.Stands .statements)) := by
  obtain ⟨bs, hbs, hlines⟩ := hc.passes_skipEndLines
  simp only [statementsRule, meets_bind, meets_skipEndLines, meets_current]
  split
  · trivial
  simp only [meets_bind]
  refine hr.call (.stmt .statement) hc.skipEndLines trivial hbs ?_ ?_
  · rintro us ⟨s, hs⟩
    refine ⟨[], [s], fun next _ => ?_⟩
    exact .blankLines hlines (.moreStatements (hs _) .noStatement)
  intro s c₁ us hc₁ hus ps
  have ps := Sentence.loose ps
  refine (hr.blames .statements c₁ hc₁ trivial).mono (fun _ _ _ => trivial) ?_
  rintro x stop (hx | ⟨hx, vs, rest, hvs, ss, hss⟩)
  · exact .inl hx
  -- If nothing was passed behind the statement then nothing has to follow it.
  cases vs with
  | nil =>
    refine .inr ⟨hx, bs ++ us ++ [], [], hus.trans hvs, [s.unplaced], fun next hnext => ?_⟩
    have ps : LoosePhrase (.stmt .statement) (firstKind [] next) us s.unplaced :=
      ps.before ⟨Kind.ne_openParen_of_endsBlock hnext, fun _ => hnext⟩
    simpa using Phrase.blankLines hlines (.moreStatements ps .noStatement)
  | cons v vs =>
    refine .inr ⟨hx, _, rest, hus.trans hvs, s.unplaced :: ss, fun next hnext => ?_⟩
    have ps : LoosePhrase (.stmt .statement) (firstKind (v :: vs ++ rest) next) us s.unplaced := by
      rwa [hvs.kind_eq] at ps
    simpa using Phrase.blankLines hlines (.moreStatements ps (hss next hnext))

theorem blames_blockRule (hr : r.Guides) (hc : c.Closed) :
    (blockRule r c).Meets (fun _ _ => True) (Blames c (Nonterminal.Stands .block)) := by
  simp only [blockRule, meets_bind, meets_current]
  refine hr.call .statements hc trivial (passes_refl c) ?_ ?_
  · rintro us ⟨ss, hss⟩
    exact ⟨[], .mk ss .nowhere, fun next hnext => by simpa using Phrase.block (hss next hnext)⟩
  · intros
    trivial

theorem blames_statementRule (hr : r.Guides) (hc : c.Closed) :
    (statementRule .standard r c).Meets (fun _ _ => True)
      (Blames c (Nonterminal.Stands (.stmt .statement))) := by
  simp only [statementRule, meets_bind, meets_current]
  cases hrule : Grammar.standard.statement c.current.kind with
  | some rule =>
    have hcalled : (Nonterminal.stmt rule).CalledAt c.kind := by
      cases rule <;> trivial
    exact hr.blames (.stmt rule) c hc hcalled
  | none =>
    simp only [meets_bind, meets_current]
    refine hr.call (.expr .expression) hc trivial (passes_refl c) ?_ ?_
    · rintro us ⟨e, he⟩
      exact ⟨_, stands_expression (he _)⟩
    intro e c₁ us hc₁ hus pe
    by_cases ha : c₁.current.kind = .assign
    · rw [if_pos ha]
      have pe := (Sentence.loose pe).before (show Kind.assign ≠ .openParen by decide)
      by_cases hvar : e.isVar = true
      · simp only [if_pos hvar, meets_bind, meets_advance]
        have hassign := hus.trans (hc₁.passes_advance (by simp [Cursor.kind, ha]))
        refine hr.call (.expr .expression) hc₁.advance trivial hassign ?_ ?_
        · rintro vs ⟨v, hv⟩
          exact ⟨[Kind.endLine.token], .of_eq (stands_assign pe ha (hv _)) (by simp)⟩
        · intro v c₂ vs _ hvs pv
          have pv := (Sentence.loose pv).before (show Kind.endLine ≠ .openParen by decide)
          refine (blames_endStatement c₂).lift hvs ?_ fun _ _ _ => trivial
          rintro _ rfl
          exact ⟨[], .of_eq (stands_assign pe ha pv) (by simp)⟩
      · rw [if_neg hvar]
        exact .inl rfl
    · simp only [if_neg ha, meets_bind]
      have pe := (Sentence.loose pe).before (show Kind.endLine ≠ .openParen by decide)
      refine (blames_endStatement c₁).lift hus ?_ fun _ _ _ => trivial
      rintro _ rfl
      exact ⟨[], stands_expression pe⟩

/-- A condition lacks a parenthesis or an expression at most. -/
theorem blames_conditionRule (hr : r.Guides) (hc : c.Closed) :
    (conditionRule r c).Meets (fun _ d => d.Closed ∧ ∃ us, c.Passes us d ∧ Condition us)
      (Blames c Condition) := by
  simp only [conditionRule, meets_bind, meets_expect]
  refine ⟨fun _ => blames_lacking _ (passes_refl c) _ condition_number, fun ho => ?_⟩
  have hopen : c.Passes [c.current] c.advance := hc.passes_advance (by simp [ho])
  refine hr.call (.expr .expression) hc.advance trivial hopen ?_ ?_
  · rintro us ⟨e, he⟩
    exact ⟨[Kind.closeParen.token], _, us, _, e, ho, he _, rfl, rfl⟩
  · intro e d us hd hus pe
    have pe := (Sentence.loose pe).before (show Kind.closeParen ≠ .openParen by decide)
    refine ⟨fun _ => ?_, fun hp => ?_⟩
    · exact blames_lacking _ hus [Kind.closeParen.token] ⟨_, us, _, _, ho, pe, rfl, rfl⟩
    · have hclose := hus.trans (hd.passes_advance (by simp [hp]))
      exact ⟨hd.advance, _, hclose, _, us, _, _, ho, pe, hp, rfl⟩

/-- Behind a block comes the word that closes it, and then the statement ends. -/
theorem blames_closing {k : Kind} {message : String} (hd : d.Closed) (hk : k ≠ .endOfInput)
    (hpre : c.Passes pre d) (hL : ∀ f, f.kind = k → L (pre ++ [f, Kind.endLine.token])) :
    (d.kind ≠ k → Blames c L (d.misplaced message) d) ∧
      (d.kind = k → (endStatement d.advance).Meets (fun _ _ => True) (Blames c L)) := by
  refine ⟨fun _ => blames_misplaced _ hpre _ (hL k.token rfl), fun hf => ?_⟩
  have hclosed := hpre.trans (hd.passes_advance (hf ▸ hk))
  refine (blames_endStatement d.advance).lift hclosed ?_ fun _ _ _ => trivial
  rintro _ rfl
  exact ⟨[], by simpa using hL d.current hf⟩

theorem blames_tail {k : Kind} {message : String} (hr : r.Guides) (hd : d.Closed)
    (hk : k.endsBlock = true) (hne : k ≠ .endOfInput) (hpre : c.Passes pre d)
    (hL : ∀ ys b f, LoosePhrase .block k ys b → f.kind = k →
      L (pre ++ (ys ++ [f, Kind.endLine.token]))) :
    (r.block d).Meets (fun _ d' => (d'.kind ≠ k → Blames c L (d'.misplaced message) d') ∧
      (d'.kind = k → (endStatement d'.advance).Meets (fun _ _ => True) (Blames c L)))
      (Blames c L) := by
  refine hr.call .block hd trivial hpre ?_ ?_
  · rintro ys ⟨b, hb⟩
    exact ⟨_, hL ys b k.token (hb k hk) rfl⟩
  · intro b d' ys hd' hys pb
    have hmay : Nonterminal.MayPrecede .block d'.kind k :=
      ⟨Kind.ne_openParen_of_endsBlock hk, fun _ => hk⟩
    refine blames_closing hd' hne hys fun f hf => ?_
    simpa using hL ys _ f ((Sentence.loose pb).before hmay) hf

/-- A condition can be ended with its own word wherever its block stops. -/
theorem blames_conditionalRule (hr : r.Guides) (hc : c.Closed) (hk : c.kind = .ifWord) :
    (conditionalRule r c).Meets (fun _ _ => True)
      (Blames c (Nonterminal.Stands (.stmt .statement))) := by
  have hif : c.Passes [c.current] c.advance := hc.passes_advance (by simp [hk])
  simp only [conditionalRule, elseRule, meets_bind, meets_advance, meets_current, meets_expectOr,
    meets_pure]
  refine (blames_conditionRule hr hc.advance).lift hif ?_ ?_
  · intro cs hcs
    refine ⟨[Kind.endIf.token, Kind.endLine.token], ?_⟩
    exact .of_eq (stands_cond hk hcs (loosePhrase_block _) (Kind.kind_token _)) (by simp)
  rintro e c₁ ⟨hc₁, cs, hcs, hcond⟩
  refine hr.call .block hc₁ trivial (hif.trans hcs) ?_ ?_
  · rintro ys ⟨b, hb⟩
    refine ⟨[Kind.endIf.token, Kind.endLine.token], ?_⟩
    exact .of_eq (stands_cond hk hcond (hb .endIf rfl) (Kind.kind_token _)) (by simp)
  intro b c₂ ys hc₂ hys pb
  by_cases helse : c₂.current.kind = .elseWord
  · have hword := hys.trans (hc₂.passes_advance (by simp [Cursor.kind, helse]))
    have pb : LoosePhrase .block .elseWord ys b.unplaced :=
      (Sentence.loose pb).before ⟨by decide, fun _ => rfl⟩
    simp only [if_pos helse, meets_bind, meets_advance, meets_pure]
    refine blames_tail hr hc₂.advance rfl (by decide) hword fun ns n f hn hf => ?_
    exact .of_eq (stands_condElse hk hcond pb helse hn hf) (by simp)
  · have pb : LoosePhrase .block .endIf ys b.unplaced :=
      (Sentence.loose pb).before ⟨by decide, fun _ => rfl⟩
    simp only [if_neg helse, meets_pure]
    refine blames_closing hc₂ (by decide) hys fun f hf => ?_
    exact .of_eq (stands_cond hk hcond pb hf) (by simp)

theorem blames_testedLoopRule (hr : r.Guides) (hc : c.Closed) (hk : c.kind = .whileWord) :
    (testedLoopRule r c).Meets (fun _ _ => True)
      (Blames c (Nonterminal.Stands (.stmt .statement))) := by
  have hwhile : c.Passes [c.current] c.advance := hc.passes_advance (by simp [hk])
  simp only [testedLoopRule, meets_bind, meets_advance, meets_expectOr, meets_pure]
  refine (blames_conditionRule hr hc.advance).lift hwhile ?_ ?_
  · intro cs hcs
    refine ⟨[Kind.endWhile.token, Kind.endLine.token], ?_⟩
    exact .of_eq (stands_loop hk hcs (loosePhrase_block _) (Kind.kind_token _)) (by simp)
  · rintro e c₁ ⟨hc₁, cs, hcs, hcond⟩
    refine blames_tail hr hc₁ rfl (by decide) (hwhile.trans hcs) fun ys b f hb hf => ?_
    exact .of_eq (stands_loop hk hcond hb hf) (by simp)

/-- What closes the head of a `for`, and its body. -/
theorem blames_countedBody {message : String} (hr : r.Guides) (hd : d.Closed)
    (hpre : c.Passes pre d) (hL : ∀ us, CountedBody us → L (pre ++ us)) :
    (d.kind ≠ .closeParen → Blames c L (d.lacking .closeParen) d) ∧
    (d.kind = .closeParen → (r.block d.advance).Meets
      (fun _ d' => (d'.kind ≠ .endFor → Blames c L (d'.misplaced message) d') ∧
        (d'.kind = .endFor → (endStatement d'.advance).Meets (fun _ _ => True) (Blames c L)))
      (Blames c L)) := by
  refine ⟨fun _ => blames_lacking _ hpre _ (hL _ countedBody_emptyBody), fun hp => ?_⟩
  have hclose := hpre.trans (hd.passes_advance (by simp [hp]))
  refine blames_tail hr hd.advance rfl (by decide) hclose fun ys b f hb hf => ?_
  simpa using hL _ ⟨_, ys, b, f, hp, hb, hf, rfl⟩

/-- The head of a counting loop can be completed at each of its semicolons, and its block with the word that
ends the loop. -/
theorem blames_countingRule (hr : r.Guides) (hc : c.Closed) (hk : c.kind = .forWord) :
    (countingRule r c).Meets (fun _ _ => True)
      (Blames c (Nonterminal.Stands (.stmt .statement))) := by
  have hfor : c.Passes [c.current] c.advance := hc.passes_advance (by simp [hk])
  have hbody := countedBody_emptyBody
  have hnumber := loosePhrase_number
  have hsep := Kind.kind_token .semicolon
  simp only [countingRule, counterRule, incrementRule, meets_bind, meets_advance, meets_current,
    meets_expect, meets_expectOr, meets_pure]
  refine ⟨fun _ => ?_, fun ho => ?_⟩
  · have hcounter : LoosePhrase (.expr .primary) .semicolon [Kind.number.token] _ := .number rfl
    exact blames_lacking _ hfor _ (stands_count hk (Kind.kind_token _) hcounter hsep (hnumber _)
      hsep (hnumber _) hbody)
  have hopen := hfor.trans (hc.advance.passes_advance (by simp [ho]))
  refine hr.call (.expr .primary) hc.advance.advance trivial hopen ?_ ?_
  · rintro vs ⟨v, hv⟩
    exact ⟨_, stands_count hk ho (hv _) hsep (hnumber _) hsep (hnumber _) hbody⟩
  intro v c₁ vs hc₁ hvs pv
  have pv := (Sentence.loose pv).before (show Kind.semicolon ≠ .openParen by decide)
  by_cases hvar : v.isVar = true
  · simp only [if_pos hvar, meets_pure]
    refine ⟨fun _ => ?_, fun h₁ => ?_⟩
    · exact blames_lacking _ hvs _
        (stands_count hk ho pv hsep (hnumber _) hsep (hnumber _) hbody)
    have hfirst := hvs.trans (hc₁.passes_advance (by simp [h₁]))
    refine hr.call (.expr .expression) hc₁.advance trivial hfirst ?_ ?_
    · rintro as ⟨a, ha⟩
      refine ⟨Kind.semicolon.token :: Kind.number.token :: emptyBody, ?_⟩
      exact .of_eq (stands_count hk ho pv h₁ (ha _) hsep (hnumber _) hbody) (by simp)
    intro a c₂ as hc₂ has pa
    have pa := (Sentence.loose pa).before (show Kind.semicolon ≠ .openParen by decide)
    refine ⟨fun _ => ?_, fun h₂ => ?_⟩
    · refine blames_lacking _ has (Kind.semicolon.token :: Kind.number.token :: emptyBody) ?_
      exact .of_eq (stands_count hk ho pv h₁ pa hsep (hnumber _) hbody) (by simp)
    have hsecond := has.trans (hc₂.passes_advance (by simp [h₂]))
    refine hr.call (.expr .expression) hc₂.advance trivial hsecond ?_ ?_
    · rintro bs ⟨b, hb⟩
      exact ⟨emptyBody, .of_eq (stands_count hk ho pv h₁ pa h₂ (hb _) hbody) (by simp)⟩
    intro b c₃ bs hc₃ hbs pb
    have pb := Sentence.loose pb
    by_cases h₃ : c₃.current.kind = .semicolon
    · have pb := pb.before (show Kind.semicolon ≠ .openParen by decide)
      have hthird := hbs.trans (hc₃.passes_advance (by simp [Cursor.kind, h₃]))
      simp only [if_pos h₃, meets_bind, meets_advance, meets_pure]
      refine hr.call (.expr .expression) hc₃.advance trivial hthird ?_ ?_
      · rintro js ⟨j, hj⟩
        refine ⟨emptyBody, ?_⟩
        exact .of_eq (stands_countBy hk ho pv h₁ pa h₂ pb h₃ (hj _) hbody) (by simp)
      · intro j c₄ js hc₄ hjs pj
        have pj := (Sentence.loose pj).before (show Kind.closeParen ≠ .openParen by decide)
        refine blames_countedBody hr hc₄ hjs fun us hus => ?_
        exact .of_eq (stands_countBy hk ho pv h₁ pa h₂ pb h₃ pj hus) (by simp)
    · have pb := pb.before (show Kind.closeParen ≠ .openParen by decide)
      simp only [if_neg h₃, meets_pure]
      refine blames_countedBody hr hc₃ hbs fun us hus => ?_
      exact .of_eq (stands_count hk ho pv h₁ pa h₂ pb hus) (by simp)
  · rw [if_neg hvar]
    exact .inl (beq_self_eq_true "expected a loop variable")

theorem blames_repeatedLoopRule (hr : r.Guides) (hc : c.Closed) (hk : c.kind = .repeatWord) :
    (repeatedLoopRule r c).Meets (fun _ _ => True)
      (Blames c (Nonterminal.Stands (.stmt .statement))) := by
  have hrepeat : c.Passes [c.current] c.advance := hc.passes_advance (by simp [hk])
  simp only [repeatedLoopRule, meets_bind, meets_advance, meets_expectOr, meets_pure]
  refine hr.call .block hc.advance trivial hrepeat ?_ ?_
  · rintro ys ⟨b, hb⟩
    exact ⟨_, stands_loopUntil hk (hb .untilWord rfl) (Kind.kind_token _) condition_number⟩
  intro b c₁ ys hc₁ hys pb
  have pb : LoosePhrase .block .untilWord ys b.unplaced :=
    (Sentence.loose pb).before ⟨by decide, fun _ => rfl⟩
  refine ⟨fun _ => ?_, fun hu => ?_⟩
  · exact blames_misplaced _ hys _ (stands_loopUntil hk pb (Kind.kind_token _) condition_number)
  have huntil := hys.trans (hc₁.passes_advance (by simp [hu]))
  refine (blames_conditionRule hr hc₁.advance).lift huntil ?_ ?_
  · intro cs hcs
    exact ⟨[Kind.endLine.token], .of_eq (stands_loopUntil hk pb hu hcs) (by simp)⟩
  · rintro e c₂ ⟨_, cs, hcs, hcond⟩
    refine (blames_endStatement c₂).lift (huntil.trans hcs) ?_ fun _ _ _ => trivial
    rintro _ rfl
    exact ⟨[], .of_eq (stands_loopUntil hk pb hu hcond) (by simp)⟩

end

/-! ## Whole scripts -/

/-- Whatever a call stumbles over, what it has passed can be completed. -/
theorem blames_answer {r : Rules} (hr : r.Guides) (s : Nonterminal) {c : Cursor} (hc : c.Closed)
    (hs : s.CalledAt c.kind) :
    (Grammar.standard.answer r s c).Meets (fun _ _ => True) (Blames c s.Stands) := by
  match s with
  | .block => exact blames_blockRule hr hc
  | .statements => exact blames_statementsRule hr hc
  | .arguments => exact blames_argumentsRule hr hc
  | .stmt .statement => exact blames_statementRule hr hc
  | .stmt .conditional =>
    exact blames_conditionalRule hr hc (Grammar.standardStatement_eq_conditional.mp hs)
  | .stmt .counting =>
    exact blames_countingRule hr hc (Grammar.standardStatement_eq_counting.mp hs)
  | .stmt .testedLoop =>
    exact blames_testedLoopRule hr hc (Grammar.standardStatement_eq_testedLoop.mp hs)
  | .stmt .repeatedLoop =>
    exact blames_repeatedLoopRule hr hc (Grammar.standardStatement_eq_repeatedLoop.mp hs)
  | .expr .expression => exact blames_expressionRule hr hc
  | .expr .primary => exact blames_primaryRule hr hc
  | .expr .localVariable =>
    have hk := Grammar.standardPrimary_eq_localVariable.mp hs
    exact blames_variableRule hc (by simp [hk]) ⟨_, fun _ => .localVariable hk (.inl rfl)⟩
  | .expr .persistentVariable =>
    have hk := Grammar.standardPrimary_eq_persistentVariable.mp hs
    exact blames_variableRule hc (by simp [hk]) ⟨_, fun _ => .persistentVariable hk (.inl rfl)⟩
  | .expr .name => exact blames_nameRule hr hc (Grammar.standardPrimary_eq_name.mp hs)
  | .expr .literal => trivial
  | .expr .grouping => exact blames_groupingRule hr hc (Grammar.standardPrimary_eq_grouping.mp hs)
  | .expr .unary => exact blames_unaryRule hr hc (Grammar.standardPrimary_eq_unary.mp hs)

/-- At every depth the rules stumble only where something can be put. -/
theorem guides_rules (depth : Nat) : Rules.Guides (Grammar.standard.rules depth) := by
  induction depth with
  | zero => exact ⟨sound_rules 0, fun _ _ _ _ => trivial⟩
  | succ depth ih => exact ⟨sound_rules _, fun s _ hc hs => blames_answer ih s hc hs⟩

/-- A script of the loose grammar, with its end. -/
def LooseScript (tokens : List Token) : Prop :=
  EndsOnce tokens ∧ ∃ ts e b, tokens = ts ++ [e] ∧ e.kind = .endOfInput ∧
    LoosePhrase .block .endOfInput ts b

theorem looseScript_append {ts : List Token} {e : Token} {b : Block}
    (h : LoosePhrase .block .endOfInput ts b) (he : e.kind = .endOfInput) :
    LooseScript (ts ++ [e]) :=
  ⟨⟨ts, e, rfl, he, h.endless⟩, ts, e, b, rfl, he, h⟩

/-- Whatever a script is given up at, what was passed can be completed to a script. -/
theorem blames_scriptRule {c : Cursor} (hc : c.Closed) :
    (scriptRule c).Meets (fun _ _ => True) (Blames c LooseScript) := by
  simp only [scriptRule, Grammar.run, meets_bind, meets_current]
  refine (guides_rules _).call .block hc trivial (passes_refl c) ?_ ?_
  · rintro us ⟨b, hb⟩
    exact ⟨_, looseScript_append (hb _ rfl) (Kind.kind_token _)⟩
  · intro b d us hd hus pb
    split
    · trivial
    · have pb : LoosePhrase .block .endOfInput us b.unplaced :=
        (Sentence.loose pb).before ⟨by decide, fun _ => rfl⟩
      exact blames_unexpected hus _ (looseScript_append pb (Kind.kind_token _))

/-- The parser does not stumble over scripts of the loose grammar. -/
theorem LooseScript.parse_meets {file : String} {tokens : List Token} (h : LooseScript tokens) :
    (parse file tokens).Meets (fun _ _ => True) (fun x _ => x.cause.aboutTarget = true) := by
  obtain ⟨-, ts, e, b, rfl, he, p⟩ := h
  simp only [parse, scriptRule, Grammar.run, meets_bind, meets_current]
  refine (p.walks (Cursor.ofTokens_append file he) he rfl _).walk fun b => ?_
  rw [if_pos he]
  trivial

/-- If the parser stumbles then the diagnostic shows the token that it stands at, and is on its line.
The tokens before that one begin a script of the loose grammar, and with that one they begin none. -/
theorem parse_fails_at_first_fault {file : String} {tokens : List Token} {x : Diagnostic}
    {stop : Cursor} (hend : ∃ ts e, tokens = ts ++ [e] ∧ e.kind = .endOfInput)
    (hfail : parse file tokens = .failed x stop) (htarget : x.cause.aboutTarget = false) :
    ∃ k, stop.remaining = tokens.drop k ∧ x.Shows stop.current ∧
      (∃ script, LooseScript script ∧ tokens.take k <+: script) ∧
      ∀ script, LooseScript script → ¬ tokens.take (k + 1) <+: script := by
  have hrow : closedRow file tokens = tokens := Cursor.remaining_ofTokens file hend
  have hblames : (parse file tokens).Meets (fun _ _ => True)
      (Blames (.ofTokens file tokens) LooseScript) :=
    blames_scriptRule (closed_ofTokens file tokens)
  rw [hfail] at hblames
  rcases hblames with hx | ⟨hx, ts, rest, hts, hscript⟩
  · rw [htarget] at hx
    cases hx
  have htokens : tokens = ts ++ stop.current :: stop.ahead := hrow.symm.trans hts.2
  refine ⟨ts.length, ?_, hx, ⟨_, hscript, ?_⟩, ?_⟩
  · rw [htokens, List.drop_left]
    rfl
  · rw [htokens, List.take_left]
    exact List.prefix_append ts rest
  -- On a script that begins so, the parser would stumble again; but it does not stumble over scripts.
  rintro script hscript' ⟨us, hus⟩
  have hus : script = ts ++ stop.current :: us := by
    rw [← hus, htokens, List.take_append, List.take_of_length_le (by omega)]
    simp
  have hrow' : closedRow file script = ts ++ stop.current :: us := by
    obtain ⟨_, vs, e, b, hvs, he, -⟩ := hscript'
    rw [closedRow, Cursor.remaining_ofTokens file ⟨vs, e, hvs, he⟩, hus]
  have hstop : (parse file tokens).stop? = some stop := by rw [hfail]; rfl
  have hagain := parse_eq_leaving hstop hts.2 hrow'
  have hmeets : (parse file script).Meets _ _ := hscript'.parse_meets
  rw [hagain, hfail] at hmeets
  rw [show x.cause.aboutTarget = true from hmeets] at htarget
  cases htarget

/-- `for (a; 1; 2; )` lacks an increment, which shows at the closing parenthesis. -/
theorem missing_increment_is_first_fault :
    let token (k : Kind) (text : String) : Token := ⟨k, text, .lines "unit" 1 1⟩
    let tokens := [token .forWord "for", token .openParen "(", token .name "a",
      token .semicolon ";", token .number "1", token .semicolon ";", token .number "2",
      token .semicolon ";", token .closeParen ")", token .endOfInput "EOF"]
    let x : Diagnostic := ⟨.unexpectedToken ")", ⟨1, "unit"⟩⟩
    let stop : Cursor := ⟨"unit", token .closeParen ")", [token .endOfInput "EOF"]⟩
    parse "unit" tokens = .failed x stop ∧ x.cause.aboutTarget = false ∧
      ∃ k, stop.remaining = tokens.drop k ∧ x.Shows stop.current ∧
        (∃ script, LooseScript script ∧ tokens.take k <+: script) ∧
        ∀ script, LooseScript script → ¬ tokens.take (k + 1) <+: script := by
  intro token tokens x stop
  have hfail : parse "unit" tokens = .failed x stop := rfl
  exact ⟨hfail, rfl, parse_fails_at_first_fault ⟨tokens.dropLast, _, rfl, rfl⟩ hfail rfl⟩

end Sigil
