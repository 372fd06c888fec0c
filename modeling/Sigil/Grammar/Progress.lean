import Sigil.Grammar.Rules

/-!
# Parsing makes progress

In the grammar of the language, a rule that calls for itself has moved on before it does. So parsing
never goes in circles, which is `parse_ne_circular`: every row of tokens gets a tree or a diagnostic.

The reason is a rank. A call at the same token always goes down in rank, from blocks over statements
and expressions to operands and what an operand starts with; a call that goes up again comes only after
a token was passed. A row of tokens is closed with the end of the script, and no rule passes that.
-/

namespace Sigil

namespace Cursor

/-- The last token is the end of the script. -/
def Closed (c : Cursor) : Prop := (c.ahead.getLastD c.current).kind = .endOfInput

/-- A cursor is closed from the start. -/
theorem closed_ofTokens (file : String) (tokens : List Token) : (ofTokens file tokens).Closed := by
  cases tokens with
  | nil => rfl
  | cons t ts =>
    show ((ts ++ closing file (ts.getLastD t)).getLastD t).kind = .endOfInput
    unfold closing
    split
    · next h => rw [List.append_nil]; exact h
    · rw [List.getLastD_eq_getLast?, List.getLast?_concat]; rfl

/-- Whether a cursor is closed is decided by the tokens after the current one, if there are any. -/
theorem closed_cons {file file' : String} {t u : Token} {us : List Token} :
    Closed ⟨file, t, u :: us⟩ ↔ Closed ⟨file', u, us⟩ := by
  unfold Closed
  rw [List.getLastD_cons]

/-- Moving on keeps a cursor closed. -/
theorem Closed.advance {c : Cursor} (h : c.Closed) : c.advance.Closed := by
  obtain ⟨file, t, ahead⟩ := c
  cases ahead with
  | nil => exact h
  | cons u us => exact closed_cons.mp h

/-- Moving on never adds tokens. -/
theorem length_advance_le (c : Cursor) : c.advance.ahead.length ≤ c.ahead.length := by
  obtain ⟨file, t, ahead⟩ := c
  cases ahead <;> simp [Cursor.advance]

/-- Before the end of the script, moving on leaves a token behind. -/
theorem Closed.length_advance_lt {c : Cursor} (h : c.Closed) (hk : c.kind ≠ .endOfInput) :
    c.advance.ahead.length < c.ahead.length := by
  obtain ⟨file, t, ahead⟩ := c
  cases ahead with
  | nil => exact absurd h hk
  | cons u us => simp [Cursor.advance]

/-- Skipping the ends of lines keeps a cursor closed. -/
theorem Closed.skipEndLines {c : Cursor} (h : c.Closed) : c.skipEndLines.Closed := by
  obtain ⟨file, t, ahead⟩ := c
  unfold Cursor.skipEndLines
  induction ahead generalizing t with
  | nil => exact h
  | cons u us ih =>
    unfold skipFrom
    split
    · exact ih u (closed_cons.mp h)
    · exact h

/-- Skipping the ends of lines never adds tokens. -/
theorem length_skipEndLines_le (c : Cursor) : c.skipEndLines.ahead.length ≤ c.ahead.length := by
  obtain ⟨file, t, ahead⟩ := c
  unfold Cursor.skipEndLines
  induction ahead generalizing t with
  | nil => exact Nat.le_refl _
  | cons u us ih =>
    unfold skipFrom
    split
    · exact Nat.le_succ_of_le (ih u)
    · exact Nat.le_refl _

theorem remaining_advance_suffix (c : Cursor) : c.advance.remaining <:+ c.remaining := by
  obtain ⟨file, t, ahead⟩ := c
  cases ahead with
  | nil => exact List.suffix_refl _
  | cons u us => exact List.suffix_cons t (u :: us)

theorem remaining_skipEndLines_suffix (c : Cursor) : c.skipEndLines.remaining <:+ c.remaining := by
  obtain ⟨file, t, ahead⟩ := c
  unfold Cursor.skipEndLines
  induction ahead generalizing t with
  | nil => exact List.suffix_refl _
  | cons u us ih =>
    unfold skipFrom
    split
    · exact (ih u).trans (List.suffix_cons t (u :: us))
    · exact List.suffix_refl _

/-- The cursor stands in the row of tokens, and the last of them is the end of the script. -/
structure On (row : List Token) (c : Cursor) : Prop where
  closed : c.Closed
  suffix : c.remaining <:+ row

variable {row : List Token} {c : Cursor}

theorem Closed.on (h : c.Closed) : c.On c.remaining := ⟨h, List.suffix_refl _⟩

theorem On.advance (h : c.On row) : c.advance.On row :=
  ⟨h.closed.advance, c.remaining_advance_suffix.trans h.suffix⟩

theorem On.skipEndLines (h : c.On row) : c.skipEndLines.On row :=
  ⟨h.closed.skipEndLines, c.remaining_skipEndLines_suffix.trans h.suffix⟩

end Cursor

namespace Parse

variable {α β : Type} {c : Cursor} {post : α → Cursor → Prop}

/-- The step does not go in circles, and if it is done then `post` holds of what it leaves. -/
def Replies (p : Parse α) (c : Cursor) (post : α → Cursor → Prop) : Prop :=
  match p c with
  | .done a rest => post a rest
  | .failed _ _ => True
  | .circular => False

/-- What a step leaves may be weakened. -/
theorem Replies.mono {p : Parse α} {post' : α → Cursor → Prop} (h : p.Replies c post)
    (weaken : ∀ a rest, post a rest → post' a rest) : p.Replies c post' := by
  unfold Replies at h ⊢
  split at h
  · exact weaken _ _ h
  · trivial
  · exact h

@[simp]
theorem replies_bind {p : Parse α} {f : α → Parse β} {post : β → Cursor → Prop} :
    (p >>= f).Replies c post ↔ p.Replies c fun a rest => (f a).Replies rest post := by
  show (Parse.bind p f).Replies c post ↔ _
  unfold Replies Parse.bind
  cases p c <;> rfl

@[simp]
theorem replies_pure {a : α} : (pure a : Parse α).Replies c post ↔ post a c := Iff.rfl

@[simp]
theorem replies_fail {problem : Cursor → Diagnostic} : (fail problem : Parse α).Replies c post :=
  trivial

@[simp]
theorem replies_current {post : Token → Cursor → Prop} :
    current.Replies c post ↔ post c.current c := Iff.rfl

@[simp]
theorem replies_peek {offset : Nat} {post : Kind → Cursor → Prop} :
    (peek offset).Replies c post ↔ post (c.peek offset) c := Iff.rfl

@[simp]
theorem replies_advance {post : Token → Cursor → Prop} :
    advance.Replies c post ↔ post c.current c.advance := Iff.rfl

@[simp]
theorem replies_skipEndLines {post : Unit → Cursor → Prop} :
    skipEndLines.Replies c post ↔ post () c.skipEndLines := Iff.rfl

@[simp]
theorem replies_expectOr {k : Kind} {problem : Cursor → Diagnostic}
    {post : Token → Cursor → Prop} :
    (expectOr k problem).Replies c post ↔ (c.kind = k → post c.current c.advance) := by
  unfold Replies expectOr
  by_cases h : c.kind = k <;> simp [h]

@[simp]
theorem replies_expect {k : Kind} {post : Token → Cursor → Prop} :
    (expect k).Replies c post ↔ (c.kind = k → post c.current c.advance) :=
  replies_expectOr

end Parse

/-! ## Places after a place -/

namespace Cursor

/-- The cursor `d` stands in the row, at least `n` tokens after `c`. -/
def After (row : List Token) (c : Cursor) (n : Nat) (d : Cursor) : Prop :=
  d.On row ∧ d.ahead.length + n ≤ c.ahead.length

variable {row : List Token} {c d e : Cursor} {n m : Nat}

theorem On.after (h : c.On row) : c.After row 0 c := ⟨h, Nat.le_refl _⟩

theorem After.advance (h : c.After row n d) : c.After row n d.advance := by
  refine ⟨h.1.advance, ?_⟩
  have := d.length_advance_le
  have := h.2
  omega

theorem After.advance_succ (h : c.After row n d) (hk : d.kind ≠ .endOfInput) :
    c.After row (n + 1) d.advance := by
  refine ⟨h.1.advance, ?_⟩
  have := h.1.closed.length_advance_lt hk
  have := h.2
  omega

theorem After.skipEndLines (h : c.After row n d) : c.After row n d.skipEndLines := by
  refine ⟨h.1.skipEndLines, ?_⟩
  have := d.length_skipEndLines_le
  have := h.2
  omega

theorem After.trans (h : c.After row n d) (h' : d.After row m e) : c.After row (n + m) e := by
  refine ⟨h'.1, ?_⟩
  have := h.2
  have := h'.2
  omega

theorem After.of_le (h : c.After row n d) (hm : m ≤ n) : c.After row m d := by
  refine ⟨h.1, ?_⟩
  have := h.2
  omega

end Cursor

/-! ## Ranks -/

namespace Nonterminal

/-- The rank of a nonterminal: a call at the same token is for one of a lower rank. -/
def rank : Nonterminal → Nat
  | block => 6
  | statements => 5
  | stmt .statement => 4
  | arguments => 4
  | expr .expression => 3
  | expr .primary => 2
  | _ => 1

/-- Whether a nonterminal is only called for at a token that has it in the tables. -/
def IsTabled (s : Nonterminal) : Prop := s.rank = 1

/-- How many tokens a nonterminal passes at least. -/
def passes : Nonterminal → Nat
  | block => 0
  | statements => 0
  | _ => 1

theorem rank_le (s : Nonterminal) : s.rank ≤ 6 := by
  unfold rank
  split <;> decide

end Nonterminal

open Parse Cursor

/-- Calls in the row that are low enough are answered without going in circles, and pass the tokens that
they should: what counts is the rank and, eight times, the number of tokens ahead. -/
def Rules.EndBelow (r : Rules) (row : List Token) (bound : Nat) : Prop :=
  ∀ (s : Nonterminal) (c : Cursor), c.On row → (s.IsTabled → c.kind ≠ .endOfInput) →
    s.rank + 8 * c.ahead.length < bound → (r s).Replies c fun _ d => c.After row s.passes d

namespace Rules.EndBelow

variable {r : Rules} {row : List Token} {bound n : Nat} {c d : Cursor}

/-- A call at the same token, down in rank. -/
theorem down (h : r.EndBelow row bound) (s : Nonterminal) (hc : c.On row)
    (hs : s.IsTabled → c.kind ≠ .endOfInput) (hb : s.rank + 8 * c.ahead.length < bound) :
    (r s).Replies c fun _ d => c.After row s.passes d :=
  h s c hc hs hb

/-- A call after a token was passed, for whatever is not tabled. -/
theorem later (h : r.EndBelow row bound) (s : Nonterminal) (hs : ¬ s.IsTabled)
    (hd : c.After row (n + 1) d) (hb : 8 * c.ahead.length < bound + 2) :
    (r s).Replies d fun _ e => c.After row (n + 1) e := by
  have := s.rank_le
  have := hd.2
  refine (h s d hd.1 (fun hs' => absurd hs' hs) (by omega)).mono fun _ e he => ?_
  exact (hd.trans he).of_le (Nat.le_add_right _ _)

end Rules.EndBelow

/-! ## Expressions -/

section

variable {r : Rules} {row : List Token} {bound n : Nat} {c d : Cursor}

theorem replies_expressionRule (h : r.EndBelow row bound) (hc : c.On row)
    (hb : 2 + 8 * c.ahead.length < bound) :
    (expressionRule r).Replies c fun _ d => c.After row 1 d := by
  simp only [expressionRule, replies_bind, replies_current]
  refine (h.down (.expr .primary) hc nofun hb).mono fun left d hd => ?_
  split
  · simp only [replies_bind, replies_advance]
    exact h.later (.expr .expression) nofun hd.advance (by omega)
  · exact hd

theorem replies_primaryRule (h : r.EndBelow row bound) (hc : c.On row)
    (hb : 1 + 8 * c.ahead.length < bound) :
    (primaryRule .standard r).Replies c fun _ d => c.After row 1 d := by
  simp only [primaryRule, replies_bind, replies_current]
  split
  · next rule hrule =>
    have hk : c.kind ≠ .endOfInput := fun hk => by
      rw [Cursor.kind] at hk
      simp [hk, Grammar.standard, Grammar.standardPrimary] at hrule
    have hs : (Nonterminal.expr rule).rank = 1 ∧ (Nonterminal.expr rule).passes = 1 := by
      revert hrule
      simp only [Grammar.standard, Grammar.standardPrimary]
      split <;> simp <;> rintro rfl <;> simp [Nonterminal.rank, Nonterminal.passes]
    have := h.down (.expr rule) hc (fun _ => hk) (by omega)
    rwa [hs.2] at this
  · exact replies_fail

theorem replies_variableRule (storage : Storage) (hc : c.On row) (hk : c.kind ≠ .endOfInput) :
    (variableRule storage).Replies c fun _ d => c.After row 1 d := by
  simp only [variableRule, replies_bind, replies_advance, replies_current]
  split
  · exact (hc.after.advance_succ hk).advance
  · exact replies_fail

theorem replies_nameRule (h : r.EndBelow row bound) (hc : c.On row) (hk : c.kind ≠ .endOfInput)
    (hb : 8 * c.ahead.length < bound + 2) :
    (nameRule r).Replies c fun _ d => c.After row 1 d := by
  have ha := hc.after.advance_succ hk
  simp only [nameRule, replies_bind, replies_peek, replies_advance]
  split
  · simp only [replies_bind, replies_advance, replies_current]
    split
    · simp only [replies_bind, replies_pure, replies_expect]
      exact fun _ => ha.advance.advance
    · simp only [replies_bind, replies_expect]
      refine (h.later .arguments nofun ha.advance hb).mono fun args d hd => ?_
      exact fun _ => hd.advance
  · exact ha

theorem replies_argumentsRule (h : r.EndBelow row bound) (hc : c.On row)
    (hb : 3 + 8 * c.ahead.length < bound) :
    (argumentsRule r).Replies c fun _ d => c.After row 1 d := by
  simp only [argumentsRule, replies_bind, replies_current]
  refine (h.down (.expr .expression) hc nofun hb).mono fun e d hd => ?_
  split
  · simp only [replies_bind, replies_advance]
    exact h.later .arguments nofun hd.advance (by omega)
  · exact hd

theorem replies_literalRule (hc : c.On row) (hk : c.kind ≠ .endOfInput) :
    literalRule.Replies c fun _ d => c.After row 1 d :=
  hc.after.advance_succ hk

theorem replies_groupingRule (h : r.EndBelow row bound) (hc : c.On row) (hk : c.kind ≠ .endOfInput)
    (hb : 8 * c.ahead.length < bound + 2) :
    (groupingRule r).Replies c fun _ d => c.After row 1 d := by
  simp only [groupingRule, replies_bind, replies_advance, replies_expect]
  refine (h.later (.expr .expression) nofun (hc.after.advance_succ hk) hb).mono fun e d hd => ?_
  exact fun _ => hd.advance

theorem replies_unaryRule (h : r.EndBelow row bound) (hc : c.On row) (hk : c.kind ≠ .endOfInput)
    (hb : 8 * c.ahead.length < bound + 2) :
    (unaryRule r).Replies c fun _ d => c.After row 1 d := by
  simp only [unaryRule, replies_bind, replies_advance]
  exact h.later (.expr .primary) nofun (hc.after.advance_succ hk) hb

/-! ## Statements -/

theorem replies_endStatement (hd : c.After row n d) :
    endStatement.Replies d fun _ e => c.After row n e := by
  simp only [endStatement, replies_bind, replies_current]
  split
  · exact hd.advance
  · split
    · exact hd
    · exact replies_fail

theorem replies_statementsRule (h : r.EndBelow row bound) (hc : c.On row)
    (hb : 4 + 8 * c.ahead.length < bound) :
    (statementsRule r).Replies c fun _ d => c.After row 0 d := by
  have ha := hc.after.skipEndLines
  have hl := c.length_skipEndLines_le
  simp only [statementsRule, replies_bind, replies_skipEndLines, replies_current]
  split
  · exact ha
  · simp only [replies_bind]
    refine (h.down (.stmt .statement) ha.1 nofun (by simp only [Nonterminal.rank]; omega)).mono
      fun s d hd => ?_
    exact (h.later .statements nofun (ha.trans hd) (by omega)).mono
      fun ss e he => he.of_le (Nat.zero_le _)

theorem replies_blockRule (h : r.EndBelow row bound) (hc : c.On row)
    (hb : 5 + 8 * c.ahead.length < bound) :
    (blockRule r).Replies c fun _ d => c.After row 0 d := by
  simp only [blockRule, replies_bind, replies_current]
  exact h.down .statements hc nofun hb

theorem replies_statementRule (h : r.EndBelow row bound) (hc : c.On row)
    (hb : 3 + 8 * c.ahead.length < bound) :
    (statementRule .standard r).Replies c fun _ d => c.After row 1 d := by
  simp only [statementRule, replies_bind, replies_current]
  split
  · next rule hrule =>
    have hk : c.kind ≠ .endOfInput := fun hk => by
      rw [Cursor.kind] at hk
      simp [hk, Grammar.standard, Grammar.standardStatement] at hrule
    have hs : (Nonterminal.stmt rule).rank = 1 := by
      revert hrule
      simp only [Grammar.standard, Grammar.standardStatement]
      split <;> simp <;> rintro rfl <;> rfl
    exact h.down (.stmt rule) hc (fun _ => hk) (by omega)
  · simp only [replies_bind, replies_current]
    refine (h.down (.expr .expression) hc nofun hb).mono fun e d hd => ?_
    split
    · split
      · simp only [replies_bind, replies_advance]
        refine (h.later (.expr .expression) nofun hd.advance (by omega)).mono fun value d hd => ?_
        exact replies_endStatement hd
      · exact replies_fail
    · simp only [replies_bind]
      exact replies_endStatement hd

theorem replies_conditionRule (h : r.EndBelow row bound) (hd : c.After row (n + 1) d)
    (hb : 8 * c.ahead.length < bound + 2) :
    (conditionRule r).Replies d fun _ e => c.After row (n + 1) e := by
  simp only [conditionRule, replies_bind, replies_expect]
  intro _
  refine (h.later (.expr .expression) nofun hd.advance hb).mono fun e d hd => ?_
  exact fun _ => hd.advance

theorem replies_elseRule (h : r.EndBelow row bound) (hd : c.After row (n + 1) d)
    (hb : 8 * c.ahead.length < bound + 2) :
    (elseRule r).Replies d fun _ e => c.After row (n + 1) e := by
  simp only [elseRule, replies_bind, replies_current]
  split
  · simp only [replies_bind, replies_advance]
    exact h.later .block nofun hd.advance hb
  · exact hd

theorem replies_conditionalRule (h : r.EndBelow row bound) (hc : c.On row)
    (hk : c.kind ≠ .endOfInput) (hb : 8 * c.ahead.length < bound + 2) :
    (conditionalRule r).Replies c fun _ d => c.After row 1 d := by
  simp only [conditionalRule, replies_bind, replies_advance, replies_expectOr]
  refine (replies_conditionRule h (hc.after.advance_succ hk) hb).mono fun condition d hd => ?_
  refine (h.later .block nofun hd hb).mono fun yes d hd => ?_
  refine (replies_elseRule h hd hb).mono fun no d hd => ?_
  exact fun _ => replies_endStatement hd.advance

theorem replies_incrementRule (h : r.EndBelow row bound) (hd : c.After row (n + 1) d)
    (hb : 8 * c.ahead.length < bound + 2) :
    (incrementRule r).Replies d fun _ e => c.After row (n + 1) e := by
  simp only [incrementRule, replies_bind, replies_current]
  split
  · simp only [replies_bind, replies_advance]
    exact h.later (.expr .expression) nofun hd.advance hb
  · exact hd

theorem replies_counterRule (h : r.EndBelow row bound) (hd : c.After row (n + 1) d)
    (hb : 8 * c.ahead.length < bound + 2) :
    (counterRule r).Replies d fun _ e => c.After row (n + 1) e := by
  simp only [counterRule, replies_bind]
  refine (h.later (.expr .primary) nofun hd hb).mono fun e d hd => ?_
  split
  · exact hd
  · exact replies_fail

theorem replies_countingRule (h : r.EndBelow row bound) (hc : c.On row)
    (hk : c.kind ≠ .endOfInput) (hb : 8 * c.ahead.length < bound + 2) :
    (countingRule r).Replies c fun _ d => c.After row 1 d := by
  simp only [countingRule, replies_bind, replies_advance, replies_expect, replies_expectOr]
  intro _
  refine (replies_counterRule h (hc.after.advance_succ hk).advance hb).mono fun counter d hd => ?_
  intro _
  refine (h.later (.expr .expression) nofun hd.advance hb).mono fun start d hd => ?_
  intro _
  refine (h.later (.expr .expression) nofun hd.advance hb).mono fun stop d hd => ?_
  refine (replies_incrementRule h hd hb).mono fun increment d hd => ?_
  intro _
  refine (h.later .block nofun hd.advance hb).mono fun body d hd => ?_
  exact fun _ => replies_endStatement hd.advance

theorem replies_testedLoopRule (h : r.EndBelow row bound) (hc : c.On row)
    (hk : c.kind ≠ .endOfInput) (hb : 8 * c.ahead.length < bound + 2) :
    (testedLoopRule r).Replies c fun _ d => c.After row 1 d := by
  simp only [testedLoopRule, replies_bind, replies_advance, replies_expectOr]
  refine (replies_conditionRule h (hc.after.advance_succ hk) hb).mono fun condition d hd => ?_
  refine (h.later .block nofun hd hb).mono fun body d hd => ?_
  exact fun _ => replies_endStatement hd.advance

theorem replies_repeatedLoopRule (h : r.EndBelow row bound) (hc : c.On row)
    (hk : c.kind ≠ .endOfInput) (hb : 8 * c.ahead.length < bound + 2) :
    (repeatedLoopRule r).Replies c fun _ d => c.After row 1 d := by
  simp only [repeatedLoopRule, replies_bind, replies_advance, replies_expectOr]
  refine (h.later .block nofun (hc.after.advance_succ hk) hb).mono fun body d hd => ?_
  intro _
  refine (replies_conditionRule h hd.advance hb).mono fun condition d hd => ?_
  exact replies_endStatement hd

end

/-! ## The whole grammar -/

/-- One more level of calls is answered. -/
theorem endBelow_answer {r : Rules} {row : List Token} {bound : Nat} (h : r.EndBelow row bound) :
    (Grammar.standard.answer r).EndBelow row (bound + 1) := by
  intro s c hc hs hb
  have hb' : 8 * c.ahead.length < bound + 2 := by omega
  match s with
  | .block => exact replies_blockRule h hc (by simp only [Nonterminal.rank] at hb; omega)
  | .statements => exact replies_statementsRule h hc (by simp only [Nonterminal.rank] at hb; omega)
  | .arguments => exact replies_argumentsRule h hc (by simp only [Nonterminal.rank] at hb; omega)
  | .stmt .statement =>
    exact replies_statementRule h hc (by simp only [Nonterminal.rank] at hb; omega)
  | .stmt .conditional => exact replies_conditionalRule h hc (hs rfl) hb'
  | .stmt .counting => exact replies_countingRule h hc (hs rfl) hb'
  | .stmt .testedLoop => exact replies_testedLoopRule h hc (hs rfl) hb'
  | .stmt .repeatedLoop => exact replies_repeatedLoopRule h hc (hs rfl) hb'
  | .expr .expression =>
    exact replies_expressionRule h hc (by simp only [Nonterminal.rank] at hb; omega)
  | .expr .primary => exact replies_primaryRule h hc (by simp only [Nonterminal.rank] at hb; omega)
  | .expr .localVariable => exact replies_variableRule .localSlot hc (hs rfl)
  | .expr .persistentVariable => exact replies_variableRule .persistentSlot hc (hs rfl)
  | .expr .name => exact replies_nameRule h hc (hs rfl) hb'
  | .expr .literal => exact replies_literalRule hc (hs rfl)
  | .expr .grouping => exact replies_groupingRule h hc (hs rfl) hb'
  | .expr .unary => exact replies_unaryRule h hc (hs rfl) hb'

/-- Calls that are nested at most `depth` deep are answered below `depth`. -/
theorem endBelow_rules (row : List Token) (depth : Nat) :
    Rules.EndBelow (Grammar.standard.rules depth) row depth := by
  induction depth with
  | zero => exact fun s c _ _ hb => absurd hb (Nat.not_lt_zero _)
  | succ depth ih => exact endBelow_answer ih

/-- Running the grammar of the language never goes in circles. -/
theorem replies_run (s : Nonterminal) {row : List Token} {c : Cursor} (hc : c.On row)
    (hs : s.IsTabled → c.kind ≠ .endOfInput) :
    (Grammar.standard.run s).Replies c fun _ d => c.After row s.passes d := by
  have hb : s.rank + 8 * c.ahead.length < Grammar.depthFrom c := by
    have := s.rank_le
    simp only [Grammar.depthFrom, Nonterminal.count, Cursor.remaining, List.length_cons]
    omega
  have := endBelow_rules row (Grammar.depthFrom c) s c hc hs hb
  unfold Replies Grammar.run
  exact this

/-- Parsing a script never goes in circles. -/
theorem parse_ne_circular (file : String) (tokens : List Token) :
    parse file tokens ≠ .circular := by
  have : scriptRule.Replies (.ofTokens file tokens) fun _ _ => True := by
    simp only [scriptRule, replies_bind, replies_current]
    refine (replies_run .block (closed_ofTokens file tokens).on nofun).mono fun block d _ => ?_
    split
    · trivial
    · exact replies_fail
  intro heq
  unfold Replies at this
  rw [show scriptRule (.ofTokens file tokens) = .circular from heq] at this
  exact this

end Sigil
