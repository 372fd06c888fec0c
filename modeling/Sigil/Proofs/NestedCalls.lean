import Mathlib.Data.List.Chain
import Sigil.Proofs.Depth

/-!
# Nested calls

A rule may call for other rules, and those for others again. Along such a chain of calls the cursor never
goes back, and it has moved on whenever a rule is entered once more. So no chain is longer than six times
the number of tokens, no rule is entered on it more often than there are tokens, and parsing ends.

Loops are calls as well: each round of the loop over the statements of a block, or over the arguments of a
call, is a call for the rest of them.

Which calls a rule makes is read off its own definition. A reply that is missing is passed on by every
step, so a rule makes just those calls without whose answer it would have none itself (`Call.Makes`).
-/

namespace Sigil

open Parse Cursor

/-! ## Calls -/

deriving instance DecidableEq for Nonterminal

theorem Nonterminal.rank_pos (s : Nonterminal) : 1 ≤ s.rank := by
  unfold Nonterminal.rank
  split <;> decide

/-- A call for a nonterminal at a place in a row of tokens. -/
structure Call where
  /-- What is called for. -/
  goal : Nonterminal
  /-- Where it is called for. -/
  place : Cursor
  deriving DecidableEq

/-- The answers to all calls but one. -/
def Rules.without (call : Call) : Rules := fun s c =>
  if Call.mk s c = call then .circular else Grammar.standard.run s c

namespace Call

/-- The call `b` is made by the rule that answers `a`: without an answer to `b` there is none to `a`. -/
def Makes (a b : Call) : Prop :=
  Grammar.standard.answer (Rules.without b) a.goal a.place = .circular

instance : DecidableRel Makes := fun a b =>
  inferInstanceAs (Decidable (Grammar.standard.answer (Rules.without b) a.goal a.place = .circular))

/-- The call is made in the row of tokens. What stands in the tables is not called for at the end of the
script. -/
structure Proper (row : List Token) (a : Call) : Prop where
  on : a.place.On row
  tabled : a.goal.IsTabled → a.place.kind ≠ .endOfInput

variable {row : List Token} {a b : Call}

/-- A proper call is answered. -/
theorem Proper.run_ne_circular (h : a.Proper row) :
    Grammar.standard.run a.goal a.place ≠ .circular := by
  intro hcircular
  have hreplies := replies_run a.goal h.on h.tabled
  rw [Replies, hcircular] at hreplies
  exact hreplies

/-- If answers are lacking only to calls that are not proper, or not below a proper call, then that call is
answered. -/
theorem Proper.answer_ne_circular (h : a.Proper row) {r : Rules}
    (hr : ∀ s c, r s c = Grammar.standard.run s c ∨
      (Proper a.place.remaining ⟨s, c⟩ →
        a.goal.rank + 8 * a.place.ahead.length ≤ s.rank + 8 * c.ahead.length)) :
    Grammar.standard.answer r a.goal a.place ≠ .circular := by
  have hbelow : r.EndBelow a.place.remaining (a.goal.rank + 8 * a.place.ahead.length) := by
    intro s c hc hs hb
    rcases hr s c with hsame | hhigh
    · rw [Replies, hsame]
      exact replies_run s hc hs
    · exact absurd (hhigh ⟨hc, hs⟩) (Nat.not_le.mpr hb)
  have hreplies := endBelow_answer hbelow a.goal a.place h.on.closed.on h.tabled (Nat.lt_succ_self _)
  intro hcircular
  rw [Replies, hcircular] at hreplies
  exact hreplies

/-- Calls are answered by their rules, whose own calls are answered in the same way. There is no depth in
this equation. -/
theorem Proper.run_eq (h : a.Proper row) :
    Grammar.standard.run a.goal a.place =
      Grammar.standard.answer Grammar.standard.run a.goal a.place := by
  have hrun : Rules.Settles (Grammar.standard.rules (Grammar.depthFrom a.place)) Grammar.standard.run :=
    fun s c hne => Grammar.run_eq_rules hne
  have hdeeper := settles_rules .standard (Nat.le_succ _) a.goal a.place h.run_ne_circular
  have hanswered : Grammar.standard.answer (Grammar.standard.rules (Grammar.depthFrom a.place))
      a.goal a.place ≠ .circular := by
    intro hcircular
    exact h.run_ne_circular (hdeeper.symm.trans hcircular)
  calc Grammar.standard.run a.goal a.place
      = Grammar.standard.answer (Grammar.standard.rules (Grammar.depthFrom a.place)) a.goal a.place :=
        hdeeper.symm
    _ = Grammar.standard.answer Grammar.standard.run a.goal a.place :=
        (settles_answer _ hrun a.goal a.place hanswered).symm

/-- The place of a call, each token ahead counting six times, and then its rank. -/
def height (a : Call) : Nat := (a.goal.rank - 1) + 6 * a.place.ahead.length

/-- A call that a rule makes is in the row from where the rule was called on, and it is lower: some token
has been passed, or it is of a lower rank. -/
theorem Makes.descends (h : a.Makes b) (ha : a.Proper row) :
    b.Proper a.place.remaining ∧ b.height < a.height := by
  have hlow : ¬ (b.Proper a.place.remaining →
      a.goal.rank + 8 * a.place.ahead.length ≤ b.goal.rank + 8 * b.place.ahead.length) := by
    intro hhigh
    refine ha.answer_ne_circular (fun s c => ?_) h
    by_cases hb : Call.mk s c = b
    · subst hb
      exact .inr hhigh
    · exact .inl (if_neg hb)
  rw [Classical.not_imp] at hlow
  refine ⟨hlow.1, ?_⟩
  have := hlow.2
  have := a.goal.rank_pos
  have := a.goal.rank_le
  have := b.goal.rank_pos
  have := b.goal.rank_le
  unfold height
  omega

/-! ## Chains of calls -/

/-- Along a chain of nested calls the cursor never goes back, and every call is lower than those before. -/
theorem pairwise_of_isChain {calls : List Call} (h : List.IsChain Makes (a :: calls))
    (ha : a.Proper row) :
    (a :: calls).Pairwise fun x y => y.place.remaining <:+ x.place.remaining ∧ y.height < x.height := by
  induction calls generalizing a row with
  | nil => exact List.pairwise_singleton _ _
  | cons b calls ih =>
    obtain ⟨hmakes, hchain⟩ := List.isChain_cons_cons.mp h
    obtain ⟨hb, hlower⟩ := hmakes.descends ha
    have hrest := ih hchain hb
    refine List.pairwise_cons.mpr ⟨?_, hrest⟩
    refine List.forall_mem_cons.mpr ⟨⟨hb.on.suffix, hlower⟩, fun y hy => ?_⟩
    obtain ⟨hsuffix, hlower'⟩ := (List.pairwise_cons.mp hrest).1 y hy
    exact ⟨hsuffix.trans hb.on.suffix, hlower'.trans hlower⟩

/-- The chain of nested calls moves on in a row of `n` tokens, and ends. -/
structure EndsWithin (n : Nat) (chain : List Call) : Prop where
  /-- The cursor never goes back, and when a rule is entered again it has moved on. -/
  advances : chain.Pairwise fun x y => y.place.remaining <:+ x.place.remaining ∧
    (y.goal = x.goal → y.place.remaining.length < x.place.remaining.length)
  /-- No rule is entered more often than there are tokens. -/
  entries : ∀ s, (chain.filter fun x => x.goal = s).length ≤ n
  /-- There are at most six calls to a token. -/
  depth : chain.length ≤ 6 * n

theorem EndsWithin.mono {n m : Nat} {chain : List Call} (h : EndsWithin n chain) (hle : n ≤ m) :
    EndsWithin m chain :=
  ⟨h.advances, fun s => (h.entries s).trans hle, h.depth.trans (Nat.mul_le_mul_left 6 hle)⟩

/-- There is room for `n` numbers below `n`. -/
theorem length_le_of_descending {numbers : List Nat} {n : Nat} (h : numbers.Pairwise fun x y => y < x)
    (hn : ∀ x ∈ numbers, x < n) : numbers.length ≤ n := by
  induction numbers generalizing n with
  | nil => exact Nat.zero_le n
  | cons x numbers ih =>
    obtain ⟨hx, hrest⟩ := List.pairwise_cons.mp h
    exact Nat.lt_of_le_of_lt (ih hrest hx) (hn x List.mem_cons_self)

/-- A chain of calls that starts in a row of tokens ends, after as many calls as the row allows. -/
theorem Proper.endsWithin (ha : a.Proper row) {calls : List Call}
    (h : List.IsChain Makes (a :: calls)) : EndsWithin row.length (a :: calls) := by
  have hchain := pairwise_of_isChain h ha
  have hadvances : (a :: calls).Pairwise fun x y => y.place.remaining <:+ x.place.remaining ∧
      (y.goal = x.goal → y.place.remaining.length < x.place.remaining.length) := by
    refine hchain.imp fun {x y} hxy => ⟨hxy.1, fun hgoal => ?_⟩
    have hlower := hxy.2
    rw [height, height, hgoal] at hlower
    rw [Cursor.remaining, Cursor.remaining, List.length_cons, List.length_cons]
    omega
  have hinside : ∀ x ∈ a :: calls, x.place.remaining.length ≤ row.length := by
    have hfirst := ha.on.suffix.length_le
    refine List.forall_mem_cons.mpr ⟨hfirst, fun x hx => ?_⟩
    exact ((List.pairwise_cons.mp hchain).1 x hx).1.length_le.trans hfirst
  refine ⟨hadvances, fun s => ?_, ?_⟩
  · -- The numbers of tokens from the places on where `s` is entered are different, and none is zero.
    have hdescending : (((a :: calls).filter fun x => x.goal = s).map fun x =>
        x.place.ahead.length).Pairwise fun x y => y < x := by
      refine List.pairwise_map.mpr ((List.pairwise_filter.mpr ?_))
      refine hadvances.imp fun {x y} hxy hx hy => ?_
      have hmoved := hxy.2 ((of_decide_eq_true hy).trans (of_decide_eq_true hx).symm)
      exact Nat.lt_of_succ_lt_succ hmoved
    have hroom := length_le_of_descending (n := row.length) hdescending ?_
    · rwa [List.length_map] at hroom
    · intro n hn
      obtain ⟨x, hx, rfl⟩ := List.mem_map.mp hn
      exact hinside x (List.mem_filter.mp hx).1
  · have hdescending : ((a :: calls).map height).Pairwise fun x y => y < x :=
      List.pairwise_map.mpr (hchain.imp fun hxy => hxy.2)
    have hroom := length_le_of_descending (n := 6 * row.length) hdescending ?_
    · rwa [List.length_map] at hroom
    · intro n hn
      obtain ⟨x, hx, rfl⟩ := List.mem_map.mp hn
      have hle := hinside x hx
      have := x.goal.rank_le
      rw [Cursor.remaining, List.length_cons] at hle
      unfold height
      omega

end Call

/-! ## Whole rows of tokens -/

theorem Cursor.Closed.of_suffix {c d : Cursor} (h : c.Closed) (hd : d.remaining <:+ c.remaining) :
    d.Closed := by
  obtain ⟨ts, hts⟩ := hd
  have hclosed : (Cursor.mk d.file c.current c.ahead).Closed := h
  exact hclosed.of_passes ⟨rfl, hts.symm⟩

/-- A call that is done has passed as many tokens as it has to. -/
theorem exists_passes_of_run {s : Nonterminal} {c d : Cursor} {tree : s.Tree} (hc : c.Closed)
    (hs : s.CalledAt c.kind) (h : Grammar.standard.run s c = .done tree d) :
    ∃ ts, c.Passes ts d ∧ s.passes ≤ ts.length := by
  obtain ⟨ts, hts, -, -⟩ := repeats_run hc hs d (by rw [h]; rfl)
  have hafter := replies_run s hc.on hs.ne_endOfInput
  rw [Replies, h] at hafter
  have hlength := hts.length_eq
  have hpasses := hafter.2
  exact ⟨ts, hts, by omega⟩

/-- A row is closed with one token at most. -/
theorem length_closedRow_le (file : String) (tokens : List Token) :
    (closedRow file tokens).length ≤ tokens.length + 1 := by
  cases tokens with
  | nil => exact Nat.le_refl _
  | cons t ts =>
    simp only [closedRow, Cursor.ofTokens, Cursor.closing, Cursor.remaining]
    split <;> simp

/-- Parsing ends, whatever the tokens are. From any place in the row, an expression, an operand or a
statement that is parsed leaves the cursor further on, and a block leaves it no earlier. Every call is
answered, by its rule and the answers to the calls that this rule makes. Along a chain of nested calls the
cursor moves on before a rule is entered again, so that no rule is entered more often than there are tokens,
and a chain has at most six calls to a token. -/
theorem parse_ends (file : String) (tokens : List Token) :
    parse file tokens ≠ .circular ∧
    ∀ c : Cursor, c.remaining <:+ closedRow file tokens →
      (∀ s, s = .expr .expression ∨ s = .expr .primary ∨ s = .stmt .statement →
        ∀ tree d, Grammar.standard.run s c = .done tree d → ∃ ts, ts ≠ [] ∧ c.Passes ts d) ∧
      (∀ b d, Grammar.standard.run .block c = .done b d → ∃ ts, c.Passes ts d) ∧
      ∀ s, (s.IsTabled → c.kind ≠ .endOfInput) →
        Grammar.standard.run s c ≠ .circular ∧
        Grammar.standard.run s c = Grammar.standard.answer Grammar.standard.run s c ∧
        ∀ calls, List.IsChain Call.Makes (⟨s, c⟩ :: calls) →
          Call.EndsWithin (tokens.length + 1) (⟨s, c⟩ :: calls) := by
  refine ⟨parse_ne_circular file tokens, fun c hrow => ?_⟩
  have hc : c.Closed := (closed_ofTokens file tokens).of_suffix hrow
  refine ⟨fun s hs tree d hdone => ?_, fun b d hdone => ?_, fun s hs => ?_⟩
  · have hcalled : s.CalledAt c.kind ∧ s.passes = 1 := by
      rcases hs with rfl | rfl | rfl <;> exact ⟨trivial, rfl⟩
    obtain ⟨ts, hts, hpasses⟩ := exists_passes_of_run hc hcalled.1 hdone
    rw [hcalled.2] at hpasses
    exact ⟨ts, List.length_pos_iff.mp hpasses, hts⟩
  · obtain ⟨ts, hts, -⟩ := exists_passes_of_run (s := .block) hc trivial hdone
    exact ⟨ts, hts⟩
  · have hproper : Call.Proper (closedRow file tokens) ⟨s, c⟩ := ⟨⟨hc, hrow⟩, hs⟩
    refine ⟨hproper.run_ne_circular, hproper.run_eq, fun calls hchain => ?_⟩
    exact (hproper.endsWithin hchain).mono (length_closedRow_le file tokens)

/-- In the statement `((a))` there are nine calls from the block down to the expression inside of both
parentheses, and the rule for expressions is entered three times. The statement is parsed. -/
theorem parse_ends_nested :
    let token (k : Kind) (text : String) : Token := ⟨k, text, .lines "unit" 1 1⟩
    let tokens := [token .openParen "(", token .openParen "(", token .name "a", token .closeParen ")",
      token .closeParen ")"]
    let start := Cursor.ofTokens "unit" tokens
    let chain : List Call := [⟨.block, start⟩, ⟨.statements, start⟩, ⟨.stmt .statement, start⟩,
      ⟨.expr .expression, start⟩, ⟨.expr .primary, start⟩, ⟨.expr .grouping, start⟩,
      ⟨.expr .expression, start.advance⟩, ⟨.expr .primary, start.advance⟩,
      ⟨.expr .grouping, start.advance⟩, ⟨.expr .expression, start.advance.advance⟩]
    (∃ tree d, Grammar.standard.run (.stmt .statement) start = .done tree d ∧
      ∃ ts, ts ≠ [] ∧ start.Passes ts d) ∧
    List.IsChain Call.Makes chain ∧ Call.EndsWithin 6 chain := by
  intro token tokens start chain
  obtain ⟨hpasses, -, hcalls⟩ := (parse_ends "unit" tokens).2 start (List.suffix_refl _)
  have hchain : List.IsChain Call.Makes chain := by decide +kernel
  refine ⟨⟨_, _, rfl, hpasses _ (.inr (.inr rfl)) _ _ rfl⟩, hchain, ?_⟩
  have hblock : ¬ Nonterminal.block.rank = 1 := by decide
  exact (hcalls .block fun h => absurd h hblock).2.2 _ hchain

end Sigil
