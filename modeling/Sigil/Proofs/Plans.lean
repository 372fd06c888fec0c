import Sigil.Proofs.Locality

/-!
# Plans of rules

A rule looks at the cursor, moves it on, expects tokens and calls for other rules. Its plan says in which
order, and what comes after which outcome. The type of a plan names the rule that it is a plan of, so a
plan does what the rule does. What holds of each way to make a plan holds of all rules, whatever the tables
of the grammar are.

A plan tells more than the rule alone: every place at which the cursor stands in between (`Plan.trace`).
They are a trail, on which the cursor is moved by one token at a time up to where the rule stops
(`Plan.trail`).
-/

namespace Sigil

open Parse Cursor

/-- How a rule is made up. -/
inductive Plan : {α : Type} → (Rules → Parse α) → Type 1 where
  /-- To look at the cursor. -/
  | look {α : Type} (view : Cursor → α) : Plan fun _ => look view
  /-- To fail. -/
  | fail {α : Type} (problem : Cursor → Diagnostic) : Plan fun _ => (fail problem : Parse α)
  /-- To move on by one token. -/
  | advance : Plan fun _ => advance
  /-- To move on past the ends of lines. -/
  | skipEndLines : Plan fun _ => skipEndLines
  /-- To move on by a token of kind `k`, or to fail. -/
  | expectOr (k : Kind) (problem : Cursor → Diagnostic) : Plan fun _ => expectOr k problem
  /-- To call for a nonterminal. -/
  | call (s : Nonterminal) : Plan fun r => r s
  /-- One thing, and then another that may depend on what the first has given. -/
  | bind {α β : Type} {p : Rules → Parse α} {f : Rules → α → Parse β} (first : Plan p)
      (next : ∀ a, Plan fun r => f r a) : Plan fun r => p r >>= f r
  /-- One of two things. -/
  | ite {α : Type} {P : Prop} [Decidable P] {p q : Rules → Parse α} (yes : Plan p) (no : Plan q) :
      Plan fun r => if P then p r else q r

namespace Plan

/-! ## Expressions

A plan has the shape of its rule. What is looked at, and with what a step fails, is filled in from there. -/

def expression : Plan expressionRule :=
  .bind (.call (.expr .primary)) fun _ => .bind (.look _) fun _ =>
    .ite (.bind .advance fun _ => .bind (.call (.expr .expression)) fun _ => .look _) (.look _)

def primary (g : Grammar) : Plan (primaryRule g) :=
  .bind (.look _) fun t =>
    match g.primary t.kind with
    | some rule => .call (.expr rule)
    | none => .fail _

def variableName (storage : Storage) : Plan fun _ => variableRule storage :=
  .bind .advance fun _ => .bind (.look _) fun _ => .ite (.bind .advance fun _ => .look _) (.fail _)

def name : Plan nameRule :=
  .bind (.look _) fun _ => .bind .advance fun _ =>
    .ite
      (.bind .advance fun _ => .bind (.look _) fun _ =>
        .ite (.bind (.look _) fun _ => .bind (.expectOr _ _) fun _ => .look _)
          (.bind (.call .arguments) fun _ => .bind (.expectOr _ _) fun _ => .look _))
      (.look _)

def arguments : Plan argumentsRule :=
  .bind (.call (.expr .expression)) fun _ => .bind (.look _) fun _ =>
    .ite (.bind .advance fun _ => .bind (.call .arguments) fun _ => .look _) (.look _)

def literal : Plan fun _ => literalRule := .bind .advance fun _ => .look _

def grouping : Plan groupingRule :=
  .bind .advance fun _ => .bind (.call (.expr .expression)) fun _ =>
    .bind (.expectOr _ _) fun _ => .look _

def unary : Plan unaryRule :=
  .bind .advance fun _ => .bind (.call (.expr .primary)) fun _ => .look _

/-! ## Statements -/

def ending : Plan fun _ => endStatement :=
  .bind (.look _) fun _ => .ite (.bind .advance fun _ => .look _) (.ite (.look _) (.fail _))

def statements : Plan statementsRule :=
  .bind .skipEndLines fun _ => .bind (.look _) fun _ =>
    .ite (.look _)
      (.bind (.call (.stmt .statement)) fun _ => .bind (.call .statements) fun _ => .look _)

def block : Plan blockRule :=
  .bind (.look _) fun _ => .bind (.call .statements) fun _ => .bind (.look _) fun _ => .look _

def statement (g : Grammar) : Plan (statementRule g) :=
  .bind (.look _) fun t =>
    match g.statement t.kind with
    | some rule => .call (.stmt rule)
    | none =>
      .bind (.call (.expr .expression)) fun _ => .bind (.look _) fun _ =>
        .ite
          (.ite
            (.bind .advance fun _ => .bind (.call (.expr .expression)) fun _ =>
              .bind ending fun _ => .look _)
            (.fail _))
          (.bind ending fun _ => .look _)

def condition : Plan conditionRule :=
  .bind (.expectOr _ _) fun _ => .bind (.call (.expr .expression)) fun _ =>
    .bind (.expectOr _ _) fun _ => .look _

def otherwise : Plan elseRule :=
  .bind (.look _) fun _ =>
    .ite (.bind .advance fun _ => .bind (.call .block) fun _ => .look _) (.look _)

def conditional : Plan conditionalRule :=
  .bind .advance fun _ => .bind condition fun _ => .bind (.call .block) fun _ =>
    .bind otherwise fun _ => .bind (.expectOr _ _) fun _ => .bind ending fun _ => .look _

def increment : Plan incrementRule :=
  .bind (.look _) fun _ =>
    .ite (.bind .advance fun _ => .bind (.call (.expr .expression)) fun _ => .look _) (.look _)

def counter : Plan counterRule :=
  .bind (.call (.expr .primary)) fun _ => .ite (.look _) (.fail _)

def counting : Plan countingRule :=
  .bind .advance fun _ => .bind (.expectOr _ _) fun _ => .bind counter fun _ =>
    .bind (.expectOr _ _) fun _ => .bind (.call (.expr .expression)) fun _ =>
      .bind (.expectOr _ _) fun _ => .bind (.call (.expr .expression)) fun _ =>
        .bind increment fun _ => .bind (.expectOr _ _) fun _ => .bind (.call .block) fun _ =>
          .bind (.expectOr _ _) fun _ => .bind ending fun _ => .look _

def testedLoop : Plan testedLoopRule :=
  .bind .advance fun _ => .bind condition fun _ => .bind (.call .block) fun _ =>
    .bind (.expectOr _ _) fun _ => .bind ending fun _ => .look _

def repeatedLoop : Plan repeatedLoopRule :=
  .bind .advance fun _ => .bind (.call .block) fun _ => .bind (.expectOr _ _) fun _ =>
    .bind condition fun _ => .bind ending fun _ => .look _

end Plan

/-- The plan of the rule that answers calls for a nonterminal. -/
def Grammar.plan (g : Grammar) : (s : Nonterminal) → Plan fun r => g.answer r s
  | .expr .expression => Plan.expression
  | .expr .primary => Plan.primary g
  | .expr .localVariable => Plan.variableName .localSlot
  | .expr .persistentVariable => Plan.variableName .persistentSlot
  | .expr .name => Plan.name
  | .expr .literal => Plan.literal
  | .expr .grouping => Plan.grouping
  | .expr .unary => Plan.unary
  | .arguments => Plan.arguments
  | .stmt .statement => Plan.statement g
  | .stmt .conditional => Plan.conditional
  | .stmt .counting => Plan.counting
  | .stmt .testedLoop => Plan.testedLoop
  | .stmt .repeatedLoop => Plan.repeatedLoop
  | .statements => Plan.statements
  | .block => Plan.block

/-! ## Trails -/

namespace Cursor

/-- From `c` the cursor is moved by one token at a time, to each of the places in turn, and is left at
`d`. At the last token of a row it is moved to where it is. -/
def Trail : Cursor → List Cursor → Cursor → Prop
  | c, [], d => c = d
  | c, e :: es, d => e = c.advance ∧ e.Trail es d

variable {c d e : Cursor} {es fs : List Cursor}

theorem Trail.append (h : c.Trail es e) (h' : e.Trail fs d) : c.Trail (es ++ fs) d := by
  induction es generalizing c with
  | nil =>
    obtain rfl : c = e := h
    exact h'
  | cons x es ih => exact ⟨h.1, ih h.2⟩

/-- The places that are come to when the ends of lines before some tokens are skipped. -/
def skips (file : String) (t : Token) : List Token → List Cursor
  | [] => []
  | u :: us => if t.kind = .endLine then ⟨file, u, us⟩ :: skips file u us else []

/-- Passing the ends of lines goes from token to token. -/
theorem trail_skips (file : String) (t : Token) (ahead : List Token) :
    Trail ⟨file, t, ahead⟩ (skips file t ahead) (skipFrom file t ahead) := by
  induction ahead generalizing t with
  | nil => exact rfl
  | cons u us ih =>
    unfold skips skipFrom
    by_cases ht : t.kind = .endLine
    · rw [if_pos ht, if_pos ht]
      exact ⟨rfl, ih u⟩
    · rw [if_neg ht, if_neg ht]
      exact rfl

end Cursor

/-- A step in two parts stops where its second part does, or where the first has failed. -/
theorem Parse.stop?_bind {α β : Type} {p : Parse α} {f : α → Parse β} {c d : Cursor}
    (h : ((p >>= f) c).stop? = some d) :
    (∃ a e, p c = .done a e ∧ (f a e).stop? = some d) ∨ ∃ x, p c = .failed x d := by
  have hrun : (p >>= f) c = Parse.bind p f c := rfl
  rw [hrun, Parse.bind] at h
  cases hreply : p c with
  | done a e =>
    rw [hreply] at h
    exact .inl ⟨a, e, rfl, h⟩
  | failed x e =>
    rw [hreply] at h
    exact .inr ⟨x, by rw [Option.some.inj h]⟩
  | circular =>
    rw [hreply] at h
    cases h

/-- The places that the cursor comes to on a call. -/
def Calls : Type := Nonterminal → Cursor → List Cursor

/-- Calls come by a trail to where they stop. -/
def Rules.Trails (r : Rules) (calls : Calls) : Prop :=
  ∀ s c d, (r s c).stop? = some d → c.Trail (calls s c) d

namespace Plan

/-- The places that the cursor comes to, one after another, when the plan is followed. -/
def trace (r : Rules) (calls : Calls) :
    {α : Type} → {p : Rules → Parse α} → Plan p → Cursor → List Cursor
  | _, _, look _, _ => []
  | _, _, fail _, _ => []
  | _, _, advance, c => [c.advance]
  | _, _, skipEndLines, c => skips c.file c.current c.ahead
  | _, _, expectOr k _, c => if c.kind = k then [c.advance] else []
  | _, _, call s, c => calls s c
  | _, _, @bind _ _ p _ first next, c =>
    first.trace r calls c ++
      match p r c with
      | .done a d => (next a).trace r calls d
      | _ => []
  | _, _, @ite _ P _ _ _ yes no, c => if P then yes.trace r calls c else no.trace r calls c

variable {α : Type} {p : Rules → Parse α} {r : Rules} {calls : Calls} {c d : Cursor}

/-- What follows a plan moves on by one token at a time, if the calls do, whether it fails or not. -/
theorem trail (plan : Plan p) (hcalls : r.Trails calls) (hd : (p r c).stop? = some d) :
    c.Trail (plan.trace r calls c) d := by
  induction plan generalizing c d with
  | look view => exact Option.some.inj hd
  | fail problem => exact Option.some.inj hd
  | advance => exact ⟨rfl, Option.some.inj hd⟩
  | skipEndLines =>
    obtain rfl : c.skipEndLines = d := Option.some.inj hd
    exact trail_skips c.file c.current c.ahead
  | expectOr k problem =>
    replace hd : (Parse.expectOr k problem c).stop? = some d := hd
    rw [Parse.expectOr] at hd
    rw [trace]
    by_cases hk : c.kind = k
    · rw [if_pos hk] at hd ⊢
      exact ⟨rfl, Option.some.inj hd⟩
    · rw [if_neg hk] at hd ⊢
      exact Option.some.inj hd
  | call s => exact hcalls s c d hd
  | bind first next ihfirst ihnext =>
    rw [trace]
    rcases stop?_bind hd with ⟨a, e, hdone, hstop⟩ | ⟨x, hfailed⟩
    · rw [hdone]
      exact (ihfirst (by rw [hdone]; rfl)).append (ihnext a hstop)
    · rw [hfailed, List.append_nil]
      exact ihfirst (by rw [hfailed]; rfl)
  | @ite _ P _ p q yes no ihyes ihno =>
    replace hd : ((if P then p r else q r : Parse _) c).stop? = some d := hd
    rw [trace]
    by_cases hP : P
    · rw [if_pos hP] at hd ⊢
      exact ihyes hd
    · rw [if_neg hP] at hd ⊢
      exact ihno hd

end Plan

namespace Grammar

/-- The places that the cursor comes to on a call, with calls nested at most `depth` deep. -/
def traceAt (g : Grammar) : (depth : Nat) → Calls
  | 0 => fun _ _ => []
  | depth + 1 => fun s => (g.plan s).trace (g.rules depth) (g.traceAt depth)

/-- The places that the cursor comes to when a nonterminal is parsed. -/
def trace (g : Grammar) : Calls := fun s c => g.traceAt (depthFrom c) s c

/-- The rules of a grammar follow the trails that are written down for them, at every depth. -/
theorem trails_rules (g : Grammar) (depth : Nat) : Rules.Trails (g.rules depth) (g.traceAt depth) := by
  induction depth with
  | zero =>
    intro s c d hd
    cases hd
  | succ depth ih =>
    intro s c d hd
    exact (g.plan s).trail ih hd

theorem trails_run (g : Grammar) : Rules.Trails g.run g.trace :=
  fun s c d hd => g.trails_rules (depthFrom c) s c d hd

end Grammar

end Sigil
