import Sigil.Program.Analysis
import Sigil.Proofs.LineCount
import Sigil.Proofs.Occurrence
import Sigil.Proofs.Outcome

/-!
# Where parsed trees and syntax errors are

The parser makes up no places. An expression starts where one of the tokens starts, and so does a
fault that the parser finds. Whatever is known of the starts of all tokens is therefore known of all
expressions and of the fault: with `P` for it, `Cursor.Within P` is what is known of the tokens,
`Placed P` what follows of a tree, and `Faulty P` what follows of a fault.
-/

namespace Sigil

open Parse Cursor

/-! ## Places of expressions -/

mutual

/-- The positions at which an expression and its parts start. -/
def Expr.starts : Expr → List Position
  | .literal _ _ s => [s.start]
  | .var _ _ s => [s.start]
  | .unary _ e _ s => s.start :: e.starts
  | .binary _ l r _ s => s.start :: (l.starts ++ r.starts)
  | .call _ args _ s => s.start :: Expr.startsAll args
termination_by structural e => e

/-- The positions at which expressions and their parts start. -/
def Expr.startsAll : List Expr → List Position
  | [] => []
  | e :: es => e.starts ++ Expr.startsAll es
termination_by structural es => es

end

theorem Expr.startsAll_eq (es : List Expr) : Expr.startsAll es = es.flatMap Expr.starts :=
  eq_flatMap_of_cons rfl (fun _ _ => rfl) es

section

variable (P : Position → Prop)

/-- The expression and its parts start where `P` holds. -/
def Expr.Lies (e : Expr) : Prop := ∀ p ∈ e.starts, P p

/-- The expressions in the tree and their parts start where `P` holds. -/
def Nonterminal.Lies : (s : Nonterminal) → s.Tree → Prop
  | expr _, e => Expr.Lies P e
  | arguments, es => ∀ e ∈ es, Expr.Lies P e
  | stmt _, s => ∀ e ∈ Stmt.expressions s, e.Lies P
  | statements, ss => ∀ s ∈ ss, ∀ e ∈ Stmt.expressions s, e.Lies P
  | block, b => ∀ e ∈ Block.expressions b, e.Lies P

end

namespace Expr

variable {P : Position → Prop} {t : Ty} {s : Span}

theorem lies_literal {text : String} : (Expr.literal text t s).Lies P ↔ P s.start := by
  simp [Lies, starts]

theorem lies_var {ref : Variable} : (Expr.var ref t s).Lies P ↔ P s.start := by
  simp [Lies, starts]

theorem lies_unary {op : String} {e : Expr} :
    (Expr.unary op e t s).Lies P ↔ P s.start ∧ e.Lies P := by
  simp [Lies, starts]

theorem lies_binary {op : String} {l r : Expr} :
    (Expr.binary op l r t s).Lies P ↔ P s.start ∧ l.Lies P ∧ r.Lies P := by
  rw [Lies, starts, List.forall_mem_cons, List.forall_mem_append]
  rfl

theorem lies_call {name : String} {args : List Expr} :
    (Expr.call name args t s).Lies P ↔ P s.start ∧ ∀ e ∈ args, e.Lies P := by
  rw [Lies, starts, List.forall_mem_cons, startsAll_eq, List.forall_mem_flatMap]
  rfl

/-- An expression whose parts lie somewhere starts there. -/
theorem Lies.start {e : Expr} (h : e.Lies P) : P e.span.start := by
  apply h
  cases e <;> simp [starts, span]

end Expr

/-! ## Places of tokens -/

/-- The cause of a fault that the parser finds. -/
def Cause.isSyntactic : Cause → Bool
  | .unexpectedToken _ | .misplacedToken _ _ | .invalidTarget => true
  | _ => false

section

variable (P : Position → Prop)

/-- The tokens from the cursor on are in its script, and start where `P` holds. -/
def Cursor.Within (c : Cursor) : Prop :=
  ∀ t ∈ c.remaining, t.span.start.file = c.file ∧ P t.span.start

/-- The expressions in the tree start where `P` holds, and so do the tokens from the cursor on. -/
def Placed (s : Nonterminal) (tree : s.Tree) (d : Cursor) : Prop := d.Within P ∧ s.Lies P tree

/-- The parser has found a fault at a place where `P` holds. -/
def Faulty (x : Diagnostic) (_ : Cursor) : Prop := P x.position ∧ x.cause.isSyntactic = true

/-- Calls are answered with trees and faults that are placed where `P` holds. -/
def Rules.Places (r : Rules) : Prop :=
  ∀ (s : Nonterminal) (c : Cursor), c.Within P → (r s c).Meets (Placed P s) (Faulty P)

end

section

variable {P : Position → Prop} {r : Rules} {c d : Cursor}

theorem Cursor.Within.current (hc : c.Within P) : P c.current.span.start :=
  (hc c.current (by simp [remaining])).2

theorem Cursor.Within.advance (hc : c.Within P) : c.advance.Within P := by
  obtain ⟨file, t, ahead⟩ := c
  cases ahead with
  | nil => exact hc
  | cons u us => exact fun v hv => hc v (List.mem_cons_of_mem t hv)

theorem Cursor.Within.skipEndLines (hc : c.Within P) : c.skipEndLines.Within P := by
  obtain ⟨file, t, ahead⟩ := c
  unfold Cursor.skipEndLines
  induction ahead generalizing t with
  | nil => exact hc
  | cons u us ih =>
    unfold skipFrom
    split
    · exact ih u fun v hv => hc v (List.mem_cons_of_mem t hv)
    · exact hc

/-- Complaints about the current token are made where tokens are. -/
theorem Cursor.Within.position (hc : c.Within P) : P c.position := by
  obtain ⟨hfile, hcurrent⟩ := hc c.current (by simp [remaining])
  rwa [Cursor.position, ← hfile]

/-! ## Rules -/

theorem Rules.Places.call (hr : r.Places P) (s : Nonterminal) {post : s.Tree → Cursor → Prop}
    (hc : c.Within P) (h : ∀ tree d, d.Within P → s.Lies P tree → post tree d) :
    (r s c).Meets post (Faulty P) :=
  (hr s c hc).mono (fun tree d ht => h tree d ht.1 ht.2) fun _ _ hx => hx

/-- The parts of an expression start where tokens do. -/
theorem places_expressionRule (hr : r.Places P) (hc : c.Within P) :
    (expressionRule r c).Meets (Placed P (.expr .expression)) (Faulty P) := by
  simp only [expressionRule, meets_bind, meets_current]
  refine hr.call (.expr .primary) hc fun l c₁ hc₁ hl => ?_
  split
  · simp only [meets_bind, meets_advance]
    refine hr.call (.expr .expression) hc₁.advance fun e c₂ hc₂ he => ⟨hc₂, ?_⟩
    exact Expr.lies_binary.mpr ⟨hl.start, hl, he⟩
  · exact ⟨hc₁, hl⟩

theorem places_primaryRule {g : Grammar} (hr : r.Places P) (hc : c.Within P) :
    (primaryRule g r c).Meets (Placed P (.expr .primary)) (Faulty P) := by
  simp only [primaryRule, meets_bind, meets_current]
  cases g.primary c.current.kind with
  | none => exact ⟨hc.position, rfl⟩
  | some rule => exact hr.call (.expr rule) hc fun e d hd he => ⟨hd, he⟩

theorem places_variableRule {storage : Storage} (hc : c.Within P) :
    (variableRule storage c).Meets (Placed P (.expr .primary)) (Faulty P) := by
  simp only [variableRule, meets_bind, meets_advance, meets_current]
  split
  · exact ⟨hc.advance.advance, Expr.lies_var.mpr hc.current⟩
  · exact ⟨hc.advance.position, rfl⟩

theorem places_nameRule (hr : r.Places P) (hc : c.Within P) :
    (nameRule r c).Meets (Placed P (.expr .primary)) (Faulty P) := by
  simp only [nameRule, meets_bind, meets_peek, meets_advance]
  by_cases ho : c.peek 1 = .openParen
  · have hopen := hc.advance.advance
    by_cases hclose : c.advance.advance.current.kind = .closeParen
    · simp only [if_pos ho, if_pos hclose, meets_bind, meets_advance, meets_current, meets_pure,
        meets_expect]
      refine ⟨fun hne => absurd hclose hne, fun _ => ⟨hopen.advance, ?_⟩⟩
      exact Expr.lies_call.mpr ⟨hc.current, List.forall_mem_nil _⟩
    · simp only [if_pos ho, if_neg hclose, meets_bind, meets_advance, meets_current, meets_expect]
      refine hr.call .arguments hopen fun es d hd hes => ?_
      refine ⟨fun _ => ⟨hd.current, rfl⟩, fun _ => ⟨hd.advance, ?_⟩⟩
      exact Expr.lies_call.mpr ⟨hc.current, hes⟩
  · rw [if_neg ho]
    exact ⟨hc.advance, Expr.lies_var.mpr hc.current⟩

theorem places_argumentsRule (hr : r.Places P) (hc : c.Within P) :
    (argumentsRule r c).Meets (Placed P .arguments) (Faulty P) := by
  simp only [argumentsRule, meets_bind, meets_current]
  refine hr.call (.expr .expression) hc fun e c₁ hc₁ he => ?_
  split
  · simp only [meets_bind, meets_advance]
    refine hr.call .arguments hc₁.advance fun es c₂ hc₂ hes => ⟨hc₂, ?_⟩
    exact List.forall_mem_cons.mpr ⟨he, hes⟩
  · exact ⟨hc₁, List.forall_mem_singleton.mpr he⟩

theorem places_literalRule (hc : c.Within P) :
    (literalRule c).Meets (Placed P (.expr .primary)) (Faulty P) :=
  ⟨hc.advance, Expr.lies_literal.mpr hc.current⟩

theorem places_groupingRule (hr : r.Places P) (hc : c.Within P) :
    (groupingRule r c).Meets (Placed P (.expr .primary)) (Faulty P) := by
  simp only [groupingRule, meets_bind, meets_advance, meets_expect]
  refine hr.call (.expr .expression) hc.advance fun e c₁ hc₁ he => ?_
  exact ⟨fun _ => ⟨hc₁.current, rfl⟩, fun _ => ⟨hc₁.advance, he⟩⟩

theorem places_unaryRule (hr : r.Places P) (hc : c.Within P) :
    (unaryRule r c).Meets (Placed P (.expr .primary)) (Faulty P) := by
  simp only [unaryRule, meets_bind, meets_advance]
  refine hr.call (.expr .primary) hc.advance fun e c₁ hc₁ he => ⟨hc₁, ?_⟩
  exact Expr.lies_unary.mpr ⟨hc.current, he⟩

theorem places_endStatement {post : Unit → Cursor → Prop} (hc : c.Within P)
    (h : ∀ d, d.Within P → post () d) : (endStatement c).Meets post (Faulty P) := by
  simp only [endStatement, meets_bind, meets_current]
  split
  · exact h _ hc.advance
  · split
    · exact h _ hc
    · exact ⟨hc.position, rfl⟩

theorem places_statementsRule (hr : r.Places P) (hc : c.Within P) :
    (statementsRule r c).Meets (Placed P .statements) (Faulty P) := by
  simp only [statementsRule, meets_bind, meets_skipEndLines, meets_current]
  split
  · exact ⟨hc.skipEndLines, List.forall_mem_nil _⟩
  · simp only [meets_bind]
    refine hr.call (.stmt .statement) hc.skipEndLines fun s c₁ hc₁ hs => ?_
    refine hr.call .statements hc₁ fun ss c₂ hc₂ hss => ⟨hc₂, ?_⟩
    exact List.forall_mem_cons.mpr ⟨hs, hss⟩

theorem places_blockRule (hr : r.Places P) (hc : c.Within P) :
    (blockRule r c).Meets (Placed P .block) (Faulty P) := by
  simp only [blockRule, meets_bind, meets_current]
  refine hr.call .statements hc fun ss c₁ hc₁ hss => ⟨hc₁, ?_⟩
  show ∀ e ∈ Block.expressions _, e.Lies P
  rw [Block.expressions_eq, List.forall_mem_flatMap]
  exact hss

/-- A statement starts where a token does, whatever its kind. -/
theorem places_statementRule {g : Grammar} (hr : r.Places P) (hc : c.Within P) :
    (statementRule g r c).Meets (Placed P (.stmt .statement)) (Faulty P) := by
  simp only [statementRule, meets_bind, meets_current]
  cases g.statement c.current.kind with
  | some rule => exact hr.call (.stmt rule) hc fun s d hd hs => ⟨hd, hs⟩
  | none =>
    simp only [meets_bind, meets_current]
    refine hr.call (.expr .expression) hc fun e c₁ hc₁ he => ?_
    split
    · split
      · simp only [meets_bind, meets_advance]
        refine hr.call (.expr .expression) hc₁.advance fun v c₂ hc₂ hv => ?_
        refine places_endStatement hc₂ fun c₃ hc₃ => ⟨hc₃, ?_⟩
        exact List.forall_mem_cons.mpr ⟨he, List.forall_mem_singleton.mpr hv⟩
      · exact ⟨he.start, rfl⟩
    · simp only [meets_bind]
      exact places_endStatement hc₁ fun c₂ hc₂ => ⟨hc₂, List.forall_mem_singleton.mpr he⟩

theorem places_conditionRule {post : Expr → Cursor → Prop} (hr : r.Places P) (hc : c.Within P)
    (h : ∀ e d, d.Within P → e.Lies P → post e d) :
    (conditionRule r c).Meets post (Faulty P) := by
  simp only [conditionRule, meets_bind, meets_expect]
  refine ⟨fun _ => ⟨hc.current, rfl⟩, fun _ => ?_⟩
  refine hr.call (.expr .expression) hc.advance fun e c₁ hc₁ he => ?_
  exact ⟨fun _ => ⟨hc₁.current, rfl⟩, fun _ => h e _ hc₁.advance he⟩

/-- Behind a block comes the word that closes it, and then the statement ends. -/
theorem places_closing {k : Kind} {message : String} {post : Unit → Cursor → Prop}
    (hc : c.Within P) (h : ∀ d, d.Within P → post () d) :
    (c.kind ≠ k → Faulty P (c.misplaced message) c) ∧
      (c.kind = k → (endStatement c.advance).Meets post (Faulty P)) :=
  ⟨fun _ => ⟨hc.position, rfl⟩, fun _ => places_endStatement hc.advance h⟩

theorem places_conditionalRule (hr : r.Places P) (hc : c.Within P) :
    (conditionalRule r c).Meets (Placed P (.stmt .statement)) (Faulty P) := by
  simp only [conditionalRule, elseRule, meets_bind, meets_advance, meets_current, meets_expectOr,
    meets_pure]
  refine places_conditionRule hr hc.advance fun e c₁ hc₁ he => ?_
  refine hr.call .block hc₁ fun yes c₂ hc₂ hyes => ?_
  by_cases helse : c₂.current.kind = .elseWord
  · simp only [if_pos helse, meets_bind, meets_advance, meets_pure]
    refine hr.call .block hc₂.advance fun no c₃ hc₃ hno => ?_
    refine places_closing hc₃ fun c₄ hc₄ => ⟨hc₄, ?_⟩
    exact List.forall_mem_cons.mpr ⟨he, List.forall_mem_append.mpr ⟨hyes, hno⟩⟩
  · simp only [if_neg helse, meets_pure]
    exact places_closing hc₂ fun c₃ hc₃ => ⟨hc₃, List.forall_mem_cons.mpr ⟨he, hyes⟩⟩

theorem places_testedLoopRule (hr : r.Places P) (hc : c.Within P) :
    (testedLoopRule r c).Meets (Placed P (.stmt .statement)) (Faulty P) := by
  simp only [testedLoopRule, meets_bind, meets_advance, meets_expectOr, meets_pure]
  refine places_conditionRule hr hc.advance fun e c₁ hc₁ he => ?_
  refine hr.call .block hc₁ fun body c₂ hc₂ hbody => ?_
  exact places_closing hc₂ fun c₃ hc₃ => ⟨hc₃, List.forall_mem_cons.mpr ⟨he, hbody⟩⟩

theorem places_repeatedLoopRule (hr : r.Places P) (hc : c.Within P) :
    (repeatedLoopRule r c).Meets (Placed P (.stmt .statement)) (Faulty P) := by
  simp only [repeatedLoopRule, meets_bind, meets_advance, meets_expectOr, meets_pure]
  refine hr.call .block hc.advance fun body c₁ hc₁ hbody => ?_
  refine ⟨fun _ => ⟨hc₁.position, rfl⟩, fun _ => ?_⟩
  refine places_conditionRule hr hc₁.advance fun e c₂ hc₂ he => ?_
  refine places_endStatement hc₂ fun c₃ hc₃ => ⟨hc₃, ?_⟩
  exact List.forall_mem_append.mpr ⟨hbody, List.forall_mem_singleton.mpr he⟩

theorem places_incrementRule {post : Option Expr → Cursor → Prop} (hr : r.Places P)
    (hc : c.Within P) (h : ∀ e d, d.Within P → (∀ i ∈ e.toList, i.Lies P) → post e d) :
    (incrementRule r c).Meets post (Faulty P) := by
  simp only [incrementRule, meets_bind, meets_current]
  split
  · simp only [meets_bind, meets_advance]
    refine hr.call (.expr .expression) hc.advance fun e c₁ hc₁ he => ?_
    exact h (some e) c₁ hc₁ (List.forall_mem_singleton.mpr he)
  · exact h none c hc (List.forall_mem_nil _)

theorem places_counterRule {post : Expr → Cursor → Prop} (hr : r.Places P) (hc : c.Within P)
    (h : ∀ e d, d.Within P → e.Lies P → post e d) : (counterRule r c).Meets post (Faulty P) := by
  simp only [counterRule, meets_bind]
  refine hr.call (.expr .primary) hc fun e c₁ hc₁ he => ?_
  split
  · exact h e c₁ hc₁ he
  · exact ⟨he.start, rfl⟩

theorem places_countingRule (hr : r.Places P) (hc : c.Within P) :
    (countingRule r c).Meets (Placed P (.stmt .statement)) (Faulty P) := by
  simp only [countingRule, meets_bind, meets_advance, meets_expect, meets_expectOr, meets_pure]
  refine ⟨fun _ => ⟨hc.advance.current, rfl⟩, fun _ => ?_⟩
  refine places_counterRule hr hc.advance.advance fun v c₁ hc₁ hv => ?_
  refine ⟨fun _ => ⟨hc₁.current, rfl⟩, fun _ => ?_⟩
  refine hr.call (.expr .expression) hc₁.advance fun a c₂ hc₂ ha => ?_
  refine ⟨fun _ => ⟨hc₂.current, rfl⟩, fun _ => ?_⟩
  refine hr.call (.expr .expression) hc₂.advance fun b c₃ hc₃ hb => ?_
  refine places_incrementRule hr hc₃ fun i c₄ hc₄ hi => ?_
  refine ⟨fun _ => ⟨hc₄.current, rfl⟩, fun _ => ?_⟩
  refine hr.call .block hc₄.advance fun body c₅ hc₅ hbody => ?_
  refine places_closing hc₅ fun c₆ hc₆ => ⟨hc₆, ?_⟩
  have hrest := List.forall_mem_append.mpr ⟨hi, hbody⟩
  show ∀ e ∈ v :: a :: b :: (i.toList ++ Block.expressions body), e.Lies P
  rw [List.forall_mem_cons, List.forall_mem_cons, List.forall_mem_cons]
  exact ⟨hv, ha, hb, hrest⟩

/-- Trees that are made of placed trees are placed. -/
theorem places_answer {g : Grammar} (hr : r.Places P) : (g.answer r).Places P := by
  intro s c hc
  match s with
  | .block => exact places_blockRule hr hc
  | .statements => exact places_statementsRule hr hc
  | .arguments => exact places_argumentsRule hr hc
  | .stmt .statement => exact places_statementRule hr hc
  | .stmt .conditional => exact places_conditionalRule hr hc
  | .stmt .counting => exact places_countingRule hr hc
  | .stmt .testedLoop => exact places_testedLoopRule hr hc
  | .stmt .repeatedLoop => exact places_repeatedLoopRule hr hc
  | .expr .expression => exact places_expressionRule hr hc
  | .expr .primary => exact places_primaryRule hr hc
  | .expr .localVariable => exact places_variableRule hc
  | .expr .persistentVariable => exact places_variableRule hc
  | .expr .name => exact places_nameRule hr hc
  | .expr .literal => exact places_literalRule hc
  | .expr .grouping => exact places_groupingRule hr hc
  | .expr .unary => exact places_unaryRule hr hc

/-- At every depth the trees start where tokens do, and so do complaints. -/
theorem places_rules {g : Grammar} (depth : Nat) : Rules.Places P (g.rules depth) := by
  induction depth with
  | zero => exact fun _ _ _ => trivial
  | succ depth ih => exact places_answer ih

end

/-! ## Whole scripts -/

/-- A script is placed where its tokens are, and so is what it fails for. -/
theorem places_parse {P : Position → Prop} {file : String} {tokens : List Token}
    (h : (Cursor.ofTokens file tokens).Within P) :
    (parse file tokens).Meets (Placed P .block) (Faulty P) := by
  simp only [parse, scriptRule, meets_bind, meets_current]
  refine (places_rules _).call .block h fun b d hd hb => ?_
  split
  · exact ⟨hd, hb⟩
  · exact ⟨hd.position, rfl⟩

/-- The script can be split into tokens. -/
def Script.Tokenizes (s : Script) : Prop := ∃ tokens, (tokenize s.name s.source).result = .ok tokens

/-- The tokens of a script are on its lines. -/
theorem Script.within_tokens {s : Script} {tokens : List Token}
    (h : (tokenize s.name s.source).result = .ok tokens) :
    (Cursor.ofTokens s.name tokens).Within s.Holds := by
  have hholds := s.holds_tokens
  rw [h] at hholds
  obtain ⟨hall, hlast⟩ := hholds
  obtain ⟨ts, hts⟩ := List.getLast?_eq_some_iff.mp hlast
  intro t ht
  rw [Cursor.remaining_ofTokens s.name ⟨ts, _, hts, rfl⟩] at ht
  rw [Cursor.file_ofTokens]
  exact ⟨(hall t ht).1, hall t ht⟩

/-- The expressions of a parsed script start on its lines. -/
theorem Script.lies_of_parse {s : Script} {b : Block} (h : s.parse = .ok b) :
    ∀ e ∈ b.expressions, e.Lies s.Holds := by
  unfold Script.parse at h
  cases hscan : (tokenize s.name s.source).result with
  | error d =>
    rw [hscan] at h
    cases h
  | ok tokens =>
    rw [hscan] at h
    obtain ⟨d, hd⟩ := Reply.toExcept_eq_ok_iff.mp h
    have hplaced := places_parse (s.within_tokens hscan)
    rw [hd] at hplaced
    exact hplaced.2

/-- What keeps a script from being parsed is on one of its lines. It is a quote without an end if and
only if the script cannot be split into tokens, and something that the parser finds otherwise. -/
theorem Script.holds_of_error {s : Script} {d : Diagnostic} (h : s.parse = .error d) :
    s.Holds d.position ∧ (d.cause = .unterminatedString ↔ ¬ s.Tokenizes) ∧
      (d.cause = .unterminatedString ∨ d.cause.isSyntactic = true) := by
  unfold Script.parse at h
  cases hscan : (tokenize s.name s.source).result with
  | error x =>
    rw [hscan] at h
    cases h
    have hfails : ¬ s.Tokenizes := by
      rintro ⟨tokens, htokens⟩
      rw [hscan] at htokens
      cases htokens
    have hholds := s.holds_tokens
    rw [hscan] at hholds
    exact ⟨hholds.2, ⟨fun _ => hfails, fun _ => hholds.1⟩, .inl hholds.1⟩
  | ok tokens =>
    rw [hscan] at h
    obtain ⟨stop, hstop⟩ := Reply.toExcept_eq_error_iff.mp h
    have hfaulty := places_parse (s.within_tokens hscan)
    rw [hstop] at hfaulty
    obtain ⟨hholds, hcause⟩ := hfaulty
    refine ⟨hholds, ⟨fun hc => ?_, fun hfails => absurd ⟨tokens, hscan⟩ hfails⟩, .inr hcause⟩
    rw [hc] at hcause
    cases hcause

end Sigil
