import Sigil.Program.Analysis
import Sigil.Proofs.Outcome
import Sigil.Proofs.TokenLines

/-!
# How the spans of a tree lie

Every rule of the grammar takes the span of its tree from tokens and parts of its own choice: parentheses are
left out, a `repeat` ends with its condition, and a block ends with a token that belongs to what is around
it. In a parsed script, parts lie inside of what they are parts of all the same, one behind another.

What is carried through the rules is a `Row`. The trees of a call lie in a row that starts with the line of
the token at which it is called, and goes on to the line of the token at which it stops.
-/

namespace Sigil

open Parse Cursor

/-! ## Nodes -/

/-- A node of a syntax tree. -/
inductive Node where
  | expr (e : Expr)
  | stmt (s : Stmt)
  | block (b : Block)

namespace Node

/-- The span of the node. -/
def span : Node → Span
  | expr e => e.span
  | stmt s => s.span
  | block b => b.span

/-- The nodes right below the node, in the order in which they are written. -/
def children : Node → List Node
  | expr (.literal _ _ _) => []
  | expr (.var _ _ _) => []
  | expr (.unary _ e _ _) => [expr e]
  | expr (.binary _ l r _ _) => [expr l, expr r]
  | expr (.call _ args _ _) => args.map expr
  | stmt (.expression e _) => [expr e]
  | stmt (.assign target value _) => [expr target, expr value]
  | stmt (.cond condition yes no _) => expr condition :: block yes :: no.toList.map block
  | stmt (.count counter first last increment body _) =>
    expr counter :: expr first :: expr last :: (increment.toList.map expr ++ [block body])
  | stmt (.loop condition body _) => [expr condition, block body]
  | stmt (.loopUntil body condition _) => [block body, expr condition]
  | block (.mk body _) => body.map stmt

end Node

/-- The span is one of the given file, and does not end before it starts. -/
structure Span.IsIn (file : String) (s : Span) : Prop where
  start : s.start.file = file
  stop : s.stop.file = file
  le : s.start.line ≤ s.stop.line

/-- The node and all nodes below it have spans in the given file. The children of each lie within it, and
none of them starts before the end of one that is written before it. -/
inductive Node.Nested (file : String) : Node → Prop where
  | mk {x : Node} (hspan : x.span.IsIn file)
      (hinside : ∀ y ∈ x.children,
        x.span.start.line ≤ y.span.start.line ∧ y.span.stop.line ≤ x.span.stop.line)
      (hordered : x.children.Pairwise fun y z => y.span.stop.line ≤ z.span.start.line)
      (hchildren : ∀ y ∈ x.children, Nested file y) : Nested file x

theorem Node.Nested.span {file : String} {x : Node} (h : x.Nested file) : x.span.IsIn file := by
  cases h with
  | mk hspan _ _ _ => exact hspan

/-! ## Rows of nodes -/

/-- The nodes are nested, and lie one behind another between two lines. -/
def Row (file : String) (first : Nat) : (nodes : List Node) → (last : Nat) → Prop
  | [], last => first ≤ last
  | x :: xs, last =>
    first ≤ x.span.start.line ∧ x.Nested file ∧ Row file x.span.stop.line xs last

namespace Row

variable {file : String} {first first' last last' : Nat} {x : Node} {xs ys : List Node}

theorem le (h : Row file first xs last) : first ≤ last := by
  induction xs generalizing first with
  | nil => exact h
  | cons x xs ih =>
    obtain ⟨hfirst, hx, hxs⟩ := h
    have hspan := hx.span.le
    have hrest := ih hxs
    omega

theorem mono (h : Row file first xs last) (hfirst : first' ≤ first) (hlast : last ≤ last') :
    Row file first' xs last' := by
  induction xs generalizing first first' with
  | nil => exact Nat.le_trans hfirst (Nat.le_trans h hlast)
  | cons x xs ih =>
    obtain ⟨hx₀, hx, hxs⟩ := h
    exact ⟨Nat.le_trans hfirst hx₀, hx, ih hxs (Nat.le_refl _)⟩

theorem earlier (h : Row file first xs last) (hfirst : first' ≤ first) : Row file first' xs last :=
  h.mono hfirst (Nat.le_refl _)

/-- A row that ends where another starts makes one row with it. -/
theorem append (hxs : Row file first xs last) (hys : Row file last ys last') :
    Row file first (xs ++ ys) last' := by
  induction xs generalizing first with
  | nil => exact hys.earlier hxs
  | cons x xs ih =>
    obtain ⟨hfirst, hx, hrest⟩ := hxs
    exact ⟨hfirst, hx, ih hrest⟩

theorem inside (h : Row file first xs last) :
    ∀ x ∈ xs, first ≤ x.span.start.line ∧ x.span.stop.line ≤ last := by
  induction xs generalizing first with
  | nil => exact List.forall_mem_nil _
  | cons x xs ih =>
    obtain ⟨hfirst, hx, hxs⟩ := h
    refine List.forall_mem_cons.mpr ⟨⟨hfirst, hxs.le⟩, fun y hy => ?_⟩
    have hspan := hx.span.le
    have hy := ih hxs y hy
    omega

/-- In a row each node ends before the next one starts. -/
theorem ordered (h : Row file first xs last) :
    xs.Pairwise fun x y => x.span.stop.line ≤ y.span.start.line := by
  induction xs generalizing first with
  | nil => exact List.Pairwise.nil
  | cons x xs ih =>
    obtain ⟨-, -, hxs⟩ := h
    exact List.pairwise_cons.mpr ⟨fun y hy => (hxs.inside y hy).1, ih hxs⟩

theorem nested (h : Row file first xs last) : ∀ x ∈ xs, x.Nested file := by
  induction xs generalizing first with
  | nil => exact List.forall_mem_nil _
  | cons x xs ih =>
    obtain ⟨-, hx, hxs⟩ := h
    exact List.forall_mem_cons.mpr ⟨hx, ih hxs⟩

/-- A node whose children make up a row between its own first and last line is nested. -/
theorem node {span : Span} (hspan : x.span = span) (hstart : span.start.file = file)
    (hstop : span.stop.file = file) (hfirst : first ≤ span.start.line)
    (hlast : span.stop.line ≤ last) (h : Row file span.start.line x.children span.stop.line) :
    Row file first [x] last := by
  subst hspan
  have hin : x.span.IsIn file := ⟨hstart, hstop, h.le⟩
  exact ⟨hfirst, .mk hin h.inside h.ordered h.nested, hlast⟩

/-- Two nodes with something between them make up a node from the start of one to the end of the other. -/
theorem merge {l r : Node} (hspan : x.span = l.span.merge r.span) (hchildren : x.children = [l, r])
    (hl : Row file first [l] last) (hbetween : last ≤ first') (hr : Row file first' [r] last') :
    Row file first [x] last' := by
  obtain ⟨hl₀, hl, hl₁⟩ := hl
  obtain ⟨hr₀, hr, hr₁⟩ := hr
  have hgap := Nat.le_trans hl₁ (Nat.le_trans hbetween hr₀)
  refine .node hspan hl.span.start hr.span.stop hl₀ hr₁ ?_
  rw [hchildren]
  exact ⟨Nat.le_refl _, hl, hgap, hr, Nat.le_refl _⟩

end Row

/-! ## Rows of tokens -/

namespace Cursor

/-- The first line of the token that the cursor stands at. -/
def firstLine (c : Cursor) : Nat := c.current.span.start.line

/-- The last line of the token that the cursor stands at. -/
def lastLine (c : Cursor) : Nat := c.current.span.stop.line

/-- The tokens from the cursor on are in the given file and stand one behind another. The last of them,
which the cursor does not leave, is on a single line. -/
structure Ordered (file : String) (c : Cursor) : Prop where
  spans : ∀ t ∈ c.remaining, t.span.IsIn file
  ordered : c.remaining.Pairwise fun t u => t.span.stop.line ≤ u.span.start.line
  single : ∀ t, c.remaining.getLast? = some t → t.span.stop.line = t.span.start.line

variable {file : String} {c : Cursor}

theorem Ordered.current (h : c.Ordered file) : c.current.span.IsIn file :=
  h.spans c.current (by simp [remaining])

theorem Ordered.le (h : c.Ordered file) : c.firstLine ≤ c.lastLine := h.current.le

theorem Ordered.advance (h : c.Ordered file) : c.advance.Ordered file := by
  obtain ⟨name, t, ahead⟩ := c
  cases ahead with
  | nil => exact h
  | cons u us =>
    obtain ⟨hspans, hordered, hsingle⟩ := h
    refine ⟨fun v hv => hspans v (List.mem_cons_of_mem t hv), (List.pairwise_cons.mp hordered).2, ?_⟩
    intro v hv
    apply hsingle v
    rw [remaining, List.getLast?_cons_cons]
    exact hv

/-- A token ends before the next one starts. -/
theorem Ordered.lastLine_le (h : c.Ordered file) : c.lastLine ≤ c.advance.firstLine := by
  obtain ⟨name, t, ahead⟩ := c
  cases ahead with
  | nil => exact Nat.le_of_eq (h.single t rfl)
  | cons u us => exact (List.pairwise_cons.mp h.ordered).1 u (List.mem_cons_self ..)

theorem Ordered.firstLine_le (h : c.Ordered file) : c.firstLine ≤ c.advance.firstLine :=
  Nat.le_trans h.le h.lastLine_le

theorem Ordered.skipEndLines (h : c.Ordered file) :
    c.skipEndLines.Ordered file ∧ c.firstLine ≤ c.skipEndLines.firstLine := by
  obtain ⟨name, t, ahead⟩ := c
  unfold Cursor.skipEndLines
  induction ahead generalizing t with
  | nil => exact ⟨h, Nat.le_refl _⟩
  | cons u us ih =>
    unfold skipFrom
    split
    · obtain ⟨hskip, hle⟩ := ih u h.advance
      exact ⟨hskip, Nat.le_trans h.firstLine_le hle⟩
    · exact ⟨h, Nat.le_refl _⟩

end Cursor

/-! ## Rules -/

namespace Nonterminal

/-- The uppermost nodes of what a nonterminal gives. -/
def nodes : (s : Nonterminal) → s.Tree → List Node
  | expr _, e => [.expr e]
  | arguments, es => es.map .expr
  | stmt _, s => [.stmt s]
  | statements, ss => ss.map .stmt
  | block, b => [.block b]

/-- The line that the nodes go on to if the next token is the one at the cursor. A block takes that token
in. -/
def limit : Nonterminal → Cursor → Nat
  | block, d => d.lastLine
  | _, d => d.firstLine

end Nonterminal

/-- What a call at `c` gives lies in a row between the tokens at `c` and at `d`. -/
def Nesting (file : String) (c : Cursor) (s : Nonterminal) (tree : s.Tree) (d : Cursor) : Prop :=
  d.Ordered file ∧ Row file c.firstLine (s.nodes tree) (s.limit d)

/-- Calls at ordered tokens are answered with rows of nested trees. -/
def Rules.Nests (file : String) (r : Rules) : Prop :=
  ∀ (s : Nonterminal) (c : Cursor), c.Ordered file →
    (r s c).Meets (Nesting file c s) fun _ _ => True

section

variable {file : String} {r : Rules} {c : Cursor}

theorem Rules.Nests.call (hr : r.Nests file) (s : Nonterminal) {post : s.Tree → Cursor → Prop}
    (hc : c.Ordered file)
    (h : ∀ tree d, d.Ordered file → Row file c.firstLine (s.nodes tree) (s.limit d) → post tree d) :
    (r s c).Meets post fun _ _ => True :=
  (hr s c hc).mono (fun tree d ht => h tree d ht.1 ht.2) fun _ _ hx => hx

/-- The operands of an operation are inside of it, the left one before the right one. -/
theorem nests_expressionRule (hr : r.Nests file) (hc : c.Ordered file) :
    (expressionRule r c).Meets (Nesting file c (.expr .expression)) fun _ _ => True := by
  simp only [expressionRule, meets_bind, meets_current]
  refine hr.call (.expr .primary) hc fun l c₁ hc₁ hl => ?_
  split
  · simp only [meets_bind, meets_advance]
    refine hr.call (.expr .expression) hc₁.advance fun e c₂ hc₂ he => ⟨hc₂, ?_⟩
    have hoperator := hc₁.firstLine_le
    exact .merge rfl rfl hl hoperator he
  · exact ⟨hc₁, hl⟩

theorem nests_primaryRule {g : Grammar} (hr : r.Nests file) (hc : c.Ordered file) :
    (primaryRule g r c).Meets (Nesting file c (.expr .primary)) fun _ _ => True := by
  simp only [primaryRule, meets_bind, meets_current]
  cases g.primary c.current.kind with
  | none => trivial
  | some rule => exact hr.call (.expr rule) hc fun e d hd he => ⟨hd, he⟩

/-- A node without children that is as large as its token. -/
theorem nests_leaf (hc : c.Ordered file) {x : Node} (hchildren : x.children = [])
    (hspan : x.span = c.current.span) : Row file c.firstLine [x] c.advance.firstLine := by
  refine .node hspan hc.current.start hc.current.stop (Nat.le_refl _) hc.lastLine_le ?_
  rw [hchildren]
  exact hc.le

theorem nests_variableRule {storage : Storage} (hc : c.Ordered file) :
    (variableRule storage c).Meets (Nesting file c (.expr .primary)) fun _ _ => True := by
  simp only [variableRule, meets_bind, meets_advance, meets_current]
  split
  · refine ⟨hc.advance.advance, ?_⟩
    have hsigil := hc.firstLine_le
    exact .node rfl hc.current.start hc.advance.current.stop (Nat.le_refl _) hc.advance.lastLine_le
      (Nat.le_trans hsigil hc.advance.le)
  · trivial

theorem nests_nameRule (hr : r.Nests file) (hc : c.Ordered file) :
    (nameRule r c).Meets (Nesting file c (.expr .primary)) fun _ _ => True := by
  simp only [nameRule, meets_bind, meets_peek, meets_advance]
  have hname := hc.firstLine_le
  by_cases ho : c.peek 1 = .openParen
  · have hopen := hc.advance.advance
    have hparen := hc.advance.firstLine_le
    by_cases hclose : c.advance.advance.current.kind = .closeParen
    · simp only [if_pos ho, if_pos hclose, meets_bind, meets_advance, meets_current, meets_pure,
        meets_expect]
      refine ⟨fun _ => trivial, fun _ => ⟨hopen.advance, ?_⟩⟩
      exact .node rfl hc.current.start hopen.current.stop (Nat.le_refl _) hopen.lastLine_le
        (Nat.le_trans hname (Nat.le_trans hparen hopen.le))
    · simp only [if_pos ho, if_neg hclose, meets_bind, meets_advance, meets_current, meets_expect]
      refine hr.call .arguments hopen fun es d hd hes => ?_
      refine ⟨fun _ => trivial, fun _ => ⟨hd.advance, ?_⟩⟩
      exact .node rfl hc.current.start hd.current.stop (Nat.le_refl _) hd.lastLine_le
        (hes.mono (Nat.le_trans hname hparen) hd.le)
  · rw [if_neg ho]
    exact ⟨hc.advance, nests_leaf hc rfl rfl⟩

theorem nests_argumentsRule (hr : r.Nests file) (hc : c.Ordered file) :
    (argumentsRule r c).Meets (Nesting file c .arguments) fun _ _ => True := by
  simp only [argumentsRule, meets_bind, meets_current]
  refine hr.call (.expr .expression) hc fun e c₁ hc₁ he => ?_
  split
  · simp only [meets_bind, meets_advance]
    refine hr.call .arguments hc₁.advance fun es c₂ hc₂ hes => ⟨hc₂, ?_⟩
    have hsemicolon := hc₁.firstLine_le
    exact he.append (hes.earlier hsemicolon)
  · exact ⟨hc₁, he⟩

theorem nests_literalRule (hc : c.Ordered file) :
    (literalRule c).Meets (Nesting file c (.expr .primary)) fun _ _ => True :=
  ⟨hc.advance, nests_leaf hc rfl rfl⟩

theorem nests_groupingRule (hr : r.Nests file) (hc : c.Ordered file) :
    (groupingRule r c).Meets (Nesting file c (.expr .primary)) fun _ _ => True := by
  simp only [groupingRule, meets_bind, meets_advance, meets_expect]
  refine hr.call (.expr .expression) hc.advance fun e c₁ hc₁ he => ?_
  refine ⟨fun _ => trivial, fun _ => ⟨hc₁.advance, ?_⟩⟩
  have hopen := hc.firstLine_le
  have hclose := hc₁.firstLine_le
  exact he.mono hopen hclose

theorem nests_unaryRule (hr : r.Nests file) (hc : c.Ordered file) :
    (unaryRule r c).Meets (Nesting file c (.expr .primary)) fun _ _ => True := by
  simp only [unaryRule, meets_bind, meets_advance]
  refine hr.call (.expr .primary) hc.advance fun e c₁ hc₁ he => ⟨hc₁, ?_⟩
  obtain ⟨he₀, he, he₁⟩ := he
  have hoperator := hc.firstLine_le
  exact .node rfl hc.current.start he.span.stop (Nat.le_refl _) he₁
    ⟨Nat.le_trans hoperator he₀, he, Nat.le_refl _⟩

theorem nests_endStatement {post : Unit → Cursor → Prop} (hc : c.Ordered file)
    (h : ∀ d, d.Ordered file → c.firstLine ≤ d.firstLine → post () d) :
    (endStatement c).Meets post fun _ _ => True := by
  simp only [endStatement, meets_bind, meets_current]
  split
  · exact h _ hc.advance hc.firstLine_le
  · split
    · exact h _ hc (Nat.le_refl _)
    · trivial

theorem nests_statementsRule (hr : r.Nests file) (hc : c.Ordered file) :
    (statementsRule r c).Meets (Nesting file c .statements) fun _ _ => True := by
  simp only [statementsRule, meets_bind, meets_skipEndLines, meets_current]
  obtain ⟨hskip, hle⟩ := hc.skipEndLines
  split
  · exact ⟨hskip, hle⟩
  · simp only [meets_bind]
    refine hr.call (.stmt .statement) hskip fun s c₁ hc₁ hs => ?_
    refine hr.call .statements hc₁ fun ss c₂ hc₂ hss => ⟨hc₂, ?_⟩
    exact (hs.earlier hle).append hss

/-- A block reaches from its first statement to its last. -/
theorem nests_blockRule (hr : r.Nests file) (hc : c.Ordered file) :
    (blockRule r c).Meets (Nesting file c .block) fun _ _ => True := by
  simp only [blockRule, meets_bind, meets_current]
  refine hr.call .statements hc fun ss c₁ hc₁ hss => ⟨hc₁, ?_⟩
  exact .node rfl hc.current.start hc₁.current.stop (Nat.le_refl _) (Nat.le_refl _)
    (hss.mono (Nat.le_refl _) hc₁.le)

theorem nests_statementRule {g : Grammar} (hr : r.Nests file) (hc : c.Ordered file) :
    (statementRule g r c).Meets (Nesting file c (.stmt .statement)) fun _ _ => True := by
  simp only [statementRule, meets_bind, meets_current]
  cases g.statement c.current.kind with
  | some rule => exact hr.call (.stmt rule) hc fun s d hd hs => ⟨hd, hs⟩
  | none =>
    simp only [meets_bind, meets_current]
    refine hr.call (.expr .expression) hc fun e c₁ hc₁ he => ?_
    split
    · split
      · simp only [meets_bind, meets_advance]
        refine hr.call (.expr .expression) hc₁.advance fun v c₂ hc₂ hv => ?_
        refine nests_endStatement hc₂ fun c₃ hc₃ hend => ⟨hc₃, ?_⟩
        have hassign := hc₁.firstLine_le
        exact .merge rfl rfl he hassign (hv.mono (Nat.le_refl _) hend)
      · trivial
    · simp only [meets_bind]
      refine nests_endStatement hc₁ fun c₂ hc₂ hend => ⟨hc₂, ?_⟩
      obtain ⟨he₀, he, he₁⟩ := he
      exact .node rfl he.span.start he.span.stop he₀ (Nat.le_trans he₁ hend)
        ⟨Nat.le_refl _, he, Nat.le_refl _⟩

theorem nests_conditionRule {post : Expr → Cursor → Prop} (hr : r.Nests file) (hc : c.Ordered file)
    (h : ∀ e d, d.Ordered file → Row file c.lastLine [.expr e] d.firstLine → post e d) :
    (conditionRule r c).Meets post fun _ _ => True := by
  simp only [conditionRule, meets_bind, meets_expect]
  refine ⟨fun _ => trivial, fun _ => ?_⟩
  refine hr.call (.expr .expression) hc.advance fun e c₁ hc₁ he => ?_
  refine ⟨fun _ => trivial, fun _ => h e _ hc₁.advance ?_⟩
  exact he.mono hc.lastLine_le hc₁.firstLine_le

/-- A statement that starts at `c` ends with a word after its last block, and nothing but the end of its
line is left to come. -/
theorem nests_closing {d : Cursor} {k : Kind} {s : Stmt} (hc : c.Ordered file) (hd : d.Ordered file)
    (hspan : s.span = c.current.span.merge d.current.span)
    (hrow : Row file c.firstLine (Node.stmt s).children d.lastLine) :
    (d.kind ≠ k → True) ∧ (d.kind = k →
      (endStatement d.advance).Meets (fun _ e => Nesting file c (.stmt .statement) s e)
        fun _ _ => True) := by
  refine ⟨fun _ => trivial, fun _ => ?_⟩
  refine nests_endStatement hd.advance fun e he hend => ⟨he, ?_⟩
  have hend := Nat.le_trans hd.lastLine_le hend
  exact .node hspan hc.current.start hd.current.stop (Nat.le_refl _) hend hrow

theorem nests_conditionalRule (hr : r.Nests file) (hc : c.Ordered file) :
    (conditionalRule r c).Meets (Nesting file c (.stmt .statement)) fun _ _ => True := by
  simp only [conditionalRule, elseRule, meets_bind, meets_advance, meets_current, meets_expectOr,
    meets_pure]
  have hword := hc.firstLine_le
  refine nests_conditionRule hr hc.advance fun e c₁ hc₁ he => ?_
  refine hr.call .block hc₁ fun yes c₂ hc₂ hyes => ?_
  have hrow := (he.earlier (Nat.le_trans hword hc.advance.le)).append hyes
  by_cases helse : c₂.current.kind = .elseWord
  · simp only [if_pos helse, meets_bind, meets_advance, meets_pure]
    refine hr.call .block hc₂.advance fun no c₃ hc₃ hno => ?_
    exact nests_closing hc hc₃ rfl (hrow.append (hno.earlier hc₂.lastLine_le))
  · simp only [if_neg helse, meets_pure]
    exact nests_closing hc hc₂ rfl hrow

theorem nests_testedLoopRule (hr : r.Nests file) (hc : c.Ordered file) :
    (testedLoopRule r c).Meets (Nesting file c (.stmt .statement)) fun _ _ => True := by
  simp only [testedLoopRule, meets_bind, meets_advance, meets_expectOr, meets_pure]
  have hword := hc.firstLine_le
  refine nests_conditionRule hr hc.advance fun e c₁ hc₁ he => ?_
  refine hr.call .block hc₁ fun body c₂ hc₂ hbody => ?_
  have hrow := (he.earlier (Nat.le_trans hword hc.advance.le)).append hbody
  exact nests_closing hc hc₂ rfl hrow

theorem nests_repeatedLoopRule (hr : r.Nests file) (hc : c.Ordered file) :
    (repeatedLoopRule r c).Meets (Nesting file c (.stmt .statement)) fun _ _ => True := by
  simp only [repeatedLoopRule, meets_bind, meets_advance, meets_expectOr, meets_pure]
  have hword := hc.firstLine_le
  refine hr.call .block hc.advance fun body c₁ hc₁ hbody => ?_
  refine ⟨fun _ => trivial, fun _ => ?_⟩
  refine nests_conditionRule hr hc₁.advance fun e c₂ hc₂ he => ?_
  refine nests_endStatement hc₂ fun c₃ hc₃ hend => ⟨hc₃, ?_⟩
  obtain ⟨he₀, he, he₁⟩ := he
  -- The block takes in the line of `until`, and the condition comes after its parenthesis.
  have huntil := Nat.le_trans hc₁.lastLine_le hc₁.advance.le
  have hcondition : Row file c₁.lastLine [.expr e] e.span.stop.line :=
    ⟨Nat.le_trans huntil he₀, he, Nat.le_refl _⟩
  exact .node rfl hc.current.start he.span.stop (Nat.le_refl _) (Nat.le_trans he₁ hend)
    ((hbody.earlier hword).append hcondition)

theorem nests_incrementRule {post : Option Expr → Cursor → Prop} (hr : r.Nests file)
    (hc : c.Ordered file)
    (h : ∀ e d, d.Ordered file → Row file c.firstLine (e.toList.map .expr) d.firstLine → post e d) :
    (incrementRule r c).Meets post fun _ _ => True := by
  simp only [incrementRule, meets_bind, meets_current]
  split
  · simp only [meets_bind, meets_advance]
    refine hr.call (.expr .expression) hc.advance fun e c₁ hc₁ he => ?_
    have hsemicolon := hc.firstLine_le
    exact h (some e) c₁ hc₁ (he.earlier hsemicolon)
  · exact h none c hc (Nat.le_refl _)

theorem nests_counterRule {post : Expr → Cursor → Prop} (hr : r.Nests file) (hc : c.Ordered file)
    (h : ∀ e d, d.Ordered file → Row file c.firstLine [.expr e] d.firstLine → post e d) :
    (counterRule r c).Meets post fun _ _ => True := by
  simp only [counterRule, meets_bind]
  refine hr.call (.expr .primary) hc fun e c₁ hc₁ he => ?_
  split
  · exact h e c₁ hc₁ he
  · trivial

/-- The parts of a counting loop are inside of it, in their order. -/
theorem nests_countingRule (hr : r.Nests file) (hc : c.Ordered file) :
    (countingRule r c).Meets (Nesting file c (.stmt .statement)) fun _ _ => True := by
  simp only [countingRule, meets_bind, meets_advance, meets_expect, meets_expectOr, meets_pure]
  refine ⟨fun _ => trivial, fun _ => ?_⟩
  refine nests_counterRule hr hc.advance.advance fun v c₁ hc₁ hv => ?_
  refine ⟨fun _ => trivial, fun _ => ?_⟩
  refine hr.call (.expr .expression) hc₁.advance fun a c₂ hc₂ ha => ?_
  refine ⟨fun _ => trivial, fun _ => ?_⟩
  refine hr.call (.expr .expression) hc₂.advance fun b c₃ hc₃ hb => ?_
  refine nests_incrementRule hr hc₃ fun i c₄ hc₄ hi => ?_
  refine ⟨fun _ => trivial, fun _ => ?_⟩
  refine hr.call .block hc₄.advance fun body c₅ hc₅ hbody => ?_
  -- Between each slot and the next stands a token, whose lines the next slot's row is extended by.
  have hword := hc.firstLine_le
  have hopen := hc.advance.firstLine_le
  have hrowv := hv.earlier (Nat.le_trans hword hopen)
  have hrowa := ha.earlier hc₁.firstLine_le
  have hrowb := hb.earlier hc₂.firstLine_le
  have hrowbody := hbody.earlier hc₄.firstLine_le
  exact nests_closing hc hc₅ rfl (hrowv.append (hrowa.append (hrowb.append (hi.append hrowbody))))

theorem nests_answer {g : Grammar} (hr : r.Nests file) : (g.answer r).Nests file := by
  intro s c hc
  cases s with
  | block => exact nests_blockRule hr hc
  | statements => exact nests_statementsRule hr hc
  | arguments => exact nests_argumentsRule hr hc
  | stmt rule =>
    cases rule with
    | statement => exact nests_statementRule hr hc
    | conditional => exact nests_conditionalRule hr hc
    | counting => exact nests_countingRule hr hc
    | testedLoop => exact nests_testedLoopRule hr hc
    | repeatedLoop => exact nests_repeatedLoopRule hr hc
  | expr rule =>
    cases rule with
    | expression => exact nests_expressionRule hr hc
    | primary => exact nests_primaryRule hr hc
    | localVariable => exact nests_variableRule hc
    | persistentVariable => exact nests_variableRule hc
    | name => exact nests_nameRule hr hc
    | literal => exact nests_literalRule hc
    | grouping => exact nests_groupingRule hr hc
    | unary => exact nests_unaryRule hr hc

theorem nests_rules {g : Grammar} (depth : Nat) : Rules.Nests file (g.rules depth) := by
  induction depth with
  | zero => exact fun _ _ _ => trivial
  | succ depth ih => exact nests_answer ih

end

/-! ## Whole scripts -/

/-- The tree of a script is nested. -/
theorem nests_parse {file : String} {tokens : List Token}
    (h : (Cursor.ofTokens file tokens).Ordered file) :
    (parse file tokens).Meets (fun b _ => (Node.block b).Nested file) fun _ _ => True := by
  simp only [parse, scriptRule, meets_bind, meets_current]
  refine (nests_rules _).call .block h fun b d _ hb => ?_
  split
  · exact hb.2.1
  · trivial

/-- The tokens of a script stand one behind another. -/
theorem Script.ordered_tokens {s : Script} {tokens : List Token}
    (h : (tokenize s.name s.source).result = .ok tokens) :
    (Cursor.ofTokens s.name tokens).Ordered s.name := by
  have hholds := s.holds_tokens
  rw [h] at hholds
  obtain ⟨-, hlast⟩ := hholds
  obtain ⟨ts, hts⟩ := List.getLast?_eq_some_iff.mp hlast
  have hremaining := Cursor.remaining_ofTokens s.name ⟨ts, _, hts, rfl⟩
  constructor
  · intro t ht
    rw [hremaining] at ht
    obtain ⟨before, after, hsplit⟩ := List.append_of_mem ht
    obtain ⟨text, rest, -, -, -, hspan⟩ := Scanner.stands_of_scan _ (scan_of_tokenize h) hsplit
    rw [hspan]
    exact ⟨rfl, rfl, Nat.le_add_right _ _⟩
  · rw [hremaining]
    exact Scanner.pairwise_of_scan _ (scan_of_tokenize h)
  · intro t ht
    rw [hremaining, hlast] at ht
    rw [← Option.some.inj ht]
    rfl

/-- In a parsed script the span of every node is one of the script, and takes in the spans of what is below
the node; what stands side by side below a node does not run into one another. -/
theorem nested_of_parse (s : Script) (b : Block) (h : s.parse = .ok b) :
    (Node.block b).Nested s.name := by
  unfold Script.parse at h
  cases hscan : (tokenize s.name s.source).result with
  | error d =>
    rw [hscan] at h
    cases h
  | ok tokens =>
    rw [hscan] at h
    obtain ⟨d, hd⟩ := Reply.toExcept_eq_ok_iff.mp h
    have hnested := nests_parse (s.ordered_tokens hscan)
    rw [hd] at hnested
    exact hnested

/-- A loop with a condition, an `else` and a text of two lines in it. -/
theorem nested_of_parse_loops :
    let s : Script := ⟨"demo",
      "repeat\nif ($a)\n$a := f(\"x\ny\"; (1))\nelse\nend if\nuntil ($a = /*\n*/ 2)\n"⟩
    ∃ b, s.parse = .ok b ∧ b.span = .lines "demo" 1 9 ∧ (Node.block b).Nested "demo" := by
  intro s
  have hparses : s.parse.toOption.map Block.span = some (.lines "demo" 1 9) := by decide +kernel
  obtain ⟨b, hb, hspan⟩ := Option.map_eq_some_iff.mp hparses
  have hok := eq_ok_of_toOption hb
  exact ⟨b, hok, hspan, nested_of_parse s b hok⟩

end Sigil
