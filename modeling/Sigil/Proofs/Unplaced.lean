import Sigil.Proofs.Lists
import Sigil.Tree.Stmt

/-!
# Trees without their places

Two trees that differ only in their spans say the same thing. A tree is compared up to spans by taking
the spans away first: `unplaced` puts `Span.nowhere` on every node, and is the special case of
`mapSpans`, which changes every span of a tree alike.
-/

namespace Sigil

mutual

/-- The expression with every span made what `f` makes of it. -/
def Expr.mapSpans (f : Span → Span) : Expr → Expr
  | .literal text t s => .literal text t (f s)
  | .var ref t s => .var ref t (f s)
  | .unary op e t s => .unary op (e.mapSpans f) t (f s)
  | .binary op l r t s => .binary op (l.mapSpans f) (r.mapSpans f) t (f s)
  | .call name args t s => .call name (Expr.mapSpansAll f args) t (f s)
termination_by structural e => e

/-- The expressions with every span made what `f` makes of it. -/
def Expr.mapSpansAll (f : Span → Span) : List Expr → List Expr
  | [] => []
  | e :: es => e.mapSpans f :: Expr.mapSpansAll f es
termination_by structural es => es

end

mutual

/-- The statement with every span made what `f` makes of it. -/
def Stmt.mapSpans (f : Span → Span) : Stmt → Stmt
  | .expression e s => .expression (e.mapSpans f) (f s)
  | .assign target value s => .assign (target.mapSpans f) (value.mapSpans f) (f s)
  | .cond c yes none s => .cond (c.mapSpans f) (yes.mapSpans f) none (f s)
  | .cond c yes (some no) s =>
    .cond (c.mapSpans f) (yes.mapSpans f) (some (no.mapSpans f)) (f s)
  | .count counter first last increment body s =>
    .count (counter.mapSpans f) (first.mapSpans f) (last.mapSpans f)
      (increment.map (Expr.mapSpans f)) (body.mapSpans f) (f s)
  | .loop c body s => .loop (c.mapSpans f) (body.mapSpans f) (f s)
  | .loopUntil body c s => .loopUntil (body.mapSpans f) (c.mapSpans f) (f s)
termination_by structural s => s

/-- The block with every span made what `f` makes of it. -/
def Block.mapSpans (f : Span → Span) : Block → Block
  | .mk body s => .mk (Block.mapSpansAll f body) (f s)
termination_by structural b => b

/-- The statements with every span made what `f` makes of it. -/
def Block.mapSpansAll (f : Span → Span) : List Stmt → List Stmt
  | [] => []
  | s :: ss => s.mapSpans f :: Block.mapSpansAll f ss
termination_by structural ss => ss

end

/-- The expression without its places. -/
abbrev Expr.unplaced (e : Expr) : Expr := e.mapSpans fun _ => .nowhere

/-- The statement without its places. -/
abbrev Stmt.unplaced (s : Stmt) : Stmt := s.mapSpans fun _ => .nowhere

/-- The block without its places. -/
abbrev Block.unplaced (b : Block) : Block := b.mapSpans fun _ => .nowhere

@[simp] theorem Expr.span_mapSpans (f : Span → Span) (e : Expr) :
    (e.mapSpans f).span = f e.span := by
  cases e <;> rfl

theorem Expr.mapSpansAll_eq (f : Span → Span) (es : List Expr) :
    Expr.mapSpansAll f es = es.map (Expr.mapSpans f) :=
  eq_map_of_cons rfl (fun _ _ => rfl) es

theorem Block.mapSpansAll_eq (f : Span → Span) (ss : List Stmt) :
    Block.mapSpansAll f ss = ss.map (Stmt.mapSpans f) :=
  eq_map_of_cons rfl (fun _ _ => rfl) ss

/-- The statements of a block are changed one by one. -/
theorem Block.body_mapSpans (f : Span → Span) (b : Block) :
    (b.mapSpans f).body = b.body.map (Stmt.mapSpans f) := by
  cases b with
  | mk body s => exact Block.mapSpansAll_eq f body

/-- Spans do not make a variable. -/
@[simp] theorem Expr.isVar_mapSpans (f : Span → Span) (e : Expr) :
    (e.mapSpans f).isVar = e.isVar := by
  cases e <;> rfl

end Sigil
