import Sigil.Source.Position
import Sigil.Tree.Ty
import Sigil.Tree.Variable

/-!
# Expressions

Every node of an expression carries its type and its span. The type is `undetermined` on all nodes
but literals until tagging writes it.
-/

namespace Sigil

/-- An expression. -/
inductive Expr where
  /-- A number or a text that is written down. -/
  | literal (text : String) (type : Ty) (span : Span)
  /-- A use of a variable. -/
  | var (ref : Variable) (type : Ty) (span : Span)
  /-- An operator before its operand. -/
  | unary (operator : String) (operand : Expr) (type : Ty) (span : Span)
  /-- An operator between its operands. -/
  | binary (operator : String) (left right : Expr) (type : Ty) (span : Span)
  /-- A call of a function. -/
  | call (name : String) (arguments : List Expr) (type : Ty) (span : Span)
  deriving Inhabited

namespace Expr

/-- The type on the node. -/
def type : Expr → Ty
  | literal _ t _ => t
  | var _ t _ => t
  | unary _ _ t _ => t
  | binary _ _ _ t _ => t
  | call _ _ t _ => t

/-- The span of the node. -/
def span : Expr → Span
  | literal _ _ s => s
  | var _ _ s => s
  | unary _ _ _ s => s
  | binary _ _ _ _ s => s
  | call _ _ _ s => s

/-- The same node with another type on it. -/
def withType (t : Ty) : Expr → Expr
  | literal text _ s => literal text t s
  | var ref _ s => var ref t s
  | unary op e _ s => unary op e t s
  | binary op l r _ s => binary op l r t s
  | call name args _ s => call name args t s

/-- The variable that the expression is, if it is one. Only such an expression can be assigned to. -/
def var? : Expr → Option Variable
  | var ref _ _ => some ref
  | _ => none

/-- Whether the expression is a variable. -/
def isVar (e : Expr) : Bool := e.var?.isSome

end Expr

end Sigil
