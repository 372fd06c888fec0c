import Sigil.Tree.Stmt
import Sigil.Typing.Scope
import Sigil.Typing.Session

/-!
# Tagging

Tagging walks over a tree once, in the order of the source, and writes a type on every expression.
On the way it enters the variables that it meets into the scope, and collects what does not fit:

* operands of one operator that have different types;
* conditions that are not truth values;
* counters, bounds and increments that are not integers, plain numbers being made integers with a
  warning.

A variable keeps the type that is written on the node itself. It does not pick up what is known of
its other occurrences.
-/

namespace Sigil

/-- What tagging reads and changes besides the tree. -/
structure Walk where
  /-- The variables met so far. -/
  scope : Scope
  /-- What was found so far. -/
  session : Session

/-- A step of tagging. -/
abbrev Tagging := StateM Walk

namespace Tagging

/-- Enters a variable into the scope. -/
def record (v : Variable) (type : Ty) : Tagging Unit :=
  modify fun w => { w with scope := w.scope.record v type }

/-- Collects something wrong. -/
def error (d : Diagnostic) : Tagging Unit :=
  modify fun w => { w with session := w.session.error d }

/-- Collects something dubious. -/
def warning (d : Diagnostic) : Tagging Unit :=
  modify fun w => { w with session := w.session.warning d }

/-- Writes a type on an expression, and enters it for the variable that the expression is, if it is
one. -/
def define (e : Expr) (type : Ty) : Tagging Expr := do
  match e.var? with
  | some v => record v type
  | none => pure ()
  return e.withType type

end Tagging

open Tagging

/-! ## Expressions -/

/-- The operators that give a truth value, whatever their operands are. -/
def booleanOperators : List String := ["<", ">", "=", "<=", ">=", "#", "!=", "&", "|"]

/-- The type of an operator applied to operands of the given types. -/
def binaryType (op : String) (left right : Ty) : Ty :=
  if op ∈ booleanOperators then .boolean else if left.isDefined then left else right

/-- The operands of an operator have different types. -/
def castProblem (op : String) (left right : Ty) (position : Position) : Diagnostic :=
  ⟨.implicitCast right.label ("`" ++ op ++ "` with a " ++ left.label ++ " operand"), position⟩

mutual

/-- Tags an expression. -/
def Expr.tag : Expr → Tagging Expr
  | .literal text t s => return .literal text t s
  | .var ref t s => do
    record ref t
    return .var ref t s
  | .unary op operand _ s => do
    let operand ← operand.tag
    return .unary op operand operand.type s
  | .binary op left right _ s => do
    let left ← left.tag
    let right ← right.tag
    if left.type.isDefined ∧ right.type.isDefined ∧ left.type ≠ right.type then
      error (castProblem op left.type right.type s.start)
    return .binary op left right (binaryType op left.type right.type) s
  | .call name args t s => do
    let args ← Expr.tagAll args
    return .call name args t s
termination_by structural e => e

/-- Tags the arguments of a call, from left to right. -/
def Expr.tagAll : List Expr → Tagging (List Expr)
  | [] => return []
  | e :: es => do
    let e ← e.tag
    let es ← Expr.tagAll es
    return e :: es
termination_by structural es => es

end

/-- A value has a type that its context does not admit. -/
def typeProblem (context : String) (expected received : Ty) (position : Position) : Diagnostic :=
  ⟨.typeMismatch context expected.label received.label, position⟩

/-- Tags an expression that has to be a truth value. -/
def Expr.tagCondition (context : String) (e : Expr) : Tagging Expr := do
  let e ← e.tag
  match e.type with
  | .boolean => return e
  | .undetermined => define e .boolean
  | other =>
    error (typeProblem context .boolean other e.span.start)
    return e

/-- Tags an expression that has to be an integer. -/
def Expr.tagInt (context : String) (e : Expr) : Tagging Expr := do
  let e ← e.tag
  match e.type with
  | .int => return e
  | .undetermined => define e .int
  | .number =>
    warning ⟨.numberCoercion context, e.span.start⟩
    define e .int
  | other =>
    error (typeProblem context .int other e.span.start)
    return e

/-- Tags the increment of a `for`, if it has one. -/
def tagIncrement : Option Expr → Tagging (Option Expr)
  | none => return none
  | some e => do
    let e ← e.tagInt "for increment"
    return some e

/-! ## Statements -/

mutual

/-- Tags a statement. -/
def Stmt.tag : Stmt → Tagging Stmt
  | .expression e s => do
    let e ← e.tag
    return .expression e s
  | .assign target value s => do
    let target ← target.tag
    let value ← value.tag
    let target ← if value.type.isDefined then define target value.type else pure target
    return .assign target value s
  | .cond condition yes none s => do
    let condition ← condition.tagCondition "if condition"
    let yes ← yes.tag
    return .cond condition yes none s
  | .cond condition yes (some no) s => do
    let condition ← condition.tagCondition "if condition"
    let yes ← yes.tag
    let no ← no.tag
    return .cond condition yes (some no) s
  | .count counter first last increment body s => do
    let counter ← counter.tagInt "for variable"
    let first ← first.tagInt "for begin"
    let last ← last.tagInt "for end"
    let increment ← tagIncrement increment
    let body ← body.tag
    return .count counter first last increment body s
  | .loop condition body s => do
    let condition ← condition.tagCondition "while condition"
    let body ← body.tag
    return .loop condition body s
  | .loopUntil body condition s => do
    let body ← body.tag
    let condition ← condition.tagCondition "until condition"
    return .loopUntil body condition s
termination_by structural s => s

/-- Tags a block. -/
def Block.tag : Block → Tagging Block
  | .mk body s => do
    let body ← Block.tagAll body
    return .mk body s
termination_by structural b => b

/-- Tags the statements of a block, from first to last. -/
def Block.tagAll : List Stmt → Tagging (List Stmt)
  | [] => return []
  | s :: ss => do
    let s ← s.tag
    let ss ← Block.tagAll ss
    return s :: ss
termination_by structural ss => ss

end

/-- The names of the parameters of a procedure that takes `count` of them. -/
def paramNames (count : Nat) : List String :=
  (List.range count).map fun i => toString (i + 1)

/-- Tags a procedure: its body, and then its parameters, which are as many as the highest number of
an argument says. -/
def Procedure.tag (p : Procedure) : Tagging Procedure := do
  let body ← p.body.tag
  let scope := (← get).scope
  let params := paramNames scope.argCount
  modify fun w =>
    { w with session := w.session.note (.tagged p.name params.length scope.locals.size) }
  return ⟨p.name, params, body⟩

end Sigil
