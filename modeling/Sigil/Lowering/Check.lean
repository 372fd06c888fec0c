import Sigil.Lowering.Environment
import Sigil.Lowering.Numeral
import Sigil.Program.Analysis

/-!
# What can be lowered to machine code

Machine code knows integers only. Lowering walks over a script in the order in which it is run, and
refuses the first thing that has no code: a text, a number that is too large, a variable without a
slot, a function that does not exist or takes another number of arguments, an operator without a
meaning, an assignment to something other than a variable. It keeps track of the statement it has
come to.
-/

namespace Sigil

/-! ## Expressions -/

/-- The operators that have a meaning between two integers. -/
def loweredOperators : List String :=
  ["<", "<=", ">", ">=", "=", "#", "!=", "+", "-", "*", "/", "&", "|", "^"]

mutual

/-- Lowers an expression. -/
def Expr.lower (env : Environment) : Expr → Except Diagnostic Unit
  | .literal text t s =>
    if t = .string then .error ⟨.unsupportedType t.label, s.start⟩
    else if (numeralValue? text).isSome then .ok ()
    else .error ⟨.numberOutOfRange text, s.start⟩
  | .var ref _ s => env.slot ref s.start
  | .unary op operand _ s => do
    operand.lower env
    if op = "+" ∨ op = "-" then return () else throw ⟨.invalidOperator op, s.start⟩
  | .binary op left right _ s => do
    left.lower env
    right.lower env
    if op ∈ loweredOperators then return () else throw ⟨.invalidOperator op, s.start⟩
  | .call name args _ s =>
    match env.signatures.get? name with
    | none => .error ⟨.unknownFunction name, s.start⟩
    | some signature =>
      if signature.accepts args.length then Expr.lowerAll env args
      else .error ⟨.argumentCount name signature.args.length args.length, s.start⟩
termination_by structural e => e

/-- Lowers the arguments of a call, from left to right. -/
def Expr.lowerAll (env : Environment) : List Expr → Except Diagnostic Unit
  | [] => .ok ()
  | e :: es => do
    e.lower env
    Expr.lowerAll env es
termination_by structural es => es

end

/-- Refers to the slot of an expression that is assigned to. -/
def Expr.lowerTarget (env : Environment) (e : Expr) : Except Diagnostic Unit :=
  match e.var? with
  | some v => env.slot v e.span.start
  | none => .error ⟨.invalidTarget, e.span.start⟩

/-! ## Statements -/

/-- A step of lowering statements. It keeps the position that was come to, also when it fails. -/
abbrev Lowering := ExceptT Diagnostic (StateM Position)

mutual

/-- Lowers a statement. -/
def Stmt.lower (env : Environment) : Stmt → Lowering Unit
  | .expression e s => do
    set s.start
    liftExcept (e.lower env)
  | .assign target value s => do
    set s.start
    liftExcept (value.lower env)
    liftExcept (target.lowerTarget env)
  | .cond condition yes none s => do
    set s.start
    liftExcept (condition.lower env)
    yes.lower env
  | .cond condition yes (some no) s => do
    set s.start
    liftExcept (condition.lower env)
    yes.lower env
    no.lower env
  | .count counter first last increment body s => do
    set s.start
    liftExcept (counter.lowerTarget env)
    liftExcept (first.lower env)
    liftExcept (last.lower env)
    liftExcept (Expr.lowerAll env increment.toList)
    body.lower env
  | .loop condition body s => do
    set s.start
    liftExcept (condition.lower env)
    body.lower env
  | .loopUntil body condition s => do
    set s.start
    body.lower env
    liftExcept (condition.lower env)
termination_by structural s => s

/-- Lowers a block. -/
def Block.lower (env : Environment) : Block → Lowering Unit
  | .mk body _ => Block.lowerAll env body
termination_by structural b => b

/-- Lowers the statements of a block, from first to last. -/
def Block.lowerAll (env : Environment) : List Stmt → Lowering Unit
  | [] => return ()
  | s :: ss => do
    s.lower env
    Block.lowerAll env ss
termination_by structural ss => ss

end

end Sigil
