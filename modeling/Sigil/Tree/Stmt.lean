import Sigil.Tree.Expr

/-!
# Statements, blocks and procedures

A block is a row of statements. A script becomes a procedure: a name, the names of its parameters
and a block. The parameters are found by tagging.
-/

namespace Sigil

mutual

/-- A statement. -/
inductive Stmt where
  /-- An expression that is evaluated for its effect. -/
  | expression (value : Expr) (span : Span)
  /-- `target := value`. -/
  | assign (target value : Expr) (span : Span)
  /-- `if`, with a block for the other case or without. -/
  | cond (condition : Expr) (yes : Block) (no : Option Block) (span : Span)
  /-- `for`, counting from `first` to `last`, by `increment` or by one. -/
  | count (counter first last : Expr) (increment : Option Expr) (body : Block) (span : Span)
  /-- `while`, testing before each round. -/
  | loop (condition : Expr) (body : Block) (span : Span)
  /-- `repeat`, testing after each round. -/
  | loopUntil (body : Block) (condition : Expr) (span : Span)

/-- A row of statements. -/
inductive Block where
  /-- The block of the given statements. -/
  | mk (body : List Stmt) (span : Span)

end

instance : Inhabited Block := ⟨.mk [] .nowhere⟩

/-- The span of a statement. -/
def Stmt.span : Stmt → Span
  | .expression _ s => s
  | .assign _ _ s => s
  | .cond _ _ _ s => s
  | .count _ _ _ _ _ s => s
  | .loop _ _ s => s
  | .loopUntil _ _ s => s

/-- The statements of a block. -/
def Block.body : Block → List Stmt
  | .mk body _ => body

/-- The span of a block. -/
def Block.span : Block → Span
  | .mk _ s => s

/-- A script as something that can be called. -/
structure Procedure where
  /-- Its name. -/
  name : String
  /-- The names of its parameters, in order. -/
  params : List String
  /-- What it does. -/
  body : Block

end Sigil
