import Sigil.Token.Kind
import Sigil.Tree.Stmt

/-!
# Grammars as tables

The rules of the language are fixed, but which rule applies at a token is a table by the kind of the
token: one for the expressions that can start there, and one for the statements. A kind without an
entry starts no expression, and starts a statement only if it starts an expression.
-/

namespace Sigil

/-- The rules that give an expression. -/
inductive ExprRule where
  /-- An operand, or an operand, an operator and an expression. -/
  | expression
  /-- An operand, by the rule that the table has for it. -/
  | primary
  /-- A local variable: its sigil and its name. -/
  | localVariable
  /-- A persistent variable: its sigil and its name. -/
  | persistentVariable
  /-- A name: a call if arguments follow it, and a global variable otherwise. -/
  | name
  /-- A number or a text. -/
  | literal
  /-- An expression between parentheses. -/
  | grouping
  /-- An operator and its operand. -/
  | unary
  deriving DecidableEq

/-- The rules that give a statement. -/
inductive StmtRule where
  /-- A statement, by the rule that the table has for it, or an assignment or an expression. -/
  | statement
  /-- `if` and what belongs to it. -/
  | conditional
  /-- `for` and what belongs to it. -/
  | counting
  /-- `while` and what belongs to it. -/
  | testedLoop
  /-- `repeat` and what belongs to it. -/
  | repeatedLoop
  deriving DecidableEq

/-- Which rule applies at a token of which kind. -/
structure Grammar where
  /-- The rules for operands. -/
  primary : Kind → Option ExprRule
  /-- The rules for statements that start with a word of their own. -/
  statement : Kind → Option StmtRule

namespace Grammar

/-- The grammar without any entry. -/
def empty : Grammar := ⟨fun _ => none, fun _ => none⟩

/-- The entries of the language for operands. -/
def standardPrimary : Kind → Option ExprRule
  | .dollar => some .localVariable
  | .diamond => some .persistentVariable
  | .name => some .name
  | .number => some .literal
  | .string => some .literal
  | .openParen => some .grouping
  | .operator => some .unary
  | _ => none

/-- The entries of the language for statements. -/
def standardStatement : Kind → Option StmtRule
  | .ifWord => some .conditional
  | .forWord => some .counting
  | .whileWord => some .testedLoop
  | .repeatWord => some .repeatedLoop
  | _ => none

/-- The grammar of the language. -/
def standard : Grammar := ⟨standardPrimary, standardStatement⟩

/-- The grammar with the entries of the language put over its own. -/
def withStandard (g : Grammar) : Grammar where
  primary k := (standardPrimary k).or (g.primary k)
  statement k := (standardStatement k).or (g.statement k)

/-- The grammar with another rule for operands that start with a token of kind `k`. -/
def withPrimary (g : Grammar) (k : Kind) (rule : ExprRule) : Grammar :=
  { g with primary := fun k' => if k' = k then some rule else g.primary k' }

/-- The grammar with another rule for statements that start with a token of kind `k`. -/
def withStatement (g : Grammar) (k : Kind) (rule : StmtRule) : Grammar :=
  { g with statement := fun k' => if k' = k then some rule else g.statement k' }

/-- The labels of the kinds that have a property, in alphabetical order. -/
def labelsOf (p : Kind → Bool) : List String :=
  ((Kind.all.filter p).map Kind.label).mergeSort fun a b => decide (a ≤ b)

/-- The labels of the kinds that have a rule for operands, in alphabetical order. -/
def primaryLabels (g : Grammar) : List String := labelsOf fun k => (g.primary k).isSome

/-- The labels of the kinds that have a rule for statements, in alphabetical order. -/
def statementLabels (g : Grammar) : List String := labelsOf fun k => (g.statement k).isSome

end Grammar

end Sigil
