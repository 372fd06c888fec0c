import Sigil.Grammar.Parse
import Sigil.Grammar.Table

/-!
# The rules of the language

Each rule is a parsing step that may call for other rules. The rules are written against whatever
answers such calls, a value of `Rules`, and `Grammar.rules` closes the circle: answering calls one
level deep, two levels deep, and so on. `Grammar.run` goes as deep as any run can go that does not
call for the same rule at the same token again.

Operators have no ranks: each takes all of the expression after it as its right operand.
-/

namespace Sigil

/-- What can be called for. -/
inductive Nonterminal where
  /-- An expression, by the given rule. -/
  | expr (rule : ExprRule)
  /-- One argument or more, with semicolons between them. -/
  | arguments
  /-- A statement, by the given rule. -/
  | stmt (rule : StmtRule)
  /-- The statements up to the end of a block. -/
  | statements
  /-- A block. -/
  | block

namespace Nonterminal

/-- The trees that a nonterminal gives. -/
abbrev Tree : Nonterminal → Type
  | expr _ => Expr
  | arguments => List Expr
  | stmt _ => Stmt
  | statements => List Stmt
  | block => Block

/-- The number of nonterminals. -/
def count : Nat := 16

end Nonterminal

/-- Answers to the calls of a rule. -/
def Rules : Type := (s : Nonterminal) → Parse s.Tree

namespace Rules

/-- Calls for an expression. -/
def expr (r : Rules) (rule : ExprRule) : Parse Expr := r (.expr rule)

/-- Calls for arguments. -/
def arguments (r : Rules) : Parse (List Expr) := r .arguments

/-- Calls for a statement. -/
def stmt (r : Rules) (rule : StmtRule) : Parse Stmt := r (.stmt rule)

/-- Calls for the statements of a block. -/
def statements (r : Rules) : Parse (List Stmt) := r .statements

/-- Calls for a block. -/
def block (r : Rules) : Parse Block := r .block

end Rules

open Parse

/-! ## Expressions -/

/-- `expression := primary | primary operator expression`. -/
def expressionRule (r : Rules) : Parse Expr := do
  let left ← r.expr .primary
  let t ← current
  if t.kind = .operator then
    let _ ← advance
    let right ← r.expr .expression
    return .binary t.value left right .undetermined (left.span.merge right.span)
  else
    return left

/-- The operand that starts with the current token, by the entry of the grammar for it. -/
def primaryRule (g : Grammar) (r : Rules) : Parse Expr := do
  let t ← current
  match g.primary t.kind with
  | some rule => r.expr rule
  | none => fail Cursor.unexpected

/-- A sigil and a name or number after it. -/
def variableRule (storage : Storage) : Parse Expr := do
  let sigil ← advance
  let t ← current
  if t.kind = .name ∨ t.kind = .number then
    let _ ← advance
    return .var ⟨t.value, storage⟩ .undetermined (sigil.span.merge t.span)
  else
    fail (Cursor.misplaced "expected a variable name")

/-- `name := name | name ( ) | name ( arguments )`. -/
def nameRule (r : Rules) : Parse Expr := do
  let next ← peek 1
  let name ← advance
  if next = .openParen then
    let _ ← advance
    let t ← current
    let args ← if t.kind = .closeParen then pure [] else r.arguments
    let close ← expect .closeParen
    return .call name.value args .undetermined (name.span.merge close.span)
  else
    return .var ⟨name.value, .globalSlot⟩ .undetermined name.span

/-- `arguments := expression | expression ; arguments`. -/
def argumentsRule (r : Rules) : Parse (List Expr) := do
  let e ← r.expr .expression
  let t ← current
  if t.kind = .semicolon then
    let _ ← advance
    let es ← r.arguments
    return e :: es
  else
    return [e]

/-- A number or a text. -/
def literalRule : Parse Expr := do
  let t ← advance
  return .literal t.value (if t.kind = .string then .string else .number) t.span

/-- `grouping := ( expression )`. The parentheses leave no trace in the tree. -/
def groupingRule (r : Rules) : Parse Expr := do
  let _ ← advance
  let e ← r.expr .expression
  let _ ← expect .closeParen
  return e

/-- `unary := operator primary`. -/
def unaryRule (r : Rules) : Parse Expr := do
  let t ← advance
  let e ← r.expr .primary
  return .unary t.value e .undetermined (t.span.merge e.span)

/-! ## Statements -/

/-- A statement ends with its line, or before a token that ends the block. -/
def endStatement : Parse Unit := do
  let t ← current
  if t.kind = .endLine then
    let _ ← advance
    return ()
  else if t.kind.endsBlock then
    return ()
  else
    fail (Cursor.misplaced "expected end of line")

/-- The statements up to a token that ends the block. Empty lines between them do not count. -/
def statementsRule (r : Rules) : Parse (List Stmt) := do
  skipEndLines
  let t ← current
  if t.kind.endsBlock then
    return []
  else
    let s ← r.stmt .statement
    let ss ← r.statements
    return s :: ss

/-- A block spans from the token it starts at to the token that ends it. -/
def blockRule (r : Rules) : Parse Block := do
  let first ← current
  let body ← r.statements
  let last ← current
  return .mk body (first.span.merge last.span)

/-- The statement that starts with the current token, by the entry of the grammar for it; without an
entry, an assignment or an expression. -/
def statementRule (g : Grammar) (r : Rules) : Parse Stmt := do
  let t ← current
  match g.statement t.kind with
  | some rule => r.stmt rule
  | none =>
    let e ← r.expr .expression
    let t ← current
    if t.kind = .assign then
      if e.isVar then
        let _ ← advance
        let value ← r.expr .expression
        endStatement
        return .assign e value (e.span.merge value.span)
      else
        fail fun _ => ⟨.invalidTarget, e.span.start⟩
    else
      endStatement
      return .expression e e.span

/-- `condition := ( expression )`. -/
def conditionRule (r : Rules) : Parse Expr := do
  let _ ← expect .openParen
  let e ← r.expr .expression
  let _ ← expect .closeParen
  return e

/-- `else block`, if there is one. -/
def elseRule (r : Rules) : Parse (Option Block) := do
  let t ← current
  if t.kind = .elseWord then
    let _ ← advance
    let no ← r.block
    return some no
  else
    return none

/-- `if condition block [else block] end if`. -/
def conditionalRule (r : Rules) : Parse Stmt := do
  let first ← advance
  let condition ← conditionRule r
  let yes ← r.block
  let no ← elseRule r
  let last ← expectOr .endIf (Cursor.misplaced "expected `end if`")
  endStatement
  return .cond condition yes no (first.span.merge last.span)

/-- `; expression`, if there is one. -/
def incrementRule (r : Rules) : Parse (Option Expr) := do
  let t ← current
  if t.kind = .semicolon then
    let _ ← advance
    let e ← r.expr .expression
    return some e
  else
    return none

/-- The counter of a `for`, which has to be a variable. -/
def counterRule (r : Rules) : Parse Expr := do
  let e ← r.expr .primary
  if e.isVar then
    return e
  else
    fail fun _ => ⟨.misplacedToken "expression" "expected a loop variable", e.span.start⟩

/-- `for ( variable ; expression ; expression [; expression] ) block end for`. -/
def countingRule (r : Rules) : Parse Stmt := do
  let first ← advance
  let _ ← expect .openParen
  let counter ← counterRule r
  let _ ← expect .semicolon
  let start ← r.expr .expression
  let _ ← expect .semicolon
  let stop ← r.expr .expression
  let increment ← incrementRule r
  let _ ← expect .closeParen
  let body ← r.block
  let last ← expectOr .endFor (Cursor.misplaced "expected `end for`")
  endStatement
  return .count counter start stop increment body (first.span.merge last.span)

/-- `while condition block end while`. -/
def testedLoopRule (r : Rules) : Parse Stmt := do
  let first ← advance
  let condition ← conditionRule r
  let body ← r.block
  let last ← expectOr .endWhile (Cursor.misplaced "expected `end while`")
  endStatement
  return .loop condition body (first.span.merge last.span)

/-- `repeat block until condition`. The span ends with the condition, not with its parenthesis. -/
def repeatedLoopRule (r : Rules) : Parse Stmt := do
  let first ← advance
  let body ← r.block
  let _ ← expectOr .untilWord (Cursor.misplaced "expected `until`")
  let condition ← conditionRule r
  endStatement
  return .loopUntil body condition (first.span.merge condition.span)

/-! ## Answering calls -/

namespace Grammar

/-- Answers a call by the rule for it, whose own calls are answered by `r`. -/
def answer (g : Grammar) (r : Rules) : Rules
  | .expr .expression => expressionRule r
  | .expr .primary => primaryRule g r
  | .expr .localVariable => variableRule .localSlot
  | .expr .persistentVariable => variableRule .persistentSlot
  | .expr .name => nameRule r
  | .expr .literal => literalRule
  | .expr .grouping => groupingRule r
  | .expr .unary => unaryRule r
  | .arguments => argumentsRule r
  | .stmt .statement => statementRule g r
  | .stmt .conditional => conditionalRule r
  | .stmt .counting => countingRule r
  | .stmt .testedLoop => testedLoopRule r
  | .stmt .repeatedLoop => repeatedLoopRule r
  | .statements => statementsRule r
  | .block => blockRule r

/-- Answers to calls that are nested at most `depth` deep. -/
def rules (g : Grammar) : (depth : Nat) → Rules
  | 0 => fun _ => circular
  | depth + 1 => fun s => g.answer (fun s => g.rules depth s) s

/-- The depth that suffices from a cursor on: a run in which no rule is called for again at the same
token nests no deeper than there are pairs of a nonterminal and a token. -/
def depthFrom (c : Cursor) : Nat := Nonterminal.count * c.remaining.length

/-- Parses a nonterminal. -/
def run (g : Grammar) (s : Nonterminal) : Parse s.Tree := fun c => g.rules (depthFrom c) s c

end Grammar

/-! ## Whole scripts -/

/-- `script := block`, with the end of the script after it. -/
def scriptRule : Parse Block := do
  let block ← Grammar.standard.run .block
  let t ← current
  if t.kind = .endOfInput then
    return block
  else
    fail Cursor.unexpected

/-- Parses the tokens of a script. -/
def parse (file : String) (tokens : List Token) : Reply Block :=
  scriptRule (.ofTokens file tokens)

end Sigil
