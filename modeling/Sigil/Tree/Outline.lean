import Sigil.Tree.Stmt

/-!
# Outlines

A tree is shown as an outline: one entry per node, its label, indented below its parent behind a
branch. A branch may be named for the part that the child plays.

```text
Statement::If
+[IF]> BinaryOp < : boolean
|      +> Variable $i : undetermined
|      +> Literal 3 : number
+[THEN]> Block
         +> Statement::Expression
```

An entry is written as it is: a label with a line feed in it is not indented after the line feed.
-/

namespace Sigil

/-- A tree of labels. -/
inductive Outline where
  /-- A node, with the name of the branch that leads to it, if that has one. -/
  | node (branch : Option String) (label : String) (children : List Outline)

namespace Outline

/-- The name of the branch that leads to the outline. -/
def branch : Outline → Option String
  | .node branch _ _ => branch

/-- How a branch is written. -/
def stem : Option String → String
  | none => "+> "
  | some name => "+[" ++ name ++ "]> "

/-- What stands below a branch, as wide as the branch: a rail down to the next sibling, if there is
one. -/
def rail (branch : Option String) (isLast : Bool) : String :=
  String.ofList ((if isLast then ' ' else '|') :: List.replicate ((stem branch).length - 1) ' ')

/-- Puts `first` before the first entry and `later` before the others. -/
def hang (first later : String) : List String → List String
  | [] => []
  | entry :: entries => (first ++ entry) :: entries.map (later ++ ·)

mutual

/-- The entries of an outline, from the root down. -/
def entries : Outline → List String
  | .node _ label children => label :: childEntries children
termination_by structural o => o

/-- The entries of the children of a node, behind their branches. -/
def childEntries : List Outline → List String
  | [] => []
  | o :: siblings =>
    hang (stem o.branch) (rail o.branch siblings.isEmpty) o.entries ++ childEntries siblings
termination_by structural os => os

end

/-- The outline as text, one entry to a line. -/
def render (o : Outline) : String :=
  String.join (o.entries.map (· ++ "\n"))

end Outline

/-! ## Outlines of trees -/

namespace Expr

/-- The label of an expression. -/
def label (e : Expr) : String :=
  let head :=
    match e with
    | .literal text _ _ => "Literal " ++ text
    | .var ref _ _ => "Variable " ++ ref.storage.sigil ++ ref.name
    | .unary op _ _ _ => "UnaryOp " ++ op
    | .binary op _ _ _ _ => "BinaryOp " ++ op
    | .call name _ _ _ => "Call " ++ name
  head ++ " : " ++ e.type.label

mutual

/-- The outline of an expression, at the end of the given branch. -/
def outline (branch : Option String) : Expr → Outline
  | .literal text t s => .node branch (Expr.literal text t s).label []
  | .var ref t s => .node branch (Expr.var ref t s).label []
  | .unary op e t s => .node branch (Expr.unary op e t s).label [e.outline none]
  | .binary op l r t s =>
    .node branch (Expr.binary op l r t s).label [l.outline none, r.outline none]
  | .call name args t s => .node branch (Expr.call name args t s).label (outlines args)
termination_by structural e => e

/-- The outlines of the arguments of a call. -/
def outlines : List Expr → List Outline
  | [] => []
  | e :: es => e.outline none :: outlines es
termination_by structural es => es

end

end Expr

mutual

/-- The outline of a statement, at the end of a branch without a name. -/
def Stmt.outline : Stmt → Outline
  | .expression e _ => .node none "Statement::Expression" [e.outline none]
  | .assign target value _ =>
    .node none "Statement::Assignment"
      [target.outline (some "Variable"), value.outline (some "EXPR")]
  | .cond condition yes none _ =>
    .node none "Statement::If" [condition.outline (some "IF"), yes.outline (some "THEN")]
  | .cond condition yes (some no) _ =>
    .node none "Statement::If"
      [condition.outline (some "IF"), yes.outline (some "THEN"), no.outline (some "ELSE")]
  | .count counter first last increment body _ =>
    .node none "Statement::For"
      ([counter.outline (some "VAR"), first.outline (some "BEGIN"), last.outline (some "END")] ++
        (increment.toList.map fun e => e.outline (some "STEP")) ++ [body.outline (some "DO")])
  | .loop condition body _ =>
    .node none "Statement::While" [condition.outline (some "WHILE"), body.outline (some "DO")]
  | .loopUntil body condition _ =>
    .node none "Statement::Repeat" [body.outline (some "REPEAT"), condition.outline (some "UNTIL")]
termination_by structural s => s

/-- The outline of a block, at the end of the given branch. -/
def Block.outline (branch : Option String) : Block → Outline
  | .mk body _ => .node branch "Block" (Block.outlines body)
termination_by structural b => b

/-- The outlines of the statements of a block. -/
def Block.outlines : List Stmt → List Outline
  | [] => []
  | s :: ss => s.outline :: Block.outlines ss
termination_by structural ss => ss

end

/-- The outline of a procedure. -/
def Procedure.outline (p : Procedure) : Outline :=
  .node none ("Function " ++ p.name ++ "(" ++ String.intercalate ", " p.params ++ ")")
    [p.body.outline none]

end Sigil
