import Sigil.Proofs.Occurrence
import Sigil.Proofs.Violations

/-!
# Tagging only annotates

Tagging leaves a tree as it is but for the types on it: without their types (`untyped`) the tree before
and the tree after are the same. Which type is written on which expression is said one by one, by what the
expression is used as: the type that is due to it follows from the types of its leaves (`inferred`) and from
what the use itself wants. Neither the variables in the scope nor what the session has collected plays a
part.
-/

namespace Sigil

/-! ## Trees without their types -/

mutual

/-- The expression with nothing known of any type. -/
def Expr.untyped : Expr → Expr
  | .literal text _ s => .literal text .undetermined s
  | .var ref _ s => .var ref .undetermined s
  | .unary op e _ s => .unary op e.untyped .undetermined s
  | .binary op l r _ s => .binary op l.untyped r.untyped .undetermined s
  | .call name args _ s => .call name (Expr.untypedAll args) .undetermined s
termination_by structural e => e

/-- The expressions with nothing known of any type. -/
def Expr.untypedAll : List Expr → List Expr
  | [] => []
  | e :: es => e.untyped :: Expr.untypedAll es
termination_by structural es => es

end

mutual

/-- The statement with nothing known of any type. -/
def Stmt.untyped : Stmt → Stmt
  | .expression e s => .expression e.untyped s
  | .assign target value s => .assign target.untyped value.untyped s
  | .cond c yes none s => .cond c.untyped yes.untyped none s
  | .cond c yes (some no) s => .cond c.untyped yes.untyped (some no.untyped) s
  | .count counter first last increment body s =>
    .count counter.untyped first.untyped last.untyped (increment.map Expr.untyped) body.untyped s
  | .loop c body s => .loop c.untyped body.untyped s
  | .loopUntil body c s => .loopUntil body.untyped c.untyped s
termination_by structural s => s

/-- The block with nothing known of any type. -/
def Block.untyped : Block → Block
  | .mk body s => .mk (Block.untypedAll body) s
termination_by structural b => b

/-- The statements with nothing known of any type. -/
def Block.untypedAll : List Stmt → List Stmt
  | [] => []
  | s :: ss => s.untyped :: Block.untypedAll ss
termination_by structural ss => ss

end

theorem Expr.untypedAll_eq (es : List Expr) : Expr.untypedAll es = es.map Expr.untyped :=
  eq_map_of_cons rfl (fun _ _ => rfl) es

theorem Block.untyped_eq (b : Block) : b.untyped = .mk (b.body.map Stmt.untyped) b.span := by
  cases b with
  | mk body s => exact congrArg (Block.mk · s) (eq_map_of_cons rfl (fun _ _ => rfl) body)

/-- What is left of an expression without its types does not depend on its types. -/
theorem Expr.typeBlind_untyped : TypeBlind Expr.untyped where
  tagged e := by
    induction e with
    | literal text t s => rfl
    | var ref t s => rfl
    | unary op e t s ih => rw [Expr.tagged, Expr.untyped, ih, Expr.untyped]
    | binary op l r t s ihl ihr => rw [Expr.tagged, Expr.untyped, ihl, ihr, Expr.untyped]
    | call name args t s ih =>
      rw [Expr.tagged, Expr.untyped, Expr.untyped, Expr.untypedAll_eq, Expr.untypedAll_eq,
        Expr.taggedAll_eq, List.map_map]
      have hargs : args.map (Expr.untyped ∘ Expr.tagged) = args.map Expr.untyped :=
        List.map_congr_left ih
      rw [hargs]
  withType e t := by cases e <;> rfl

theorem Block.untyped_tagged_of_forall {b : Block}
    (h : ∀ x ∈ b.body, x.tagged.untyped = x.untyped) : b.tagged.untyped = b.untyped := by
  rw [Block.untyped_eq, Block.untyped_eq, Block.tagged_eq, Block.body, List.map_map, Block.span]
  have hbody : b.body.map (Stmt.untyped ∘ Stmt.tagged) = b.body.map Stmt.untyped :=
    List.map_congr_left h
  rw [hbody]

/-- Tagging a statement changes nothing but types. -/
theorem Stmt.untyped_tagged (s : Stmt) : s.tagged.untyped = s.untyped := by
  have hblind := Expr.typeBlind_untyped
  induction s with
  | expression e s => rw [Stmt.tagged, Stmt.untyped, hblind.tagged, Stmt.untyped]
  | assign target value s =>
    rw [Stmt.tagged, Stmt.untyped, hblind.assigned, hblind.tagged, Stmt.untyped]
  | cond c yes no s ihy ihn =>
    have hyes := Block.untyped_tagged_of_forall ihy
    cases no with
    | none => rw [Stmt.tagged, Stmt.untyped, hblind.asCondition, hyes, Stmt.untyped]
    | some no =>
      have hno := Block.untyped_tagged_of_forall (ihn no rfl)
      rw [Stmt.tagged, Stmt.untyped, hblind.asCondition, hyes, hno, Stmt.untyped]
  | count counter first last increment body s ihb =>
    have hbody := Block.untyped_tagged_of_forall ihb
    have hincrement : (increment.map Expr.asInt).map Expr.untyped = increment.map Expr.untyped := by
      cases increment with
      | none => rfl
      | some e => rw [Option.map_some, Option.map_some, hblind.asInt, Option.map_some]
    rw [Stmt.tagged, Stmt.untyped, hblind.asInt, hblind.asInt, hblind.asInt, hincrement, hbody,
      Stmt.untyped]
  | loop c body s ihb =>
    have hbody := Block.untyped_tagged_of_forall ihb
    rw [Stmt.tagged, Stmt.untyped, hblind.asCondition, hbody, Stmt.untyped]
  | loopUntil body c s ihb =>
    have hbody := Block.untyped_tagged_of_forall ihb
    rw [Stmt.tagged, Stmt.untyped, hblind.asCondition, hbody, Stmt.untyped]

theorem Block.untyped_tagged (b : Block) : b.tagged.untyped = b.untyped :=
  Block.untyped_tagged_of_forall fun x _ => x.untyped_tagged

/-! ## Inferred types -/

/-- The type that follows from the structure of an expression. -/
inductive Expr.Infers : Expr → Ty → Prop where
  | literal {text : String} {t : Ty} {s : Span} : Infers (.literal text t s) t
  | var {ref : Variable} {t : Ty} {s : Span} : Infers (.var ref t s) t
  | call {name : String} {args : List Expr} {t : Ty} {s : Span} : Infers (.call name args t s) t
  | unary {op : String} {e : Expr} {t written : Ty} {s : Span} (he : Infers e t) :
      Infers (.unary op e written s) t
  | truth {op : String} {l r : Expr} {written : Ty} {s : Span}
      (hop : op ∈ ["<", ">", "=", "<=", ">=", "#", "!=", "&", "|"]) :
      Infers (.binary op l r written s) .boolean
  | left {op : String} {l r : Expr} {t written : Ty} {s : Span}
      (hop : op ∉ ["<", ">", "=", "<=", ">=", "#", "!=", "&", "|"])
      (hl : Infers l t) (ht : t ≠ .undetermined) : Infers (.binary op l r written s) t
  | right {op : String} {l r : Expr} {t written : Ty} {s : Span}
      (hop : op ∉ ["<", ">", "=", "<=", ">=", "#", "!=", "&", "|"])
      (hl : Infers l .undetermined) (hr : Infers r t) : Infers (.binary op l r written s) t

theorem Ty.isDefined_iff {t : Ty} : t.isDefined = true ↔ t ≠ .undetermined := by
  cases t <;> simp [Ty.isDefined]

/-- The rules leave no choice: an expression has one inferred type at most. -/
theorem Expr.Infers.inferred_eq {e : Expr} {t : Ty} (h : e.Infers t) : e.inferred = t := by
  induction h with
  | literal => rfl
  | var => rfl
  | call => rfl
  | unary he ih => exact ih
  | truth hop => exact if_pos hop
  | left hop hl ht ih =>
    rw [Expr.inferred, binaryType, booleanOperators, if_neg hop, ih]
    exact if_pos (Ty.isDefined_iff.mpr ht)
  | right hop hl hr ihl ihr =>
    rw [Expr.inferred, binaryType, booleanOperators, if_neg hop, ihl, ihr]
    rfl

/-- The rules give every expression a type, be it the undetermined one. -/
theorem Expr.infers_inferred (e : Expr) : e.Infers e.inferred := by
  induction e with
  | literal text t s => exact .literal
  | var ref t s => exact .var
  | call name args t s ih => exact .call
  | unary op e t s ih => exact .unary ih
  | binary op l r t s ihl ihr =>
    rw [Expr.inferred, binaryType]
    by_cases hop : op ∈ booleanOperators
    · rw [if_pos hop]
      exact .truth hop
    · rw [if_neg hop]
      by_cases hl : l.inferred = .undetermined
      · have hopen : ¬ l.inferred.isDefined = true := by
          rw [hl]
          decide
        rw [if_neg hopen]
        exact .right hop (hl ▸ ihl) ihr
      · rw [if_pos (Ty.isDefined_iff.mpr hl)]
        exact .left hop ihl hl

/-- The type by the rules is the one that tagging computes. -/
theorem Expr.infers_iff {e : Expr} {t : Ty} : e.Infers t ↔ e.inferred = t :=
  ⟨Infers.inferred_eq, fun h => h ▸ e.infers_inferred⟩

/-! ## Uses of expressions -/

/-- An expression and what it is used as. -/
inductive Use where
  /-- The expression is only evaluated. -/
  | plain (e : Expr)
  /-- The expression is assigned `value` to. -/
  | target (e value : Expr)
  /-- The expression decides what is done next. -/
  | condition (e : Expr)
  /-- The expression is the variable, a bound or the increment of a `for`. -/
  | slot (e : Expr)

namespace Use

/-- The expression that is used. -/
def expr : Use → Expr
  | plain e => e
  | target e _ => e
  | condition e => e
  | slot e => e

/-- The type that is due to the expression: the inferred one, unless the use knows better. -/
def due : Use → Ty
  | plain e => e.inferred
  | target e value => if value.inferred.isDefined then value.inferred else e.inferred
  | condition e => if e.inferred = .undetermined then .boolean else e.inferred
  | slot e => if e.inferred = .undetermined ∨ e.inferred = .number then .int else e.inferred

/-- The use wants a certain type. -/
def isDemanding : Use → Bool
  | condition _ => true
  | slot _ => true
  | _ => false

end Use

mutual

/-- The expressions that an expression is made of, itself left out. -/
def Expr.parts : Expr → List Expr
  | .literal _ _ _ => []
  | .var _ _ _ => []
  | .unary _ e _ _ => e :: e.parts
  | .binary _ l r _ _ => l :: (l.parts ++ r :: r.parts)
  | .call _ args _ _ => Expr.withParts args
termination_by structural e => e

/-- The expressions and those that they are made of. -/
def Expr.withParts : List Expr → List Expr
  | [] => []
  | e :: es => e :: (e.parts ++ Expr.withParts es)
termination_by structural es => es

end

/-- The uses in an expression that is used as given itself. -/
def Expr.uses (role : Expr → Use) (e : Expr) : List Use :=
  role e :: e.parts.map Use.plain

mutual

/-- The uses in a statement, one for every expression in it. -/
def Stmt.uses : Stmt → List Use
  | .expression e _ => e.uses .plain
  | .assign target value _ => target.uses (.target · value) ++ value.uses .plain
  | .cond c yes none _ => c.uses .condition ++ yes.uses
  | .cond c yes (some no) _ => c.uses .condition ++ (yes.uses ++ no.uses)
  | .count counter first last increment body _ =>
    (counter :: first :: last :: increment.toList).flatMap (Expr.uses .slot) ++ body.uses
  | .loop c body _ => c.uses .condition ++ body.uses
  | .loopUntil body c _ => body.uses ++ c.uses .condition
termination_by structural s => s

/-- The uses in a block. -/
def Block.uses : Block → List Use
  | .mk body _ => Block.usesAll body
termination_by structural b => b

/-- The uses in statements. -/
def Block.usesAll : List Stmt → List Use
  | [] => []
  | s :: ss => s.uses ++ Block.usesAll ss
termination_by structural ss => ss

end

theorem Expr.withParts_eq (es : List Expr) :
    Expr.withParts es = es.flatMap fun e => e :: e.parts :=
  eq_flatMap_of_cons rfl (fun _ _ => rfl) es

theorem Block.uses_eq (b : Block) : b.uses = b.body.flatMap Stmt.uses := by
  cases b with
  | mk body s => exact eq_flatMap_of_cons rfl (fun _ _ => rfl) body

/-! ## The uses in a tagged tree -/

/-- The use as tagging leaves it. -/
def Use.tagged : Use → Use
  | plain e => plain e.tagged
  | target e value => target (e.tagged.assigned value.inferred) value.tagged
  | condition e => condition e.asCondition
  | slot e => slot e.asInt

/-- Tagging gives every expression the type that is due to it in its place. -/
theorem Use.type_tagged (p : Use) : p.tagged.expr.type = p.due := by
  cases p with
  | plain e => exact e.type_tagged
  | target e value =>
    by_cases hvalue : value.inferred.isDefined = true
    · simp [Use.tagged, Use.expr, Use.due, Expr.assigned, hvalue]
    · simp [Use.tagged, Use.expr, Use.due, Expr.assigned, hvalue]
  | condition e => exact e.tagged.type_withType _
  | slot e => exact e.tagged.type_withType _

/-- Where a type is asked for, one is given in the end. -/
theorem Use.due_ne_undetermined {p : Use} (h : p.isDemanding = true) :
    p.due ≠ .undetermined := by
  cases p with
  | plain e => cases h
  | target e value => cases h
  | condition e =>
    by_cases hopen : e.inferred = .undetermined
    · rw [Use.due, if_pos hopen]
      decide
    · rw [Use.due, if_neg hopen]
      exact hopen
  | slot e =>
    by_cases hopen : e.inferred = .undetermined ∨ e.inferred = .number
    · rw [Use.due, if_pos hopen]
      decide
    · rw [Use.due, if_neg hopen]
      exact fun hdue => hopen (.inl hdue)

/-- Tagging does not change where a type is asked for. -/
theorem Use.isDemanding_tagged (p : Use) : p.tagged.isDemanding = p.isDemanding := by
  cases p <;> rfl

namespace Expr

theorem parts_withType (e : Expr) (t : Ty) : (e.withType t).parts = e.parts := by
  cases e <;> rfl

theorem parts_tagged (e : Expr) : e.tagged.parts = e.parts.map Expr.tagged := by
  induction e with
  | literal text t s => rfl
  | var ref t s => rfl
  | unary op e t s ih => rw [tagged, parts, ih, parts, List.map_cons]
  | binary op l r t s ihl ihr =>
    rw [tagged, parts, ihl, ihr, parts, List.map_cons, List.map_append, List.map_cons]
  | call name args t s ih =>
    rw [tagged, parts, parts, withParts_eq, withParts_eq, taggedAll_eq, List.flatMap_map,
      List.map_flatMap]
    have hargs : args.map (fun e => e.tagged :: e.tagged.parts) =
        args.map fun e => (e :: e.parts).map tagged := by
      apply List.map_congr_left
      intro e he
      rw [ih e he, List.map_cons]
    rw [List.flatMap_def, hargs, List.flatMap_def]

/-- Inside of an expression its own use makes no difference. -/
theorem uses_retyped {e : Expr} {t : Ty} {before after : Expr → Use}
    (h : after (e.tagged.withType t) = (before e).tagged) :
    (e.tagged.withType t).uses after = (e.uses before).map Use.tagged := by
  have hparts : (e.tagged.withType t).parts = e.parts.map tagged := by
    rw [parts_withType, parts_tagged]
  rw [uses, h, hparts, uses, List.map_cons, List.map_map, List.map_map]
  rfl

theorem uses_tagged (e : Expr) :
    e.tagged.uses .plain = (e.uses .plain).map Use.tagged := by
  have h := @uses_retyped e e.inferred .plain .plain
  rw [withType_inferred] at h
  exact h rfl

/-- Assigning to a tagged target gives it, and all that is in it, the types that are due. -/
theorem uses_assigned (e value : Expr) :
    (e.tagged.assigned value.inferred).uses (.target · value.tagged) =
      (e.uses (.target · value)).map Use.tagged := by
  have hassigned : e.tagged.assigned value.inferred =
      e.tagged.withType (if value.inferred.isDefined then value.inferred else e.inferred) := by
    unfold assigned
    split
    · rfl
    · exact e.withType_inferred.symm
  have huse : Use.target (e.tagged.assigned value.inferred) value.tagged =
      (Use.target e value).tagged := rfl
  rw [hassigned] at huse ⊢
  exact uses_retyped huse

theorem uses_asCondition (e : Expr) :
    e.asCondition.uses .condition = (e.uses .condition).map Use.tagged :=
  uses_retyped rfl

theorem uses_asInt (e : Expr) : e.asInt.uses .slot = (e.uses .slot).map Use.tagged :=
  uses_retyped rfl

theorem uses_slots (slots : List Expr) :
    (slots.map asInt).flatMap (uses .slot) =
      (slots.flatMap (uses .slot)).map Use.tagged := by
  rw [List.flatMap_map, List.map_flatMap, List.flatMap_def, List.flatMap_def]
  have hslots : slots.map (fun e => e.asInt.uses .slot) =
      slots.map fun e => (e.uses .slot).map Use.tagged :=
    List.map_congr_left fun e _ => e.uses_asInt
  rw [hslots]

end Expr

theorem Block.uses_tagged_of_forall {b : Block}
    (h : ∀ x ∈ b.body, x.tagged.uses = x.uses.map Use.tagged) :
    b.tagged.uses = b.uses.map Use.tagged := by
  rw [Block.uses_eq, Block.uses_eq, Block.tagged_eq, Block.body, List.flatMap_map,
    List.map_flatMap, List.flatMap_def, List.flatMap_def, List.map_congr_left h]

/-- The uses of a tagged statement are its uses, each with the type that is due. -/
theorem Stmt.uses_tagged (s : Stmt) : s.tagged.uses = s.uses.map Use.tagged := by
  induction s with
  | expression e s => exact e.uses_tagged
  | assign target value s =>
    rw [Stmt.tagged, Stmt.uses, Expr.uses_assigned, Expr.uses_tagged, ← List.map_append,
      Stmt.uses]
  | cond c yes no s ihy ihn =>
    have hyes := Block.uses_tagged_of_forall ihy
    cases no with
    | none =>
      rw [Stmt.tagged, Stmt.uses, Expr.uses_asCondition, hyes, ← List.map_append, Stmt.uses]
    | some no =>
      have hno := Block.uses_tagged_of_forall (ihn no rfl)
      rw [Stmt.tagged, Stmt.uses, Expr.uses_asCondition, hyes, hno, ← List.map_append,
        ← List.map_append, Stmt.uses]
  | count counter first last increment body s ihb =>
    have hbody := Block.uses_tagged_of_forall ihb
    have hslots : counter.asInt :: first.asInt :: last.asInt :: (increment.map Expr.asInt).toList =
        (counter :: first :: last :: increment.toList).map Expr.asInt := by
      cases increment <;> rfl
    rw [Stmt.tagged, Stmt.uses, hslots, Expr.uses_slots, hbody, ← List.map_append, Stmt.uses]
  | loop c body s ihb =>
    have hbody := Block.uses_tagged_of_forall ihb
    rw [Stmt.tagged, Stmt.uses, Expr.uses_asCondition, hbody, ← List.map_append, Stmt.uses]
  | loopUntil body c s ihb =>
    have hbody := Block.uses_tagged_of_forall ihb
    rw [Stmt.tagged, Stmt.uses, Expr.uses_asCondition, hbody, ← List.map_append, Stmt.uses]

theorem Block.uses_tagged (b : Block) : b.tagged.uses = b.uses.map Use.tagged :=
  Block.uses_tagged_of_forall fun x _ => x.uses_tagged

/-! ## Procedures -/

/-- Tagging changes the types of a procedure and nothing else of its body. On every expression the type is
written that is due to it by what the rules of `Expr.Infers` give, so that no condition and no part of a
`for` is left undetermined. All of this is the same whatever tagging starts with. -/
theorem tag_annotates (p : Procedure) (w : Walk) :
    (∀ e t, Expr.Infers e t ↔ e.inferred = t) ∧
      (p.tag w).1.name = p.name ∧
      (p.tag w).1.body.untyped = p.body.untyped ∧
      (p.tag w).1.body.uses.map (fun x => x.expr.type) = p.body.uses.map Use.due ∧
      (∀ x ∈ (p.tag w).1.body.uses, x.isDemanding = true → x.expr.type ≠ .undetermined) ∧
      ∀ w' : Walk, (p.tag w').1.body = (p.tag w).1.body := by
  have hbody : ∀ w' : Walk, (p.tag w').1.body = p.body.tagged := by
    intro w'
    rw [Procedure.procedure_tag]
  refine ⟨fun _ _ => Expr.infers_iff, ?_, ?_, ?_, ?_, ?_⟩
  · rw [Procedure.procedure_tag]
  · rw [hbody, Block.untyped_tagged]
  · rw [hbody, Block.uses_tagged, List.map_map]
    exact List.map_congr_left fun x _ => x.type_tagged
  · intro x hx hdemanding
    rw [hbody, Block.uses_tagged] at hx
    obtain ⟨y, -, rfl⟩ := List.mem_map.mp hx
    rw [Use.isDemanding_tagged] at hdemanding
    rw [Use.type_tagged]
    exact Use.due_ne_undetermined hdemanding
  · intro w'
    rw [hbody, hbody]

end Sigil
