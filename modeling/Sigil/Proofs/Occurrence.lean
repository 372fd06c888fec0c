import Sigil.Proofs.TagTrace
import Sigil.Proofs.Unplaced

/-!
# What occurs in a tree

The expressions of a statement are those that stand in it directly or in one of its blocks. The variables
of a tree, and the functions that it calls, are found in its expressions. None of this depends on the
types that are written on the tree, so tagging changes none of it.

Tagging enters a variable at every place where it occurs, and at places that give it a type once more. So
the variables that are entered are exactly those that occur.
-/

namespace Sigil

/-! ## Variables and calls of an expression -/

mutual

/-- The variables that occur in an expression. The name of a function that is called is not one. -/
def Expr.variables : Expr → List Variable
  | .literal _ _ _ => []
  | .var ref _ _ => [ref]
  | .unary _ e _ _ => e.variables
  | .binary _ l r _ _ => l.variables ++ r.variables
  | .call _ args _ _ => Expr.variablesAll args
termination_by structural e => e

/-- The variables that occur in expressions. -/
def Expr.variablesAll : List Expr → List Variable
  | [] => []
  | e :: es => e.variables ++ Expr.variablesAll es
termination_by structural es => es

end

mutual

/-- The names of the functions that an expression calls. -/
def Expr.calls : Expr → List String
  | .literal _ _ _ => []
  | .var _ _ _ => []
  | .unary _ e _ _ => e.calls
  | .binary _ l r _ _ => l.calls ++ r.calls
  | .call name args _ _ => name :: Expr.callsAll args
termination_by structural e => e

/-- The names of the functions that expressions call. -/
def Expr.callsAll : List Expr → List String
  | [] => []
  | e :: es => e.calls ++ Expr.callsAll es
termination_by structural es => es

end

theorem Expr.variablesAll_eq (es : List Expr) : Expr.variablesAll es = es.flatMap Expr.variables :=
  eq_flatMap_of_cons rfl (fun _ _ => rfl) es

theorem Expr.callsAll_eq (es : List Expr) : Expr.callsAll es = es.flatMap Expr.calls :=
  eq_flatMap_of_cons rfl (fun _ _ => rfl) es

/-! ## Expressions of a statement -/

mutual

/-- The expressions that stand in a statement and its blocks. -/
def Stmt.expressions : Stmt → List Expr
  | .expression e _ => [e]
  | .assign target value _ => [target, value]
  | .cond c yes none _ => c :: yes.expressions
  | .cond c yes (some no) _ => c :: (yes.expressions ++ no.expressions)
  | .count counter first last increment body _ =>
    counter :: first :: last :: (increment.toList ++ body.expressions)
  | .loop c body _ => c :: body.expressions
  | .loopUntil body c _ => body.expressions ++ [c]
termination_by structural s => s

/-- The expressions that stand in a block. -/
def Block.expressions : Block → List Expr
  | .mk body _ => Block.expressionsAll body
termination_by structural b => b

/-- The expressions that stand in statements. -/
def Block.expressionsAll : List Stmt → List Expr
  | [] => []
  | s :: ss => s.expressions ++ Block.expressionsAll ss
termination_by structural ss => ss

end

mutual

/-- The targets of the assignments in a statement, and the variables that its loops count with. -/
def Stmt.targets : Stmt → List Expr
  | .expression _ _ => []
  | .assign target _ _ => [target]
  | .cond _ yes none _ => yes.targets
  | .cond _ yes (some no) _ => yes.targets ++ no.targets
  | .count counter _ _ _ body _ => counter :: body.targets
  | .loop _ body _ => body.targets
  | .loopUntil body _ _ => body.targets
termination_by structural s => s

/-- The targets in a block. -/
def Block.targets : Block → List Expr
  | .mk body _ => Block.targetsAll body
termination_by structural b => b

/-- The targets in statements. -/
def Block.targetsAll : List Stmt → List Expr
  | [] => []
  | s :: ss => s.targets ++ Block.targetsAll ss
termination_by structural ss => ss

end

/-- The variables that occur in a block. -/
def Block.variables (b : Block) : List Variable := b.expressions.flatMap Expr.variables

/-- The names of the functions that a block calls. -/
def Block.calls (b : Block) : List String := b.expressions.flatMap Expr.calls

theorem Block.expressions_eq (b : Block) : b.expressions = b.body.flatMap Stmt.expressions := by
  cases b with
  | mk body s => exact eq_flatMap_of_cons rfl (fun _ _ => rfl) body

theorem Block.targets_eq (b : Block) : b.targets = b.body.flatMap Stmt.targets := by
  cases b with
  | mk body s => exact eq_flatMap_of_cons rfl (fun _ _ => rfl) body

/-! ## Targets and spans -/

theorem Block.targets_mapSpans_of_forall {f : Span → Span} {b : Block}
    (h : ∀ x ∈ b.body, (x.mapSpans f).targets = x.targets.map (Expr.mapSpans f)) :
    (b.mapSpans f).targets = b.targets.map (Expr.mapSpans f) := by
  rw [Block.targets_eq, Block.targets_eq, Block.body_mapSpans, List.flatMap_map, List.map_flatMap,
    List.flatMap_def, List.flatMap_def, List.map_congr_left h]

/-- The targets of a statement do not depend on spans. -/
theorem Stmt.targets_mapSpans (f : Span → Span) (s : Stmt) :
    (s.mapSpans f).targets = s.targets.map (Expr.mapSpans f) := by
  induction s with
  | expression e s => rfl
  | assign target value s => rfl
  | cond c yes no s ihy ihn =>
    have hyes := Block.targets_mapSpans_of_forall ihy
    cases no with
    | none => exact hyes
    | some no =>
      have hno := Block.targets_mapSpans_of_forall (ihn no rfl)
      rw [Stmt.mapSpans, Stmt.targets, Stmt.targets, List.map_append, hyes, hno]
  | count counter first last increment body s ihb =>
    have hbody := Block.targets_mapSpans_of_forall ihb
    rw [Stmt.mapSpans, Stmt.targets, Stmt.targets, List.map_cons, hbody]
  | loop c body s ihb => exact Block.targets_mapSpans_of_forall ihb
  | loopUntil body c s ihb => exact Block.targets_mapSpans_of_forall ihb

/-! ## Tagging changes nothing of this -/

/-- The function does not look at the types that tagging writes. -/
structure TypeBlind {β : Type} (f : Expr → β) : Prop where
  tagged : ∀ e, f e.tagged = f e
  withType : ∀ e t, f (e.withType t) = f e

namespace TypeBlind

variable {β : Type} {f : Expr → β}

theorem asCondition (hf : TypeBlind f) (e : Expr) : f e.asCondition = f e := by
  rw [Expr.asCondition, hf.withType, hf.tagged]

theorem asInt (hf : TypeBlind f) (e : Expr) : f e.asInt = f e := by
  rw [Expr.asInt, hf.withType, hf.tagged]

/-- A function that is blind to types does not see what is assigned to a target. -/
theorem assigned (hf : TypeBlind f) (e : Expr) (t : Ty) : f (e.tagged.assigned t) = f e := by
  unfold Expr.assigned
  split
  · rw [hf.withType, hf.tagged]
  · exact hf.tagged e

theorem expressions_of_forall (b : Block)
    (h : ∀ x ∈ b.body, x.tagged.expressions.map f = x.expressions.map f) :
    b.tagged.expressions.map f = b.expressions.map f := by
  rw [Block.expressions_eq, Block.expressions_eq, Block.tagged_eq, Block.body, List.flatMap_map,
    List.map_flatMap, List.map_flatMap, List.flatMap_def, List.flatMap_def, List.map_congr_left h]

/-- Tagging keeps the expressions of a statement, as far as a function that is blind to types can see. -/
theorem stmt_expressions (hf : TypeBlind f) (s : Stmt) :
    s.tagged.expressions.map f = s.expressions.map f := by
  induction s with
  | expression e s => simp [Stmt.tagged, Stmt.expressions, hf.tagged]
  | assign target value s => simp [Stmt.tagged, Stmt.expressions, hf.tagged, hf.assigned]
  | cond c yes no s ihy ihn =>
    have hyes := expressions_of_forall yes ihy
    cases no with
    | none => simp [Stmt.tagged, Stmt.expressions, hf.asCondition, hyes]
    | some no =>
      have hno := expressions_of_forall no (ihn no rfl)
      simp [Stmt.tagged, Stmt.expressions, hf.asCondition, hyes, hno]
  | count counter first last increment body s ihb =>
    have hbody := expressions_of_forall body ihb
    cases increment <;> simp [Stmt.tagged, Stmt.expressions, hf.asInt, hbody]
  | loop c body s ihb =>
    have hbody := expressions_of_forall body ihb
    simp [Stmt.tagged, Stmt.expressions, hf.asCondition, hbody]
  | loopUntil body c s ihb =>
    have hbody := expressions_of_forall body ihb
    simp [Stmt.tagged, Stmt.expressions, hf.asCondition, hbody]

theorem expressions (hf : TypeBlind f) (b : Block) :
    b.tagged.expressions.map f = b.expressions.map f :=
  expressions_of_forall b fun x _ => hf.stmt_expressions x

theorem targets_of_forall (b : Block)
    (h : ∀ x ∈ b.body, x.tagged.targets.map f = x.targets.map f) :
    b.tagged.targets.map f = b.targets.map f := by
  rw [Block.targets_eq, Block.targets_eq, Block.tagged_eq, Block.body, List.flatMap_map,
    List.map_flatMap, List.map_flatMap, List.flatMap_def, List.flatMap_def, List.map_congr_left h]

/-- Tagging keeps the targets of a statement, as far as a function that is blind to types can see. -/
theorem stmt_targets (hf : TypeBlind f) (s : Stmt) : s.tagged.targets.map f = s.targets.map f := by
  induction s with
  | expression e s => rfl
  | assign target value s => simp [Stmt.tagged, Stmt.targets, hf.assigned]
  | cond c yes no s ihy ihn =>
    have hyes := targets_of_forall yes ihy
    cases no with
    | none => exact hyes
    | some no =>
      have hno := targets_of_forall no (ihn no rfl)
      simp [Stmt.tagged, Stmt.targets, hyes, hno]
  | count counter first last increment body s ihb =>
    have hbody := targets_of_forall body ihb
    simp [Stmt.tagged, Stmt.targets, hf.asInt, hbody]
  | loop c body s ihb => exact targets_of_forall body ihb
  | loopUntil body c s ihb => exact targets_of_forall body ihb

theorem targets (hf : TypeBlind f) (b : Block) : b.tagged.targets.map f = b.targets.map f :=
  targets_of_forall b fun x _ => hf.stmt_targets x

end TypeBlind

/-- The variables of an expression do not depend on types. -/
theorem Expr.typeBlind_variables : TypeBlind Expr.variables where
  tagged e := by
    induction e with
    | literal text t s => rfl
    | var ref t s => rfl
    | unary op e t s ih => exact ih
    | binary op l r t s ihl ihr => rw [Expr.tagged, Expr.variables, ihl, ihr, Expr.variables]
    | call name args t s ih =>
      rw [Expr.tagged, Expr.variables, Expr.variables, Expr.variablesAll_eq, Expr.variablesAll_eq,
        Expr.taggedAll_eq, List.flatMap_map, List.flatMap_def, List.flatMap_def,
        List.map_congr_left ih]
  withType e t := by cases e <;> rfl

theorem Expr.typeBlind_calls : TypeBlind Expr.calls where
  tagged e := by
    induction e with
    | literal text t s => rfl
    | var ref t s => rfl
    | unary op e t s ih => exact ih
    | binary op l r t s ihl ihr => rw [Expr.tagged, Expr.calls, ihl, ihr, Expr.calls]
    | call name args t s ih =>
      rw [Expr.tagged, Expr.calls, Expr.calls, Expr.callsAll_eq, Expr.callsAll_eq,
        Expr.taggedAll_eq, List.flatMap_map, List.flatMap_def, List.flatMap_def,
        List.map_congr_left ih]
  withType e t := by cases e <;> rfl

/-- Whether an expression is a variable does not depend on types. -/
theorem Expr.typeBlind_isVar : TypeBlind Expr.isVar where
  tagged e := by rw [Expr.isVar, Expr.var?_tagged, Expr.isVar]
  withType e t := by cases e <;> rfl

/-- Tagging keeps the variables of a block. -/
@[simp] theorem Block.variables_tagged (b : Block) : b.tagged.variables = b.variables := by
  rw [Block.variables, List.flatMap_def, Expr.typeBlind_variables.expressions, Block.variables,
    List.flatMap_def]

@[simp] theorem Block.calls_tagged (b : Block) : b.tagged.calls = b.calls := by
  rw [Block.calls, List.flatMap_def, Expr.typeBlind_calls.expressions, Block.calls, List.flatMap_def]

/-! ## Variables that tagging enters -/

/-- The variables that actions enter. -/
def entered (actions : List Action) : List Variable :=
  (actions.filterMap Action.record?).map (·.1)

@[simp] theorem entered_append (actions actions' : List Action) :
    entered (actions ++ actions') = entered actions ++ entered actions' := by
  rw [entered, List.filterMap_append, List.map_append, entered, entered]

theorem entered_flatMap {α : Type} (xs : List α) (f : α → List Action) :
    entered (xs.flatMap f) = xs.flatMap fun x => entered (f x) := by
  rw [entered, List.filterMap_flatMap, List.map_flatMap]
  rfl

/-- Tagging an expression enters its variables, each where it occurs. -/
theorem Expr.entered_trace (e : Expr) : entered e.trace = e.variables := by
  induction e with
  | literal text t s => rfl
  | var ref t s => rfl
  | unary op e t s ih => exact ih
  | binary op l r t s ihl ihr =>
    have hcast : entered (castTrace op l.inferred r.inferred s.start) = [] := by
      unfold castTrace
      split <;> rfl
    rw [Expr.trace, entered_append, entered_append, ihl, ihr, hcast, List.append_nil, Expr.variables]
  | call name args t s ih =>
    rw [Expr.trace, Expr.traceAll_eq, entered_flatMap, Expr.variables, Expr.variablesAll_eq,
      List.flatMap_def, List.flatMap_def, List.map_congr_left ih]

/-- A variable that is given a type stands there. -/
theorem Expr.mem_variables_of_definition {e : Expr} {t : Ty} {v : Variable}
    (h : v ∈ entered (e.definition t)) : v ∈ e.variables := by
  cases e with
  | var ref u s => exact h
  | literal text u s => cases h
  | unary op e u s => cases h
  | binary op l r u s => cases h
  | call name args u s => cases h

theorem Expr.mem_entered_conditionTrace (context : String) (e : Expr) (v : Variable) :
    v ∈ entered (e.conditionTrace context) ↔ v ∈ e.variables := by
  rw [Expr.conditionTrace, entered_append, Expr.entered_trace, List.mem_append]
  refine or_iff_left_of_imp fun h => ?_
  split at h
  · cases h
  · exact Expr.mem_variables_of_definition h
  · cases h

theorem Expr.mem_entered_intTrace (context : String) (e : Expr) (v : Variable) :
    v ∈ entered (e.intTrace context) ↔ v ∈ e.variables := by
  rw [Expr.intTrace, entered_append, Expr.entered_trace, List.mem_append]
  refine or_iff_left_of_imp fun h => ?_
  split at h
  · cases h
  · exact Expr.mem_variables_of_definition h
  · exact Expr.mem_variables_of_definition h
  · cases h

/-- An assignment enters nothing but its target. -/
theorem Expr.mem_entered_assignment {e : Expr} {t : Ty} {v : Variable}
    (h : v ∈ entered (e.assignment t)) : v ∈ e.variables := by
  unfold Expr.assignment at h
  split at h
  · exact Expr.mem_variables_of_definition h
  · cases h

theorem mem_entered_slotsTrace (slots : List (String × Expr)) (v : Variable) :
    v ∈ entered (slotsTrace slots) ↔ ∃ slot ∈ slots, v ∈ slot.2.variables := by
  rw [slotsTrace, entered_flatMap]
  simp only [List.mem_flatMap, Expr.mem_entered_intTrace]

theorem Block.mem_entered_of_forall {b : Block} {v : Variable}
    (h : ∀ x ∈ b.body, v ∈ entered x.trace ↔ ∃ e ∈ x.expressions, v ∈ e.variables) :
    v ∈ entered b.trace ↔ ∃ e ∈ b.expressions, v ∈ e.variables := by
  rw [Block.trace_eq, Block.expressions_eq, entered_flatMap]
  constructor
  · intro hv
    obtain ⟨x, hx, hv⟩ := List.mem_flatMap.mp hv
    obtain ⟨e, he, hv⟩ := (h x hx).mp hv
    exact ⟨e, List.mem_flatMap.mpr ⟨x, hx, he⟩, hv⟩
  · rintro ⟨e, he, hv⟩
    obtain ⟨x, hx, he⟩ := List.mem_flatMap.mp he
    exact List.mem_flatMap.mpr ⟨x, hx, (h x hx).mpr ⟨e, he, hv⟩⟩

/-- Tagging a statement enters the variables of its expressions, and no others. -/
theorem Stmt.mem_entered_trace (s : Stmt) (v : Variable) :
    v ∈ entered s.trace ↔ ∃ e ∈ s.expressions, v ∈ e.variables := by
  induction s with
  | expression e s => simp [Stmt.trace, Stmt.expressions, Expr.entered_trace]
  | assign target value s =>
    have hassign : v ∈ entered (target.assignment value.inferred) →
        v ∈ target.variables ∨ v ∈ value.variables := fun h => .inl (Expr.mem_entered_assignment h)
    simp only [Stmt.trace, Stmt.expressions, entered_append, Expr.entered_trace, List.mem_append,
      List.mem_cons, List.not_mem_nil, or_false, exists_eq_or_imp, exists_eq_left, ← or_assoc]
    exact or_iff_left_of_imp hassign
  | cond c yes no s ihy ihn =>
    have hyes := Block.mem_entered_of_forall ihy
    cases no with
    | none => simp [Stmt.trace, Stmt.expressions, Expr.mem_entered_conditionTrace, hyes]
    | some no =>
      have hno := Block.mem_entered_of_forall (ihn no rfl)
      simp [Stmt.trace, Stmt.expressions, Expr.mem_entered_conditionTrace, hyes, hno, or_and_right,
        exists_or]
  | count counter first last increment body s ihb =>
    have hbody := Block.mem_entered_of_forall ihb
    cases increment <;>
      simp [Stmt.trace, Stmt.expressions, countSlots, mem_entered_slotsTrace, hbody, or_assoc]
  | loop c body s ihb =>
    have hbody := Block.mem_entered_of_forall ihb
    simp [Stmt.trace, Stmt.expressions, Expr.mem_entered_conditionTrace, hbody]
  | loopUntil body c s ihb =>
    have hbody := Block.mem_entered_of_forall ihb
    simp [Stmt.trace, Stmt.expressions, Expr.mem_entered_conditionTrace, hbody, or_and_right,
      exists_or]

/-- Tagging a block enters exactly the variables that occur in it. -/
theorem Block.mem_entered_trace (b : Block) (v : Variable) :
    v ∈ entered b.trace ↔ v ∈ b.variables := by
  rw [Block.variables, List.mem_flatMap]
  exact Block.mem_entered_of_forall fun x _ => x.mem_entered_trace v

end Sigil
