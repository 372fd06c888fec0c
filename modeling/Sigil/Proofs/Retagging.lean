import Sigil.Proofs.TagTrace

/-!
# Tagging twice

A second pass over a tagged tree finds the same types, learns the same about every variable and reports
the same errors. It need not enter the same variables with the same types in between: a condition that
was undetermined is a truth value from the start the second time, and a target starts with the type that
the first pass has written on it. What is learnt from a whole statement is the same all the same, because
the type that is entered last hides the one before.

Warnings are different. A plain number in a place that wants an integer is reported when it is made one.
On a leaf it stays one, and is not reported again. On an operation the type is inferred afresh from the
operands, and so is the report.
-/

namespace Sigil

/-! ## Expressions -/

/-- Tagging does not change what is inferred. -/
@[simp] theorem Expr.inferred_tagged (e : Expr) : e.tagged.inferred = e.inferred := by
  induction e with
  | literal text t s => rfl
  | var ref t s => rfl
  | unary op e t s ih => simpa [Expr.tagged, Expr.inferred] using ih
  | binary op l r t s ihl ihr => simp [Expr.tagged, Expr.inferred, ihl, ihr]
  | call name args t s ih => rfl

/-- A tagged expression is tagged already. -/
@[simp] theorem Expr.tagged_tagged (e : Expr) : e.tagged.tagged = e.tagged := by
  induction e with
  | literal text t s => rfl
  | var ref t s => rfl
  | unary op e t s ih => simp [Expr.tagged, ih]
  | binary op l r t s ihl ihr => simp [Expr.tagged, ihl, ihr]
  | call name args t s ih =>
    simp only [Expr.tagged, Expr.taggedAll_eq, List.map_map]
    congr 1
    exact List.map_congr_left ih

/-- Tagging an expression again finds the same again. -/
@[simp] theorem Expr.trace_tagged (e : Expr) : e.tagged.trace = e.trace := by
  induction e with
  | literal text t s => rfl
  | var ref t s => rfl
  | unary op e t s ih => simpa [Expr.tagged, Expr.trace] using ih
  | binary op l r t s ihl ihr => simp [Expr.tagged, Expr.trace, ihl, ihr]
  | call name args t s ih =>
    simp only [Expr.tagged, Expr.trace, Expr.taggedAll_eq, Expr.traceAll_eq, List.flatMap_map]
    rw [List.flatMap_def, List.flatMap_def, List.map_congr_left ih]

/-! ## Types that are written by the context -/

/-- The expression is an operator with its operands. Its type is inferred from theirs. -/
def Expr.isOperation : Expr → Bool
  | .unary .. => true
  | .binary .. => true
  | _ => false

@[simp] theorem Expr.span_withType (e : Expr) (t : Ty) : (e.withType t).span = e.span := by
  cases e <;> rfl

@[simp] theorem Expr.var?_withType (e : Expr) (t : Ty) : (e.withType t).var? = e.var? := by
  cases e <;> rfl

/-- What the context writes on an operation is not seen by the next pass. -/
theorem Expr.inferred_withType (e : Expr) (t : Ty) :
    (e.tagged.withType t).inferred = if e.isOperation then e.inferred else t := by
  cases e <;> simp [Expr.tagged, Expr.withType, Expr.inferred, Expr.isOperation]

/-- Tagging what the context has written a type on: that type is lost on an operation and kept
elsewhere, and either way the context can write it again. -/
theorem Expr.withType_tagged_withType (e : Expr) (t u : Ty) :
    (e.tagged.withType t).tagged.withType u = e.tagged.withType u := by
  have h : e.tagged.tagged = e.tagged := e.tagged_tagged
  cases e <;> simp_all [Expr.tagged, Expr.withType]

/-- A type that was written by the context is found again at a variable only. -/
theorem Expr.trace_withType (e : Expr) (t : Ty) :
    (e.tagged.withType t).trace = match e.var? with
      | some v => [.record v t]
      | none => e.trace := by
  have h := e.trace_tagged
  cases e <;> simp_all [Expr.tagged, Expr.withType, Expr.trace, Expr.var?]

/-- A condition that was made boolean is not made anything else. -/
theorem Expr.conditionType_asCondition (e : Expr) :
    e.asCondition.conditionType = e.conditionType := by
  simp only [Expr.asCondition, Expr.conditionType, Expr.inferred_withType]
  by_cases hop : e.isOperation = true
  · rw [if_pos hop]
  · rw [if_neg hop]
    split <;> simp_all

@[simp] theorem Expr.asCondition_asCondition (e : Expr) : e.asCondition.asCondition = e.asCondition := by
  have htype := e.conditionType_asCondition
  unfold Expr.asCondition at htype ⊢
  rw [htype, Expr.withType_tagged_withType]

/-- What was made an integer is not made anything else. -/
theorem Expr.intType_asInt (e : Expr) : e.asInt.intType = e.intType := by
  simp only [Expr.asInt, Expr.intType, Expr.inferred_withType]
  by_cases hop : e.isOperation = true
  · rw [if_pos hop]
  · rw [if_neg hop]
    split <;> simp_all

@[simp] theorem Expr.asInt_asInt (e : Expr) : e.asInt.asInt = e.asInt := by
  have htype := e.intType_asInt
  unfold Expr.asInt at htype ⊢
  rw [htype, Expr.withType_tagged_withType]

/-- A target that was given the type of its value is given it again. -/
@[simp] theorem Expr.tagged_assigned (e : Expr) (t : Ty) :
    (e.tagged.assigned t).tagged.assigned t = e.tagged.assigned t := by
  unfold Expr.assigned
  split
  · exact Expr.withType_tagged_withType e t t
  · exact e.tagged_tagged

/-! ## Rows of actions with the same effect -/

/-- The same is learnt from both rows of actions, and the same errors are reported. -/
structure Alike (actions actions' : List Action) : Prop where
  learnt : ∀ cell, Scope.learnt cell (actions.filterMap Action.record?) =
    Scope.learnt cell (actions'.filterMap Action.record?)
  errors : actions.filterMap Action.error? = actions'.filterMap Action.error?

namespace Alike

theorem refl (actions : List Action) : Alike actions actions := ⟨fun _ => rfl, rfl⟩

/-- Rows of actions with the same effects have the same effect in a row. -/
theorem append {as as' bs bs' : List Action} (h : Alike as bs) (h' : Alike as' bs') :
    Alike (as ++ as') (bs ++ bs') where
  learnt cell := by
    rw [List.filterMap_append, List.filterMap_append, Scope.learnt_append, Scope.learnt_append,
      h.learnt, h'.learnt]
  errors := by rw [List.filterMap_append, List.filterMap_append, h.errors, h'.errors]

theorem flatMap {α : Type} {xs : List α} {f g : α → List Action}
    (h : ∀ x ∈ xs, Alike (f x) (g x)) : Alike (xs.flatMap f) (xs.flatMap g) := by
  induction xs with
  | nil => exact refl _
  | cons x xs ih =>
    obtain ⟨hx, hxs⟩ := List.forall_mem_cons.mp h
    rw [List.flatMap_cons, List.flatMap_cons]
    exact hx.append (ih hxs)

/-- A target that starts with the type that is assigned to it in the end. -/
theorem assignment {t : Ty} (ht : t.isDefined = true) (e : Expr) (middle : List Action) :
    Alike ((e.tagged.withType t).trace ++ (middle ++ e.definition t))
      (e.trace ++ (middle ++ e.definition t)) := by
  rw [Expr.trace_withType]
  cases hvar : e.var? with
  | none => exact refl _
  | some v =>
    obtain ⟨old, s, rfl⟩ : ∃ old s, e = .var v old s := by
      cases e <;> simp_all [Expr.var?]
    -- The two rows differ in the type that the target is entered with first. What is entered in
    -- between may be the target again, but the type that comes last hides all of it.
    have hhidden := fun old => Scope.learnt_hidden ht v old (middle.filterMap Action.record?)
    constructor
    · intro cell
      simpa [Expr.trace, Expr.definition, hvar, Action.record?, List.filterMap_cons] using
        (hhidden t cell).trans (hhidden old cell).symm
    · simp [Expr.trace, Action.error?, List.filterMap_cons]

/-- An expression that starts with the type that its context gives it. -/
theorem definition {t : Ty} (ht : t.isDefined = true) (e : Expr) (quiet : List Action)
    (hr : quiet.filterMap Action.record? = []) (he : quiet.filterMap Action.error? = []) :
    Alike (e.tagged.withType t).trace (e.trace ++ (quiet ++ e.definition t)) := by
  rw [Expr.trace_withType]
  cases hvar : e.var? with
  | none =>
    constructor
    · intro cell
      simp [Expr.definition, hvar, hr]
    · simp [Expr.definition, hvar, he]
  | some v =>
    obtain ⟨old, s, rfl⟩ : ∃ old s, e = .var v old s := by
      cases e <;> simp_all [Expr.var?]
    constructor
    · intro cell
      simpa [Expr.trace, Expr.definition, hvar, hr, Action.record?, List.filterMap_cons] using
        (Scope.learnt_hidden ht v old [] cell).symm
    · simp [Expr.trace, Expr.definition, hvar, he, Action.error?, List.filterMap_cons]

end Alike

theorem Expr.trace_withType_of_isOperation {e : Expr} (h : e.isOperation = true) (t : Ty) :
    (e.tagged.withType t).trace = e.trace := by
  rw [Expr.trace_withType]
  cases e <;> simp_all [Expr.isOperation, Expr.var?]

theorem Expr.definition_withType (e : Expr) (t u : Ty) :
    (e.tagged.withType t).definition u = e.definition u := by
  simp [Expr.definition]

/-- Tagging a condition again has the same effect. -/
theorem Expr.alike_asCondition (context : String) (e : Expr) :
    Alike (e.asCondition.conditionTrace context) (e.conditionTrace context) := by
  -- The context changes an undetermined type only. What it has written is kept on a leaf, which then
  -- is a truth value from the start, and lost on an operation, where everything happens once more.
  by_cases hopen : e.inferred = .undetermined
  · have has : e.asCondition = e.tagged.withType .boolean := by
      rw [Expr.asCondition, Expr.conditionType, if_pos hopen]
    rw [has]
    unfold Expr.conditionTrace
    rw [Expr.inferred_withType, Expr.definition_withType, hopen]
    by_cases hop : e.isOperation = true
    · rw [if_pos hop, Expr.trace_withType_of_isOperation hop]
      exact .refl _
    · rw [if_neg hop]
      simpa using Alike.definition (t := .boolean) rfl e [] rfl rfl
  · have has : e.asCondition = e.tagged := by
      rw [Expr.asCondition, Expr.conditionType, if_neg hopen, Expr.withType_inferred]
    rw [has]
    unfold Expr.conditionTrace
    rw [Expr.inferred_tagged, Expr.trace_tagged, Expr.span_tagged]
    cases h : e.inferred with
    | undetermined => exact absurd h hopen
    | _ => exact .refl _

/-- Tagging a slot of a loop again has the same effect, but for warnings. -/
theorem Expr.alike_asInt (context : String) (e : Expr) :
    Alike (e.asInt.intTrace context) (e.intTrace context) := by
  by_cases hopen : e.inferred = .undetermined ∨ e.inferred = .number
  · have has : e.asInt = e.tagged.withType .int := by
      rw [Expr.asInt, Expr.intType, if_pos hopen]
    rw [has]
    unfold Expr.intTrace
    rw [Expr.inferred_withType, Expr.definition_withType]
    by_cases hop : e.isOperation = true
    · rw [if_pos hop, Expr.trace_withType_of_isOperation hop]
      rcases hopen with hopen | hopen
      · rw [hopen]
        exact .refl _
      · rw [hopen]
        simpa [coercion] using .refl _
    -- On a leaf the warning of the first pass is gone, but warnings do not count here.
    · rw [if_neg hop]
      rcases hopen with hopen | hopen
      · rw [hopen]
        simpa using Alike.definition (t := .int) rfl e [] rfl rfl
      · rw [hopen]
        simpa using Alike.definition (t := .int) rfl e [.warning (coercion context e)] rfl rfl
  · have has : e.asInt = e.tagged := by
      rw [Expr.asInt, Expr.intType, if_neg hopen, Expr.withType_inferred]
    rw [has]
    unfold Expr.intTrace
    rw [Expr.inferred_tagged, Expr.trace_tagged, Expr.span_tagged]
    cases h : e.inferred with
    | undetermined => exact absurd (.inl h) hopen
    | number => exact absurd (.inr h) hopen
    | _ => exact .refl _

/-! ## Statements -/

/-- Tagging an assignment again has the same effect. -/
theorem Expr.alike_assigned (target value : Expr) :
    Alike
      ((target.tagged.assigned value.inferred).trace ++
        (value.tagged.trace ++ (target.tagged.assigned value.inferred).assignment value.inferred))
      (target.trace ++ (value.trace ++ target.assignment value.inferred)) := by
  unfold Expr.assigned Expr.assignment
  by_cases hdef : value.inferred.isDefined = true
  · rw [if_pos hdef, if_pos hdef, if_pos hdef, Expr.trace_tagged, Expr.definition_withType]
    exact Alike.assignment hdef target value.trace
  · rw [if_neg hdef, if_neg hdef, if_neg hdef, Expr.trace_tagged, Expr.trace_tagged]
    exact .refl _

/-- A place of a `for` as it is tagged. -/
def taggedSlot (slot : String × Expr) : String × Expr := (slot.1, slot.2.asInt)

theorem countSlots_asInt (counter first last : Expr) (increment : Option Expr) :
    countSlots counter.asInt first.asInt last.asInt (increment.map Expr.asInt) =
      (countSlots counter first last increment).map taggedSlot := by
  cases increment <;> rfl

theorem alike_slotsTrace (slots : List (String × Expr)) :
    Alike (slotsTrace (slots.map taggedSlot)) (slotsTrace slots) := by
  rw [slotsTrace, List.flatMap_map]
  exact Alike.flatMap fun slot _ => slot.2.alike_asInt slot.1

theorem Block.alike_of_forall {b : Block} (h : ∀ x ∈ b.body, Alike x.tagged.trace x.trace) :
    Alike b.tagged.trace b.trace := by
  rw [Block.trace_eq, Block.trace_eq, Block.tagged_eq, Block.body, List.flatMap_map]
  exact Alike.flatMap h

/-- From a tagged statement the same is learnt as from the statement, and the same errors are
reported. -/
theorem Stmt.alike_tagged (s : Stmt) : Alike s.tagged.trace s.trace := by
  induction s with
  | expression e s =>
    simp only [Stmt.tagged, Stmt.trace, Expr.trace_tagged]
    exact .refl _
  | assign target value s =>
    simp only [Stmt.tagged, Stmt.trace, Expr.inferred_tagged]
    exact Expr.alike_assigned target value
  | cond c yes no s ihy ihn =>
    have hyes := Block.alike_of_forall ihy
    cases no with
    | none => exact (c.alike_asCondition _).append hyes
    | some no =>
      have hno := Block.alike_of_forall (ihn no rfl)
      exact (c.alike_asCondition _).append (hyes.append hno)
  | count counter first last increment body s ihb =>
    simp only [Stmt.tagged, Stmt.trace, countSlots_asInt]
    exact (alike_slotsTrace _).append (Block.alike_of_forall ihb)
  | loop c body s ihb => exact (c.alike_asCondition _).append (Block.alike_of_forall ihb)
  | loopUntil body c s ihb => exact (Block.alike_of_forall ihb).append (c.alike_asCondition _)

/-- Tagging a block again has the same effect, but for warnings. -/
theorem Block.alike_tagged (b : Block) : Alike b.tagged.trace b.trace :=
  Block.alike_of_forall fun x _ => x.alike_tagged

theorem Block.tagged_of_forall {b : Block} (h : ∀ x ∈ b.body, x.tagged.tagged = x.tagged) :
    b.tagged.tagged = b.tagged := by
  rw [Block.tagged_eq, Block.tagged_eq, Block.body, List.map_map, Block.span]
  congr 1
  exact List.map_congr_left h

theorem Stmt.tagged_tagged (s : Stmt) : s.tagged.tagged = s.tagged := by
  induction s with
  | expression e s => simp [Stmt.tagged]
  | assign target value s => simp [Stmt.tagged]
  | cond c yes no s ihy ihn =>
    have hyes := Block.tagged_of_forall ihy
    cases no with
    | none => simp [Stmt.tagged, hyes]
    | some no =>
      have hno := Block.tagged_of_forall (ihn no rfl)
      simp [Stmt.tagged, hyes, hno]
  | count counter first last increment body s ihb =>
    have hbody := Block.tagged_of_forall ihb
    cases increment <;> simp [Stmt.tagged, hbody]
  | loop c body s ihb => simp [Stmt.tagged, Block.tagged_of_forall ihb]
  | loopUntil body c s ihb => simp [Stmt.tagged, Block.tagged_of_forall ihb]

theorem Block.tagged_tagged (b : Block) : b.tagged.tagged = b.tagged :=
  Block.tagged_of_forall fun x _ => x.tagged_tagged

/-! ## Warnings -/

theorem Block.loopSlots_of_forall {b : Block}
    (h : ∀ x ∈ b.body, x.tagged.loopSlots = x.loopSlots.map taggedSlot) :
    b.tagged.loopSlots = b.loopSlots.map taggedSlot := by
  rw [Block.loopSlots_eq, Block.loopSlots_eq, Block.tagged_eq, Block.body, List.flatMap_map,
    List.map_flatMap, List.flatMap_def, List.flatMap_def, List.map_congr_left h]

theorem Stmt.loopSlots_tagged (s : Stmt) : s.tagged.loopSlots = s.loopSlots.map taggedSlot := by
  induction s with
  | expression e s => rfl
  | assign target value s => rfl
  | cond c yes no s ihy ihn =>
    have hyes := Block.loopSlots_of_forall ihy
    cases no with
    | none => exact hyes
    | some no =>
      have hno := Block.loopSlots_of_forall (ihn no rfl)
      rw [Stmt.tagged, Stmt.loopSlots, Stmt.loopSlots, List.map_append, hyes, hno]
  | count counter first last increment body s ihb =>
    rw [Stmt.tagged, Stmt.loopSlots, Stmt.loopSlots, List.map_append, countSlots_asInt,
      Block.loopSlots_of_forall ihb]
  | loop c body s ihb => exact Block.loopSlots_of_forall ihb
  | loopUntil body c s ihb => exact Block.loopSlots_of_forall ihb

/-- The slots of the loops are found again, tagged. -/
theorem Block.loopSlots_tagged (b : Block) : b.tagged.loopSlots = b.loopSlots.map taggedSlot :=
  Block.loopSlots_of_forall fun x _ => x.loopSlots_tagged

/-- In the second pass a plain number is left only on an operation. -/
theorem Expr.inferred_asInt_eq_number_iff (e : Expr) :
    e.asInt.inferred = .number ↔ e.isOperation = true ∧ e.inferred = .number := by
  rw [Expr.asInt, Expr.inferred_withType]
  by_cases hop : e.isOperation = true
  · rw [if_pos hop]
    simp [hop]
  · rw [if_neg hop, Expr.intType]
    split <;> simp_all

/-- A number that was made an integer is warned about again if it is an operation, and not otherwise. -/
theorem coercions_tagged (slots : List (String × Expr)) :
    coercions (slots.map taggedSlot) = coercions (slots.filter fun slot => slot.2.isOperation) := by
  have hcoercion : ∀ slot : String × Expr,
      coercion (taggedSlot slot).1 (taggedSlot slot).2 = coercion slot.1 slot.2 := by
    intro slot
    simp [coercion, taggedSlot, Expr.asInt]
  have hnumber : ∀ slot : String × Expr, decide ((taggedSlot slot).2.inferred = .number) =
      (decide (slot.2.inferred = .number) && slot.2.isOperation) := by
    intro slot
    simp [taggedSlot, Expr.inferred_asInt_eq_number_iff, Bool.and_comm]
  unfold coercions
  rw [List.filter_map, List.filter_filter, List.map_map]
  simp only [Function.comp_def, hcoercion, hnumber]

/-! ## The second pass -/

theorem Procedure.procedure_tag (p : Procedure) (w : Walk) :
    (p.tag w).1 = ⟨p.name, paramNames (p.tag w).2.scope.argCount, p.body.tagged⟩ := by
  rw [Procedure.tag_eq]

theorem Procedure.scope_tag (p : Procedure) (w : Walk) :
    (p.tag w).2.scope = w.scope.recordAll (p.body.trace.filterMap Action.record?) := by
  rw [Procedure.tag_eq]
  exact w.scope_play p.body.trace

theorem Procedure.errors_tag (p : Procedure) (w : Walk) :
    (p.tag w).2.session.errors = w.session.errors ++ p.body.trace.filterMap Action.error? := by
  rw [Procedure.tag_eq]
  exact w.errors_play p.body.trace

theorem Procedure.warnings_tag (p : Procedure) (w : Walk) :
    (p.tag w).2.session.warnings = w.session.warnings ++ coercions p.body.loopSlots := by
  rw [Procedure.tag_eq, ← Block.warnings_trace]
  exact w.warnings_play p.body.trace

/-- How a second pass over `p` compares with the first: they started with the sessions `a` and `b`. -/
structure Procedure.Repeats (p : Procedure) (a b : Session) (first second : Procedure × Walk) :
    Prop where
  /-- It leaves every type and the parameters as they are. -/
  procedure : second.1 = first.1
  /-- It ends in the same scope. -/
  scope : second.2.scope = first.2.scope
  /-- It reports the same errors. -/
  errors : ∃ errors, first.2.session.errors = a.errors ++ errors ∧
    second.2.session.errors = b.errors ++ errors
  /-- Its warnings are those of the first pass that are about operations. -/
  warnings : first.2.session.warnings = a.warnings ++ coercions p.body.loopSlots ∧
    second.2.session.warnings =
      b.warnings ++ coercions (p.body.loopSlots.filter fun slot => slot.2.isOperation)

/-- Tagging a procedure again gives the same again, if its scope learns the same. -/
theorem Procedure.repeats_of_scope (p : Procedure) (s t : Scope) (a b : Session)
    (h : t.recordAll (p.body.trace.filterMap Action.record?) =
      s.recordAll (p.body.trace.filterMap Action.record?)) :
    p.Repeats a b (p.tag ⟨s, a⟩) ((p.tag ⟨s, a⟩).1.tag ⟨t, b⟩) := by
  have hname : (p.tag ⟨s, a⟩).1.name = p.name := by rw [Procedure.tag_eq]
  have hbody : (p.tag ⟨s, a⟩).1.body = p.body.tagged := by rw [Procedure.tag_eq]
  have halike := p.body.alike_tagged
  -- The parameters are counted in the scope that the pass ends with, so this comes first.
  have hscope : ((p.tag ⟨s, a⟩).1.tag ⟨t, b⟩).2.scope = (p.tag ⟨s, a⟩).2.scope := by
    rw [Procedure.scope_tag, Procedure.scope_tag, hbody, Scope.recordAll_congr halike.learnt, h]
  refine ⟨?_, hscope, ⟨_, Procedure.errors_tag _ _, ?_⟩, Procedure.warnings_tag _ _, ?_⟩
  · rw [Procedure.procedure_tag, hname, hscope, hbody, Block.tagged_tagged,
      ← Procedure.procedure_tag]
  · rw [Procedure.errors_tag, hbody, halike.errors]
  · rw [Procedure.warnings_tag, hbody, Block.loopSlots_tagged, coercions_tagged]

/-- Tagging a tagged procedure again, in the scope that the first pass started with or in the one that
it ended with, changes nothing and reports the same errors. -/
theorem tag_idempotent (p : Procedure) (s : Scope) (a b : Session) :
    p.Repeats a b (p.tag ⟨s, a⟩) ((p.tag ⟨s, a⟩).1.tag ⟨s, b⟩) ∧
      p.Repeats a b (p.tag ⟨s, a⟩) ((p.tag ⟨s, a⟩).1.tag ⟨(p.tag ⟨s, a⟩).2.scope, b⟩) := by
  constructor
  · exact p.repeats_of_scope s s a b rfl
  · apply p.repeats_of_scope
    rw [Procedure.scope_tag, Scope.recordAll_recordAll]

end Sigil
