import Sigil.Proofs.Lists
import Sigil.Proofs.ScopeCells
import Sigil.Proofs.TreeInduction
import Sigil.Typing.Tagging

/-!
# What tagging does

Tagging is a walk with a state, but what it does is fixed by the tree alone. The types that it writes are
those of `tagged`, which follow from the types of the leaves (`inferred`) and from the places that
expressions stand in. Besides, it takes a row of actions, the `trace` of the tree, and what becomes of the
scope and the session is what these actions make of them, whatever they are at the start.
-/

namespace Sigil

/-! ## Actions -/

/-- Something that tagging does besides writing types. -/
inductive Action where
  /-- A variable is entered into the scope. -/
  | record (v : Variable) (type : Ty)
  /-- Something wrong is collected. -/
  | error (d : Diagnostic)
  /-- Something dubious is collected. -/
  | warning (d : Diagnostic)

namespace Action

/-- The variable that the action enters. -/
def record? : Action → Option (Variable × Ty)
  | record v type => some (v, type)
  | _ => none

/-- What the action collects as wrong. -/
def error? : Action → Option Diagnostic
  | error d => some d
  | _ => none

/-- What the action collects as dubious. -/
def warning? : Action → Option Diagnostic
  | warning d => some d
  | _ => none

end Action

namespace Walk

/-- The walk after an action. -/
def act (w : Walk) : Action → Walk
  | .record v type => { w with scope := w.scope.record v type }
  | .error d => { w with session := w.session.error d }
  | .warning d => { w with session := w.session.warning d }

/-- The walk after a row of actions. -/
def play (w : Walk) (actions : List Action) : Walk := actions.foldl act w

@[simp] theorem play_nil (w : Walk) : w.play [] = w := rfl

@[simp] theorem play_cons (w : Walk) (a : Action) (actions : List Action) :
    w.play (a :: actions) = (w.act a).play actions := rfl

@[simp] theorem play_append (w : Walk) (actions actions' : List Action) :
    w.play (actions ++ actions') = (w.play actions).play actions' :=
  List.foldl_append

/-- Actions enter their variables into the scope. -/
theorem scope_play (w : Walk) (actions : List Action) :
    (w.play actions).scope = w.scope.recordAll (actions.filterMap Action.record?) := by
  induction actions generalizing w with
  | nil => rfl
  | cons a actions ih => cases a <;> exact ih _

/-- Actions report their errors, in their order. -/
theorem errors_play (w : Walk) (actions : List Action) :
    (w.play actions).session.errors = w.session.errors ++ actions.filterMap Action.error? := by
  induction actions generalizing w with
  | nil => simp
  | cons a actions ih =>
    cases a <;>
      simp [ih, act, Action.error?, Session.error, Session.warning, List.filterMap_cons]

theorem warnings_play (w : Walk) (actions : List Action) :
    (w.play actions).session.warnings = w.session.warnings ++ actions.filterMap Action.warning? := by
  induction actions generalizing w with
  | nil => simp
  | cons a actions ih =>
    cases a <;>
      simp [ih, act, Action.warning?, Session.error, Session.warning, List.filterMap_cons]

end Walk

/-! ## Expressions -/

/-- The type that follows from the types of the leaves. -/
def Expr.inferred : Expr → Ty
  | .literal _ t _ => t
  | .var _ t _ => t
  | .unary _ e _ _ => e.inferred
  | .binary op l r _ _ => binaryType op l.inferred r.inferred
  | .call _ _ t _ => t
termination_by structural e => e

mutual

/-- The expression with the inferred types written on it. -/
def Expr.tagged : Expr → Expr
  | .literal text t s => .literal text t s
  | .var ref t s => .var ref t s
  | .unary op e _ s => .unary op e.tagged e.inferred s
  | .binary op l r _ s => .binary op l.tagged r.tagged (binaryType op l.inferred r.inferred) s
  | .call name args t s => .call name (Expr.taggedAll args) t s
termination_by structural e => e

/-- The expressions with the inferred types written on them. -/
def Expr.taggedAll : List Expr → List Expr
  | [] => []
  | e :: es => e.tagged :: Expr.taggedAll es
termination_by structural es => es

end

/-- What is done about operands of the given types. -/
def castTrace (op : String) (left right : Ty) (position : Position) : List Action :=
  if left.isDefined ∧ right.isDefined ∧ left ≠ right then
    [.error (castProblem op left right position)]
  else []

mutual

/-- The actions of tagging an expression. -/
def Expr.trace : Expr → List Action
  | .literal _ _ _ => []
  | .var ref t _ => [.record ref t]
  | .unary _ e _ _ => e.trace
  | .binary op l r _ s => l.trace ++ (r.trace ++ castTrace op l.inferred r.inferred s.start)
  | .call _ args _ _ => Expr.traceAll args
termination_by structural e => e

/-- The actions of tagging expressions. -/
def Expr.traceAll : List Expr → List Action
  | [] => []
  | e :: es => e.trace ++ Expr.traceAll es
termination_by structural es => es

end

theorem Expr.taggedAll_eq (es : List Expr) : Expr.taggedAll es = es.map Expr.tagged :=
  eq_map_of_cons rfl (fun _ _ => rfl) es

theorem Expr.traceAll_eq (es : List Expr) : Expr.traceAll es = es.flatMap Expr.trace :=
  eq_flatMap_of_cons rfl (fun _ _ => rfl) es

/-- Tagging writes the inferred type on an expression. -/
@[simp] theorem Expr.type_tagged (e : Expr) : e.tagged.type = e.inferred := by
  cases e <;> rfl

namespace Tagging

variable {α β : Type}

@[simp] theorem bind_apply (p : Tagging α) (f : α → Tagging β) (w : Walk) :
    (p >>= f) w = f (p w).1 (p w).2 := rfl

@[simp] theorem pure_apply (a : α) (w : Walk) : (pure a : Tagging α) w = (a, w) := rfl

@[simp] theorem error_apply (d : Diagnostic) (w : Walk) :
    error d w = ((), w.act (.error d)) := rfl

@[simp] theorem warning_apply (d : Diagnostic) (w : Walk) :
    warning d w = ((), w.act (.warning d)) := rfl

end Tagging

theorem Expr.tagAll_eq {es : List Expr} (h : ∀ e ∈ es, ∀ w, e.tag w = (e.tagged, w.play e.trace))
    (w : Walk) : Expr.tagAll es w = (Expr.taggedAll es, w.play (Expr.traceAll es)) := by
  induction es generalizing w with
  | nil => rfl
  | cons e es ih =>
    obtain ⟨he, hes⟩ := List.forall_mem_cons.mp h
    rw [Expr.tagAll, Tagging.bind_apply, he, Tagging.bind_apply, ih hes]
    simp [Expr.taggedAll, Expr.traceAll]

/-- Tagging an expression writes the inferred types on it and takes the actions of its trace. -/
theorem Expr.tag_eq (e : Expr) (w : Walk) : e.tag w = (e.tagged, w.play e.trace) := by
  induction e generalizing w with
  | literal text t s => rfl
  | var ref t s => rfl
  | unary op e t s ih =>
    rw [Expr.tag, Tagging.bind_apply, ih]
    simp [Expr.tagged, Expr.trace]
  | binary op l r t s ihl ihr =>
    rw [Expr.tag, Tagging.bind_apply, ihl, Tagging.bind_apply, ihr]
    simp only [Expr.type_tagged, Expr.tagged, Expr.trace, castTrace, Walk.play_append]
    split
    · rfl
    · rfl
  | call name args t s ih =>
    rw [Expr.tag, Tagging.bind_apply, Expr.tagAll_eq ih]
    simp [Expr.tagged, Expr.trace]

/-! ## Expressions in their places -/

@[simp] theorem Expr.var?_tagged (e : Expr) : e.tagged.var? = e.var? := by
  cases e <;> rfl

@[simp] theorem Expr.span_tagged (e : Expr) : e.tagged.span = e.span := by
  cases e <;> rfl

theorem Expr.withType_type (e : Expr) : e.withType e.type = e := by
  cases e <;> rfl

/-- A type that the context does not change needs no writing. -/
theorem Expr.withType_inferred (e : Expr) : e.tagged.withType e.inferred = e.tagged := by
  rw [← Expr.type_tagged, Expr.withType_type]

/-- What is done when a type is written on an expression: it is entered for the variable that the
expression is. -/
def Expr.definition (e : Expr) (type : Ty) : List Action :=
  match e.var? with
  | some v => [.record v type]
  | none => []

theorem define_eq (e : Expr) (type : Ty) (w : Walk) :
    Tagging.define e type w = (e.withType type, w.play (e.definition type)) := by
  unfold Tagging.define Expr.definition
  cases e.var? <;> rfl

/-- The type that a condition gets. -/
def Expr.conditionType (e : Expr) : Ty :=
  if e.inferred = .undetermined then .boolean else e.inferred

/-- The expression as it is tagged as a condition. -/
def Expr.asCondition (e : Expr) : Expr := e.tagged.withType e.conditionType

/-- The actions of tagging a condition. -/
def Expr.conditionTrace (context : String) (e : Expr) : List Action :=
  e.trace ++
    match e.inferred with
    | .boolean => []
    | .undetermined => e.definition .boolean
    | other => [.error (typeProblem context .boolean other e.span.start)]

/-- What tagging a condition does is to play its trace. -/
theorem Expr.tagCondition_eq (context : String) (e : Expr) (w : Walk) :
    e.tagCondition context w = (e.asCondition, w.play (e.conditionTrace context)) := by
  have hsame := e.withType_inferred
  rw [Expr.tagCondition, Tagging.bind_apply, Expr.tag_eq]
  simp only [Expr.type_tagged, Expr.span_tagged, Expr.asCondition, Expr.conditionType,
    Expr.conditionTrace, Walk.play_append]
  cases h : e.inferred with
  | undetermined =>
    simp only [define_eq, Expr.definition, Expr.var?_tagged, if_true]
  | _ =>
    rw [h] at hsame
    simp [hsame]

/-- The type that a counter, a bound or an increment gets. -/
def Expr.intType (e : Expr) : Ty :=
  if e.inferred = .undetermined ∨ e.inferred = .number then .int else e.inferred

/-- The expression as it is tagged as a counter, a bound or an increment. -/
def Expr.asInt (e : Expr) : Expr := e.tagged.withType e.intType

/-- What is said about a number that is made an integer. -/
def coercion (context : String) (e : Expr) : Diagnostic :=
  ⟨.numberCoercion context, e.span.start⟩

/-- The actions of tagging a counter, a bound or an increment. -/
def Expr.intTrace (context : String) (e : Expr) : List Action :=
  e.trace ++
    match e.inferred with
    | .int => []
    | .undetermined => e.definition .int
    | .number => .warning (coercion context e) :: e.definition .int
    | other => [.error (typeProblem context .int other e.span.start)]

theorem Expr.tagInt_eq (context : String) (e : Expr) (w : Walk) :
    e.tagInt context w = (e.asInt, w.play (e.intTrace context)) := by
  have hsame := e.withType_inferred
  rw [Expr.tagInt, Tagging.bind_apply, Expr.tag_eq]
  simp only [Expr.type_tagged, Expr.span_tagged, Expr.asInt, Expr.intType, Expr.intTrace,
    Walk.play_append]
  cases h : e.inferred with
  | undetermined =>
    simp only [define_eq, Expr.definition, Expr.var?_tagged, true_or, if_true]
  | number =>
    simp [define_eq, Expr.definition, coercion]
  | _ =>
    rw [h] at hsame
    simp [hsame]

/-- The target of an assignment, after a value of the given type was assigned to it. -/
def Expr.assigned (e : Expr) (type : Ty) : Expr :=
  if type.isDefined then e.withType type else e

/-- What is done when a value of the given type is assigned to an expression. -/
def Expr.assignment (e : Expr) (type : Ty) : List Action :=
  if type.isDefined then e.definition type else []

/-! ## Statements -/

/-- The places of a `for` that want an integer, in the order of the source, with what they are called
in messages. -/
def countSlots (counter first last : Expr) (increment : Option Expr) : List (String × Expr) :=
  ("for variable", counter) :: ("for begin", first) :: ("for end", last) ::
    (increment.map fun e => ("for increment", e)).toList

/-- The actions of tagging the given places of a `for`. -/
def slotsTrace (slots : List (String × Expr)) : List Action :=
  slots.flatMap fun slot => slot.2.intTrace slot.1

mutual

/-- The statement with its types written on it. -/
def Stmt.tagged : Stmt → Stmt
  | .expression e s => .expression e.tagged s
  | .assign target value s => .assign (target.tagged.assigned value.inferred) value.tagged s
  | .cond c yes none s => .cond c.asCondition yes.tagged none s
  | .cond c yes (some no) s => .cond c.asCondition yes.tagged (some no.tagged) s
  | .count counter first last increment body s =>
    .count counter.asInt first.asInt last.asInt (increment.map Expr.asInt) body.tagged s
  | .loop c body s => .loop c.asCondition body.tagged s
  | .loopUntil body c s => .loopUntil body.tagged c.asCondition s
termination_by structural s => s

/-- The block with its types written on it. -/
def Block.tagged : Block → Block
  | .mk body s => .mk (Block.taggedAll body) s
termination_by structural b => b

/-- The statements with their types written on them. -/
def Block.taggedAll : List Stmt → List Stmt
  | [] => []
  | s :: ss => s.tagged :: Block.taggedAll ss
termination_by structural ss => ss

end

mutual

/-- The actions of tagging a statement. -/
def Stmt.trace : Stmt → List Action
  | .expression e _ => e.trace
  | .assign target value _ => target.trace ++ (value.trace ++ target.assignment value.inferred)
  | .cond c yes none _ => c.conditionTrace "if condition" ++ yes.trace
  | .cond c yes (some no) _ => c.conditionTrace "if condition" ++ (yes.trace ++ no.trace)
  | .count counter first last increment body _ =>
    slotsTrace (countSlots counter first last increment) ++ body.trace
  | .loop c body _ => c.conditionTrace "while condition" ++ body.trace
  | .loopUntil body c _ => body.trace ++ c.conditionTrace "until condition"
termination_by structural s => s

/-- The actions of tagging a block. -/
def Block.trace : Block → List Action
  | .mk body _ => Block.traceAll body
termination_by structural b => b

/-- The actions of tagging statements. -/
def Block.traceAll : List Stmt → List Action
  | [] => []
  | s :: ss => s.trace ++ Block.traceAll ss
termination_by structural ss => ss

end

theorem Block.tagged_eq (b : Block) : b.tagged = .mk (b.body.map Stmt.tagged) b.span := by
  cases b with
  | mk body s => exact congrArg (Block.mk · s) (eq_map_of_cons rfl (fun _ _ => rfl) body)

theorem Block.trace_eq (b : Block) : b.trace = b.body.flatMap Stmt.trace := by
  cases b with
  | mk body s => exact eq_flatMap_of_cons rfl (fun _ _ => rfl) body

theorem tagIncrement_eq (increment : Option Expr) (w : Walk) :
    tagIncrement increment w = (increment.map Expr.asInt,
      w.play (slotsTrace (increment.map fun e => ("for increment", e)).toList)) := by
  cases increment with
  | none => rfl
  | some e =>
    rw [tagIncrement, Tagging.bind_apply, Expr.tagInt_eq]
    simp [slotsTrace]

theorem Block.tag_eq_of_forall {b : Block}
    (h : ∀ x ∈ b.body, ∀ w, x.tag w = (x.tagged, w.play x.trace)) (w : Walk) :
    b.tag w = (b.tagged, w.play b.trace) := by
  have hall : ∀ ss : List Stmt,
      (∀ x ∈ ss, ∀ w, x.tag w = (x.tagged, w.play x.trace)) → ∀ w,
      Block.tagAll ss w = (Block.taggedAll ss, w.play (Block.traceAll ss)) := by
    intro ss hss
    induction ss with
    | nil => exact fun _ => rfl
    | cons s ss ih =>
      intro w
      obtain ⟨hs, hss⟩ := List.forall_mem_cons.mp hss
      rw [Block.tagAll, Tagging.bind_apply, hs, Tagging.bind_apply, ih hss]
      simp [Block.taggedAll, Block.traceAll]
  cases b with
  | mk body s =>
    rw [Block.tag, Tagging.bind_apply, hall body h]
    rfl

/-- Tagging a statement writes its types on it and takes the actions of its trace. -/
theorem Stmt.tag_eq (s : Stmt) (w : Walk) : s.tag w = (s.tagged, w.play s.trace) := by
  induction s generalizing w with
  | expression e s =>
    rw [Stmt.tag, Tagging.bind_apply, Expr.tag_eq]
    rfl
  | assign target value s =>
    rw [Stmt.tag, Tagging.bind_apply, Expr.tag_eq, Tagging.bind_apply, Expr.tag_eq]
    simp only [Expr.type_tagged, Stmt.tagged, Stmt.trace, Expr.assigned, Expr.assignment,
      Walk.play_append]
    split
    · simp [define_eq, Expr.definition]
    · simp
  -- The four kinds with blocks differ in the order of their parts only: each part is replaced by its
  -- own equation, and the actions of the parts are put together.
  | cond c yes no s ihy ihn =>
    cases no with
    | none =>
      rw [Stmt.tag, Tagging.bind_apply, Expr.tagCondition_eq, Tagging.bind_apply,
        Block.tag_eq_of_forall ihy]
      simp [Stmt.tagged, Stmt.trace]
    | some no =>
      rw [Stmt.tag, Tagging.bind_apply, Expr.tagCondition_eq, Tagging.bind_apply,
        Block.tag_eq_of_forall ihy, Tagging.bind_apply, Block.tag_eq_of_forall (ihn no rfl)]
      simp [Stmt.tagged, Stmt.trace]
  | count counter first last increment body s ihb =>
    rw [Stmt.tag, Tagging.bind_apply, Expr.tagInt_eq, Tagging.bind_apply, Expr.tagInt_eq,
      Tagging.bind_apply, Expr.tagInt_eq, Tagging.bind_apply, tagIncrement_eq, Tagging.bind_apply,
      Block.tag_eq_of_forall ihb]
    simp [Stmt.tagged, Stmt.trace, countSlots, slotsTrace]
  | loop c body s ihb =>
    rw [Stmt.tag, Tagging.bind_apply, Expr.tagCondition_eq, Tagging.bind_apply,
      Block.tag_eq_of_forall ihb]
    simp [Stmt.tagged, Stmt.trace]
  | loopUntil body c s ihb =>
    rw [Stmt.tag, Tagging.bind_apply, Block.tag_eq_of_forall ihb, Tagging.bind_apply,
      Expr.tagCondition_eq]
    simp [Stmt.tagged, Stmt.trace]

/-- Tagging a block writes its types on it and takes the actions of its trace. -/
theorem Block.tag_eq (b : Block) (w : Walk) : b.tag w = (b.tagged, w.play b.trace) :=
  Block.tag_eq_of_forall (fun x _ => x.tag_eq) w

/-! ## Warnings -/

mutual

/-- The places of a statement that want an integer, in the order of the source. -/
def Stmt.loopSlots : Stmt → List (String × Expr)
  | .expression _ _ => []
  | .assign _ _ _ => []
  | .cond _ yes none _ => yes.loopSlots
  | .cond _ yes (some no) _ => yes.loopSlots ++ no.loopSlots
  | .count counter first last increment body _ =>
    countSlots counter first last increment ++ body.loopSlots
  | .loop _ body _ => body.loopSlots
  | .loopUntil body _ _ => body.loopSlots
termination_by structural s => s

/-- The places of a block that want an integer. -/
def Block.loopSlots : Block → List (String × Expr)
  | .mk body _ => Block.loopSlotsAll body
termination_by structural b => b

/-- The places of statements that want an integer. -/
def Block.loopSlotsAll : List Stmt → List (String × Expr)
  | [] => []
  | s :: ss => s.loopSlots ++ Block.loopSlotsAll ss
termination_by structural ss => ss

end

theorem Block.loopSlots_eq (b : Block) : b.loopSlots = b.body.flatMap Stmt.loopSlots := by
  cases b with
  | mk body s => exact eq_flatMap_of_cons rfl (fun _ _ => rfl) body

/-- What is said about those of the places that hold a plain number. -/
def coercions (slots : List (String × Expr)) : List Diagnostic :=
  (slots.filter fun slot => slot.2.inferred = .number).map fun slot => coercion slot.1 slot.2

theorem coercions_append (slots slots' : List (String × Expr)) :
    coercions (slots ++ slots') = coercions slots ++ coercions slots' := by
  simp [coercions]

/-- The actions of several things warn about what the actions of each of them warn about. -/
theorem warnings_flatMap {α : Type} {xs : List α} {trace : α → List Action}
    {slots : α → List (String × Expr)}
    (h : ∀ x ∈ xs, (trace x).filterMap Action.warning? = coercions (slots x)) :
    (xs.flatMap trace).filterMap Action.warning? = coercions (xs.flatMap slots) := by
  induction xs with
  | nil => rfl
  | cons x xs ih =>
    obtain ⟨hx, hxs⟩ := List.forall_mem_cons.mp h
    rw [List.flatMap_cons, List.filterMap_append, hx, ih hxs, List.flatMap_cons, coercions_append]

/-- Inside of expressions there is nothing dubious. -/
theorem Expr.warnings_trace (e : Expr) : e.trace.filterMap Action.warning? = [] := by
  induction e with
  | literal text t s => rfl
  | var ref t s => rfl
  | unary op e t s ih => exact ih
  | binary op l r t s ihl ihr =>
    have hcast : (castTrace op l.inferred r.inferred s.start).filterMap Action.warning? = [] := by
      unfold castTrace
      split <;> rfl
    rw [Expr.trace, List.filterMap_append, List.filterMap_append, ihl, ihr, hcast]
    rfl
  | call name args t s ih =>
    rw [Expr.trace, Expr.traceAll_eq, List.filterMap_flatMap, List.flatMap_eq_nil_iff]
    exact ih

theorem Expr.warnings_definition (e : Expr) (t : Ty) :
    (e.definition t).filterMap Action.warning? = [] := by
  unfold Expr.definition
  split <;> rfl

theorem Expr.warnings_conditionTrace (context : String) (e : Expr) :
    (e.conditionTrace context).filterMap Action.warning? = [] := by
  rw [Expr.conditionTrace, List.filterMap_append, Expr.warnings_trace, List.nil_append]
  split
  · rfl
  · exact e.warnings_definition _
  · rfl

theorem Expr.warnings_intTrace (context : String) (e : Expr) :
    (e.intTrace context).filterMap Action.warning? = coercions [(context, e)] := by
  rw [Expr.intTrace, List.filterMap_append, Expr.warnings_trace, List.nil_append]
  cases h : e.inferred <;>
    simp [coercions, h, Action.warning?, Expr.warnings_definition, List.filterMap_cons]

theorem warnings_slotsTrace (slots : List (String × Expr)) :
    (slotsTrace slots).filterMap Action.warning? = coercions slots := by
  rw [slotsTrace, warnings_flatMap fun slot _ => slot.2.warnings_intTrace slot.1]
  simp

theorem Block.warnings_of_forall {b : Block}
    (h : ∀ x ∈ b.body, x.trace.filterMap Action.warning? = coercions x.loopSlots) :
    b.trace.filterMap Action.warning? = coercions b.loopSlots := by
  rw [Block.trace_eq, Block.loopSlots_eq]
  exact warnings_flatMap h

/-- A statement is warned about exactly for the plain numbers in places that want an integer. -/
theorem Stmt.warnings_trace (s : Stmt) :
    s.trace.filterMap Action.warning? = coercions s.loopSlots := by
  induction s with
  | expression e s => exact e.warnings_trace
  | assign target value s =>
    have hassign : (target.assignment value.inferred).filterMap Action.warning? = [] := by
      unfold Expr.assignment
      split
      · exact target.warnings_definition _
      · rfl
    rw [Stmt.trace, List.filterMap_append, List.filterMap_append, Expr.warnings_trace,
      Expr.warnings_trace, hassign]
    rfl
  | cond c yes no s ihy ihn =>
    have hyes := Block.warnings_of_forall ihy
    cases no with
    | none =>
      rw [Stmt.trace, List.filterMap_append, Expr.warnings_conditionTrace, hyes, Stmt.loopSlots,
        List.nil_append]
    | some no =>
      have hno := Block.warnings_of_forall (ihn no rfl)
      rw [Stmt.trace, List.filterMap_append, List.filterMap_append, Expr.warnings_conditionTrace,
        hyes, hno, Stmt.loopSlots, coercions_append, List.nil_append]
  | count counter first last increment body s ihb =>
    rw [Stmt.trace, List.filterMap_append, warnings_slotsTrace, Block.warnings_of_forall ihb,
      Stmt.loopSlots, coercions_append]
  | loop c body s ihb =>
    rw [Stmt.trace, List.filterMap_append, Expr.warnings_conditionTrace,
      Block.warnings_of_forall ihb, Stmt.loopSlots, List.nil_append]
  | loopUntil body c s ihb =>
    rw [Stmt.trace, List.filterMap_append, Expr.warnings_conditionTrace,
      Block.warnings_of_forall ihb, Stmt.loopSlots, List.append_nil]

/-- A block is warned about at the slots of its loops, and nowhere else. -/
theorem Block.warnings_trace (b : Block) :
    b.trace.filterMap Action.warning? = coercions b.loopSlots :=
  Block.warnings_of_forall fun x _ => x.warnings_trace

/-! ## Procedures -/

/-- Tagging a procedure tags its body, and finds its parameters in the scope that comes out. -/
theorem Procedure.tag_eq (p : Procedure) (w : Walk) :
    let after := w.play p.body.trace
    let params := paramNames after.scope.argCount
    p.tag w = (⟨p.name, params, p.body.tagged⟩,
      { after with
        session := after.session.note (.tagged p.name params.length after.scope.locals.size) }) := by
  intro after params
  rw [Procedure.tag, Tagging.bind_apply, Block.tag_eq]
  rfl

end Sigil
