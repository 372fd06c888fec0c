import Sigil.Proofs.Retagging

/-!
# What tagging reports

Tagging collects what is wrong while the types are still being written. Yet what it collects can be read
off the tree that comes out: a site of that tree where the types do not fit is reported, once and with the
types that stand there, and nothing else is. The sites are listed here in the order of the walk, and
`Site.violation?` says what is wrong with a site by the types that are written on it.

This holds because a type is written over only by the context of a whole expression, right after it was
tagged: what was found inside of the expression has been decided by types that stay.
-/

namespace Sigil

/-! ## Sites -/

/-- A place of a tree where types have to fit. -/
inductive Site where
  /-- An operator between its operands, which have the same type. -/
  | operation (op : String) (left right : Expr) (span : Span)
  /-- A condition, which is a truth value. -/
  | condition (context : String) (e : Expr)
  /-- A counter, a bound or an increment, which is an integer. -/
  | slot (context : String) (e : Expr)

/-- What is wrong with the types that are written at a site, and where: at an operator whose operands have
two types the right one would be cast, and elsewhere another type than the expected one was received. -/
def Site.violation? : Site → Option Diagnostic
  | operation op l r s =>
    if l.type.isDefined ∧ r.type.isDefined ∧ l.type ≠ r.type then
      some ⟨.implicitCast r.type.label ("`" ++ op ++ "` with a " ++ l.type.label ++ " operand"), s.start⟩
    else none
  | condition context e =>
    if e.type = .boolean then none
    else some ⟨.typeMismatch context "boolean" e.type.label, e.span.start⟩
  | slot context e =>
    if e.type = .int then none
    else some ⟨.typeMismatch context "int" e.type.label, e.span.start⟩

mutual

/-- The sites of an expression: those of the operands come before that of their operator. -/
def Expr.sites : Expr → List Site
  | .literal _ _ _ => []
  | .var _ _ _ => []
  | .unary _ e _ _ => e.sites
  | .binary op l r _ s => l.sites ++ (r.sites ++ [.operation op l r s])
  | .call _ args _ _ => Expr.sitesAll args
termination_by structural e => e

/-- The sites of expressions, from left to right. -/
def Expr.sitesAll : List Expr → List Site
  | [] => []
  | e :: es => e.sites ++ Expr.sitesAll es
termination_by structural es => es

end

/-- The sites of a condition. What is inside of it comes first. -/
def Expr.conditionSites (context : String) (e : Expr) : List Site :=
  e.sites ++ [.condition context e]

/-- The sites of the given parts of a `for`. What is inside of each comes first. -/
def slotsSites (slots : List (String × Expr)) : List Site :=
  slots.flatMap fun slot => slot.2.sites ++ [.slot slot.1 slot.2]

mutual

/-- The sites of a statement, in the order of the source. -/
def Stmt.sites : Stmt → List Site
  | .expression e _ => e.sites
  | .assign target value _ => target.sites ++ value.sites
  | .cond c yes none _ => c.conditionSites "if condition" ++ yes.sites
  | .cond c yes (some no) _ => c.conditionSites "if condition" ++ (yes.sites ++ no.sites)
  | .count counter first last increment body _ =>
    slotsSites (countSlots counter first last increment) ++ body.sites
  | .loop c body _ => c.conditionSites "while condition" ++ body.sites
  | .loopUntil body c _ => body.sites ++ c.conditionSites "until condition"
termination_by structural s => s

/-- The sites of a block. -/
def Block.sites : Block → List Site
  | .mk body _ => Block.sitesAll body
termination_by structural b => b

/-- The sites of statements, from first to last. -/
def Block.sitesAll : List Stmt → List Site
  | [] => []
  | s :: ss => s.sites ++ Block.sitesAll ss
termination_by structural ss => ss

end

theorem Expr.sitesAll_eq (es : List Expr) : Expr.sitesAll es = es.flatMap Expr.sites :=
  eq_flatMap_of_cons rfl (fun _ _ => rfl) es

theorem Block.sites_eq (b : Block) : b.sites = b.body.flatMap Stmt.sites := by
  cases b with
  | mk body s => exact eq_flatMap_of_cons rfl (fun _ _ => rfl) body

/-! ## Violations are reported -/

/-- What is wrong at the given sites. -/
def violations (sites : List Site) : List Diagnostic := sites.filterMap Site.violation?

theorem violations_append (sites sites' : List Site) :
    violations (sites ++ sites') = violations sites ++ violations sites' :=
  List.filterMap_append

/-- If what is wrong with each of several things is what tagging it collects, so it is with all of them. -/
theorem violations_flatMap {α β : Type} {xs : List α} {f : α → β} {sites : β → List Site}
    {trace : α → List Action}
    (h : ∀ x ∈ xs, violations (sites (f x)) = (trace x).filterMap Action.error?) :
    violations ((xs.map f).flatMap sites) = (xs.flatMap trace).filterMap Action.error? := by
  induction xs with
  | nil => rfl
  | cons x xs ih =>
    obtain ⟨hx, hxs⟩ := List.forall_mem_cons.mp h
    rw [List.map_cons, List.flatMap_cons, violations_append, hx, ih hxs, List.flatMap_cons,
      List.filterMap_append]

namespace Expr

/-- The sites of an expression do not depend on the type that is written on it as a whole. -/
@[simp] theorem sites_withType (e : Expr) (t : Ty) : (e.withType t).sites = e.sites := by
  cases e <;> rfl

@[simp] theorem type_withType (e : Expr) (t : Ty) : (e.withType t).type = t := by
  cases e <;> rfl

theorem violations_operation (op : String) (l r : Expr) (s : Span) :
    violations [.operation op l.tagged r.tagged s] =
      (castTrace op l.inferred r.inferred s.start).filterMap Action.error? := by
  have hsite : Site.violation? (.operation op l.tagged r.tagged s) =
      if l.inferred.isDefined ∧ r.inferred.isDefined ∧ l.inferred ≠ r.inferred then
        some (castProblem op l.inferred r.inferred s.start) else none := by
    rw [Site.violation?, type_tagged, type_tagged]
    rfl
  rw [castTrace]
  split
  · rename_i hcast
    rw [if_pos hcast] at hsite
    exact List.filterMap_cons_some hsite
  · rename_i hcast
    rw [if_neg hcast] at hsite
    exact List.filterMap_cons_none hsite

/-- The violations in an expression are the errors that tagging it reports. -/
theorem violations_sites (e : Expr) :
    violations e.tagged.sites = e.trace.filterMap Action.error? := by
  induction e with
  | literal text t s => rfl
  | var ref t s => rfl
  | unary op e t s ih => exact ih
  | binary op l r t s ihl ihr =>
    rw [tagged, sites, violations_append, violations_append, ihl, ihr, violations_operation, trace,
      List.filterMap_append, List.filterMap_append]
  | call name args t s ih =>
    rw [tagged, sites, sitesAll_eq, taggedAll_eq, trace, traceAll_eq]
    exact violations_flatMap ih

theorem errors_definition (e : Expr) (t : Ty) :
    (e.definition t).filterMap Action.error? = [] := by
  unfold definition
  split <;> rfl

/-- A condition that is not boolean is reported as such. -/
theorem violations_conditionSites (context : String) (e : Expr) :
    violations (e.asCondition.conditionSites context) =
      (e.conditionTrace context).filterMap Action.error? := by
  rw [conditionSites, violations_append, conditionTrace, List.filterMap_append, asCondition,
    sites_withType, violations_sites]
  congr 1
  cases h : e.inferred with
  | undetermined => simp [violations, Site.violation?, conditionType, h, errors_definition]
  | _ => simp [violations, Site.violation?, conditionType, h, Action.error?, typeProblem, Ty.label]

/-- A slot of a loop that is no integer is reported as such. -/
theorem violations_slot (context : String) (e : Expr) :
    violations (e.asInt.sites ++ [.slot context e.asInt]) =
      (e.intTrace context).filterMap Action.error? := by
  rw [violations_append, intTrace, List.filterMap_append, asInt, sites_withType, violations_sites]
  congr 1
  cases h : e.inferred with
  | undetermined => simp [violations, Site.violation?, intType, h, errors_definition]
  | number =>
    show violations _ = (e.definition .int).filterMap Action.error?
    simp [violations, Site.violation?, intType, h, errors_definition]
  | _ => simp [violations, Site.violation?, intType, h, Action.error?, typeProblem, Ty.label]

end Expr

theorem violations_slots (slots : List (String × Expr)) :
    violations (slotsSites (slots.map taggedSlot)) = (slotsTrace slots).filterMap Action.error? :=
  violations_flatMap fun slot _ => slot.2.violations_slot slot.1

theorem Block.violations_of_forall {b : Block}
    (h : ∀ x ∈ b.body, violations x.tagged.sites = x.trace.filterMap Action.error?) :
    violations b.tagged.sites = b.trace.filterMap Action.error? := by
  rw [Block.tagged_eq, Block.sites_eq, Block.trace_eq]
  exact violations_flatMap h

/-- What tagging a statement collects as wrong is what is wrong with the types that it writes. -/
theorem Stmt.violations_sites (s : Stmt) :
    violations s.tagged.sites = s.trace.filterMap Action.error? := by
  induction s with
  | expression e s => exact e.violations_sites
  | assign target value s =>
    have htarget : (target.tagged.assigned value.inferred).sites = target.tagged.sites := by
      unfold Expr.assigned
      split
      · exact target.tagged.sites_withType _
      · rfl
    have hassign : (target.assignment value.inferred).filterMap Action.error? = [] := by
      unfold Expr.assignment
      split
      · exact target.errors_definition _
      · rfl
    rw [tagged, sites, htarget, violations_append, Expr.violations_sites, Expr.violations_sites, trace,
      List.filterMap_append, List.filterMap_append, hassign, List.append_nil]
  | cond c yes no s ihy ihn =>
    have hyes := Block.violations_of_forall ihy
    cases no with
    | none =>
      rw [tagged, sites, violations_append, Expr.violations_conditionSites, hyes, trace,
        List.filterMap_append]
    | some no =>
      rw [tagged, sites, violations_append, violations_append, Expr.violations_conditionSites, hyes,
        Block.violations_of_forall (ihn no rfl), trace, List.filterMap_append, List.filterMap_append]
  | count counter first last increment body s ihb =>
    rw [tagged, sites, countSlots_asInt, violations_append, violations_slots, Block.violations_of_forall ihb,
      trace, List.filterMap_append]
  | loop c body s ihb =>
    rw [tagged, sites, violations_append, Expr.violations_conditionSites,
      Block.violations_of_forall ihb, trace, List.filterMap_append]
  | loopUntil body c s ihb =>
    rw [tagged, sites, violations_append, Expr.violations_conditionSites,
      Block.violations_of_forall ihb, trace, List.filterMap_append]

/-! ## Procedures -/

theorem Block.violations_sites (b : Block) :
    violations b.tagged.sites = b.trace.filterMap Action.error? :=
  Block.violations_of_forall fun s _ => s.violations_sites

theorem violations_eq_nil_iff {sites : List Site} :
    violations sites = [] ↔ ∀ x ∈ sites, x.violation? = none :=
  List.filterMap_eq_nil_iff

/-- Tagging a procedure reports the violations in it. -/
theorem Procedure.errors_tag_eq_violations (p : Procedure) (w : Walk) :
    (p.tag w).2.session.errors = w.session.errors ++ violations (p.tag w).1.body.sites := by
  rw [Procedure.errors_tag, Procedure.procedure_tag, Block.violations_sites]

/-- Tagging a procedure reports exactly what is wrong with the types that it writes, site by site and in
order, and warns exactly about the plain numbers in places that want an integer. So nothing is wrong after
a first procedure if and only if nothing is wrong at any site of its tagged tree. -/
theorem tag_reports_violations (p : Procedure) (scope : Scope) (session : Session) :
    (p.tag ⟨scope, session⟩).2.session.errors =
        session.errors ++ violations (p.tag ⟨scope, session⟩).1.body.sites ∧
      (p.tag ⟨scope, session⟩).2.session.warnings =
        session.warnings ++ coercions p.body.loopSlots ∧
      ((p.tag ⟨scope, .empty⟩).2.session.hasErrors = false ↔
        ∀ x ∈ (p.tag ⟨scope, .empty⟩).1.body.sites, x.violation? = none) := by
  refine ⟨p.errors_tag_eq_violations _, p.warnings_tag _, ?_⟩
  have herrors := p.errors_tag_eq_violations ⟨scope, .empty⟩
  have hempty : Session.empty.errors = [] := rfl
  rw [hempty, List.nil_append] at herrors
  rw [← violations_eq_nil_iff, ← herrors, Session.hasErrors, Bool.not_eq_false', List.isEmpty_iff]

end Sigil
