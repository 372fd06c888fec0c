import Sigil.Proofs.ScriptByScript

/-!
# Scopes in scopes

A script is tagged in a copy of the shared tables, and what it has learnt is put back into the tables that
were copied. This comes to the same as one pair of tables that all scripts write to: what is learnt from
the copy is what the tables knew already and what was learnt in between, and to learn again what is known
already changes nothing.

The argument is not about scripts in a row only. Scopes may be entered from scopes that were entered, as
long as each is left again.
-/

namespace Sigil

/-- Work on one scope: a variable is entered, or a tree of one of the four kinds is tagged. -/
inductive Work where
  | record (v : Variable) (type : Ty)
  | expression (e : Expr)
  | statement (s : Stmt)
  | block (b : Block)
  | procedure (p : Procedure)

namespace Work

/-- The scope and the session after the work. -/
def run (walk : Walk) : Work → Walk
  | record v type => (Tagging.record v type walk).2
  | expression e => (e.tag walk).2
  | statement s => (s.tag walk).2
  | block b => (b.tag walk).2
  | procedure p => (p.tag walk).2

/-- The variables that the work enters. -/
def records : Work → List (Variable × Ty)
  | record v type => [(v, type)]
  | expression e => e.trace.filterMap Action.record?
  | statement s => s.trace.filterMap Action.record?
  | block b => b.records
  | procedure p => p.body.records

/-- What a piece of work does to a scope is to record variables. -/
theorem scope_run (walk : Walk) (w : Work) :
    (w.run walk).scope = walk.scope.recordAll w.records := by
  cases w with
  | record v type => rfl
  | expression e =>
    rw [run, Expr.tag_eq]
    exact walk.scope_play e.trace
  | statement s =>
    rw [run, Stmt.tag_eq]
    exact walk.scope_play s.trace
  | block b =>
    rw [run, Block.tag_eq]
    exact walk.scope_play b.trace
  | procedure p =>
    rw [run, Procedure.tag_eq]
    exact walk.scope_play p.body.trace

end Work

/-- A step with scopes that are entered one from another. -/
inductive ScopeStep where
  /-- A scope is entered that starts with the shared variables of the one so far. -/
  | enter
  /-- The scope is left, and the one that it was entered from absorbs it. -/
  | leave
  | work (w : Work)

/-- Scopes that were entered one from another and not left yet, and the session. -/
structure ScopeStack where
  /-- The scope that was entered last. -/
  top : Scope
  /-- Those that it was entered from, the last one first. -/
  below : List Scope
  session : Session

namespace ScopeStack

/-- The stack after a step. The lowest scope cannot be left. -/
def step (stack : ScopeStack) : ScopeStep → ScopeStack
  | .enter => { stack with top := stack.top.fresh, below := stack.top :: stack.below }
  | .leave =>
    match stack.below with
    | [] => stack
    | scope :: below => { stack with top := scope.absorb stack.top, below := below }
  | .work w =>
    let walk := w.run ⟨stack.top, stack.session⟩
    { stack with top := walk.scope, session := walk.session }

def run (stack : ScopeStack) (steps : List ScopeStep) : ScopeStack := steps.foldl step stack

/-- A scope that is left is absorbed by the one below it. -/
theorem step_leave {stack : ScopeStack} {scope : Scope} {below : List Scope}
    (h : stack.below = scope :: below) :
    stack.step .leave = ⟨scope.absorb stack.top, below, stack.session⟩ := by
  rw [step, h]

theorem run_cons (stack : ScopeStack) (step : ScopeStep) (steps : List ScopeStep) :
    stack.run (step :: steps) = (stack.step step).run steps := rfl

theorem run_append (stack : ScopeStack) (steps steps' : List ScopeStep) :
    stack.run (steps ++ steps') = (stack.run steps).run steps' :=
  List.foldl_append

end ScopeStack

/-- Every scope that is entered is left again, and no other. -/
inductive Nested : List ScopeStep → Prop where
  | nil : Nested []
  | work {w : Work} {rest : List ScopeStep} (hrest : Nested rest) : Nested (.work w :: rest)
  | scope {inner rest : List ScopeStep} (hinner : Nested inner) (hrest : Nested rest) :
      Nested (.enter :: (inner ++ .leave :: rest))

namespace ScopeStep

def isWork : ScopeStep → Bool
  | work _ => true
  | _ => false

/-- The variables that a step enters. -/
def records : ScopeStep → List (Variable × Ty)
  | work w => w.records
  | _ => []

end ScopeStep

/-- Entering and leaving a scope records nothing. -/
theorem flatMap_records_filter (steps : List ScopeStep) :
    (steps.filter ScopeStep.isWork).flatMap ScopeStep.records =
      steps.flatMap ScopeStep.records := by
  induction steps with
  | nil => rfl
  | cons step steps ih =>
    cases step <;> simp [List.filter_cons, ScopeStep.isWork, ScopeStep.records, ih]

/-- Without entering and leaving, steps are always nested. -/
theorem nested_filter (steps : List ScopeStep) : Nested (steps.filter ScopeStep.isWork) := by
  induction steps with
  | nil => exact .nil
  | cons step steps ih =>
    cases step with
    | enter => exact ih
    | leave => exact ih
    | work w => exact .work ih

open Scope in
/-- Nested steps leave the scopes below alone. Of shared variables they learn what their work enters, in
whatever scope that happens. -/
theorem Nested.run {steps : List ScopeStep} (h : Nested steps) (stack : ScopeStack) :
    (stack.run steps).below = stack.below ∧
      ∀ cell : Cell, cell.isShared = true → (stack.run steps).top.known cell =
        combine (stack.top.known cell) (learnt cell (steps.flatMap ScopeStep.records)) := by
  induction h generalizing stack with
  | nil =>
    refine ⟨rfl, fun cell _ => ?_⟩
    simp [ScopeStack.run, learnt]
  | @work w rest _ ih =>
    obtain ⟨hbelow, hknown⟩ := ih (stack.step (.work w))
    refine ⟨hbelow, fun cell hcell => ?_⟩
    have hwork : (stack.step (.work w)).top = stack.top.recordAll w.records := w.scope_run _
    rw [ScopeStack.run_cons, hknown cell hcell, hwork, known_recordAll, combine_assoc, ← learnt_append]
    rfl
  | @scope inner rest _ _ ihi ihr =>
    obtain ⟨hbelow, hinner⟩ := ihi (stack.step .enter)
    -- Inside, the stack is the one from before with a fresh scope on it, whatever is done there.
    have hleave := ScopeStack.step_leave (hbelow : _ = stack.top :: stack.below)
    obtain ⟨hrest, hknown⟩ := ihr (((stack.step .enter).run inner).step .leave)
    rw [ScopeStack.run_cons, ScopeStack.run_append, ScopeStack.run_cons]
    refine ⟨by rw [hrest, hleave], fun cell hcell => ?_⟩
    have hfresh : (stack.step .enter).top.known cell = stack.top.known cell := by
      rw [ScopeStack.step, known_fresh, if_pos hcell]
    -- What the fresh scope started with is learnt once more, and makes no difference.
    have htop : (((stack.step .enter).run inner).step .leave).top.known cell =
        combine (stack.top.known cell) (learnt cell (inner.flatMap ScopeStep.records)) := by
      rw [hleave, known_absorb _ _ hcell, hinner cell hcell, hfresh, ← combine_assoc, combine_self]
    rw [hknown cell hcell, htop, combine_assoc, ← learnt_append]
    congr 2
    simp [ScopeStep.records]

/-- The last script of a program knows all that is known of the shared variables in the end. -/
theorem Analyzed.known_last {shared final : Scope} {scripts : List Script} {ts : List TaggedScript}
    (h : Analyzed shared scripts ts final) {last : TaggedScript} (hlast : ts.getLast? = some last)
    {cell : Cell} (hcell : cell.isShared = true) : final.known cell = last.scope.known cell := by
  induction h with
  | nil => cases hlast
  | @cons shared final s b rest ts hparse hrest ih =>
    cases hrest with
    | nil =>
      cases hlast
      exact shared.known_absorb_fresh b.records hcell
    | cons hparse' hrest' =>
      rw [List.getLast?_cons_cons] at hlast
      exact ih hlast

/-- Entering scopes and leaving them is the same to shared variables as work on one scope; in particular,
the shared tables of a program are those of its last script. -/
theorem nested_scopes_share :
    (∀ steps : List ScopeStep, Nested steps → ∀ (scope : Scope) (session : Session),
      let nested := ScopeStack.run ⟨scope, [], session⟩ steps
      let flat := ScopeStack.run ⟨scope, [], session⟩ (steps.filter ScopeStep.isWork)
      nested.below = [] ∧ nested.top.globals = flat.top.globals ∧
        nested.top.persistents = flat.top.persistents) ∧
    (∀ (scripts : List Script) (a : Analysis), (analyze scripts).1 = .ok a →
      ∀ last : TaggedScript, a.scripts.getLast? = some last →
        a.shared.globals = last.scope.globals ∧ a.shared.persistents = last.scope.persistents) := by
  constructor
  · intro steps h scope session nested flat
    obtain ⟨hbelow, hnested⟩ := h.run ⟨scope, [], session⟩
    obtain ⟨-, hflat⟩ := (nested_filter steps).run ⟨scope, [], session⟩
    refine ⟨hbelow, Scope.shared_ext fun cell hcell => ?_⟩
    rw [hnested cell hcell, hflat cell hcell, flatMap_records_filter]
  · intro scripts a h last hlast
    exact Scope.shared_ext fun cell hcell => (analyzed_of_analyze h).known_last hlast hcell

/-- What is learnt of a global variable in an outer scope is neither lost nor changed by an inner one that
knows less. -/
theorem nested_scopes_share_two_deep :
    ∃ steps : List ScopeStep,
      steps = [.enter, .work (.record ⟨"total", .globalSlot⟩ .int), .enter,
        .work (.record ⟨"total", .globalSlot⟩ .undetermined), .leave, .leave] ∧
      Nested steps ∧
      (ScopeStack.run ⟨.empty, [], .empty⟩ steps).top.globals.get? "total" = some .int ∧
      (ScopeStack.run ⟨.empty, [], .empty⟩ steps).top.globals =
        (ScopeStack.run ⟨.empty, [], .empty⟩ (steps.filter ScopeStep.isWork)).top.globals := by
  have hinner : Nested [.work (.record ⟨"total", .globalSlot⟩ .int), .enter,
      .work (.record ⟨"total", .globalSlot⟩ .undetermined), .leave] :=
    .work (@Nested.scope [.work (.record ⟨"total", .globalSlot⟩ .undetermined)] [] (.work .nil) .nil)
  have hnested := @Nested.scope _ [] hinner .nil
  exact ⟨_, rfl, hnested, by decide +kernel, (nested_scopes_share.1 _ hnested .empty .empty).2.1⟩

end Sigil
