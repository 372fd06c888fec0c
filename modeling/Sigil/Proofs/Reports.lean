import Sigil.Proofs.Placement
import Sigil.Proofs.ScriptByScript

/-!
# Every report is on a line of its script

What tagging finds is found at an expression, and is placed where that expression starts. The
expressions of a script start on its lines, so whatever is reported of a program, be it what ends the
analysis or what is collected on the way, is on a line of the script that it is about.
-/

namespace Sigil

/-! ## What tagging finds -/

namespace Cause

/-- The cause of something that tagging finds wrong. -/
def isTypeError : Cause → Bool
  | .implicitCast _ _ | .typeMismatch _ _ _ => true
  | _ => false

/-- The cause of something that tagging finds dubious. -/
def isCoercion : Cause → Bool
  | .numberCoercion _ => true
  | _ => false

end Cause

/-- What the action collects is placed where `P` holds, and is what tagging collects. -/
def Action.Lies (P : Position → Prop) : Action → Prop
  | .record _ _ => True
  | .error d => P d.position ∧ d.cause.isTypeError = true
  | .warning d => P d.position ∧ d.cause.isCoercion = true

section

variable {P : Position → Prop}

/-- The complaint about a cast is made where the operation starts. -/
theorem lies_castTrace (op : String) (left right : Ty) {p : Position} (hp : P p) :
    ∀ a ∈ castTrace op left right p, a.Lies P := by
  unfold castTrace
  split
  · exact List.forall_mem_singleton.mpr ⟨hp, rfl⟩
  · exact List.forall_mem_nil _

/-- What tagging complains about in an expression is in that expression. -/
theorem Expr.lies_trace {e : Expr} (h : e.Lies P) : ∀ a ∈ e.trace, a.Lies P := by
  induction e with
  | literal text t s => exact List.forall_mem_nil _
  | var ref t s => exact List.forall_mem_singleton.mpr trivial
  | unary op e t s ih => exact ih (Expr.lies_unary.mp h).2
  | binary op l r t s ihl ihr =>
    obtain ⟨hs, hl, hr⟩ := Expr.lies_binary.mp h
    have hcast := lies_castTrace op l.inferred r.inferred hs
    exact List.forall_mem_append.mpr ⟨ihl hl, List.forall_mem_append.mpr ⟨ihr hr, hcast⟩⟩
  | call name args t s ih =>
    rw [Expr.trace, Expr.traceAll_eq, List.forall_mem_flatMap]
    exact fun e he => ih e he ((Expr.lies_call.mp h).2 e he)

theorem Expr.lies_definition (e : Expr) (type : Ty) : ∀ a ∈ e.definition type, a.Lies P := by
  unfold Expr.definition
  split
  · exact List.forall_mem_singleton.mpr trivial
  · exact List.forall_mem_nil _

/-- A condition is complained about where it starts. -/
theorem Expr.lies_conditionTrace {e : Expr} (h : e.Lies P) (context : String) :
    ∀ a ∈ e.conditionTrace context, a.Lies P := by
  refine List.forall_mem_append.mpr ⟨Expr.lies_trace h, ?_⟩
  split
  · exact List.forall_mem_nil _
  · exact e.lies_definition .boolean
  · exact List.forall_mem_singleton.mpr ⟨h.start, rfl⟩

theorem Expr.lies_intTrace {e : Expr} (h : e.Lies P) (context : String) :
    ∀ a ∈ e.intTrace context, a.Lies P := by
  refine List.forall_mem_append.mpr ⟨Expr.lies_trace h, ?_⟩
  split
  · exact List.forall_mem_nil _
  · exact e.lies_definition .int
  · exact List.forall_mem_cons.mpr ⟨⟨h.start, rfl⟩, e.lies_definition .int⟩
  · exact List.forall_mem_singleton.mpr ⟨h.start, rfl⟩

theorem Expr.lies_assignment (e : Expr) (type : Ty) : ∀ a ∈ e.assignment type, a.Lies P := by
  unfold Expr.assignment
  split
  · exact e.lies_definition type
  · exact List.forall_mem_nil _

theorem map_snd_countSlots (counter first last : Expr) (increment : Option Expr) :
    (countSlots counter first last increment).map Prod.snd =
      counter :: first :: last :: increment.toList := by
  cases increment <;> rfl

theorem lies_slotsTrace {counter first last : Expr} {increment : Option Expr}
    (h : ∀ e ∈ counter :: first :: last :: increment.toList, e.Lies P) :
    ∀ a ∈ slotsTrace (countSlots counter first last increment), a.Lies P := by
  rw [slotsTrace, List.forall_mem_flatMap]
  intro slot hslot
  rw [← map_snd_countSlots] at h
  exact Expr.lies_intTrace (h slot.2 (List.mem_map_of_mem hslot)) slot.1

theorem Block.lies_of_forall {b : Block} (h : ∀ e ∈ b.expressions, e.Lies P)
    (hbody : ∀ s ∈ b.body, (∀ e ∈ s.expressions, e.Lies P) → ∀ a ∈ s.trace, a.Lies P) :
    ∀ a ∈ b.trace, a.Lies P := by
  rw [Block.expressions_eq, List.forall_mem_flatMap] at h
  rw [Block.trace_eq, List.forall_mem_flatMap]
  exact fun s hs => hbody s hs (h s hs)

theorem Stmt.lies_trace {s : Stmt} (h : ∀ e ∈ s.expressions, e.Lies P) :
    ∀ a ∈ s.trace, a.Lies P := by
  induction s with
  | expression e s =>
    rw [Stmt.expressions, List.forall_mem_singleton] at h
    rw [Stmt.trace]
    exact Expr.lies_trace h
  | assign target value s =>
    rw [Stmt.expressions, List.forall_mem_cons, List.forall_mem_singleton] at h
    rw [Stmt.trace, List.forall_mem_append, List.forall_mem_append]
    exact ⟨Expr.lies_trace h.1, Expr.lies_trace h.2, target.lies_assignment value.inferred⟩
  | cond c yes no s ihy ihn =>
    cases no with
    | none =>
      rw [Stmt.expressions, List.forall_mem_cons] at h
      rw [Stmt.trace, List.forall_mem_append]
      exact ⟨Expr.lies_conditionTrace h.1 _, Block.lies_of_forall h.2 fun x hx => ihy x hx⟩
    | some no =>
      rw [Stmt.expressions, List.forall_mem_cons, List.forall_mem_append] at h
      obtain ⟨hc, hyes, hno⟩ := h
      rw [Stmt.trace, List.forall_mem_append, List.forall_mem_append]
      refine ⟨Expr.lies_conditionTrace hc _, Block.lies_of_forall hyes fun x hx => ihy x hx, ?_⟩
      exact Block.lies_of_forall hno fun x hx => ihn no rfl x hx
  | count counter first last increment body s ihb =>
    rw [Stmt.expressions, ← List.cons_append, ← List.cons_append, ← List.cons_append,
      List.forall_mem_append] at h
    rw [Stmt.trace, List.forall_mem_append]
    exact ⟨lies_slotsTrace h.1, Block.lies_of_forall h.2 fun x hx => ihb x hx⟩
  | loop c body s ihb =>
    rw [Stmt.expressions, List.forall_mem_cons] at h
    rw [Stmt.trace, List.forall_mem_append]
    exact ⟨Expr.lies_conditionTrace h.1 _, Block.lies_of_forall h.2 fun x hx => ihb x hx⟩
  | loopUntil body c s ihb =>
    rw [Stmt.expressions, List.forall_mem_append, List.forall_mem_singleton] at h
    rw [Stmt.trace, List.forall_mem_append]
    exact ⟨Block.lies_of_forall h.1 fun x hx => ihb x hx, Expr.lies_conditionTrace h.2 _⟩

theorem Block.lies_trace {b : Block} (h : ∀ e ∈ b.expressions, e.Lies P) :
    ∀ a ∈ b.trace, a.Lies P :=
  Block.lies_of_forall h fun _ _ hs => Stmt.lies_trace hs

/-- Errors are about types, and in the block. -/
theorem Block.lies_errors {b : Block} (h : ∀ e ∈ b.expressions, e.Lies P) :
    ∀ d ∈ b.errors, P d.position ∧ d.cause.isTypeError = true := by
  intro d hd
  obtain ⟨a, ha, had⟩ := List.mem_filterMap.mp hd
  have hlies := Block.lies_trace h a ha
  cases a with
  | error x =>
    cases had
    exact hlies
  | _ => cases had

/-- Warnings are about coercions, and in the block. -/
theorem Block.lies_warnings {b : Block} (h : ∀ e ∈ b.expressions, e.Lies P) :
    ∀ d ∈ b.warnings, P d.position ∧ d.cause.isCoercion = true := by
  intro d hd
  obtain ⟨a, ha, had⟩ := List.mem_filterMap.mp hd
  have hlies := Block.lies_trace h a ha
  cases a with
  | warning x =>
    cases had
    exact hlies
  | _ => cases had

end

/-! ## Whole programs -/

namespace Script

/-- The errors of a script are on its lines. -/
theorem holds_errors (s : Script) :
    ∀ d ∈ s.errors, s.Holds d.position ∧ d.cause.isTypeError = true := by
  unfold Script.errors
  cases h : s.parse with
  | ok b => exact Block.lies_errors (s.lies_of_parse h)
  | error x => exact List.forall_mem_nil _

theorem holds_warnings (s : Script) :
    ∀ d ∈ s.warnings, s.Holds d.position ∧ d.cause.isCoercion = true := by
  unfold Script.warnings
  cases h : s.parse with
  | ok b => exact Block.lies_warnings (s.lies_of_parse h)
  | error x => exact List.forall_mem_nil _

end Script

/-- Up to the first script that cannot be parsed, what the scripts have to report is collected. -/
theorem exists_collected (scripts : List Script) :
    ∃ before, before ⊆ scripts ∧ (analyze scripts).2.errors = before.flatMap Script.errors ∧
      (analyze scripts).2.warnings = before.flatMap Script.warnings := by
  by_cases h : ∀ s ∈ scripts, s.Parses
  · obtain ⟨a, -, hfound⟩ := analyzeFrom_of_parses h .empty .empty
    exact ⟨scripts, fun _ hs => hs, hfound.errors, hfound.warnings⟩
  · obtain ⟨before, s, after, d, rfl, hbefore, hs⟩ := exists_first_failing h
    obtain ⟨-, hfound⟩ := analyzeFrom_of_error hbefore hs after .empty .empty
    exact ⟨before, List.subset_append_left _ _, hfound.errors, hfound.warnings⟩

/-- Whatever is reported of a program is on a line of the script that it is about. What ends the
analysis is about the first script that cannot be split into tokens and parsed, and is a quote without
an end if and only if that script cannot be split. What is collected is what the scripts alone have to
report. -/
theorem analyze_reports_on_lines (scripts : List Script) :
    (∀ d, (analyze scripts).1 = .error d →
      ∃ before s after, scripts = before ++ s :: after ∧ (∀ r ∈ before, r.Parses) ∧
        s.parse = .error d ∧ s.Holds d.position ∧
        (d.cause = .unterminatedString ↔ ¬ s.Tokenizes) ∧
        (d.cause = .unterminatedString ∨ d.cause.isSyntactic = true)) ∧
    (∀ d ∈ (analyze scripts).2.errors, d.cause.isTypeError = true ∧
      ∃ s ∈ scripts, d ∈ (analyze [s]).2.errors ∧ s.Holds d.position) ∧
    (∀ d ∈ (analyze scripts).2.warnings, d.cause.isCoercion = true ∧
      ∃ s ∈ scripts, d ∈ (analyze [s]).2.warnings ∧ s.Holds d.position) := by
  obtain ⟨before, hbefore, herrors, hwarnings⟩ := exists_collected scripts
  refine ⟨?_, ?_, ?_⟩
  · intro d hd
    have hfails : ¬ ∀ s ∈ scripts, s.Parses := by
      intro hall
      obtain ⟨a, ha, -⟩ := analyzeFrom_of_parses hall .empty .empty
      rw [analyze, ha] at hd
      cases hd
    obtain ⟨first, s, after, x, rfl, hfirst, hs⟩ := exists_first_failing hfails
    have herror := (analyzeFrom_of_error hfirst hs after .empty .empty).1
    obtain rfl : x = d := Except.error.inj (herror.symm.trans hd)
    exact ⟨first, s, after, rfl, hfirst, hs, Script.holds_of_error hs⟩
  · intro d hd
    rw [herrors] at hd
    obtain ⟨s, hs, hds⟩ := List.mem_flatMap.mp hd
    obtain ⟨hholds, hcause⟩ := s.holds_errors d hds
    exact ⟨hcause, s, hbefore hs, (collects_alone s).1 ▸ hds, hholds⟩
  · intro d hd
    rw [hwarnings] at hd
    obtain ⟨s, hs, hds⟩ := List.mem_flatMap.mp hd
    obtain ⟨hholds, hcause⟩ := s.holds_warnings d hds
    exact ⟨hcause, s, hbefore hs, (collects_alone s).2 ▸ hds, hholds⟩

/-- The first script has something dubious, and the second a quote that is never closed, behind a
carriage return that stands alone. -/
theorem analyze_reports_on_lines_two_scripts :
    let scripts : List Script := [⟨"first", "for (i; 1; 2)\nend for"⟩, ⟨"second", "a\r\"open"⟩]
    let d : Diagnostic := ⟨.unterminatedString, ⟨2, "second"⟩⟩
    let w : Diagnostic := ⟨.numberCoercion "for begin", ⟨1, "first"⟩⟩
    (analyze scripts).1 = .error d ∧ (∃ s ∈ scripts, s.Holds d.position ∧ ¬ s.Tokenizes) ∧
      w ∈ (analyze scripts).2.warnings ∧ ∃ s ∈ scripts, s.Holds w.position := by
  intro scripts d w
  have hfails : (((analyze scripts).1.map fun _ => none).tryCatch fun x => .ok (some x)).toOption =
      some (some d) := by
    decide +kernel
  have hd : (analyze scripts).1 = .error d := by
    cases hresult : (analyze scripts).1 with
    | error x =>
      rw [hresult] at hfails
      rw [Option.some.inj (Option.some.inj hfails)]
    | ok a =>
      rw [hresult] at hfails
      cases hfails
  have hw : w ∈ (analyze scripts).2.warnings := by decide +kernel
  obtain ⟨hstop, -, hwarnings⟩ := analyze_reports_on_lines scripts
  obtain ⟨before, s, after, hsplit, -, -, hholds, hcause, -⟩ := hstop d hd
  obtain ⟨-, t, ht, -, hline⟩ := hwarnings w hw
  have hs : s ∈ scripts := by rw [hsplit]; simp
  exact ⟨hd, ⟨s, hs, hholds, hcause.mp rfl⟩, hw, t, ht, hline⟩

end Sigil
