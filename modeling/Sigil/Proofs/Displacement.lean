import Sigil.Proofs.Scanning
import Sigil.Proofs.ScopeTables

/-!
# Scripts moved down

When lines are put above a script, everything in it moves down by as many lines. A scan that starts
on a later line gives the same tokens, or the same fault, moved down. Tagging a tree that was moved down
writes the same types and takes the same actions, with the diagnostics moved down.
-/

namespace Sigil

/-- The position `n` lines further down. -/
def Position.shift (n : Nat) (p : Position) : Position := ⟨p.line + n, p.file⟩

/-- The span `n` lines further down. -/
def Span.shift (n : Nat) (s : Span) : Span := ⟨s.start.shift n, s.stop.shift n⟩

/-- The token `n` lines further down. -/
def Token.shift (n : Nat) (t : Token) : Token := ⟨t.kind, t.value, t.span.shift n⟩

/-- The diagnostic `n` lines further down. -/
def Diagnostic.shift (n : Nat) (d : Diagnostic) : Diagnostic := ⟨d.cause, d.position.shift n⟩

/-! ## Scans -/

/-- What is passed over before a token does not depend on the line, which is only counted on. -/
theorem skipTrivia_add (line n : Nat) (text : List Char) :
    (skipTrivia (line + n) text).rest = (skipTrivia line text).rest ∧
      (skipTrivia (line + n) text).line = (skipTrivia line text).line + n := by
  fun_induction skipTrivia line text with
  | case1 line => rw [skipTrivia]; exact ⟨rfl, rfl⟩
  | case2 line rest t ih => rw [skipTrivia]; exact ih
  | case3 line rest t ih =>
    rw [skipTrivia, Nat.add_right_comm]
    exact ih
  | case4 line c rest hline hblock hblank ih =>
    rw [skipTrivia, if_pos hblank]
    · exact ih
    · exact hline
    · exact hblock
  | case5 line c rest hline hblock hblank =>
    rw [skipTrivia, if_neg hblank]
    · exact ⟨rfl, rfl⟩
    · exact hline
    · exact hblock

/-- A scan that starts on a later line gives the same, moved down. -/
theorem Scanner.scan_shift (s : Scanner) (n seen : Nat) :
    (Scanner.mk s.file s.rest (s.line + n) seen).scan.result =
      (s.scan.result.map (List.map (Token.shift n))).mapError (Diagnostic.shift n) := by
  induction s using scanInduction generalizing seen with
  | ended s htext =>
    obtain ⟨hrest, hline⟩ := skipTrivia_add s.line n s.rest
    rw [scan_of_end htext, scan_of_end (hrest.trans htext), hline]
    rfl
  | unclosed s c rest htext hread =>
    obtain ⟨hrest, hline⟩ := skipTrivia_add s.line n s.rest
    rw [scan_of_unclosed htext hread, scan_of_unclosed (hrest.trans htext) hread, hline]
    rfl
  | lexeme s c rest x htext hread ih =>
    obtain ⟨hrest, hline⟩ := skipTrivia_add s.line n s.rest
    rw [scan_of_lexeme htext hread, scan_of_lexeme (hrest.trans htext) hread,
      step_of_lexeme (hrest.trans htext) hread]
    simp only [step_of_lexeme htext hread] at ih ⊢
    simp only [Lexeme.token, hline, Nat.add_right_comm _ n]
    rw [ih]
    cases (Scanner.mk s.file ((c :: rest).drop x.text.length)
      ((skipTrivia s.line s.rest).line + x.text.count '\n')
      ((skipTrivia s.line s.rest).line + x.value.toList.count '\n')).scan.result <;> rfl

/-! ## Types -/

namespace Expr

variable (f : Span → Span)

theorem mapSpans_id (e : Expr) : e.mapSpans id = e := by
  induction e with
  | literal text t s => rfl
  | var ref t s => rfl
  | unary op e t s ih => rw [mapSpans, ih, id]
  | binary op l r t s ihl ihr => rw [mapSpans, ihl, ihr, id]
  | call name args t s ih =>
    have hargs : args.map (mapSpans id) = args := (List.map_congr_left ih).trans (List.map_id' args)
    rw [mapSpans, mapSpansAll_eq, hargs, id]

@[simp] theorem var?_mapSpans (e : Expr) : (e.mapSpans f).var? = e.var? := by
  cases e <;> rfl

@[simp] theorem withType_mapSpans (e : Expr) (t : Ty) :
    (e.mapSpans f).withType t = (e.withType t).mapSpans f := by
  cases e <;> rfl

/-- Types do not depend on spans. -/
@[simp] theorem inferred_mapSpans (e : Expr) : (e.mapSpans f).inferred = e.inferred := by
  induction e with
  | literal text t s => rfl
  | var ref t s => rfl
  | unary op e t s ih => exact ih
  | binary op l r t s ihl ihr => rw [mapSpans, inferred, ihl, ihr, inferred]
  | call name args t s ih => rfl

/-- Types do not depend on spans. -/
@[simp] theorem tagged_mapSpans (e : Expr) : (e.mapSpans f).tagged = e.tagged.mapSpans f := by
  induction e with
  | literal text t s => rfl
  | var ref t s => rfl
  | unary op e t s ih => rw [mapSpans, tagged, ih, inferred_mapSpans, tagged, mapSpans]
  | binary op l r t s ihl ihr =>
    rw [mapSpans, tagged, ihl, ihr, inferred_mapSpans, inferred_mapSpans, tagged, mapSpans]
  | call name args t s ih =>
    have hargs : taggedAll (mapSpansAll f args) = mapSpansAll f (taggedAll args) := by
      rw [taggedAll_eq, mapSpansAll_eq, mapSpansAll_eq, taggedAll_eq, List.map_map, List.map_map]
      exact List.map_congr_left ih
    rw [mapSpans, tagged, hargs, tagged, mapSpans]

@[simp] theorem asCondition_mapSpans (e : Expr) :
    (e.mapSpans f).asCondition = e.asCondition.mapSpans f := by
  simp [asCondition, conditionType]

@[simp] theorem asInt_mapSpans (e : Expr) : (e.mapSpans f).asInt = e.asInt.mapSpans f := by
  simp [asInt, intType]

@[simp] theorem assigned_mapSpans (e : Expr) (t : Ty) :
    (e.mapSpans f).assigned t = (e.assigned t).mapSpans f := by
  unfold assigned
  split <;> simp

end Expr

theorem Block.mapSpans_id_of_forall {b : Block} (h : ∀ x ∈ b.body, x.mapSpans id = x) :
    b.mapSpans id = b := by
  cases b with
  | mk body s =>
    have hbody : body.map (Stmt.mapSpans id) = body :=
      (List.map_congr_left h).trans (List.map_id' body)
    rw [Block.mapSpans, Block.mapSpansAll_eq, hbody, id]

theorem Stmt.mapSpans_id (s : Stmt) : s.mapSpans id = s := by
  induction s with
  | expression e s => rw [mapSpans, Expr.mapSpans_id, id]
  | assign target value s => rw [mapSpans, Expr.mapSpans_id, Expr.mapSpans_id, id]
  | cond c yes no s ihy ihn =>
    have hyes := Block.mapSpans_id_of_forall ihy
    cases no with
    | none => rw [mapSpans, Expr.mapSpans_id, hyes, id]
    | some no =>
      rw [mapSpans, Expr.mapSpans_id, hyes, Block.mapSpans_id_of_forall (ihn no rfl), id]
  | count counter first last increment body s ihb =>
    have hincrement : increment.map (Expr.mapSpans id) = increment := by
      cases increment with
      | none => rfl
      | some e => rw [Option.map_some, Expr.mapSpans_id]
    rw [mapSpans, Expr.mapSpans_id, Expr.mapSpans_id, Expr.mapSpans_id, hincrement,
      Block.mapSpans_id_of_forall ihb, id]
  | loop c body s ihb => rw [mapSpans, Expr.mapSpans_id, Block.mapSpans_id_of_forall ihb, id]
  | loopUntil body c s ihb => rw [mapSpans, Expr.mapSpans_id, Block.mapSpans_id_of_forall ihb, id]

theorem Block.tagged_mapSpans_of_forall {f : Span → Span} {b : Block}
    (h : ∀ x ∈ b.body, (x.mapSpans f).tagged = x.tagged.mapSpans f) :
    (b.mapSpans f).tagged = b.tagged.mapSpans f := by
  cases b with
  | mk body s =>
    rw [Block.tagged_eq, Block.body_mapSpans, List.map_map, Block.tagged_eq, Block.mapSpans,
      Block.mapSpans, Block.mapSpansAll_eq, Block.mapSpansAll_eq, List.map_map]
    exact congrArg (Block.mk · (f s)) (List.map_congr_left h)

/-- Types do not depend on spans. -/
theorem Stmt.tagged_mapSpans (f : Span → Span) (s : Stmt) :
    (s.mapSpans f).tagged = s.tagged.mapSpans f := by
  induction s with
  | expression e s => simp [mapSpans, tagged]
  | assign target value s => simp [mapSpans, tagged]
  | cond c yes no s ihy ihn =>
    have hyes := Block.tagged_mapSpans_of_forall ihy
    cases no with
    | none => simp [mapSpans, tagged, hyes]
    | some no => simp [mapSpans, tagged, hyes, Block.tagged_mapSpans_of_forall (ihn no rfl)]
  | count counter first last increment body s ihb =>
    have hincrement : (increment.map (Expr.mapSpans f)).map Expr.asInt =
        (increment.map Expr.asInt).map (Expr.mapSpans f) := by
      cases increment <;> simp
    simp [mapSpans, tagged, hincrement, Block.tagged_mapSpans_of_forall ihb]
  | loop c body s ihb => simp [mapSpans, tagged, Block.tagged_mapSpans_of_forall ihb]
  | loopUntil body c s ihb => simp [mapSpans, tagged, Block.tagged_mapSpans_of_forall ihb]

/-! ## Actions -/

/-- The action of tagging what stands `n` lines further down. -/
def Action.shift (n : Nat) : Action → Action
  | record v type => record v type
  | error d => error (d.shift n)
  | warning d => warning (d.shift n)

namespace Expr

theorem castTrace_shift (op : String) (left right : Ty) (p : Position) (n : Nat) :
    castTrace op left right (p.shift n) = (castTrace op left right p).map (Action.shift n) := by
  unfold castTrace
  split <;> rfl

/-- Tagging an expression further down does the same further down. -/
theorem trace_shift (n : Nat) (e : Expr) :
    (e.mapSpans (Span.shift n)).trace = e.trace.map (Action.shift n) := by
  induction e with
  | literal text t s => rfl
  | var ref t s => rfl
  | unary op e t s ih => exact ih
  | binary op l r t s ihl ihr =>
    have hcast := castTrace_shift op l.inferred r.inferred s.start n
    rw [mapSpans, trace, ihl, ihr, inferred_mapSpans, inferred_mapSpans, trace, List.map_append,
      List.map_append, ← hcast]
    rfl
  | call name args t s ih =>
    rw [mapSpans, trace, traceAll_eq, mapSpansAll_eq, trace, traceAll_eq, List.flatMap_map,
      List.map_flatMap, List.flatMap_def, List.flatMap_def, List.map_congr_left ih]

/-- What becomes known of a variable is noted further down with it. -/
theorem definition_shift (n : Nat) (e : Expr) (t : Ty) :
    (e.mapSpans (Span.shift n)).definition t = (e.definition t).map (Action.shift n) := by
  unfold definition
  rw [var?_mapSpans]
  cases e.var? <;> rfl

/-- A condition further down is complained about further down. -/
theorem conditionTrace_shift (n : Nat) (context : String) (e : Expr) :
    (e.mapSpans (Span.shift n)).conditionTrace context =
      (e.conditionTrace context).map (Action.shift n) := by
  rw [conditionTrace, trace_shift, inferred_mapSpans, span_mapSpans, conditionTrace, List.map_append]
  congr 1
  cases e.inferred with
  | undetermined => exact definition_shift n e _
  | _ => rfl

theorem intTrace_shift (n : Nat) (context : String) (e : Expr) :
    (e.mapSpans (Span.shift n)).intTrace context = (e.intTrace context).map (Action.shift n) := by
  rw [intTrace, trace_shift, inferred_mapSpans, intTrace, List.map_append]
  congr 1
  cases e.inferred with
  | undetermined => exact definition_shift n e _
  | number =>
    rw [List.map_cons, ← definition_shift, coercion, span_mapSpans]
    rfl
  | _ => rw [span_mapSpans]; rfl

end Expr

theorem slotsTrace_shift (n : Nat) (slots : List (String × Expr)) :
    slotsTrace (slots.map fun slot => (slot.1, slot.2.mapSpans (Span.shift n))) =
      (slotsTrace slots).map (Action.shift n) := by
  rw [slotsTrace, slotsTrace, List.flatMap_map, List.map_flatMap, List.flatMap_def, List.flatMap_def]
  exact congrArg List.flatten (List.map_congr_left fun slot _ => slot.2.intTrace_shift n slot.1)

theorem Block.trace_shift_of_forall {n : Nat} {b : Block}
    (h : ∀ x ∈ b.body, (x.mapSpans (Span.shift n)).trace = x.trace.map (Action.shift n)) :
    (b.mapSpans (Span.shift n)).trace = b.trace.map (Action.shift n) := by
  rw [Block.trace_eq, Block.body_mapSpans, Block.trace_eq, List.flatMap_map, List.map_flatMap,
    List.flatMap_def, List.flatMap_def, List.map_congr_left h]

/-- Tagging what was moved down takes the same actions, with the diagnostics moved down. -/
theorem Stmt.trace_shift (n : Nat) (s : Stmt) :
    (s.mapSpans (Span.shift n)).trace = s.trace.map (Action.shift n) := by
  induction s with
  | expression e s => exact e.trace_shift n
  | assign target value s =>
    have hassign : (target.mapSpans (Span.shift n)).assignment value.inferred =
        (target.assignment value.inferred).map (Action.shift n) := by
      unfold Expr.assignment
      split
      · exact target.definition_shift n _
      · rfl
    rw [mapSpans, trace, Expr.trace_shift, Expr.trace_shift, Expr.inferred_mapSpans, hassign, trace,
      List.map_append, List.map_append]
  | cond c yes no s ihy ihn =>
    have hyes := Block.trace_shift_of_forall ihy
    cases no with
    | none => rw [mapSpans, trace, Expr.conditionTrace_shift, hyes, trace, List.map_append]
    | some no =>
      rw [mapSpans, trace, Expr.conditionTrace_shift, hyes, Block.trace_shift_of_forall (ihn no rfl),
        trace, List.map_append, List.map_append]
  | count counter first last increment body s ihb =>
    have hslots : countSlots (counter.mapSpans (Span.shift n)) (first.mapSpans (Span.shift n))
        (last.mapSpans (Span.shift n)) (increment.map (Expr.mapSpans (Span.shift n))) =
          (countSlots counter first last increment).map fun slot =>
            (slot.1, slot.2.mapSpans (Span.shift n)) := by
      cases increment <;> rfl
    rw [mapSpans, trace, hslots, slotsTrace_shift, Block.trace_shift_of_forall ihb, trace,
      List.map_append]
  | loop c body s ihb =>
    rw [mapSpans, trace, Expr.conditionTrace_shift, Block.trace_shift_of_forall ihb, trace,
      List.map_append]
  | loopUntil body c s ihb =>
    rw [mapSpans, trace, Expr.conditionTrace_shift, Block.trace_shift_of_forall ihb, trace,
      List.map_append]

/-! ## What the actions do -/

/-- What is read off the actions moves with them. -/
theorem filterMap_shift {α : Type} {n : Nat} {read : Action → Option α} {move : α → α}
    (h : ∀ a : Action, read (a.shift n) = (read a).map move) (actions : List Action) :
    (actions.map (Action.shift n)).filterMap read = (actions.filterMap read).map move := by
  rw [List.filterMap_map, List.map_filterMap]
  exact List.filterMap_congr fun a _ => h a

/-- The variables that are met have no lines. -/
theorem filterMap_record?_shift (n : Nat) (actions : List Action) :
    (actions.map (Action.shift n)).filterMap Action.record? = actions.filterMap Action.record? := by
  have hsame : ∀ a : Action, (a.shift n).record? = a.record?.map id := by
    intro a
    cases a <;> rfl
  rw [filterMap_shift hsame, List.map_id]

theorem filterMap_error?_shift (n : Nat) (actions : List Action) :
    (actions.map (Action.shift n)).filterMap Action.error? =
      (actions.filterMap Action.error?).map (Diagnostic.shift n) :=
  filterMap_shift (fun a => by cases a <;> rfl) actions

theorem filterMap_warning?_shift (n : Nat) (actions : List Action) :
    (actions.map (Action.shift n)).filterMap Action.warning? =
      (actions.filterMap Action.warning?).map (Diagnostic.shift n) :=
  filterMap_shift (fun a => by cases a <;> rfl) actions

end Sigil
