import Sigil.Lowering.Program
import Sigil.Proofs.Occurrence

/-!
# Variables that have slots

Lowering refuses a variable that has no slot, and an assignment to something other than a variable. In a
program whose tables list all the variables that occur in it, neither can happen, whatever else is wrong
with the program.
-/

namespace Sigil

/-- The diagnostic is about a variable without a slot, or about a target that is no variable. -/
def Diagnostic.aboutSlots (d : Diagnostic) : Bool :=
  match d.cause with
  | .unknownVariable _ _ => true
  | .invalidTarget => true
  | _ => false

/-- The slots are not what goes wrong, if anything does. -/
def SlotsFit {α : Type} (r : Except Diagnostic α) : Prop :=
  ∀ d, r = .error d → d.aboutSlots = false

namespace SlotsFit

variable {α β : Type}

theorem ok (a : α) : SlotsFit (.ok a) := nofun

theorem error {d : Diagnostic} (h : d.aboutSlots = false) : SlotsFit (.error d : Except Diagnostic α) := by
  rintro _ ⟨⟩
  exact h

theorem bind {r : Except Diagnostic α} {f : α → Except Diagnostic β} (hr : SlotsFit r)
    (hf : ∀ a, r = .ok a → SlotsFit (f a)) : SlotsFit (r >>= f) := by
  cases r with
  | ok a => exact hf a rfl
  | error d => exact .error (hr d rfl)

end SlotsFit

/-! ## Expressions -/

theorem Environment.slotsFit_slot {env : Environment} {v : Variable} (h : env.hasSlot v = true)
    (position : Position) : SlotsFit (env.slot v position) := by
  rw [Environment.slot, if_pos h]
  exact .ok ()

theorem Expr.slotsFit_lowerAll {env : Environment} {es : List Expr}
    (h : ∀ e ∈ es, SlotsFit (e.lower env)) : SlotsFit (Expr.lowerAll env es) := by
  induction es with
  | nil => exact .ok ()
  | cons e es ih =>
    obtain ⟨he, hes⟩ := List.forall_mem_cons.mp h
    rw [Expr.lowerAll]
    exact he.bind fun _ _ => ih hes

/-- An expression whose variables have slots can fail for other reasons only. -/
theorem Expr.slotsFit_lower {env : Environment} {e : Expr}
    (h : ∀ v ∈ e.variables, env.hasSlot v = true) : SlotsFit (e.lower env) := by
  induction e with
  | literal text t s =>
    rw [Expr.lower]
    split
    · exact .error rfl
    · split
      · exact .ok ()
      · exact .error rfl
  | var ref t s =>
    rw [Expr.lower]
    exact Environment.slotsFit_slot (h ref List.mem_cons_self) s.start
  | unary op e t s ih =>
    rw [Expr.lower]
    refine (ih h).bind fun _ _ => ?_
    split
    · exact .ok ()
    · exact .error rfl
  | binary op l r t s ihl ihr =>
    have hl : ∀ v ∈ l.variables, env.hasSlot v = true := fun v hv => h v (List.mem_append_left _ hv)
    have hr : ∀ v ∈ r.variables, env.hasSlot v = true := fun v hv => h v (List.mem_append_right _ hv)
    rw [Expr.lower]
    refine (ihl hl).bind fun _ _ => (ihr hr).bind fun _ _ => ?_
    split
    · exact .ok ()
    · exact .error rfl
  | call name args t s ih =>
    have hargs : ∀ e ∈ args, SlotsFit (e.lower env) := by
      intro e he
      refine ih e he fun v hv => h v ?_
      rw [Expr.variables, Expr.variablesAll_eq]
      exact List.mem_flatMap.mpr ⟨e, he, hv⟩
    rw [Expr.lower]
    split
    · exact .error rfl
    · split
      · exact Expr.slotsFit_lowerAll hargs
      · exact .error rfl

theorem Expr.slotsFit_lowerTarget {env : Environment} {e : Expr} (hvar : e.isVar = true)
    (h : ∀ v ∈ e.variables, env.hasSlot v = true) : SlotsFit (e.lowerTarget env) := by
  cases e with
  | var ref t s => exact Environment.slotsFit_slot (h ref List.mem_cons_self) s.start
  | literal text t s => cases hvar
  | unary op e t s => cases hvar
  | binary op l r t s => cases hvar
  | call name args t s => cases hvar

/-! ## Statements -/

namespace Lowering

variable {α β : Type}

/-- The slots are not what goes wrong in a step, wherever it starts. -/
def Fits (p : Lowering α) : Prop := ∀ position : Position, SlotsFit (p position).1

theorem fits_pure (a : α) : Fits (pure a) := fun _ => .ok a

theorem fits_set (position : Position) : Fits (set position : Lowering PUnit) :=
  fun _ => SlotsFit.ok PUnit.unit

theorem fits_liftExcept {r : Except Diagnostic α} (h : SlotsFit r) : Fits (liftExcept r) := by
  intro position
  cases r with
  | ok a => exact .ok a
  | error d => exact .error (h d rfl)

theorem Fits.bind {p : Lowering α} {f : α → Lowering β} (hp : Fits p) (hf : ∀ a, Fits (f a)) :
    Fits (p >>= f) := by
  intro position
  have hrun : (p >>= f) position = ExceptT.bindCont f (p position).1 (p position).2 := rfl
  have hfirst := hp position
  rw [hrun]
  cases hresult : (p position).1 with
  | ok a => exact hf a (p position).2
  | error d => exact .error (hfirst d hresult)

/-- What a statement starts with: its position is noted. -/
theorem fits_set_bind {p : Lowering α} (position : Position) (hp : Fits p) :
    Fits (do set position; p) :=
  (fits_set position).bind fun _ => hp

/-- What statements are made of: a part that gives no value, and the rest. -/
theorem fits_lift_bind {r : Except Diagnostic Unit} {p : Lowering α} (hr : SlotsFit r) (hp : Fits p) :
    Fits (do liftExcept r; p) :=
  (fits_liftExcept hr).bind fun _ => hp

end Lowering

open Lowering

/-- The variables of the expressions have slots, and the targets are variables. -/
structure Slotted (env : Environment) (expressions targets : List Expr) : Prop where
  slots : ∀ e ∈ expressions, ∀ v ∈ e.variables, env.hasSlot v = true
  targets : ∀ e ∈ targets, e.isVar = true

namespace Slotted

variable {env : Environment} {expressions targets expressions' targets' : List Expr}

/-- What holds of a statement holds of its parts. -/
theorem mono (h : Slotted env expressions targets) (he : expressions' ⊆ expressions)
    (ht : targets' ⊆ targets) : Slotted env expressions' targets' :=
  ⟨fun e hmem => h.slots e (he hmem), fun e hmem => h.targets e (ht hmem)⟩

theorem lower (h : Slotted env expressions targets) {e : Expr} (he : e ∈ expressions) :
    SlotsFit (e.lower env) :=
  Expr.slotsFit_lower (h.slots e he)

theorem lowerTarget (h : Slotted env expressions targets) {e : Expr} (he : e ∈ expressions)
    (ht : e ∈ targets) : SlotsFit (e.lowerTarget env) :=
  Expr.slotsFit_lowerTarget (h.targets e ht) (h.slots e he)

end Slotted

theorem Block.fits_of_forall {env : Environment} {b : Block}
    (h : ∀ x ∈ b.body, Slotted env x.expressions x.targets → Fits (x.lower env))
    (hb : Slotted env b.expressions b.targets) : Fits (b.lower env) := by
  have hall : ∀ ss : List Stmt, (∀ x ∈ ss, Fits (x.lower env)) → Fits (Block.lowerAll env ss) := by
    intro ss hss
    induction ss with
    | nil => exact fits_pure ()
    | cons s ss ih =>
      obtain ⟨hs, hss⟩ := List.forall_mem_cons.mp hss
      rw [Block.lowerAll]
      exact hs.bind fun _ => ih hss
  have heach : ∀ x ∈ b.body, Fits (x.lower env) := by
    intro x hx
    refine h x hx ⟨fun e he => hb.slots e ?_, fun e he => hb.targets e ?_⟩
    · rw [Block.expressions_eq]
      exact List.mem_flatMap.mpr ⟨x, hx, he⟩
    · rw [Block.targets_eq]
      exact List.mem_flatMap.mpr ⟨x, hx, he⟩
  cases b with
  | mk body s =>
    rw [Block.lower]
    exact hall body heach

/-- A statement whose variables have slots can fail for other reasons only. -/
theorem Stmt.fits_lower {env : Environment} {s : Stmt} (h : Slotted env s.expressions s.targets) :
    Fits (s.lower env) := by
  induction s with
  | expression e s =>
    have he := h.lower (e := e) (by simp [Stmt.expressions])
    rw [Stmt.lower]
    exact fits_set_bind _ (fits_liftExcept he)
  | assign target value s =>
    have hvalue := h.lower (e := value) (by simp [Stmt.expressions])
    have htarget := h.lowerTarget (e := target) (by simp [Stmt.expressions]) (by simp [Stmt.targets])
    rw [Stmt.lower]
    exact fits_set_bind _ (fits_lift_bind hvalue (fits_liftExcept htarget))
  | cond c yes no s ihy ihn =>
    cases no with
    | none =>
      have hc := h.lower (e := c) (by simp [Stmt.expressions])
      have hyes := Block.fits_of_forall ihy (h.mono (by simp [Stmt.expressions]) (by simp [Stmt.targets]))
      rw [Stmt.lower]
      exact fits_set_bind _ (fits_lift_bind hc hyes)
    | some no =>
      have hc := h.lower (e := c) (by simp [Stmt.expressions])
      have hyes := Block.fits_of_forall ihy (h.mono (by simp [Stmt.expressions]) (by simp [Stmt.targets]))
      have hno := Block.fits_of_forall (ihn no rfl)
        (h.mono (by simp [Stmt.expressions]) (by simp [Stmt.targets]))
      rw [Stmt.lower]
      exact fits_set_bind _ (fits_lift_bind hc (hyes.bind fun _ => hno))
  | count counter first last increment body s ihb =>
    have hcounter := h.lowerTarget (e := counter) (by simp [Stmt.expressions]) (by simp [Stmt.targets])
    have hfirst := h.lower (e := first) (by simp [Stmt.expressions])
    have hlast := h.lower (e := last) (by simp [Stmt.expressions])
    have hincrement : SlotsFit (Expr.lowerAll env increment.toList) := by
      refine Expr.slotsFit_lowerAll fun e he => h.lower ?_
      simp [Stmt.expressions, Option.mem_toList.mp he]
    have hsub : body.expressions ⊆ (Stmt.count counter first last increment body s).expressions := by
      intro e he
      simp [Stmt.expressions, he]
    have hbody := Block.fits_of_forall ihb (h.mono hsub (by simp [Stmt.targets]))
    rw [Stmt.lower]
    exact fits_set_bind _ (fits_lift_bind hcounter (fits_lift_bind hfirst (fits_lift_bind hlast
      (fits_lift_bind hincrement hbody))))
  | loop c body s ihb =>
    have hc := h.lower (e := c) (by simp [Stmt.expressions])
    have hbody := Block.fits_of_forall ihb (h.mono (by simp [Stmt.expressions]) (by simp [Stmt.targets]))
    rw [Stmt.lower]
    exact fits_set_bind _ (fits_lift_bind hc hbody)
  | loopUntil body c s ihb =>
    have hc := h.lower (e := c) (by simp [Stmt.expressions])
    have hbody := Block.fits_of_forall ihb (h.mono (by simp [Stmt.expressions]) (by simp [Stmt.targets]))
    rw [Stmt.lower]
    exact fits_set_bind _ (hbody.bind fun _ => fits_liftExcept hc)

theorem Block.fits_lower {env : Environment} {b : Block} (h : Slotted env b.expressions b.targets) :
    Fits (b.lower env) :=
  Block.fits_of_forall (fun _ _ => Stmt.fits_lower) h

/-! ## Programs -/

namespace Environment

theorem mem_addMissing {names more : List String} {name : String} (h : name ∈ names ∨ name ∈ more) :
    name ∈ addMissing names more := by
  induction more generalizing names with
  | nil => simpa [addMissing] using h
  | cons first more ih =>
    show name ∈ addMissing (if names.contains first then names else names ++ [first]) more
    apply ih
    rcases h with h | h
    · left
      split
      · exact h
      · exact List.mem_append_left _ h
    · rcases List.mem_cons.mp h with rfl | h
      · left
        split
        · next hmem => exact List.contains_iff_mem.mp hmem
        · simp
      · exact .inr h

/-- Making scripts known as functions gives no slots and takes none away. -/
theorem slots_declareScripts {existing : List String} {env env' : Environment} {ts : List TaggedScript}
    (h : declareScripts existing env ts = .ok env') :
    env'.globals = env.globals ∧ env'.persistents = env.persistents := by
  induction ts generalizing existing env with
  | nil =>
    cases h
    exact ⟨rfl, rfl⟩
  | cons t ts ih =>
    rw [declareScripts] at h
    split at h
    · cases h
    · have hrest := ih h
      exact hrest

/-- Making scripts known has nothing to do with slots. -/
theorem slotsFit_declareScripts (existing : List String) (env : Environment) (ts : List TaggedScript) :
    SlotsFit (declareScripts existing env ts) := by
  induction ts generalizing existing env with
  | nil => exact .ok env
  | cons t ts ih =>
    rw [declareScripts]
    split
    · exact .error rfl
    · exact ih _ _

end Environment

/-- The tables of a program list the variables that occur in its scripts, and its targets are
variables. -/
structure Analysis.Covers (a : Analysis) : Prop where
  locals : ∀ t ∈ a.scripts, ∀ name, ⟨name, .localSlot⟩ ∈ t.procedure.body.variables →
    name ∈ t.scope.locals.keys
  globals : ∀ t ∈ a.scripts, ∀ name, ⟨name, .globalSlot⟩ ∈ t.procedure.body.variables →
    name ∈ a.shared.globals.keys
  persistents : ∀ t ∈ a.scripts, ∀ name, ⟨name, .persistentSlot⟩ ∈ t.procedure.body.variables →
    name ∈ a.shared.persistents.keys
  targets : ∀ t ∈ a.scripts, ∀ e ∈ t.procedure.body.targets, e.isVar = true

/-- The slot of the result is among the local ones of every script that has a result. -/
theorem Scope.slotsFit_loadResult (s : Scope) (env : Environment) (position : Position) :
    SlotsFit (s.loadResult { env with locals := s.locals.keys } position) := by
  rw [Scope.loadResult]
  split
  · next huses =>
    apply Environment.slotsFit_slot
    exact List.contains_iff_mem.mpr ((s.locals.mem_keys_iff Variable.resultSlot).mpr huses)
  · exact .ok ()

theorem TaggedScript.fits_lower {env : Environment} {t : TaggedScript}
    (h : Slotted { env with locals := t.scope.locals.keys } t.procedure.body.expressions
      t.procedure.body.targets) : Fits (t.lower env) := by
  have hload := t.scope.slotsFit_loadResult env t.procedure.body.span.start
  exact fits_set_bind _ ((Block.fits_lower h).bind fun _ => fits_liftExcept hload)

theorem fits_lowerScripts {env : Environment} {ts : List TaggedScript}
    (h : ∀ t ∈ ts, Slotted { env with locals := t.scope.locals.keys } t.procedure.body.expressions
      t.procedure.body.targets) : Fits (lowerScripts env ts) := by
  induction ts with
  | nil => exact fits_pure ()
  | cons t ts ih =>
    obtain ⟨ht, hts⟩ := List.forall_mem_cons.mp h
    rw [lowerScripts]
    exact (TaggedScript.fits_lower ht).bind fun _ => ih hts

/-- Lowering a program whose tables list its variables never fails for a slot. -/
theorem Analysis.Covers.slotsFit_lower {a : Analysis} (h : a.Covers) (registry : Registry) :
    SlotsFit (a.lower registry) := by
  unfold Analysis.lower
  split
  · exact .error rfl
  · next entry _ =>
    refine SlotsFit.bind (Environment.slotsFit_declareScripts _ _ _) fun env hdeclare => ?_
    obtain ⟨hglobals, hpersistents⟩ := Environment.slots_declareScripts hdeclare
    have hslotted : ∀ t ∈ a.scripts, Slotted { env with locals := t.scope.locals.keys }
        t.procedure.body.expressions t.procedure.body.targets := by
      intro t ht
      refine ⟨fun e he v hv => ?_, h.targets t ht⟩
      have hmem : v ∈ t.procedure.body.variables := List.mem_flatMap.mpr ⟨e, he, hv⟩
      obtain ⟨name, storage⟩ := v
      cases storage with
      | localSlot => simpa [Environment.hasSlot] using h.locals t ht name hmem
      | globalSlot =>
        simp only [Environment.hasSlot, List.contains_iff_mem, hglobals]
        exact Environment.mem_addMissing (.inr (h.globals t ht name hmem))
      | persistentSlot =>
        simp only [Environment.hasSlot, List.contains_iff_mem, hpersistents]
        exact Environment.mem_addMissing (.inr (h.persistents t ht name hmem))
    refine SlotsFit.bind (fits_lowerScripts hslotted .nowhere) fun _ _ => ?_
    split
    · exact .ok ()
    · exact .error rfl

end Sigil
