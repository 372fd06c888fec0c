import Sigil.Typing.Scope

/-!
# What a scope knows

The four tables of a scope are looked at through one view: a cell is an entry that a table can have, and
`known` gives what the scope knows for it. A variable is entered in one cell or two, since local
variables that are arguments have an entry of each kind. Two scopes with the same view are equal.

Entering variables combines, cell by cell, what was known with what is learnt. The combination is
associative and idempotent, and what is learnt from several variables does not depend on the scope that
they are entered into. So entering the same variables twice is the same as entering them once.
-/

namespace Sigil

/-! ## Refinement of types -/

namespace Ty

theorem refine_of_isDefined {t : Ty} (h : t.isDefined = true) (old : Ty) : old.refine t = t := by
  rw [refine, if_pos h]

theorem undetermined_refine (t : Ty) : undetermined.refine t = t := by
  cases t <;> rfl

/-- What is learnt in several goes is learnt in one. -/
theorem refine_assoc (a b c : Ty) : (a.refine b).refine c = a.refine (b.refine c) := by
  by_cases h : c.isDefined = true
  · rw [refine_of_isDefined h, refine_of_isDefined h, refine_of_isDefined h]
  · simp only [refine, h, Bool.false_eq_true, if_false]

theorem refine_self (t : Ty) : t.refine t = t := by
  cases t <;> rfl

instance : Std.Associative refine := ⟨refine_assoc⟩

instance : Std.IdempotentOp refine := ⟨refine_self⟩

end Ty

/-! ## Cells -/

/-- An entry that a scope can have. -/
inductive Cell where
  /-- The entry of an argument, by number. -/
  | arg (index : Nat)
  /-- The entry of a local variable. -/
  | localSlot (name : String)
  /-- The entry of a global variable. -/
  | globalSlot (name : String)
  /-- The entry of a persistent variable. -/
  | persistentSlot (name : String)
  deriving DecidableEq

/-- The cells that a variable is entered in. -/
def Variable.cells (v : Variable) : List Cell :=
  match v.storage with
  | .localSlot => .localSlot v.name :: (v.argumentIndex?.map Cell.arg).toList
  | .globalSlot => [.globalSlot v.name]
  | .persistentSlot => [.persistentSlot v.name]

namespace Scope

/-- What the scope knows for a cell, if it has an entry there. -/
def known (s : Scope) : Cell → Option Ty
  | .arg index => s.args.get? index
  | .localSlot name => s.locals.get? name
  | .globalSlot name => s.globals.get? name
  | .persistentSlot name => s.persistents.get? name

/-- A scope is what is known of each cell. -/
theorem ext_known {s t : Scope} (h : ∀ cell, s.known cell = t.known cell) : s = t := by
  have hargs : s.args = t.args := Table.ext_get? fun index => h (.arg index)
  have hlocals : s.locals = t.locals := Table.ext_get? fun name => h (.localSlot name)
  have hglobals : s.globals = t.globals := Table.ext_get? fun name => h (.globalSlot name)
  have hpersistents : s.persistents = t.persistents :=
    Table.ext_get? fun name => h (.persistentSlot name)
  cases s
  cases t
  simp_all

/-- What is known after something more is learnt. -/
abbrev combine (old new : Option Ty) : Option Ty := old.merge Ty.refine new

theorem combine_assoc (a b c : Option Ty) :
    combine (combine a b) c = combine a (combine b c) :=
  Std.Associative.assoc a b c

theorem combine_self (a : Option Ty) : combine a a = a :=
  Std.IdempotentOp.idempotent a

/-- Only what is learnt of a key changes in a table. -/
theorem get?_learn {κ : Type} [Ord κ] [Std.TransOrd κ] [Std.LawfulEqOrd κ] [DecidableEq κ]
    (t : Table κ Ty) (key other : κ) (type : Ty) :
    (learn t key type).get? other =
      combine (t.get? other) (if other = key then some type else none) := by
  rw [learn, Table.get?_alter]
  by_cases h : other = key
  · subst h
    rw [if_pos rfl, if_pos rfl]
    cases hold : t.get? other with
    | none => simp [Ty.undetermined_refine]
    | some old => simp
  · rw [if_neg h, if_neg h]
    exact Option.merge_none_right.symm

/-- Entering a variable adds its type to what is known for its cells, and changes nothing else. -/
theorem known_record (s : Scope) (v : Variable) (type : Ty) (cell : Cell) :
    (s.record v type).known cell =
      combine (s.known cell) (if cell ∈ v.cells then some type else none) := by
  unfold record Variable.cells
  cases hstorage : v.storage with
  | globalSlot => cases cell <;> simp [known, get?_learn]
  | persistentSlot => cases cell <;> simp [known, get?_learn]
  | localSlot =>
    cases cell with
    | arg index =>
      cases hindex : v.argumentIndex? with
      | none => simp [known]
      | some i => simp [known, get?_learn]
    | localSlot name => simp [known, get?_learn]
    | globalSlot name => simp [known]
    | persistentSlot name => simp [known]

/-! ## Entering several variables -/

/-- The scope with the variables entered, one after the other. -/
def recordAll (s : Scope) (records : List (Variable × Ty)) : Scope :=
  records.foldl (fun s r => s.record r.1 r.2) s

/-- What is learnt for a cell from the variables. -/
def learnt (cell : Cell) : List (Variable × Ty) → Option Ty
  | [] => none
  | (v, type) :: records =>
    combine (if cell ∈ v.cells then some type else none) (learnt cell records)

theorem learnt_append (cell : Cell) (records records' : List (Variable × Ty)) :
    learnt cell (records ++ records') = combine (learnt cell records) (learnt cell records') := by
  induction records with
  | nil => simp [learnt]
  | cons r records ih => rw [List.cons_append, learnt, learnt, ih, combine_assoc]

/-- What is known after entering variables is what was known, refined by what is learnt. -/
theorem known_recordAll (s : Scope) (records : List (Variable × Ty)) (cell : Cell) :
    (s.recordAll records).known cell = combine (s.known cell) (learnt cell records) := by
  induction records generalizing s with
  | nil => simp [recordAll, learnt]
  | cons r records ih =>
    calc ((s.record r.1 r.2).recordAll records).known cell
      _ = combine ((s.record r.1 r.2).known cell) (learnt cell records) := ih _
      _ = combine (s.known cell) (learnt cell (r :: records)) := by
        rw [known_record, combine_assoc, learnt]

/-- Variables from which the same is learnt lead to the same scope. -/
theorem recordAll_congr {records records' : List (Variable × Ty)}
    (h : ∀ cell, learnt cell records = learnt cell records') (s : Scope) :
    s.recordAll records = s.recordAll records' := by
  apply ext_known
  intro cell
  rw [known_recordAll, known_recordAll, h]

/-- Variables that are entered again change nothing. -/
theorem recordAll_recordAll (s : Scope) (records : List (Variable × Ty)) :
    (s.recordAll records).recordAll records = s.recordAll records := by
  apply ext_known
  intro cell
  rw [known_recordAll, known_recordAll, combine_assoc, combine_self]

/-- A type that is known for sure hides what was learnt of the same variable before. -/
theorem learnt_hidden {type : Ty} (h : type.isDefined = true) (v : Variable) (old : Ty)
    (records : List (Variable × Ty)) (cell : Cell) :
    learnt cell ((v, old) :: (records ++ [(v, type)])) = learnt cell (records ++ [(v, type)]) := by
  rw [learnt, learnt_append, learnt, learnt]
  by_cases hcell : cell ∈ v.cells
  · rw [if_pos hcell, if_pos hcell]
    cases learnt cell records with
    | none => simp [Ty.refine_of_isDefined h]
    | some t => simp [Ty.refine_of_isDefined h]
  · rw [if_neg hcell, if_neg hcell]
    simp

/-- The entries that a scope has after variables were entered are those it had and those of the
variables. -/
theorem isSome_known_recordAll (s : Scope) (records : List (Variable × Ty)) (cell : Cell) :
    ((s.recordAll records).known cell).isSome = true ↔
      (s.known cell).isSome = true ∨ ∃ r ∈ records, cell ∈ r.1.cells := by
  induction records generalizing s with
  | nil => simp [recordAll]
  | cons r records ih =>
    have hrecord : ((s.record r.1 r.2).known cell).isSome = true ↔
        (s.known cell).isSome = true ∨ cell ∈ r.1.cells := by
      rw [known_record]
      by_cases hcell : cell ∈ r.1.cells
      · simp [hcell]
      · simp [hcell]
    have hrest := ih (s.record r.1 r.2)
    rw [hrecord, or_assoc] at hrest
    simpa [recordAll] using hrest

/-! ## Scopes in scopes -/

theorem get?_learnAll (t other : Table String Ty) (name : String) :
    (learnAll t other).get? name = combine (t.get? name) (other.get? name) := by
  have hall : ∀ (es : List (String × Ty)) (t : Table String Ty),
      (es.Pairwise fun a b => compare a.1 b.1 = .lt) →
      (es.foldl (fun t e => learn t e.1 e.2) t).get? name =
        combine (t.get? name) (Table.lookup name es) := by
    intro es
    induction es with
    | nil => simp [Table.lookup]
    | cons e es ih =>
      intro t hes
      obtain ⟨key, type⟩ := e
      obtain ⟨hhead, htail⟩ := List.pairwise_cons.mp hes
      have hrest := ih (learn t key type) htail
      rw [List.foldl_cons, hrest, get?_learn, combine_assoc]
      by_cases hname : name = key
      -- The keys ascend, so what is learnt from the first entry is all there is for its key.
      · subst hname
        have hnone : Table.lookup name es = none := Table.lookup_eq_none hhead
        simp [Table.lookup, hnone]
      · have hcmp : compare name key ≠ .eq := fun h => hname (Std.LawfulEqCmp.eq_of_compare h)
        simp [Table.lookup, hname, hcmp]
  exact hall other.entries t other.ascending

end Scope

/-- The entry belongs to the program, not to one script of it. -/
def Cell.isShared : Cell → Bool
  | .globalSlot _ => true
  | .persistentSlot _ => true
  | _ => false

namespace Scope

/-- A script starts with the shared entries and without any of its own. -/
theorem known_fresh (s : Scope) (cell : Cell) :
    s.fresh.known cell = if cell.isShared then s.known cell else none := by
  cases cell <;> simp [fresh, known, Cell.isShared]

/-- What a script has learnt is added to the shared entries. -/
theorem known_absorb (s other : Scope) {cell : Cell} (h : cell.isShared = true) :
    (s.absorb other).known cell = combine (s.known cell) (other.known cell) := by
  cases cell with
  | arg index => cases h
  | localSlot name => cases h
  | globalSlot name => exact get?_learnAll _ _ name
  | persistentSlot name => exact get?_learnAll _ _ name

/-- A scope keeps its own variables when it absorbs another one. -/
theorem known_absorb_own (s other : Scope) {cell : Cell} (h : cell.isShared = false) :
    (s.absorb other).known cell = s.known cell := by
  cases cell with
  | arg index => rfl
  | localSlot name => rfl
  | globalSlot name => cases h
  | persistentSlot name => cases h

/-- Two scopes that know the same of the shared variables have the same shared tables. -/
theorem shared_ext {s t : Scope}
    (h : ∀ cell : Cell, cell.isShared = true → s.known cell = t.known cell) :
    s.globals = t.globals ∧ s.persistents = t.persistents :=
  ⟨Table.ext_get? fun name => h (.globalSlot name) rfl,
    Table.ext_get? fun name => h (.persistentSlot name) rfl⟩

/-- A script that starts from the shared entries hands all of them back: what it started with is learnt
twice, which is no more than once. -/
theorem known_absorb_fresh (s : Scope) (records : List (Variable × Ty)) {cell : Cell}
    (h : cell.isShared = true) :
    (s.absorb (s.fresh.recordAll records)).known cell = (s.fresh.recordAll records).known cell := by
  rw [known_absorb s _ h, known_recordAll, known_fresh, if_pos h, ← combine_assoc, combine_self]

end Scope

end Sigil
