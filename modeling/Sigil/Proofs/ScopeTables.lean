import Sigil.Proofs.Acceptance
import Sigil.Proofs.ScriptByScript
import Sigil.Proofs.Slots

/-!
# The tables of a program

The tables of an analysed program list exactly the variables that occur in it: those of a script its local
variables and its arguments, and those of the program the global and the persistent variables of all
scripts. Whatever is assigned to or counted with is a variable. So when the program is lowered, every
variable has a slot.

A call enters nothing. But a function may have the name of a variable, and then that name is in a table.
-/

namespace Sigil

/-! ## Targets of a parsed script -/

/-- The targets in a tree of the grammar. -/
def Nonterminal.targets : (s : Nonterminal) → s.Tree → List Expr
  | .expr _, _ => []
  | .arguments, _ => []
  | .stmt _, s => s.targets
  | .statements, ss => ss.flatMap Stmt.targets
  | .block, b => b.targets

/-- The targets in a phrase are those that its grammar admits. -/
theorem Phrase.target_of_mem {target : Expr → Prop} {s : Nonterminal} {next : Kind}
    {ts : List Token} {tree : s.Tree} (h : Phrase target s next ts tree) :
    ∀ e ∈ s.targets tree, target e := by
  induction h with
  | assign _ ht _ _ _ => simpa [Nonterminal.targets, Stmt.targets] using ht
  | cond _ _ _ _ _ _ _ _ ih => exact ih
  | condElse _ _ _ _ _ _ _ _ _ _ ihy ihn =>
    intro e he
    rcases List.mem_append.mp he with he | he
    · exact ihy e he
    · exact ihn e he
  | count _ _ _ ht _ _ _ _ _ _ _ _ _ _ _ ih => exact List.forall_mem_cons.mpr ⟨ht, ih⟩
  | countBy _ _ _ ht _ _ _ _ _ _ _ _ _ _ _ _ _ _ ih => exact List.forall_mem_cons.mpr ⟨ht, ih⟩
  | loop _ _ _ _ _ _ _ _ ih => exact ih
  | loopUntil _ _ _ _ _ _ _ ih _ => exact ih
  | blankLine _ _ ih => exact ih
  | moreStatements _ _ ihs ihss =>
    intro e he
    rcases List.mem_append.mp he with he | he
    · exact ihs e he
    · exact ihss e he
  | block _ ih =>
    intro e he
    rw [Nonterminal.targets, Block.targets_eq] at he
    exact ih e he
  | _ => exact List.forall_mem_nil _

/-- What a parsed script assigns to or counts with is a variable. -/
theorem Script.isVar_of_parse {s : Script} {b : Block} (h : s.parse = .ok b) :
    ∀ e ∈ b.targets, e.isVar = true := by
  obtain ⟨tokens, -, hb⟩ := Script.exists_tokens_of_parse h
  obtain ⟨d, hrun, -⟩ := parseTokens_eq_ok_iff.mp hb
  have hclosed := Cursor.closed_ofTokens s.name tokens
  obtain ⟨ts, -, p⟩ := sound_rules _ .block _ _ _ hclosed trivial hrun
  have hunplaced : ∀ e ∈ b.unplaced.targets, e.isVar = true := Phrase.target_of_mem p
  rw [Block.targets_mapSpans_of_forall fun x _ => x.targets_mapSpans _] at hunplaced
  intro e he
  have hvar := hunplaced _ (List.mem_map_of_mem he)
  rwa [Expr.isVar_mapSpans] at hvar

/-! ## Entries and variables -/

namespace Variable

theorem arg_mem_cells {v : Variable} {k : Nat} : Cell.arg k ∈ v.cells ↔ v.argumentIndex? = some k := by
  obtain ⟨name, storage⟩ := v
  cases storage with
  | localSlot => simp [cells]
  | globalSlot => simp [cells, argumentIndex?]
  | persistentSlot => simp [cells, argumentIndex?]

theorem localSlot_mem_cells {v : Variable} {name : String} :
    Cell.localSlot name ∈ v.cells ↔ v = ⟨name, .localSlot⟩ := by
  obtain ⟨name', storage⟩ := v
  cases storage <;> simp [cells, @eq_comm _ name]

theorem globalSlot_mem_cells {v : Variable} {name : String} :
    Cell.globalSlot name ∈ v.cells ↔ v = ⟨name, .globalSlot⟩ := by
  obtain ⟨name', storage⟩ := v
  cases storage <;> simp [cells, @eq_comm _ name]

theorem persistentSlot_mem_cells {v : Variable} {name : String} :
    Cell.persistentSlot name ∈ v.cells ↔ v = ⟨name, .persistentSlot⟩ := by
  obtain ⟨name', storage⟩ := v
  cases storage <;> simp [cells, @eq_comm _ name]

end Variable

namespace Scope

theorem mem_keys_args (s : Scope) (k : Nat) : k ∈ s.args.keys ↔ (s.known (.arg k)).isSome = true :=
  s.args.mem_keys_iff k

theorem mem_keys_locals (s : Scope) (name : String) :
    name ∈ s.locals.keys ↔ (s.known (.localSlot name)).isSome = true :=
  s.locals.mem_keys_iff name

theorem mem_keys_globals (s : Scope) (name : String) :
    name ∈ s.globals.keys ↔ (s.known (.globalSlot name)).isSome = true :=
  s.globals.mem_keys_iff name

theorem mem_keys_persistents (s : Scope) (name : String) :
    name ∈ s.persistents.keys ↔ (s.known (.persistentSlot name)).isSome = true :=
  s.persistents.mem_keys_iff name

end Scope

/-- The scope of a script has the entries of the variables that occur in it, and the shared ones that it
started with. -/
theorem Script.isSome_known_taggedAs (s : Script) (b : Block) (shared : Scope) (cell : Cell) :
    ((s.taggedAs b shared).scope.known cell).isSome = true ↔
      (cell.isShared = true ∧ (shared.known cell).isSome = true) ∨ ∃ v ∈ b.variables, cell ∈ v.cells := by
  have hrecords : (∃ r ∈ b.records, cell ∈ r.1.cells) ↔ ∃ v ∈ b.variables, cell ∈ v.cells := by
    constructor
    · rintro ⟨r, hr, hcell⟩
      exact ⟨r.1, (b.mem_entered_trace r.1).mp (List.mem_map_of_mem hr), hcell⟩
    · rintro ⟨v, hv, hcell⟩
      obtain ⟨r, hr, rfl⟩ := List.mem_map.mp ((b.mem_entered_trace v).mpr hv)
      exact ⟨r, hr, hcell⟩
  rw [taggedAs, Scope.isSome_known_recordAll, hrecords, Scope.known_fresh]
  by_cases h : cell.isShared = true
  · simp [h]
  · simp [h]

/-- A program has the entries that were known before a script was analysed, and those of variables that
occur in it. -/
theorem Script.known_or_occurs {s : Script} {b : Block} {shared : Scope} {cell : Cell}
    (h : ((shared.absorb (s.taggedAs b shared).scope).known cell).isSome = true) :
    (shared.known cell).isSome = true ∨ ∃ v ∈ b.variables, cell ∈ v.cells := by
  by_cases hcell : cell.isShared = true
  · have habsorb : (shared.absorb (s.taggedAs b shared).scope).known cell =
        (s.taggedAs b shared).scope.known cell := shared.known_absorb_fresh b.records hcell
    rw [habsorb, s.isSome_known_taggedAs b shared] at h
    exact h.imp_left And.right
  · rw [shared.known_absorb_own _ (Bool.not_eq_true _ ▸ hcell)] at h
    exact .inl h

/-- The highest number of an argument is the number of parameters. -/
theorem Scope.argCount_spec (s : Scope) :
    (∀ k ∈ s.args.keys, k ≤ s.argCount) ∧ (s.argCount = 0 ∨ s.argCount ∈ s.args.keys) := by
  have hall : ∀ (ks : List Nat) (n : Nat), n ≤ ks.foldl max n ∧ (∀ k ∈ ks, k ≤ ks.foldl max n) ∧
      (ks.foldl max n = n ∨ ks.foldl max n ∈ ks) := by
    intro ks
    induction ks with
    | nil => simp
    | cons k ks ih =>
      intro n
      obtain ⟨hstart, hle, hmem⟩ := ih (max n k)
      rw [List.foldl_cons]
      refine ⟨by omega, List.forall_mem_cons.mpr ⟨by omega, hle⟩, ?_⟩
      rcases hmem with hmem | hmem
      · rw [hmem]
        rcases Nat.le_total n k with hnk | hnk
        · right
          rw [Nat.max_eq_right hnk]
          exact List.mem_cons_self
        · left
          exact Nat.max_eq_left hnk
      · exact .inr (List.mem_cons_of_mem _ hmem)
  exact (hall s.args.keys 0).2

/-- The tables of a tagged script list its variables. -/
structure TaggedScript.ListsVariables (t : TaggedScript) : Prop where
  /-- The local variables are those that occur. -/
  locals : ∀ name, name ∈ t.scope.locals.keys ↔ ⟨name, .localSlot⟩ ∈ t.procedure.body.variables
  /-- The arguments are the numbers of those that occur. -/
  args : ∀ k, k ∈ t.scope.args.keys ↔ ∃ v ∈ t.procedure.body.variables, v.argumentIndex? = some k
  /-- The parameters are numbered from 1 to the largest number that occurs. -/
  params : ∃ n, t.procedure.params = (List.range n).map (fun i => toString (i + 1)) ∧
    (∀ v ∈ t.procedure.body.variables, ∀ k, v.argumentIndex? = some k → k ≤ n) ∧
    (n = 0 ∨ ∃ v ∈ t.procedure.body.variables, v.argumentIndex? = some n)
  /-- What is assigned to or counted with is a variable. -/
  targets : ∀ e ∈ t.procedure.body.targets, e.isVar = true

/-- The tables of a script list its variables. -/
theorem Script.listsVariables_taggedAs {s : Script} {b : Block} (h : s.parse = .ok b) (shared : Scope) :
    (s.taggedAs b shared).ListsVariables := by
  have hbody : (s.taggedAs b shared).procedure.body.variables = b.variables := b.variables_tagged
  have hargs : ∀ k, k ∈ (s.taggedAs b shared).scope.args.keys ↔
      ∃ v ∈ b.variables, v.argumentIndex? = some k := by
    intro k
    rw [Scope.mem_keys_args, s.isSome_known_taggedAs b shared]
    simp [Cell.isShared, Variable.arg_mem_cells]
  have hlocals : ∀ name, name ∈ (s.taggedAs b shared).scope.locals.keys ↔
      ⟨name, .localSlot⟩ ∈ b.variables := by
    intro name
    rw [Scope.mem_keys_locals, s.isSome_known_taggedAs b shared]
    simp [Cell.isShared, Variable.localSlot_mem_cells]
  obtain ⟨hle, hmax⟩ := (s.taggedAs b shared).scope.argCount_spec
  constructor
  · rw [hbody]
    exact hlocals
  · rw [hbody]
    exact hargs
  · rw [hbody]
    refine ⟨(s.taggedAs b shared).scope.argCount, rfl, ?_, ?_⟩
    · intro v hv k hk
      exact hle k ((hargs k).mpr ⟨v, hv, hk⟩)
    · rcases hmax with hmax | hmax
      · exact .inl hmax
      · exact .inr ((hargs _).mp hmax)
  · have htargets := Expr.typeBlind_isVar.targets b
    intro e he
    have hmem : e.isVar ∈ b.tagged.targets.map Expr.isVar := List.mem_map_of_mem he
    rw [htargets] at hmem
    obtain ⟨e', he', heq⟩ := List.mem_map.mp hmem
    rw [← heq]
    exact Script.isVar_of_parse h e' he'

/-! ## Programs -/

/-- A variable with the given entry occurs in one of the scripts. -/
def OccursIn (ts : List TaggedScript) (cell : Cell) : Prop :=
  ∃ t ∈ ts, ∃ v ∈ t.procedure.body.variables, cell ∈ v.cells

theorem occursIn_cons {s : Script} {b : Block} {shared : Scope} {ts : List TaggedScript} {cell : Cell} :
    OccursIn (s.taggedAs b shared :: ts) cell ↔
      (∃ v ∈ b.variables, cell ∈ v.cells) ∨ OccursIn ts cell := by
  have hbody : (s.taggedAs b shared).procedure.body.variables = b.variables := b.variables_tagged
  simp [OccursIn, hbody]

/-- The tagged script has the variables and the calls of the parsed one. -/
def KeepsOccurrences (s : Script) (t : TaggedScript) : Prop :=
  ∃ b, s.parse = .ok b ∧ t.procedure.body.variables = b.variables ∧ t.procedure.body.calls = b.calls

namespace Analyzed

variable {shared final : Scope} {scripts : List Script} {ts : List TaggedScript}

/-- The shared tables list the shared variables that were known before and those of the scripts. -/
theorem isSome_known_final (h : Analyzed shared scripts ts final) {cell : Cell}
    (hcell : cell.isShared = true) :
    (final.known cell).isSome = true ↔ (shared.known cell).isSome = true ∨ OccursIn ts cell := by
  induction h with
  | nil => simp [OccursIn]
  | @cons shared final s b rest ts hparse hrest ih =>
    have habsorb : (shared.absorb (s.taggedAs b shared).scope).known cell =
        (s.taggedAs b shared).scope.known cell := shared.known_absorb_fresh b.records hcell
    have hknown := s.isSome_known_taggedAs b shared cell
    rw [ih, habsorb, hknown, occursIn_cons]
    simp [hcell, or_assoc]

theorem occursIn_of_known_final (h : Analyzed shared scripts ts final) {cell : Cell}
    (hknown : (final.known cell).isSome = true) :
    (shared.known cell).isSome = true ∨ OccursIn ts cell := by
  induction h with
  | nil => exact .inl hknown
  | @cons shared final s b rest ts hparse hrest ih =>
    rw [occursIn_cons]
    rcases ih hknown with hbefore | hafter
    · rw [← or_assoc]
      exact .inl (Script.known_or_occurs hbefore)
    · exact .inr (.inr hafter)

/-- A script knows nothing but what is shared with it and what occurs in the scripts. -/
theorem occursIn_of_known (h : Analyzed shared scripts ts final) {t : TaggedScript} (ht : t ∈ ts)
    {cell : Cell} (hknown : (t.scope.known cell).isSome = true) :
    (shared.known cell).isSome = true ∨ OccursIn ts cell := by
  induction h with
  | nil => cases ht
  | @cons shared final s b rest ts hparse hrest ih =>
    rw [occursIn_cons, ← or_assoc]
    rcases List.mem_cons.mp ht with rfl | ht
    · rw [s.isSome_known_taggedAs b shared] at hknown
      exact .inl (hknown.imp_left And.right)
    · rcases ih ht with hbefore | hafter
      · exact .inl (Script.known_or_occurs hbefore)
      · exact .inr hafter

theorem listsVariables (h : Analyzed shared scripts ts final) :
    ∀ t ∈ ts, t.ListsVariables := by
  induction h with
  | nil => nofun
  | @cons shared final s b rest ts hparse hrest ih =>
    exact List.forall_mem_cons.mpr ⟨s.listsVariables_taggedAs hparse shared, ih⟩

theorem keepsOccurrences (h : Analyzed shared scripts ts final) :
    List.Forall₂ KeepsOccurrences scripts ts := by
  induction h with
  | nil => exact .nil
  | @cons shared final s b rest ts hparse hrest ih =>
    exact .cons ⟨b, hparse, b.variables_tagged, b.calls_tagged⟩ ih

end Analyzed

/-- The names in the tables of a scope. -/
def Scope.names (s : Scope) : List String := s.locals.keys ++ (s.globals.keys ++ s.persistents.keys)

/-- A name in a table of a scope is that of a variable that the scope has an entry for. -/
theorem Scope.exists_cell_of_mem_names {s : Scope} {name : String} (h : name ∈ s.names) :
    ∃ cell : Cell, (s.known cell).isSome = true ∧ ∀ v : Variable, cell ∈ v.cells → v.name = name := by
  rcases List.mem_append.mp h with h | h
  · refine ⟨.localSlot name, (s.mem_keys_locals name).mp h, fun v hv => ?_⟩
    rw [Variable.localSlot_mem_cells.mp hv]
  · rcases List.mem_append.mp h with h | h
    · refine ⟨.globalSlot name, (s.mem_keys_globals name).mp h, fun v hv => ?_⟩
      rw [Variable.globalSlot_mem_cells.mp hv]
    · refine ⟨.persistentSlot name, (s.mem_keys_persistents name).mp h, fun v hv => ?_⟩
      rw [Variable.persistentSlot_mem_cells.mp hv]

/-- The tables of the analysis list the variables of the scripts, and lowering finds all of them. -/
structure Analysis.ListsVariables (a : Analysis) (scripts : List Script) : Prop where
  /-- Nothing that occurs in a script is lost or added. -/
  occurrences : List.Forall₂ KeepsOccurrences scripts a.scripts
  /-- The tables of each script list its variables. -/
  scripts : ∀ t ∈ a.scripts, t.ListsVariables
  /-- The global variables are those that occur in any script. -/
  globals : ∀ name, name ∈ a.shared.globals.keys ↔
    ∃ t ∈ a.scripts, ⟨name, .globalSlot⟩ ∈ t.procedure.body.variables
  /-- The persistent variables are those that occur in any script. -/
  persistents : ∀ name, name ∈ a.shared.persistents.keys ↔
    ∃ t ∈ a.scripts, ⟨name, .persistentSlot⟩ ∈ t.procedure.body.variables
  /-- The name of a function that is called is in no table, unless a variable has the same name. -/
  calls : ∀ t ∈ a.scripts, ∀ function ∈ t.procedure.body.calls,
    (∀ u ∈ a.scripts, ∀ v ∈ u.procedure.body.variables, v.name ≠ function) →
      function ∉ a.shared.names ∧ ∀ u ∈ a.scripts, function ∉ u.scope.names
  /-- Lowering meets no variable without a slot, and no target that is not a variable. -/
  slots : ∀ (registry : Registry) (d : Diagnostic), a.lower registry = .error d →
    (∀ slot storage, d.cause ≠ .unknownVariable slot storage) ∧ d.cause ≠ .invalidTarget

/-- The shared tables list the variables of all scripts. -/
theorem Analyzed.mem_keys_shared {scripts : List Script} {ts : List TaggedScript} {final : Scope}
    (h : Analyzed .empty scripts ts final) (name : String) :
    (name ∈ final.globals.keys ↔ ∃ t ∈ ts, ⟨name, .globalSlot⟩ ∈ t.procedure.body.variables) ∧
      (name ∈ final.persistents.keys ↔
        ∃ t ∈ ts, ⟨name, .persistentSlot⟩ ∈ t.procedure.body.variables) := by
  constructor
  · rw [Scope.mem_keys_globals, h.isSome_known_final rfl]
    simp [Scope.empty, Scope.known, OccursIn, Variable.globalSlot_mem_cells]
  · rw [Scope.mem_keys_persistents, h.isSome_known_final rfl]
    simp [Scope.empty, Scope.known, OccursIn, Variable.persistentSlot_mem_cells]

/-- A name in a table of an analysed program is that of a variable. -/
theorem Analyzed.exists_variable {scripts : List Script} {ts : List TaggedScript} {final : Scope}
    (h : Analyzed .empty scripts ts final) {scope : Scope}
    (hscope : scope = final ∨ ∃ t ∈ ts, scope = t.scope) {name : String} (hname : name ∈ scope.names) :
    ∃ t ∈ ts, ∃ v ∈ t.procedure.body.variables, v.name = name := by
  obtain ⟨cell, hknown, hcell⟩ := Scope.exists_cell_of_mem_names hname
  have hempty : (Scope.empty.known cell).isSome = false := by cases cell <;> rfl
  have hoccurs : (Scope.empty.known cell).isSome = true ∨ OccursIn ts cell := by
    rcases hscope with rfl | ⟨t, ht, rfl⟩
    · exact h.occursIn_of_known_final hknown
    · exact h.occursIn_of_known ht hknown
  rw [hempty] at hoccurs
  rcases hoccurs with hoccurs | ⟨t, ht, v, hv, hmem⟩
  · cases hoccurs
  · exact ⟨t, ht, v, hv, hcell v hmem⟩

/-- The tables of an analysed program list exactly its variables, so that lowering finds a slot for each of
them. -/
theorem analyze_lists_variables {scripts : List Script} {a : Analysis}
    (h : (analyze scripts).1 = .ok a) : a.ListsVariables scripts := by
  have hrun := analyzed_of_analyze h
  have hlists := hrun.listsVariables
  have hcovers : a.Covers := {
    locals := fun t ht name hname => ((hlists t ht).locals name).mpr hname
    globals := fun t ht name hname => (hrun.mem_keys_shared name).1.mpr ⟨t, ht, hname⟩
    persistents := fun t ht name hname => (hrun.mem_keys_shared name).2.mpr ⟨t, ht, hname⟩
    targets := fun t ht => (hlists t ht).targets }
  constructor
  · exact hrun.keepsOccurrences
  · exact hlists
  · exact fun name => (hrun.mem_keys_shared name).1
  · exact fun name => (hrun.mem_keys_shared name).2
  · intro t ht function hcall hfree
    constructor
    · intro hname
      obtain ⟨u, hu, v, hv, heq⟩ := hrun.exists_variable (.inl rfl) hname
      exact hfree u hu v hv heq
    · intro u hu hname
      obtain ⟨u', hu', v, hv, heq⟩ := hrun.exists_variable (.inr ⟨u, hu, rfl⟩) hname
      exact hfree u' hu' v hv heq
  · intro registry d hd
    have habout := hcovers.slotsFit_lower registry d hd
    constructor
    · intro slot storage hcause
      simp [Diagnostic.aboutSlots, hcause] at habout
    · intro hcause
      simp [Diagnostic.aboutSlots, hcause] at habout

/-- Two scripts with variables of all kinds, one of which is called by the other. -/
theorem analyze_lists_variables_two_scripts :
    ∃ a, (analyze [⟨"sum", "$0 := $1 + $3 + <>kept"⟩,
        ⟨"main", "for($i; 1; sum($2))\ntotal := sum(total; $i)\nend for"⟩]).1 = .ok a ∧
      a.ListsVariables [⟨"sum", "$0 := $1 + $3 + <>kept"⟩,
        ⟨"main", "for($i; 1; sum($2))\ntotal := sum(total; $i)\nend for"⟩] := by
  have hrun : (analyze [⟨"sum", "$0 := $1 + $3 + <>kept"⟩,
      ⟨"main", "for($i; 1; sum($2))\ntotal := sum(total; $i)\nend for"⟩]).1.toOption.isSome = true := by
    decide +kernel
  obtain ⟨a, ha⟩ := Option.isSome_iff_exists.mp hrun
  have hok := eq_ok_of_toOption ha
  exact ⟨a, hok, analyze_lists_variables hok⟩

/-- A function may have the name of a variable, and then its name is in a table. -/
theorem called_name_in_table :
    ∃ a, (analyze [⟨"unit", "foo := foo()"⟩]).1 = .ok a ∧
      ∃ t ∈ a.scripts, "foo" ∈ t.procedure.body.calls ∧ "foo" ∈ a.shared.names := by
  have hrun : ((analyze [⟨"unit", "foo := foo()"⟩]).1.toOption.any fun a =>
      a.shared.names.contains "foo" &&
        a.scripts.any fun t => t.procedure.body.calls.contains "foo") = true := by
    decide +kernel
  obtain ⟨a, ha, hfound⟩ := Option.any_eq_true _ _ |>.mp hrun
  simp only [Bool.and_eq_true, List.any_eq_true, List.contains_iff_mem] at hfound
  obtain ⟨hname, t, ht, hcall⟩ := hfound
  exact ⟨a, eq_ok_of_toOption ha, t, ht, hcall, hname⟩

end Sigil
