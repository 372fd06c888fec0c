import Mathlib.Data.List.Forall2
import Sigil.Proofs.Occurrence
import Sigil.Proofs.Scanning
import Sigil.Program.Analysis

/-!
# Programs are analysed script by script

The scripts of a program share a session and the table of their shared variables, and each script starts
with what those before it have left there. But tagging never looks at what a scope knows, so all that a
script gets from the others is entries of its scope for shared variables. Its tree, its parameters, its
arguments and local variables and what is found in it are those of the script alone.

`Analyzed` says how a program is put together from its scripts when all of them can be parsed. What is
proved of analysed programs elsewhere is proved by induction on it.
-/

namespace Sigil

/-! ## What is found in a tree -/

namespace Block

/-- The variables that tagging the block enters, with the types it enters them with. -/
def records (b : Block) : List (Variable × Ty) := b.trace.filterMap Action.record?

/-- What tagging the block collects as wrong. -/
def errors (b : Block) : List Diagnostic := b.trace.filterMap Action.error?

/-- What tagging the block collects as dubious. -/
def warnings (b : Block) : List Diagnostic := b.trace.filterMap Action.warning?

end Block

/-- The session `t` is `s` with the given diagnostics collected in addition. -/
structure Session.Collects (s t : Session) (errors warnings : List Diagnostic) : Prop where
  errors : t.errors = s.errors ++ errors
  warnings : t.warnings = s.warnings ++ warnings

namespace Session.Collects

variable {s t u : Session} {es ws es' ws' : List Diagnostic}

theorem nothing (he : t.errors = s.errors) (hw : t.warnings = s.warnings) : s.Collects t [] [] :=
  ⟨by rw [he, List.append_nil], by rw [hw, List.append_nil]⟩

theorem trans (h : s.Collects t es ws) (h' : t.Collects u es' ws') :
    s.Collects u (es ++ es') (ws ++ ws') where
  errors := by rw [h'.errors, h.errors, List.append_assoc]
  warnings := by rw [h'.warnings, h.warnings, List.append_assoc]

end Session.Collects

/-! ## One script -/

namespace Script

/-- What a script that is parsed to `b` is tagged as, where `shared` is known of the program. -/
def taggedAs (s : Script) (b : Block) (shared : Scope) : TaggedScript :=
  let scope := shared.fresh.recordAll b.records
  ⟨⟨s.name, paramNames scope.argCount, b.tagged⟩, scope⟩

theorem exists_tokens_of_parse {s : Script} {b : Block} (h : s.parse = .ok b) :
    ∃ tokens, (tokenize s.name s.source).result = .ok tokens ∧ parseTokens s.name tokens = .ok b := by
  unfold Script.parse at h
  cases hscan : (tokenize s.name s.source).result with
  | error d =>
    rw [hscan] at h
    cases h
  | ok tokens =>
    rw [hscan] at h
    exact ⟨tokens, rfl, h⟩

/-- A script that is parsed is tagged, and what tagging finds is collected. -/
theorem analyze_of_parse {s : Script} {b : Block} (h : s.parse = .ok b) (shared : Scope)
    (session : Session) :
    (s.analyze shared session).1 = .ok (s.taggedAs b shared) ∧
      session.Collects (s.analyze shared session).2 b.errors b.warnings := by
  obtain ⟨tokens, hscan, hparse⟩ := exists_tokens_of_parse h
  unfold Script.analyze
  simp only [hscan, hparse, Procedure.tag_eq]
  refine ⟨?_, ?_, ?_⟩
  · rw [Walk.scope_play]
    rfl
  · exact Walk.errors_play _ b.trace
  · exact Walk.warnings_play _ b.trace

/-- Of a script that is not parsed nothing is collected. -/
theorem analyze_of_error {s : Script} {d : Diagnostic} (h : s.parse = .error d) (shared : Scope)
    (session : Session) :
    (s.analyze shared session).1 = .error d ∧
      session.Collects (s.analyze shared session).2 [] [] := by
  unfold Script.parse at h
  unfold Script.analyze
  cases hscan : (tokenize s.name s.source).result with
  | error d' =>
    rw [hscan] at h
    cases h
    simp only [hscan]
    exact ⟨trivial, .nothing rfl rfl⟩
  | ok tokens =>
    rw [hscan] at h
    have hparse : parseTokens s.name tokens = .error d := h
    simp only [hscan, hparse]
    exact ⟨trivial, .nothing rfl rfl⟩

/-- What belongs to a script alone does not depend on what is known of the program. -/
theorem taggedAs_own (s : Script) (b : Block) (shared shared' : Scope) :
    (s.taggedAs b shared).scope.args = (s.taggedAs b shared').scope.args ∧
      (s.taggedAs b shared).scope.locals = (s.taggedAs b shared').scope.locals := by
  have hknown : ∀ cell : Cell, cell.isShared = false →
      (s.taggedAs b shared).scope.known cell = (s.taggedAs b shared').scope.known cell := by
    intro cell hcell
    simp [taggedAs, Scope.known_recordAll, Scope.known_fresh, hcell]
  constructor
  · exact Table.ext_get? fun index => hknown (.arg index) rfl
  · exact Table.ext_get? fun name => hknown (.localSlot name) rfl

/-- What is known already does not change the tagged tree. -/
theorem procedure_taggedAs (s : Script) (b : Block) (shared shared' : Scope) :
    (s.taggedAs b shared).procedure = (s.taggedAs b shared').procedure := by
  have hargs := (s.taggedAs_own b shared shared').1
  have hcount : (s.taggedAs b shared).scope.argCount = (s.taggedAs b shared').scope.argCount := by
    rw [Scope.argCount, hargs, Scope.argCount]
  show Procedure.mk s.name (paramNames (s.taggedAs b shared).scope.argCount) b.tagged = _
  rw [hcount]
  rfl

end Script

/-! ## Several scripts -/

theorem analyzeFrom_cons_of_parse {s : Script} {b : Block} (h : s.parse = .ok b) (shared : Scope)
    (session : Session) (rest : List Script) :
    let later := analyzeFrom (shared.absorb (s.taggedAs b shared).scope) (s.analyze shared session).2
      rest
    analyzeFrom shared session (s :: rest) =
      (later.1.map fun a => ⟨s.taggedAs b shared :: a.scripts, a.shared⟩, later.2) := by
  have hfirst := (Script.analyze_of_parse h shared session).1
  rw [analyzeFrom]
  revert hfirst
  generalize s.analyze shared session = first
  obtain ⟨result, found⟩ := first
  rintro rfl
  simp only
  generalize analyzeFrom (shared.absorb (s.taggedAs b shared).scope) found rest = later
  obtain ⟨result, last⟩ := later
  cases result with
  | error d => rfl
  | ok a => rfl

/-- The first script that is not parsed ends the analysis. -/
theorem analyzeFrom_cons_of_error {s : Script} {d : Diagnostic} (h : s.parse = .error d)
    (shared : Scope) (session : Session) (rest : List Script) :
    analyzeFrom shared session (s :: rest) = (.error d, (s.analyze shared session).2) := by
  have hfirst := (Script.analyze_of_error h shared session).1
  rw [analyzeFrom]
  revert hfirst
  generalize s.analyze shared session = first
  obtain ⟨result, found⟩ := first
  rintro rfl
  rfl

/-- Scripts that can be parsed, with what they are tagged as, in a program of which `shared` is known
before the first of them and `final` after the last. -/
inductive Analyzed : (shared : Scope) → List Script → List TaggedScript → (final : Scope) → Prop where
  /-- No script. -/
  | nil {shared : Scope} : Analyzed shared [] [] shared
  /-- A script, which hands on what it has learnt, and those after it. -/
  | cons {shared final : Scope} {s : Script} {b : Block} {rest : List Script} {ts : List TaggedScript}
      (hparse : s.parse = .ok b)
      (hrest : Analyzed (shared.absorb (s.taggedAs b shared).scope) rest ts final) :
      Analyzed shared (s :: rest) (s.taggedAs b shared :: ts) final

/-- An analysis that succeeds is put together from its scripts. -/
theorem analyzed_of_analyzeFrom {shared : Scope} {session : Session} {scripts : List Script}
    {a : Analysis} (h : (analyzeFrom shared session scripts).1 = .ok a) :
    Analyzed shared scripts a.scripts a.shared := by
  induction scripts generalizing shared session a with
  | nil =>
    cases h
    exact .nil
  | cons s rest ih =>
    cases hparse : s.parse with
    | error d =>
      rw [analyzeFrom_cons_of_error hparse] at h
      cases h
    | ok b =>
      rw [analyzeFrom_cons_of_parse hparse] at h
      cases hlater : (analyzeFrom (shared.absorb (s.taggedAs b shared).scope)
          (s.analyze shared session).2 rest).1 with
      | error d =>
        simp only [hlater] at h
        cases h
      | ok a' =>
        simp only [hlater] at h
        cases h
        exact .cons hparse (ih hlater)

theorem analyzed_of_analyze {scripts : List Script} {a : Analysis}
    (h : (analyze scripts).1 = .ok a) : Analyzed .empty scripts a.scripts a.shared :=
  analyzed_of_analyzeFrom h

/-! ## Sessions of several scripts -/

namespace Script

/-- The script can be split into tokens and parsed. -/
def Parses (s : Script) : Prop := ∃ b, s.parse = .ok b

/-- What is wrong in a script, as far as it can be parsed. -/
def errors (s : Script) : List Diagnostic :=
  match s.parse with
  | .ok b => b.errors
  | .error _ => []

/-- What is dubious in a script, as far as it can be parsed. -/
def warnings (s : Script) : List Diagnostic :=
  match s.parse with
  | .ok b => b.warnings
  | .error _ => []

/-- What is collected of a script is determined by the script. -/
theorem collects_analyze (s : Script) (shared : Scope) (session : Session) :
    session.Collects (s.analyze shared session).2 s.errors s.warnings := by
  unfold Script.errors Script.warnings
  cases h : s.parse with
  | ok b => exact (analyze_of_parse h shared session).2
  | error d => exact (analyze_of_error h shared session).2

end Script

theorem analyzeFrom_of_parses {scripts : List Script} (h : ∀ s ∈ scripts, s.Parses) (shared : Scope)
    (session : Session) :
    ∃ a, (analyzeFrom shared session scripts).1 = .ok a ∧
      session.Collects (analyzeFrom shared session scripts).2 (scripts.flatMap Script.errors)
        (scripts.flatMap Script.warnings) := by
  induction scripts generalizing shared session with
  | nil => exact ⟨_, rfl, .nothing rfl rfl⟩
  | cons s rest ih =>
    obtain ⟨hs, hrest⟩ := List.forall_mem_cons.mp h
    obtain ⟨b, hparse⟩ := hs
    obtain ⟨a, hok, hlater⟩ := ih hrest (shared.absorb (s.taggedAs b shared).scope)
      (s.analyze shared session).2
    have hfirst := s.collects_analyze shared session
    rw [analyzeFrom_cons_of_parse hparse]
    refine ⟨⟨s.taggedAs b shared :: a.scripts, a.shared⟩, ?_, hfirst.trans hlater⟩
    simp only [hok]
    rfl

theorem analyzeFrom_of_error {before : List Script} {s : Script} {d : Diagnostic}
    (h : ∀ r ∈ before, r.Parses) (hs : s.parse = .error d) (after : List Script) (shared : Scope)
    (session : Session) :
    (analyzeFrom shared session (before ++ s :: after)).1 = .error d ∧
      session.Collects (analyzeFrom shared session (before ++ s :: after)).2
        (before.flatMap Script.errors) (before.flatMap Script.warnings) := by
  induction before generalizing shared session with
  | nil =>
    have hfirst := (Script.analyze_of_error hs shared session).2
    rw [List.nil_append, analyzeFrom_cons_of_error hs]
    exact ⟨rfl, hfirst⟩
  | cons r rest ih =>
    obtain ⟨hr, hrest⟩ := List.forall_mem_cons.mp h
    obtain ⟨b, hparse⟩ := hr
    obtain ⟨herror, hlater⟩ := ih hrest (shared.absorb (r.taggedAs b shared).scope)
      (r.analyze shared session).2
    have hfirst := r.collects_analyze shared session
    rw [List.cons_append, analyzeFrom_cons_of_parse hparse]
    refine ⟨?_, hfirst.trans hlater⟩
    simp only [herror]
    rfl

/-- If not all scripts can be parsed, there is a first one that cannot. -/
theorem exists_first_failing {scripts : List Script} (h : ¬ ∀ s ∈ scripts, s.Parses) :
    ∃ before s after d, scripts = before ++ s :: after ∧ (∀ r ∈ before, r.Parses) ∧
      s.parse = .error d := by
  induction scripts with
  | nil => exact absurd (by simp) h
  | cons s rest ih =>
    cases hparse : s.parse with
    | error d => exact ⟨[], s, rest, d, rfl, nofun, hparse⟩
    | ok b =>
      have hrest : ¬ ∀ r ∈ rest, r.Parses := fun hrest =>
        h (List.forall_mem_cons.mpr ⟨⟨b, hparse⟩, hrest⟩)
      obtain ⟨before, r, after, d, rfl, hbefore, hr⟩ := ih hrest
      exact ⟨s :: before, r, after, d, rfl, List.forall_mem_cons.mpr ⟨⟨b, hparse⟩, hbefore⟩, hr⟩

/-! ## Scripts alone -/

theorem analyze_alone_of_parse {s : Script} {b : Block} (h : s.parse = .ok b) :
    ∃ a, (analyze [s]).1 = .ok a ∧ a.scripts = [s.taggedAs b .empty] := by
  refine ⟨⟨[s.taggedAs b .empty], Scope.empty.absorb (s.taggedAs b .empty).scope⟩, ?_, rfl⟩
  rw [analyze, analyzeFrom_cons_of_parse h]
  rfl

theorem collects_alone (s : Script) :
    (analyze [s]).2.errors = s.errors ∧ (analyze [s]).2.warnings = s.warnings := by
  have hsession : (analyze [s]).2 = (s.analyze .empty .empty).2 := by
    cases h : s.parse with
    | ok b => rw [analyze, analyzeFrom_cons_of_parse h]; rfl
    | error d => rw [analyze, analyzeFrom_cons_of_error h]
  have hcollects := s.collects_analyze .empty .empty
  rw [hsession]
  exact ⟨hcollects.errors, hcollects.warnings⟩

/-- When it is the only script of its program, the script is tagged as `t` too, up to what the scopes
have of shared variables. -/
def TaggedAlone (s : Script) (t : TaggedScript) : Prop :=
  ∃ a u, (analyze [s]).1 = .ok a ∧ a.scripts = [u] ∧ t.procedure = u.procedure ∧
    t.scope.args = u.scope.args ∧ t.scope.locals = u.scope.locals

/-- Each script is tagged among the others as it is alone. -/
theorem Analyzed.alone {shared final : Scope} {scripts : List Script} {ts : List TaggedScript}
    (h : Analyzed shared scripts ts final) : List.Forall₂ TaggedAlone scripts ts := by
  induction h with
  | nil => exact .nil
  | @cons shared _ s b _ _ hparse _ ih =>
    obtain ⟨a, hok, hscripts⟩ := analyze_alone_of_parse hparse
    have hprocedure := s.procedure_taggedAs b shared .empty
    obtain ⟨hargs, hlocals⟩ := s.taggedAs_own b shared .empty
    exact .cons ⟨a, _, hok, hscripts, hprocedure, hargs, hlocals⟩ ih

/-- The analysis of a program is put together from the analyses of its scripts, each alone, up to the
first script that cannot be parsed. -/
theorem analyze_scriptwise (scripts : List Script) :
    ((∀ s ∈ scripts, s.Parses) →
      ∃ a, (analyze scripts).1 = .ok a ∧ List.Forall₂ TaggedAlone scripts a.scripts ∧
        (analyze scripts).2.errors = scripts.flatMap (fun s => (analyze [s]).2.errors) ∧
        (analyze scripts).2.warnings = scripts.flatMap fun s => (analyze [s]).2.warnings) ∧
    ((¬ ∀ s ∈ scripts, s.Parses) →
      ∃ before s after d, scripts = before ++ s :: after ∧ (∀ r ∈ before, r.Parses) ∧ ¬ s.Parses ∧
        (analyze [s]).1 = .error d ∧ (analyze scripts).1 = .error d ∧
        (analyze scripts).2.errors = before.flatMap (fun s => (analyze [s]).2.errors) ∧
        (analyze scripts).2.warnings = before.flatMap fun s => (analyze [s]).2.warnings) := by
  have herrors : (fun s => (analyze [s]).2.errors) = Script.errors :=
    funext fun s => (collects_alone s).1
  have hwarnings : (fun s => (analyze [s]).2.warnings) = Script.warnings :=
    funext fun s => (collects_alone s).2
  rw [herrors, hwarnings]
  constructor
  · intro h
    obtain ⟨a, hok, hfound⟩ := analyzeFrom_of_parses h .empty .empty
    exact ⟨a, hok, (analyzed_of_analyze hok).alone, hfound.errors, hfound.warnings⟩
  · intro h
    obtain ⟨before, s, after, d, rfl, hbefore, hs⟩ := exists_first_failing h
    obtain ⟨herror, hfound⟩ := analyzeFrom_of_error hbefore hs after .empty .empty
    have hfails : ¬ s.Parses := by
      rintro ⟨b, hb⟩
      rw [hs] at hb
      cases hb
    have halone : (analyze [s]).1 = .error d := by
      rw [analyze, analyzeFrom_cons_of_error hs]
    exact ⟨before, s, after, d, rfl, hbefore, hfails, halone, herror, hfound.errors, hfound.warnings⟩

/-- A program of two scripts that can be parsed, and one of which the second cannot. -/
theorem analyze_scriptwise_two_scripts :
    (∃ a, (analyze [⟨"first", "total := 1"⟩, ⟨"second", "$1 := total"⟩]).1 = .ok a ∧
      List.Forall₂ TaggedAlone [⟨"first", "total := 1"⟩, ⟨"second", "$1 := total"⟩] a.scripts) ∧
    ∃ (before : List Script) (s : Script) (after : List Script) (d : Diagnostic),
      [⟨"first", "total := 1"⟩, ⟨"second", "$1 := (total"⟩] = before ++ s :: after ∧ ¬ s.Parses ∧
        (analyze [⟨"first", "total := 1"⟩, ⟨"second", "$1 := (total"⟩]).1 = .error d := by
  have hparses : ∀ s ∈ [⟨"first", "total := 1"⟩, ⟨"second", "$1 := total"⟩],
      (Script.parse s).toOption.isSome = true := by
    decide +kernel
  have hopen : (Script.parse ⟨"second", "$1 := (total"⟩).toOption.isNone = true := by
    decide +kernel
  constructor
  · obtain ⟨a, hok, htagged, -⟩ := (analyze_scriptwise _).1 fun s hs => by
      obtain ⟨b, hb⟩ := Option.isSome_iff_exists.mp (hparses s hs)
      exact ⟨b, eq_ok_of_toOption hb⟩
    exact ⟨a, hok, htagged⟩
  · have hfails : ¬ ∀ s ∈ [⟨"first", "total := 1"⟩, ⟨"second", "$1 := (total"⟩], Script.Parses s := by
      intro hall
      obtain ⟨b, hb⟩ := hall ⟨"second", "$1 := (total"⟩ (by simp)
      rw [hb] at hopen
      cases hopen
    obtain ⟨before, s, after, d, hsplit, -, hs, -, herror, -⟩ := (analyze_scriptwise _).2 hfails
    exact ⟨before, s, after, d, hsplit, hs, herror⟩

end Sigil
