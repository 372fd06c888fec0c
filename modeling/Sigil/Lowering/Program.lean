import Sigil.Lowering.Check

/-!
# Lowering of whole programs

All scripts of a program are made known as functions before the first of them is lowered, so they
may call each other in any order. The last one is run; it cannot take arguments.

The symbols of the machine code are left out. Functions and variables share them there: a script with
the name of a global variable is given another symbol, and neither its body nor a call of it finds the
function under the name of the script any more. Here such a script is lowered like any other.
-/

namespace Sigil

/-- Makes a script known as a function of integers. A builtin of the same name keeps its place. -/
def Environment.addScript (env : Environment) (p : Procedure) : Environment :=
  { env with
    signatures := env.signatures.alter p.name fun
      | some known => known
      | none => ⟨p.name, .int, p.params.map fun _ => .int, none⟩ }

/-- Makes scripts known, none of which may have the name of a function that exists already. -/
def declareScripts (existing : List String) (env : Environment) :
    List TaggedScript → Except Diagnostic Environment
  | [] => .ok env
  | t :: ts =>
    let p := t.procedure
    if existing.contains p.name then .error ⟨.duplicateFunction p.name, p.body.span.start⟩
    else declareScripts (p.name :: existing) (env.addScript p) ts

/-- Loads the result of a script from its slot, if the script has one. -/
def Scope.loadResult (s : Scope) (env : Environment) (position : Position) :
    Except Diagnostic Unit :=
  if s.usesResult then env.slot ⟨Variable.resultSlot, .localSlot⟩ position else .ok ()

/-- Lowers a script, with slots for its own local variables. -/
def TaggedScript.lower (t : TaggedScript) (env : Environment) : Lowering Unit := do
  let start := t.procedure.body.span.start
  let own := { env with locals := t.scope.locals.keys }
  set start
  t.procedure.body.lower own
  liftExcept (t.scope.loadResult own start)

/-- Lowers scripts, one after the other. -/
def lowerScripts (env : Environment) : List TaggedScript → Lowering Unit
  | [] => return ()
  | t :: ts => do
    t.lower env
    lowerScripts env ts

/-- Lowers a program. -/
def Analysis.lower (a : Analysis) (registry : Registry) : Except Diagnostic Unit :=
  match a.scripts.getLast? with
  | none => .error ⟨.noScript, .nowhere⟩
  | some entry => do
    let p := entry.procedure
    let env := ((Environment.ofSignatures .empty).declare registry).1
    let env := (env.createVariables a.shared).1
    let env ← declareScripts (registry.entries.map (·.2.signature.name)) env a.scripts
    (lowerScripts env a.scripts .nowhere).1
    if p.params.isEmpty then return ()
    else throw ⟨.entryTakesArguments p.name p.params.length, ⟨1, p.name⟩⟩

/-- Analyses and lowers a program. -/
def build (scripts : List Script) (registry : Registry) : Except Diagnostic Analysis :=
  if scripts.isEmpty then .error ⟨.noScript, .nowhere⟩
  else do
    let a ← (analyze scripts).1
    a.lower registry
    return a

end Sigil
