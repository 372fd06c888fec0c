import Sigil.Log.Event
import Sigil.Lowering.Builtin
import Sigil.Typing.Scope

/-!
# What machine code is made against

While a script is lowered to machine code, variables have slots and functions have signatures. An
environment lists both.
-/

namespace Sigil

/-- The slots and the functions that code can refer to. -/
structure Environment where
  /-- The local variables with a slot. -/
  locals : List String
  /-- The global variables with a slot. -/
  globals : List String
  /-- The persistent variables with a slot. -/
  persistents : List String
  /-- The functions, by the names that scripts know them by. -/
  signatures : Table String Signature

namespace Environment

/-- The environment with the given functions and without any slot. -/
def ofSignatures (signatures : Table String Signature) : Environment := ⟨[], [], [], signatures⟩

/-- Whether a variable has a slot. -/
def hasSlot (env : Environment) (v : Variable) : Bool :=
  match v.storage with
  | .localSlot => env.locals.contains v.name
  | .globalSlot => env.globals.contains v.name
  | .persistentSlot => env.persistents.contains v.name

/-- Refers to the slot of a variable. -/
def slot (env : Environment) (v : Variable) (position : Position) : Except Diagnostic Unit :=
  if env.hasSlot v then .ok ()
  else .error ⟨.unknownVariable v.name v.storage.label, position⟩

/-- Makes the builtins of a registry known. -/
def declare (env : Environment) (registry : Registry) : Environment × List Event :=
  registry.entries.foldl
    (fun (env, log) (name, b) =>
      ({ env with signatures := env.signatures.insert name b.signature },
        log ++ [.declaredBuiltin name b.signature.render]))
    (env, [])

/-- The names with those that are missing among them added. -/
def addMissing (names more : List String) : List String :=
  more.foldl (fun names name => if names.contains name then names else names ++ [name]) names

/-- Gives slots to the global and persistent variables of a scope. -/
def createVariables (env : Environment) (scope : Scope) : Environment × List Event :=
  let globals := addMissing env.globals scope.globals.keys
  let persistents := addMissing env.persistents scope.persistents.keys
  ({ env with globals := globals, persistents := persistents },
    [.createdVariables globals.length persistents.length])

end Environment

end Sigil
