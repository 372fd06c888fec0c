import Sigil.CommandLine.Input
import Sigil.Diagnostic.Excerpt
import Sigil.Lowering.Program
import Sigil.Tree.Outline

/-!
# Runs of the program

A run reads its command line, then its scripts, and then analyses and lowers them. It ends with an
exit code and two texts, one of results and one of complaints. A command line that is misused ends
with code 2, anything else that goes wrong with code 1. Lowering only finds what cannot be expressed in
machine code and writes none, so what is asked for that code is accepted and left undone.
-/

namespace Sigil

/-- What a run leaves behind. -/
structure Outcome where
  /-- The exit code. -/
  code : Nat
  /-- The text of results. -/
  output : String
  /-- The text of complaints and of the log. -/
  errors : String
  deriving DecidableEq

/-- What a run that does no work leaves behind. -/
def Halt.outcome : Halt → Outcome
  | help => ⟨0, helpText, ""⟩
  | version => ⟨0, versionText, ""⟩
  | misuse e => ⟨2, "", e.render⟩

/-- The filter of the log. Unless the command line says how much to log, the given directives do if
they can be read, and otherwise warnings are shown. -/
def Invocation.filter (i : Invocation) (directives : Option String) : Filter :=
  if i.quiet then .ofLevel .error
  else
    match i.verbosity with
    | 0 => (directives.bind Filter.ofText?).getD (.ofLevel .warn)
    | 1 => .ofLevel .info
    | 2 => .ofLevel .debug
    | _ => .ofLevel .trace

/-- The diagnostic with the line it points at, which is a line of the first script of that name. -/
def Diagnostic.renderAmong (d : Diagnostic) (scripts : List Script) : String :=
  d.render (((scripts.find? (·.name = d.position.file)).map (·.source)).getD "")

/-- Analyses and lowers scripts. -/
def Invocation.work (i : Invocation) (filter : Filter) (log : List Event)
    (scripts : List Script) : Outcome :=
  let log := filter.render programName (log ++ (analyze scripts).2.log)
  match build scripts .standard with
  | .error d => ⟨1, "", log ++ d.renderAmong scripts⟩
  | .ok a =>
    let trees := if i.printAst then a.scripts.map (·.procedure.outline.render ++ "\n") else []
    ⟨0, String.join trees, log⟩

/-- Ends a run in which scripts were read or could not be. -/
def Invocation.finish (i : Invocation) (filter : Filter) (l : Loading) : Outcome :=
  match l.result with
  | .error e => ⟨1, "", filter.render programName (l.log ++ [.unreadable e.message])⟩
  | .ok scripts => i.work filter l.log scripts

/-- Runs the program. -/
def run {m : Type → Type} [Monad m] (supply : Supply m) (directives : Option String)
    (arguments : List String) : m Outcome :=
  match Invocation.ofArguments arguments with
  | .error halt => return halt.outcome
  | .ok i => do return i.finish (i.filter directives) (← supply.load i)

end Sigil
