import Sigil.Log.Event
import Sigil.Text.Alphabetic
import Sigil.Text.Pieces

/-!
# Filters

A filter says which events of a log are shown. Its simplest form is a level: events of that level
and of those that matter more are shown. In full it is a list of directives with commas between
them, each a level, a target, or a target and a level: the events come from a target, and the
directive for the longest beginning of that target's name decides. A target alone shows everything,
and what no directive speaks of is not shown.
-/

namespace Sigil

/-- One rule of a filter: how far down events are shown, 0 for none, that come from a target. -/
structure Directive where
  /-- The beginning of the names of the targets that are meant; all targets without one. -/
  target : Option String
  /-- The depth of the deepest level that is shown. -/
  depth : Nat
  deriving DecidableEq

/-- How closely a directive fits a target: by the length of what it names. -/
def Directive.fit? (d : Directive) (target : String) : Option Nat :=
  match d.target with
  | none => some 0
  | some name => if name.toList.isPrefixOf target.toList then some (name.length + 1) else none

/-- A filter of events. -/
structure Filter where
  /-- The rules, later ones replacing earlier ones with the same target. -/
  directives : List Directive

namespace Filter

/-- The depth that a word names: a level, `off`, or a digit from 0 to 5. -/
def depth? (word : String) : Option Nat :=
  match String.ofList (word.toList.map Char.toLower) with
  | "off" | "0" => some 0
  | "error" | "1" => some 1
  | "warn" | "2" => some 2
  | "info" | "3" => some 3
  | "debug" | "4" => some 4
  | "trace" | "5" => some 5
  | _ => none

/-- Whether a target can start with `c`. -/
def startsTarget (c : Char) : Bool := isAlphanumeric c || c == '_' || c == ':' || c == '-'

/-- Reads one directive. -/
def directive? (word : String) : Option Directive :=
  match word.toList with
  | [] => none
  | c :: _ =>
    if startsTarget c then
      let target := word.toList.takeWhile (· != '=')
      match word.toList.dropWhile (· != '=') with
      | [] =>
        match depth? word with
        | some depth => some ⟨none, depth⟩
        | none => some ⟨some word, Level.trace.depth⟩
      | [_] => some ⟨some (String.ofList target), Level.trace.depth⟩
      | _ :: level =>
        (depth? (String.ofList level)).map fun depth => ⟨some (String.ofList target), depth⟩
    else none

/-- Reads a filter; it is refused if one of its directives is. -/
def ofText? (text : String) : Option Filter :=
  let words := (pieces ',' text.toList).filter (!·.isEmpty)
  (words.mapM fun w => directive? (String.ofList w)).map Filter.mk

/-- The filter that shows events down to a level. -/
def ofLevel (level : Level) : Filter := ⟨[⟨none, level.depth⟩]⟩

/-- The depth down to which events from a target are shown. -/
def depthFor (f : Filter) (target : String) : Nat :=
  (f.directives.foldl (fun best d =>
    match d.fit? target with
    | some fit => if best.1 ≤ fit then (fit, d.depth) else best
    | none => best) (0, 0)).2

/-- Whether an event from a target is shown. -/
def shows (f : Filter) (target : String) (e : Event) : Bool :=
  decide (e.level.depth ≤ f.depthFor target)

/-- The text of a log, with the events that the filter shows. -/
def render (f : Filter) (target : String) (log : List Event) : String :=
  String.join ((log.filter (f.shows target)).map Event.render)

end Filter

end Sigil
