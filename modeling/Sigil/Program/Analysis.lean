import Sigil.Grammar.Progress
import Sigil.Program.Script
import Sigil.Token.Lexer
import Sigil.Typing.Tagging

/-!
# Analysis of a program

The scripts of a program are split into tokens, parsed and tagged one after the other. Each starts
from the global and persistent variables that are known from those before it. The first script that
cannot be split or parsed ends the analysis; what tagging finds does not.
-/

namespace Sigil

/-- A script that was tagged. -/
structure TaggedScript where
  /-- What the script does. -/
  procedure : Procedure
  /-- The variables it uses. -/
  scope : Scope

/-- The analysis of a program. -/
structure Analysis where
  /-- The scripts, in order. -/
  scripts : List TaggedScript
  /-- The variables that the scripts share. -/
  shared : Scope

namespace Reply

variable {α : Type}

/-- The value of a parsing step that does not go in circles, or what went wrong. -/
def toExcept : (reply : Reply α) → reply ≠ .circular → Except Diagnostic α
  | done a _, _ => .ok a
  | failed d _, _ => .error d

theorem toExcept_eq_ok_iff {reply : Reply α} {h : reply ≠ .circular} {a : α} :
    reply.toExcept h = .ok a ↔ ∃ rest, reply = .done a rest := by
  cases reply with
  | done b rest => simp [toExcept]
  | failed d stop => simp [toExcept]
  | circular => exact absurd rfl h

theorem toExcept_eq_error_iff {reply : Reply α} {h : reply ≠ .circular} {d : Diagnostic} :
    reply.toExcept h = .error d ↔ ∃ stop, reply = .failed d stop := by
  cases reply with
  | done b rest => simp [toExcept]
  | failed d stop => simp [toExcept]
  | circular => exact absurd rfl h

end Reply

/-- Parses the tokens of a script of the given name. -/
def parseTokens (file : String) (tokens : List Token) : Except Diagnostic Block :=
  (parse file tokens).toExcept (parse_ne_circular file tokens)

/-- Splits a script into tokens and parses it. -/
def Script.parse (s : Script) : Except Diagnostic Block := do
  let tokens ← (tokenize s.name s.source).result
  parseTokens s.name tokens

/-- Analyses one script of a program whose variables are known from `shared`. -/
def Script.analyze (s : Script) (shared : Scope) (session : Session) :
    Except Diagnostic TaggedScript × Session :=
  let scan := tokenize s.name s.source
  let session := session.notes (scan.comments.map .comment)
  match scan.result with
  | .error d => (.error d, session)
  | .ok tokens =>
    let session := session.note (.tokenized s.name tokens.length)
    match parseTokens s.name tokens with
    | .error d => (.error d, session)
    | .ok block =>
      let (procedure, walk) := (Procedure.mk s.name [] block).tag ⟨shared.fresh, session⟩
      (.ok ⟨procedure, walk.scope⟩, walk.session.note (.analyzed s.name))

/-- Analyses scripts, one after the other. -/
def analyzeFrom (shared : Scope) (session : Session) :
    List Script → Except Diagnostic Analysis × Session
  | [] => (.ok ⟨[], shared⟩, session)
  | s :: rest =>
    match s.analyze shared session with
    | (.error d, session) => (.error d, session)
    | (.ok tagged, session) =>
      match analyzeFrom (shared.absorb tagged.scope) session rest with
      | (.error d, session) => (.error d, session)
      | (.ok a, session) => (.ok ⟨tagged :: a.scripts, a.shared⟩, session)

/-- Analyses a program. -/
def analyze (scripts : List Script) : Except Diagnostic Analysis × Session :=
  analyzeFrom .empty .empty scripts

end Sigil
