import Sigil.Log.Event

/-!
# Sessions

A session collects what is found wrong or dubious while scripts are tagged, and keeps a log of the
work. Nothing that is found stops the work.
-/

namespace Sigil

/-- What was found and done so far. -/
structure Session where
  /-- What is wrong, in the order in which it was found. -/
  errors : List Diagnostic
  /-- What is dubious, in the order in which it was found. -/
  warnings : List Diagnostic
  /-- What was done and found, in order. -/
  log : List Event
  deriving DecidableEq

namespace Session

/-- The session in which nothing was done yet. -/
def empty : Session := ⟨[], [], []⟩

/-- Notes that something was done. -/
def note (s : Session) (e : Event) : Session := { s with log := s.log ++ [e] }

/-- Notes several things that were done. -/
def notes (s : Session) (es : List Event) : Session := { s with log := s.log ++ es }

/-- Collects something wrong. -/
def error (s : Session) (d : Diagnostic) : Session :=
  { s with errors := s.errors ++ [d], log := s.log ++ [.reportedError d] }

/-- Collects something dubious. -/
def warning (s : Session) (d : Diagnostic) : Session :=
  { s with warnings := s.warnings ++ [d], log := s.log ++ [.reportedWarning d] }

/-- Whether anything is wrong. -/
def hasErrors (s : Session) : Bool := !s.errors.isEmpty

end Session

end Sigil
