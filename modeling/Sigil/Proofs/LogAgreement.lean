import Sigil.Proofs.CommentLines
import Sigil.Proofs.ScriptByScript

/-!
# The log agrees with what is collected

What tagging finds is collected and noted in the log at once, but the log has other things in it too: the
comments of every script, and how the work went on. At the level of errors it has nothing but what is
collected as wrong. At the level of warnings it has, script by script, the comments and then what is
collected as dubious. Comments are noted before a script is known to be good, so those of the script that
ends the analysis are in the log as well.
-/

namespace Sigil

namespace Event

/-- The events of a level. -/
def atLevel (level : Level) (log : List Event) : List Event := log.filter fun e => e.level = level

/-- What a log tells of an event: its message and its particulars. -/
def content (e : Event) : String × List (String × String) := (e.message, e.fields)

end Event

/-! ## Sessions that note something -/

/-- The session `t` is `s` with the given errors and remarks noted in addition, the remarks being the
events at the level of warnings. At the other levels anything may be noted. -/
structure Session.Logs (s t : Session) (errors : List Diagnostic) (remarks : List Event) : Prop where
  errors : Event.atLevel .error t.log = Event.atLevel .error s.log ++ errors.map .reportedError
  remarks : Event.atLevel .warn t.log = Event.atLevel .warn s.log ++ remarks

namespace Session

theorem Logs.trans {s t u : Session} {es es' : List Diagnostic} {rs rs' : List Event}
    (h : s.Logs t es rs) (h' : t.Logs u es' rs') : s.Logs u (es ++ es') (rs ++ rs') where
  errors := by rw [h'.errors, h.errors, List.map_append, List.append_assoc]
  remarks := by rw [h'.remarks, h.remarks, List.append_assoc]

theorem Logs.nothing (s : Session) : s.Logs s [] [] :=
  ⟨(List.append_nil _).symm, (List.append_nil _).symm⟩

/-- How the work went on is noted at neither level. -/
theorem Logs.note {s t : Session} {es : List Diagnostic} {rs : List Event} {e : Event}
    (h : s.Logs t es rs) (he : e.level = .debug) : s.Logs (t.note e) es rs where
  errors := by simpa [Session.note, Event.atLevel, he] using h.errors
  remarks := by simpa [Session.note, Event.atLevel, he] using h.remarks

theorem logs_comments (s : Session) (lines : List Nat) :
    s.Logs (s.notes (lines.map .comment)) [] (lines.map .comment) := by
  constructor <;> simp [notes, Event.atLevel, Event.level]

/-- An error is noted as an error, and not as a remark. -/
theorem logs_error (s : Session) (d : Diagnostic) : s.Logs (s.error d) [d] [] := by
  constructor <;> simp [error, Event.atLevel, Event.level]

/-- A warning is noted as a remark. -/
theorem logs_warning (s : Session) (d : Diagnostic) :
    s.Logs (s.warning d) [] [.reportedWarning d] := by
  constructor <;> simp [warning, Event.atLevel, Event.level]

end Session

/-- Actions are noted in their order. -/
theorem Walk.logs_play (w : Walk) (actions : List Action) :
    w.session.Logs (w.play actions).session (actions.filterMap Action.error?)
      ((actions.filterMap Action.warning?).map .reportedWarning) := by
  induction actions generalizing w with
  | nil => exact .nothing w.session
  | cons a actions ih =>
    have hlater := ih (w.act a)
    cases a with
    | record v type => exact hlater
    | error d => exact (w.session.logs_error d).trans hlater
    | warning d => exact (w.session.logs_warning d).trans hlater

/-! ## One script -/

namespace Script

/-- What is noted about a script at the level of warnings. -/
def remarks (s : Script) : List Event :=
  (commentLines s.source).map .comment ++ s.warnings.map .reportedWarning

/-- A script that is parsed logs its comments, and then what tagging finds. -/
theorem logs_of_parse {s : Script} {b : Block} (h : s.parse = .ok b) (shared : Scope)
    (session : Session) :
    session.Logs (s.analyze shared session).2 b.errors
      ((commentLines s.source).map .comment ++ b.warnings.map .reportedWarning) := by
  obtain ⟨tokens, hscan, hparse⟩ := exists_tokens_of_parse h
  have hcomments := session.logs_comments (commentLines s.source)
  unfold Script.analyze
  simp only [hscan, hparse, Procedure.tag_eq, comments_tokenize]
  -- The session goes on from the comments to the tokens, the actions of tagging and the last two notes.
  have htokenized := hcomments.note (e := .tokenized s.name tokens.length) rfl
  have htagged := htokenized.trans (Walk.logs_play ⟨shared.fresh, _⟩ b.trace)
  exact (htagged.note rfl).note rfl

/-- Of a script that is not parsed only the comments are logged. -/
theorem logs_of_error {s : Script} {d : Diagnostic} (h : s.parse = .error d) (shared : Scope)
    (session : Session) :
    session.Logs (s.analyze shared session).2 [] ((commentLines s.source).map .comment) := by
  have hcomments := session.logs_comments (commentLines s.source)
  unfold Script.parse at h
  unfold Script.analyze
  cases hscan : (tokenize s.name s.source).result with
  | error d' =>
    simp only [hscan, comments_tokenize]
    exact hcomments
  | ok tokens =>
    rw [hscan] at h
    have hparse : parseTokens s.name tokens = .error d := h
    simp only [hscan, hparse, comments_tokenize]
    exact hcomments.note rfl

/-- What is logged of a script is determined by the script. -/
theorem logs_analyze (s : Script) (shared : Scope) (session : Session) :
    session.Logs (s.analyze shared session).2 s.errors s.remarks := by
  unfold remarks Script.errors Script.warnings
  cases h : s.parse with
  | ok b => exact logs_of_parse h shared session
  | error d =>
    rw [List.map_nil, List.append_nil]
    exact logs_of_error h shared session

/-- What a log tells of a script at the level of warnings. -/
theorem content_remarks (s : Script) :
    s.remarks.map Event.content =
      (commentLines s.source).map (fun n => ("Comments not stored", [("line", toString n)])) ++
        if s.parse.isOk then s.warnings.map (fun d => (d.message, [])) else [] := by
  rw [remarks, List.map_append, List.map_map, List.map_map]
  unfold Script.warnings
  cases s.parse with
  | ok b => rfl
  | error d => rfl

end Script

/-! ## Several scripts -/

/-- The scripts up to the first that cannot be parsed, and that one too. -/
def reached : List Script → List Script
  | [] => []
  | s :: rest =>
    match s.parse with
    | .ok _ => s :: reached rest
    | .error _ => [s]

/-- A program collects and notes what its scripts do, up to the first that cannot be parsed. -/
theorem session_analyzeFrom (scripts : List Script) (shared : Scope) (session : Session) :
    session.Collects (analyzeFrom shared session scripts).2 ((reached scripts).flatMap Script.errors)
        ((reached scripts).flatMap Script.warnings) ∧
      session.Logs (analyzeFrom shared session scripts).2
        ((reached scripts).flatMap Script.errors) ((reached scripts).flatMap Script.remarks) := by
  induction scripts generalizing shared session with
  | nil => exact ⟨.nothing rfl rfl, .nothing session⟩
  | cons s rest ih =>
    have hfound := s.collects_analyze shared session
    have hnoted := s.logs_analyze shared session
    unfold reached
    cases hparse : s.parse with
    | error d =>
      rw [analyzeFrom_cons_of_error hparse]
      simpa using ⟨hfound, hnoted⟩
    | ok b =>
      obtain ⟨hlater, hnotes⟩ := ih (shared.absorb (s.taggedAs b shared).scope)
        (s.analyze shared session).2
      rw [analyzeFrom_cons_of_parse hparse]
      simp only [List.flatMap_cons]
      exact ⟨hfound.trans hlater, hnoted.trans hnotes⟩

/-- At the level of errors a log tells exactly what is collected as wrong. At the level of warnings it
tells, for one script after the other up to the first that fails, where its comments start and, if it can be
parsed, what is collected of it as dubious. -/
theorem log_agrees_with_session (scripts : List Script) :
    (Event.atLevel .error (analyze scripts).2.log).map Event.content =
        (analyze scripts).2.errors.map (fun d => (d.message, [])) ∧
      (Event.atLevel .warn (analyze scripts).2.log).map Event.content =
        (reached scripts).flatMap (fun s =>
          (commentLines s.source).map (fun n => ("Comments not stored", [("line", toString n)])) ++
            if s.parse.isOk then (analyze [s]).2.warnings.map (fun d => (d.message, [])) else []) ∧
      (analyze scripts).2.warnings = (reached scripts).flatMap fun s => (analyze [s]).2.warnings := by
  obtain ⟨hfound, hnoted⟩ := session_analyzeFrom scripts .empty .empty
  have halone : ∀ s : Script, (analyze [s]).2.warnings = s.warnings := fun s => (collects_alone s).2
  have herrors : (analyze scripts).2.errors = (reached scripts).flatMap Script.errors := hfound.errors
  have hwarnings : (analyze scripts).2.warnings = (reached scripts).flatMap Script.warnings :=
    hfound.warnings
  have hwrong : Event.atLevel .error (analyze scripts).2.log =
      ((reached scripts).flatMap Script.errors).map .reportedError := hnoted.errors
  have hdubious : Event.atLevel .warn (analyze scripts).2.log =
      (reached scripts).flatMap Script.remarks := hnoted.remarks
  simp only [halone]
  refine ⟨?_, ?_, hwarnings⟩
  · rw [hwrong, herrors, List.map_map]
    rfl
  · rw [hdubious, List.map_flatMap]
    simp only [Script.content_remarks]

end Sigil
