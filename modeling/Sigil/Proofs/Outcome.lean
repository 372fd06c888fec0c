import Sigil.Proofs.Passage

/-!
# What steps come to

`Reply.Meets` says something about a reply in both of its outcomes: about the value and the cursor of
a step that is done, and about the diagnostic and the cursor of one that has failed. It passes through
the steps that a rule is made of, so that a rule is walked through from its start, with one goal at
each place where it may fail.

Nothing is said of what goes in circles. What holds at every depth of nested calls can therefore be
proved by an induction that has nothing to show for no depth (`meets_rules`).
-/

namespace Sigil

open Parse

/-- If the step is done then `post` holds of its value and its cursor, and if it has failed then `wrong`
holds of its diagnostic and its cursor. -/
def Reply.Meets {α : Type} (reply : Reply α) (post : α → Cursor → Prop)
    (wrong : Diagnostic → Cursor → Prop) : Prop :=
  match reply with
  | .done a d => post a d
  | .failed x d => wrong x d
  | .circular => True

namespace Reply

variable {α : Type} {reply : Reply α} {post post' : α → Cursor → Prop}
  {wrong wrong' : Diagnostic → Cursor → Prop}

theorem Meets.mono (h : reply.Meets post wrong) (hpost : ∀ a d, post a d → post' a d)
    (hwrong : ∀ x d, wrong x d → wrong' x d) : reply.Meets post' wrong' := by
  cases reply with
  | done a d => exact hpost a d h
  | failed x d => exact hwrong x d h
  | circular => trivial

end Reply

namespace Parse

variable {α β : Type} {c : Cursor} {wrong : Diagnostic → Cursor → Prop}

/-- Two steps in a row meet what the second meets wherever the first leaves it. -/
@[simp] theorem meets_bind {p : Parse α} {f : α → Parse β} {post : β → Cursor → Prop} :
    ((p >>= f) c).Meets post wrong ↔ (p c).Meets (fun a d => (f a d).Meets post wrong) wrong := by
  show (Parse.bind p f c).Meets post wrong ↔ _
  unfold Parse.bind
  cases p c <;> rfl

@[simp] theorem meets_pure {a : α} {post : α → Cursor → Prop} :
    ((pure a : Parse α) c).Meets post wrong ↔ post a c := Iff.rfl

@[simp] theorem meets_fail {problem : Cursor → Diagnostic} {post : α → Cursor → Prop} :
    ((fail problem : Parse α) c).Meets post wrong ↔ wrong (problem c) c := Iff.rfl

@[simp] theorem meets_current {post : Token → Cursor → Prop} :
    (current c).Meets post wrong ↔ post c.current c := Iff.rfl

@[simp] theorem meets_peek {offset : Nat} {post : Kind → Cursor → Prop} :
    (peek offset c).Meets post wrong ↔ post (c.peek offset) c := Iff.rfl

@[simp] theorem meets_advance {post : Token → Cursor → Prop} :
    (advance c).Meets post wrong ↔ post c.current c.advance := Iff.rfl

@[simp] theorem meets_skipEndLines {post : Unit → Cursor → Prop} :
    (skipEndLines c).Meets post wrong ↔ post () c.skipEndLines := Iff.rfl

@[simp] theorem meets_expectOr {k : Kind} {problem : Cursor → Diagnostic}
    {post : Token → Cursor → Prop} :
    (expectOr k problem c).Meets post wrong ↔
      (c.kind ≠ k → wrong (problem c) c) ∧ (c.kind = k → post c.current c.advance) := by
  unfold expectOr
  by_cases h : c.kind = k <;> simp [h, Reply.Meets]

@[simp] theorem meets_expect {k : Kind} {post : Token → Cursor → Prop} :
    (expect k c).Meets post wrong ↔
      (c.kind ≠ k → wrong (c.lacking k) c) ∧ (c.kind = k → post c.current c.advance) :=
  meets_expectOr

end Parse

/-- What each answer meets is met at every depth. -/
theorem meets_rules {s : Nonterminal} {c : Cursor} {post : s.Tree → Cursor → Prop}
    {wrong : Diagnostic → Cursor → Prop}
    (h : ∀ depth, (Grammar.standard.answer (Grammar.standard.rules depth) s c).Meets post wrong)
    (depth : Nat) : (Grammar.standard.rules depth s c).Meets post wrong := by
  cases depth with
  | zero => trivial
  | succ depth => exact h depth

end Sigil
