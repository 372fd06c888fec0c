import Sigil.Proofs.Acceptance
import Sigil.Proofs.Locality

/-!
# Parsing a script that goes on

Let the tokens of a script stand in another row, with other spans on them, and let the script go on there
with a new line where it ends by itself. Up to its end the script is parsed in that row as it is alone:
the same rules are called for, and the trees differ in their spans only.

What makes the difference is the end. A rule for expressions stops before the end of a line as it stops
before the end of the script. But the last statement of the script takes the end of the line, and at the
end of the script the outermost block is at its end, while in the other row it goes on. So the statements
of the other row are those of the script, and then those that come behind (`statements_continue`).
-/

namespace Sigil

open Parse Cursor

/-- The token with its span made what `f` makes of it. -/
def Token.mapSpan (f : Span → Span) (t : Token) : Token := ⟨t.kind, t.value, f t.span⟩

/-- What stands in another row of tokens at the end of a script, and what becomes of the spans there. -/
structure Sequel where
  /-- The name of the script. -/
  file : String
  /-- What becomes of the spans of the script. -/
  move : Span → Span
  /-- The token that stands in place of the end of the script. -/
  first : Token
  /-- The tokens behind that. -/
  rest : List Token
  /-- Spans are put together alike before and after they are changed. -/
  move_merge : ∀ a b : Span, move (a.merge b) = (move a).merge (move b)
  /-- The script ends there too, or something follows on a new line. -/
  first_kind : first.kind = .endOfInput ∨ (first.kind = .endLine ∧ rest ≠ [])

namespace Sequel

variable {q : Sequel} {c c' : Cursor}

/-- The cursor at the place where the script ends. -/
def start (q : Sequel) : Cursor := ⟨q.file, q.first, q.rest⟩

/-- The two cursors stand at the same place of the script. -/
def Continues (q : Sequel) (c c' : Cursor) : Prop :=
  ∃ ts e, Endless ts ∧ e.kind = .endOfInput ∧ c.Passes ts ⟨q.file, e, []⟩ ∧
    c'.Passes (ts.map (Token.mapSpan q.move)) q.start

/-- The two cursors stand at the same place of the script, or the second has gone over to the new line
at the end of it. -/
def Resumes (q : Sequel) (c c' : Cursor) : Prop :=
  q.Continues c c' ∨
    (c.kind = .endOfInput ∧ q.first.kind = .endLine ∧ c' = q.start.advance)

/-- Two cursors at the same place of a script stand both at its end, or both before the next token of it. -/
theorem Continues.cases (h : q.Continues c c') :
    (c.kind = .endOfInput ∧ c' = q.start) ∨
      (c.kind ≠ .endOfInput ∧ c'.current = c.current.mapSpan q.move ∧ c.ahead ≠ [] ∧
        c'.ahead ≠ [] ∧ q.Continues c.advance c'.advance) := by
  obtain ⟨ts, e, hts, he, hpass, hpass'⟩ := h
  cases ts with
  | nil =>
    refine .inl ⟨?_, passes_nil_iff.mp hpass'⟩
    rw [passes_nil_iff.mp hpass]
    exact he
  | cons t ts =>
    obtain ⟨hcur, hahead, hrest⟩ := passes_cons_iff.mp hpass
    obtain ⟨hcur', hahead', hrest'⟩ := passes_cons_iff.mp hpass'
    obtain ⟨ht, hts⟩ := endless_cons.mp hts
    refine .inr ⟨?_, by rw [hcur', hcur], hahead, hahead', ts, e, hts, he, hrest, hrest'⟩
    rw [Cursor.kind, hcur]
    exact ht

theorem Continues.eq_start (h : q.Continues c c') (hk : c.kind = .endOfInput) :
    c' = q.start := by
  rcases h.cases with ⟨-, hc'⟩ | ⟨hne, -⟩
  · exact hc'
  · exact absurd hk hne

/-- Before the end of the script the tokens differ in their spans only. -/
theorem Continues.current_eq (h : q.Continues c c') (hk : c.kind ≠ .endOfInput) :
    c'.current = c.current.mapSpan q.move := by
  rcases h.cases with ⟨heq, -⟩ | ⟨-, hcur, -⟩
  · exact absurd heq hk
  · exact hcur

theorem Continues.kind_eq (h : q.Continues c c') (hk : c.kind ≠ .endOfInput) : c'.kind = c.kind := by
  rw [Cursor.kind, h.current_eq hk]
  rfl

theorem Continues.advance (h : q.Continues c c') (hk : c.kind ≠ .endOfInput) :
    q.Continues c.advance c'.advance := by
  rcases h.cases with ⟨heq, -⟩ | ⟨-, -, -, -, hadvance⟩
  · exact absurd heq hk
  · exact hadvance

/-- The token behind the current one is seen from there. -/
theorem Continues.peek_one (h : q.Continues c c') (hk : c.kind ≠ .endOfInput) :
    c.peek 1 = c.advance.kind ∧ c'.peek 1 = c'.advance.kind := by
  rcases h.cases with ⟨heq, -⟩ | ⟨-, -, hahead, hahead', -⟩
  · exact absurd heq hk
  · have hpass : c.Passes [c.current] c.advance := passes_cons_iff.mpr ⟨rfl, hahead, passes_refl _⟩
    have hpass' : c'.Passes [c'.current] c'.advance :=
      passes_cons_iff.mpr ⟨rfl, hahead', passes_refl _⟩
    exact ⟨hpass.peek_one, hpass'.peek_one⟩

/-- The ends of scripts and lines apart, the two cursors stand at tokens of the same kind. -/
theorem Continues.kind_iff (h : q.Continues c c') {k : Kind} (hend : k ≠ .endOfInput)
    (hline : k ≠ .endLine) : c.kind = k ↔ c'.kind = k := by
  by_cases hc : c.kind = .endOfInput
  · have hfirst : c'.kind = q.first.kind := by rw [h.eq_start hc]; rfl
    rw [hc, hfirst]
    rcases q.first_kind with hk | ⟨hk, -⟩
    · rw [hk]
    · rw [hk]
      exact iff_of_false hend.symm hline.symm
  · rw [h.kind_eq hc]

/-- Past the ends of lines the two cursors stand at the same place of the script, or else the script is at
its end, and the second cursor where the ends of lines end behind it. -/
theorem Continues.skipEndLines {c c' : Cursor} (h : q.Continues c c') :
    (c.skipEndLines.kind ≠ .endOfInput ∧ q.Continues c.skipEndLines c'.skipEndLines) ∨
      (c.skipEndLines.kind = .endOfInput ∧ c'.skipEndLines = q.start.skipEndLines) := by
  rcases h.cases with ⟨hend, rfl⟩ | ⟨hend, -, hahead, hahead', hadvance⟩
  · right
    rw [skipEndLines_of_ne (by simp [hend])]
    exact ⟨hend, rfl⟩
  · by_cases hline : c.kind = .endLine
    · have hline' : c'.kind = .endLine := (h.kind_eq hend).trans hline
      rw [skipEndLines_of_endLine hahead hline, skipEndLines_of_endLine hahead' hline']
      exact hadvance.skipEndLines
    · have hline' : c'.kind ≠ .endLine := by rwa [h.kind_eq hend]
      rw [skipEndLines_of_ne hline, skipEndLines_of_ne hline']
      exact .inl ⟨hend, h⟩
termination_by c.ahead.length
decreasing_by
  cases hc : c.ahead with
  | nil => exact absurd hc hahead
  | cons t ts => simp [Cursor.advance, hc]

/-- Behind empty lines both cursors stand in the script, or at the end of it. -/
theorem Resumes.skipEndLines (h : q.Resumes c c') :
    (c.skipEndLines.kind ≠ .endOfInput ∧ q.Continues c.skipEndLines c'.skipEndLines) ∨
      (c.skipEndLines.kind = .endOfInput ∧ c'.skipEndLines = q.start.skipEndLines) := by
  rcases h with h | ⟨hend, hline, rfl⟩
  · exact h.skipEndLines
  · right
    have hrest : q.rest ≠ [] := by
      rcases q.first_kind with hk | ⟨-, hrest⟩
      · rw [hk] at hline
        cases hline
      · exact hrest
    rw [skipEndLines_of_ne (by simp [hend]), ← skipEndLines_of_endLine (c := q.start) hrest hline]
    exact ⟨hend, rfl⟩

end Sequel

/-! ## Steps -/

/-- Where `p` is done at `c`, `p'` is done at `c'`, with what `φ` makes of the value, and the cursors are
left as `Q` says. -/
def Parse.Mimics {α β : Type} (Q : Cursor → Cursor → Prop) (p : Parse α) (p' : Parse β) (φ : α → β)
    (c c' : Cursor) : Prop :=
  ∀ a d, p c = .done a d → ∃ d', Q d d' ∧ p' c' = .done (φ a) d'

/-- The same of a step that is done before the script is at its end. -/
def Parse.MimicsInside {α β : Type} (Q : Cursor → Cursor → Prop) (p : Parse α) (p' : Parse β)
    (φ : α → β) (c c' : Cursor) : Prop :=
  ∀ a d, p c = .done a d → d.kind ≠ .endOfInput → ∃ d', Q d d' ∧ p' c' = .done (φ a) d'

/-- The step is not done at the end of the script. -/
def Parse.NeedsMore {α : Type} (p : Parse α) : Prop :=
  ∀ c a d, c.kind = .endOfInput → p c ≠ .done a d

namespace Parse

variable {α β γ δ : Type} {q : Sequel} {P Q : Cursor → Cursor → Prop} {c c' : Cursor}

theorem Mimics.bind {p : Parse α} {p' : Parse β} {φ : α → β} {f : α → Parse γ} {f' : β → Parse δ}
    {ψ : γ → δ} (hp : Mimics P p p' φ c c')
    (hf : ∀ a d d', P d d' → Mimics Q (f a) (f' (φ a)) ψ d d') :
    Mimics Q (p >>= f) (p' >>= f') ψ c c' := by
  intro b e hb
  obtain ⟨a, d, ha, hb⟩ := bind_eq_done_iff.mp hb
  obtain ⟨d', hd, ha'⟩ := hp a d ha
  obtain ⟨e', he, hb'⟩ := hf a d d' hd b e hb
  exact ⟨e', he, (bind_of_done ha').trans hb'⟩

/-- A part that may go wrong at the end of the script is followed by one that cannot stop there. -/
theorem MimicsInside.bind {p : Parse α} {p' : Parse β} {φ : α → β} {f : α → Parse γ}
    {f' : β → Parse δ} {ψ : γ → δ} (hp : MimicsInside P p p' φ c c') (hmore : ∀ a, (f a).NeedsMore)
    (hf : ∀ a d d', P d d' → Mimics Q (f a) (f' (φ a)) ψ d d') :
    Mimics Q (p >>= f) (p' >>= f') ψ c c' := by
  intro b e hb
  obtain ⟨a, d, ha, hb⟩ := bind_eq_done_iff.mp hb
  obtain ⟨d', hd, ha'⟩ := hp a d ha fun hk => hmore a d b e hk hb
  obtain ⟨e', he, hb'⟩ := hf a d d' hd b e hb
  exact ⟨e', he, (bind_of_done ha').trans hb'⟩

theorem mimics_pure {a : α} {b : β} {ψ : α → β} (h : Q c c') (hb : ψ a = b) :
    Mimics Q (pure a) (pure b) ψ c c' := by
  intro x d hx
  obtain ⟨rfl, rfl⟩ := pure_eq_done_iff.mp hx
  exact ⟨c', h, pure_eq_done_iff.mpr ⟨hb.symm, rfl⟩⟩

theorem mimics_fail {problem : Cursor → Diagnostic} {p' : Parse β} {ψ : α → β} :
    Mimics Q (fail problem) p' ψ c c' :=
  fun _ _ h => absurd h fail_eq_done_iff.mp

theorem mimics_current_bind {f : Token → Parse α} {f' : Token → Parse β} {ψ : α → β}
    (h : Mimics Q (f c.current) (f' c'.current) ψ c c') :
    Mimics Q (current >>= f) (current >>= f') ψ c c' := h

theorem mimics_peek_bind {n : Nat} {f : Kind → Parse α} {f' : Kind → Parse β} {ψ : α → β}
    (h : Mimics Q (f (c.peek n)) (f' (c'.peek n)) ψ c c') :
    Mimics Q (peek n >>= f) (peek n >>= f') ψ c c' := h

/-- The two rows are told apart by no test whose answer is the same in both. -/
theorem mimics_ite {A B : Prop} [Decidable A] [Decidable B] {p₁ p₂ : Parse α} {p₁' p₂' : Parse β}
    {ψ : α → β} (hiff : A ↔ B) (h₁ : A → Mimics Q p₁ p₁' ψ c c')
    (h₂ : ¬ A → Mimics Q p₂ p₂' ψ c c') :
    Mimics Q (if A then p₁ else p₂) (if B then p₁' else p₂') ψ c c' := by
  by_cases h : A
  · rw [if_pos h, if_pos (hiff.mp h)]
    exact h₁ h
  · rw [if_neg h, if_neg fun hb => h (hiff.mpr hb)]
    exact h₂ h

theorem mimics_advance_bind {f : Token → Parse α} {f' : Token → Parse β} {ψ : α → β}
    (h : q.Continues c c') (hk : c.kind ≠ .endOfInput)
    (hf : q.Continues c.advance c'.advance →
      Mimics Q (f c.current) (f' (c.current.mapSpan q.move)) ψ c.advance c'.advance) :
    Mimics Q (advance >>= f) (advance >>= f') ψ c c' := by
  intro a d ha
  obtain ⟨d', hd, ha'⟩ := hf (h.advance hk) a d ha
  rw [← h.current_eq hk] at ha'
  exact ⟨d', hd, ha'⟩

/-- What is expected is found in both rows or in none, if it is not an end. -/
theorem mimics_expectOr_bind {k : Kind} {problem problem' : Cursor → Diagnostic} {f : Token → Parse α}
    {f' : Token → Parse β} {ψ : α → β} (h : q.Continues c c') (hk : k ≠ .endOfInput)
    (hf : q.Continues c.advance c'.advance →
      Mimics Q (f c.current) (f' (c.current.mapSpan q.move)) ψ c.advance c'.advance) :
    Mimics Q (expectOr k problem >>= f) (expectOr k problem' >>= f') ψ c c' := by
  intro a d ha
  obtain ⟨t, e, ht, ha⟩ := bind_eq_done_iff.mp ha
  obtain ⟨hck, rfl, rfl⟩ := expectOr_eq_done_iff.mp ht
  have hne : c.kind ≠ .endOfInput := by rwa [hck]
  obtain ⟨d', hd, ha'⟩ := hf (h.advance hne) a d ha
  rw [← h.current_eq hne] at ha'
  exact ⟨d', hd, (expectOr_bind f' ((h.kind_eq hne).trans hck)).trans ha'⟩

/-- A rule that expects a token does not stop at the end of the script. -/
theorem needsMore_expectOr_bind {k : Kind} (hk : k ≠ .endOfInput) {problem : Cursor → Diagnostic}
    {f : Token → Parse α} : (expectOr k problem >>= f).NeedsMore := by
  intro c a d hend ha
  obtain ⟨t, e, ht, -⟩ := bind_eq_done_iff.mp ha
  obtain ⟨hck, -⟩ := expectOr_eq_done_iff.mp ht
  exact hk (hck.symm.trans hend)

end Parse

/-! ## Rules -/

/-- The calls that are answered by `r` are answered by `r'` where the script goes on. -/
structure Rules.Mimic (q : Sequel) (r r' : Rules) : Prop where
  expr : ∀ {rule c c'}, q.Continues c c' → (Nonterminal.expr rule).CalledAt c.kind →
    Mimics q.Continues (r.expr rule) (r'.expr rule) (Expr.mapSpans q.move) c c'
  arguments : ∀ {c c'}, q.Continues c c' →
    Mimics q.Continues r.arguments r'.arguments (Expr.mapSpansAll q.move) c c'
  stmt : ∀ {rule c c'}, q.Continues c c' → c.kind ≠ .endOfInput →
    (Nonterminal.stmt rule).CalledAt c.kind →
    Mimics q.Resumes (r.stmt rule) (r'.stmt rule) (Stmt.mapSpans q.move) c c'
  statements : ∀ {c c'}, q.Resumes c c' →
    MimicsInside q.Continues r.statements r'.statements (Block.mapSpansAll q.move) c c'
  block : ∀ {c c'}, q.Continues c c' →
    MimicsInside q.Continues r.block r'.block (Block.mapSpans q.move) c c'
  /-- At the end of the script there are no statements. -/
  ends : ∀ {c ss d}, r.statements c = .done ss d → c.kind = .endOfInput → d.kind = .endOfInput

section

variable {q : Sequel} {r r' : Rules} {c c' : Cursor}

theorem mimics_expressionRule (hr : Rules.Mimic q r r') (h : q.Continues c c') :
    Mimics q.Continues (expressionRule r) (expressionRule r') (Expr.mapSpans q.move) c c' := by
  have hprimary : Mimics q.Continues (r.expr .primary) (r'.expr .primary) _ c c' := hr.expr h trivial
  refine hprimary.bind fun left d d' hd => mimics_current_bind ?_
  refine mimics_ite (hd.kind_iff (by decide) (by decide)) (fun hk => ?_) fun _ => ?_
  · have hne : d.kind ≠ .endOfInput := by simp [Cursor.kind, hk]
    rw [hd.current_eq hne]
    refine mimics_advance_bind hd hne fun hd₁ => ?_
    refine Mimics.bind (hr.expr hd₁ trivial) fun right e e' he => mimics_pure he ?_
    simp [Expr.mapSpans, q.move_merge, Token.mapSpan]
  · exact mimics_pure hd rfl

/-- An operand is chosen by the kind of its first token, which is the same in both rows. -/
theorem mimics_primaryRule (hr : Rules.Mimic q r r') (h : q.Continues c c') :
    Mimics q.Continues (primaryRule .standard r) (primaryRule .standard r') (Expr.mapSpans q.move)
      c c' := by
  refine mimics_current_bind ?_
  cases hrule : Grammar.standard.primary c.current.kind with
  | none => exact mimics_fail
  | some rule =>
    have hne : c.kind ≠ .endOfInput := by
      intro hk
      rw [show c.current.kind = .endOfInput from hk] at hrule
      cases hrule
    have hcalled : (Nonterminal.expr rule).CalledAt c.kind := by
      cases rule <;> trivial
    have hrule' : Grammar.standard.primary c'.current.kind = some rule := by
      rw [h.current_eq hne]
      exact hrule
    rw [hrule']
    exact hr.expr h hcalled

theorem mimics_variableRule (storage : Storage) (h : q.Continues c c') (hk : c.kind ≠ .endOfInput) :
    Mimics q.Continues (variableRule storage) (variableRule storage) (Expr.mapSpans q.move) c c' := by
  refine mimics_advance_bind h hk fun hd => mimics_current_bind ?_
  have hiff := or_congr (hd.kind_iff (k := .name) (by decide) (by decide))
    (hd.kind_iff (k := .number) (by decide) (by decide))
  refine mimics_ite hiff (fun hn => ?_) fun _ => mimics_fail
  have hne : c.advance.kind ≠ .endOfInput := by
    rcases hn with hn | hn <;> simp [Cursor.kind, hn]
  rw [hd.current_eq hne]
  refine mimics_advance_bind hd hne fun he => mimics_pure he ?_
  simp [Expr.mapSpans, q.move_merge, Token.mapSpan]

/-- Whether a name is called is seen from the token behind it. -/
theorem mimics_nameRule (hr : Rules.Mimic q r r') (h : q.Continues c c') (hk : c.kind = .name) :
    Mimics q.Continues (nameRule r) (nameRule r') (Expr.mapSpans q.move) c c' := by
  have hne : c.kind ≠ .endOfInput := by simp [hk]
  obtain ⟨hpeek, hpeek'⟩ := h.peek_one hne
  refine mimics_peek_bind ?_
  rw [hpeek, hpeek']
  refine mimics_advance_bind h hne fun hd => ?_
  refine mimics_ite (hd.kind_iff (by decide) (by decide)) (fun ho => ?_) fun _ => mimics_pure hd rfl
  refine mimics_advance_bind hd (by simp [ho]) fun he => mimics_current_bind ?_
  -- The arguments are between the parentheses, whether there are any or none.
  have hclose : ∀ args d d', q.Continues d d' →
      Mimics q.Continues (expect .closeParen >>= fun close =>
          pure (Expr.call c.current.value args .undetermined (c.current.span.merge close.span)))
        (expect .closeParen >>= fun close =>
          pure (Expr.call c.current.value (Expr.mapSpansAll q.move args) .undetermined
            ((q.move c.current.span).merge close.span)))
        (Expr.mapSpans q.move) d d' := by
    intro args d d' hd
    refine mimics_expectOr_bind hd (by decide) fun hf => mimics_pure hf ?_
    simp [Expr.mapSpans, q.move_merge, Token.mapSpan]
  refine mimics_ite (he.kind_iff (by decide) (by decide)) (fun _ => ?_) fun _ => ?_
  · have hnone : Mimics q.Continues (pure []) (pure []) (Expr.mapSpansAll q.move) c.advance.advance
      c'.advance.advance := mimics_pure he rfl
    exact hnone.bind hclose
  · exact (hr.arguments he).bind hclose

theorem mimics_argumentsRule (hr : Rules.Mimic q r r') (h : q.Continues c c') :
    Mimics q.Continues (argumentsRule r) (argumentsRule r') (Expr.mapSpansAll q.move) c c' := by
  refine Mimics.bind (hr.expr h trivial) fun e d d' hd => mimics_current_bind ?_
  refine mimics_ite (hd.kind_iff (by decide) (by decide)) (fun hk => ?_) fun _ => ?_
  · have hne : d.kind ≠ .endOfInput := by simp [Cursor.kind, hk]
    refine mimics_advance_bind hd hne fun hd₁ => ?_
    exact (hr.arguments hd₁).bind fun es e e' he => mimics_pure he rfl
  · exact mimics_pure hd rfl

theorem mimics_literalRule (h : q.Continues c c') (hk : c.kind ≠ .endOfInput) :
    Mimics q.Continues literalRule literalRule (Expr.mapSpans q.move) c c' :=
  mimics_advance_bind h hk fun hd => mimics_pure hd rfl

theorem mimics_groupingRule (hr : Rules.Mimic q r r') (h : q.Continues c c')
    (hk : c.kind ≠ .endOfInput) :
    Mimics q.Continues (groupingRule r) (groupingRule r') (Expr.mapSpans q.move) c c' := by
  refine mimics_advance_bind h hk fun hd => ?_
  refine Mimics.bind (hr.expr hd trivial) fun e d d' hd => ?_
  exact mimics_expectOr_bind hd (by decide) fun he => mimics_pure he rfl

theorem mimics_unaryRule (hr : Rules.Mimic q r r') (h : q.Continues c c')
    (hk : c.kind ≠ .endOfInput) :
    Mimics q.Continues (unaryRule r) (unaryRule r') (Expr.mapSpans q.move) c c' := by
  refine mimics_advance_bind h hk fun hd => ?_
  refine Mimics.bind (hr.expr hd trivial) fun e d d' hd => mimics_pure hd ?_
  simp [Expr.mapSpans, q.move_merge, Token.mapSpan]

/-- The last statement of the script takes the end of the line in the other row. -/
theorem mimics_endStatement (h : q.Continues c c') :
    Mimics q.Resumes endStatement endStatement id c c' := by
  by_cases hend : c.kind = .endOfInput
  · -- The script ends here by itself, and in the other row with the end of the line.
    intro u d hd
    have hblock : Kind.endsBlock c.kind = true := by rw [hend]; rfl
    rw [endStatement_eq_done (.block hblock) (passes_refl c)] at hd
    cases hd
    obtain rfl := h.eq_start hend
    rcases q.first_kind with hfirst | ⟨hfirst, hrest⟩
    · have hblock' : Kind.endsBlock q.start.kind = true := by
        rw [show q.start.kind = .endOfInput from hfirst]
        rfl
      exact ⟨_, .inl h, endStatement_eq_done (.block hblock') (passes_refl _)⟩
    · have hpass : q.start.Passes [q.first] q.start.advance :=
        passes_cons_iff.mpr ⟨rfl, hrest, passes_refl _⟩
      exact ⟨_, .inr ⟨hend, hfirst, rfl⟩, endStatement_eq_done (.line hfirst) hpass⟩
  · refine mimics_current_bind ?_
    rw [h.current_eq hend]
    refine mimics_ite Iff.rfl (fun _ => ?_) fun _ => ?_
    · exact mimics_advance_bind h hend fun hd => mimics_pure (.inl hd) rfl
    · exact mimics_ite Iff.rfl (fun _ => mimics_pure (.inl h) rfl) fun _ => mimics_fail

/-- A statement is at its end where its last token is, and takes the end of the line. -/
theorem mimics_endStatement_bind {s s' : Stmt} (h : q.Continues c c') (hs : s.mapSpans q.move = s') :
    Mimics q.Resumes (endStatement >>= fun _ => pure s) (endStatement >>= fun _ => pure s')
      (Stmt.mapSpans q.move) c c' :=
  (mimics_endStatement h).bind fun _ _ _ hd => mimics_pure hd hs

/-- A statement is chosen by the kind of its first token, which is the same in both rows. -/
theorem mimics_statementRule (hr : Rules.Mimic q r r') (h : q.Continues c c')
    (hk : c.kind ≠ .endOfInput) :
    Mimics q.Resumes (statementRule .standard r) (statementRule .standard r') (Stmt.mapSpans q.move)
      c c' := by
  refine mimics_current_bind ?_
  have hkind : (c.current.mapSpan q.move).kind = c.current.kind := rfl
  rw [h.current_eq hk, hkind]
  cases hrule : Grammar.standard.statement c.current.kind with
  | some rule =>
    have hcalled : (Nonterminal.stmt rule).CalledAt c.kind := by
      cases rule <;> trivial
    exact hr.stmt h hk hcalled
  | none =>
    refine Mimics.bind (hr.expr h trivial) fun e d d' hd => mimics_current_bind ?_
    refine mimics_ite (hd.kind_iff (by decide) (by decide)) (fun ha => ?_) fun _ => ?_
    · rw [Expr.isVar_mapSpans]
      refine mimics_ite Iff.rfl (fun _ => ?_) fun _ => mimics_fail
      refine mimics_advance_bind hd (by simp [Cursor.kind, ha]) fun hd₁ => ?_
      refine Mimics.bind (hr.expr hd₁ trivial) fun v d₂ d₂' hd₂ => ?_
      refine mimics_endStatement_bind hd₂ ?_
      simp [Stmt.mapSpans, q.move_merge]
    · refine mimics_endStatement_bind hd ?_
      simp [Stmt.mapSpans]

theorem mimics_conditionRule (hr : Rules.Mimic q r r') (h : q.Continues c c') :
    Mimics q.Continues (conditionRule r) (conditionRule r') (Expr.mapSpans q.move) c c' := by
  refine mimics_expectOr_bind h (by decide) fun hd => ?_
  refine Mimics.bind (hr.expr hd trivial) fun e d d' hd => ?_
  exact mimics_expectOr_bind hd (by decide) fun he => mimics_pure he rfl

theorem elseRule_of_else (hk : c.kind = .elseWord) :
    elseRule r c = (r.block >>= fun no => pure (some no)) c.advance := by
  have hk : c.current.kind = .elseWord := hk
  rw [elseRule, current_bind, if_pos hk, advance_bind]

theorem elseRule_of_ne (hk : c.kind ≠ .elseWord) : elseRule r c = .done none c := by
  have hk : c.current.kind ≠ .elseWord := hk
  rw [elseRule, current_bind, if_neg hk]
  rfl

theorem needsMore_elseRule_bind {α : Type} {f : Option Block → Parse α}
    (hf : ∀ no, (f no).NeedsMore) : (elseRule r >>= f).NeedsMore := by
  intro c a d hend ha
  have hnone : elseRule r c = .done none c := elseRule_of_ne (by simp [hend])
  rw [bind_of_done hnone] at ha
  exact hf none c a d hend ha

/-- An alternative is read in both rows or in none. -/
theorem mimicsInside_elseRule (hr : Rules.Mimic q r r') (h : q.Continues c c') :
    MimicsInside q.Continues (elseRule r) (elseRule r') (Option.map (Block.mapSpans q.move)) c c' := by
  intro no d hno hd
  by_cases hk : c.kind = .elseWord
  · have hne : c.kind ≠ .endOfInput := by simp [hk]
    rw [elseRule_of_else hk] at hno
    obtain ⟨b, e, hb, hpure⟩ := bind_eq_done_iff.mp hno
    obtain ⟨rfl, rfl⟩ := pure_eq_done_iff.mp hpure
    obtain ⟨e', he, hb'⟩ := hr.block (h.advance hne) b e hb hd
    refine ⟨e', he, ?_⟩
    rw [elseRule_of_else ((h.kind_eq hne).trans hk), bind_of_done hb']
    rfl
  · have hk' : c'.kind ≠ .elseWord := fun hk' =>
      hk ((h.kind_iff (by decide) (by decide)).mpr hk')
    rw [elseRule_of_ne hk] at hno
    cases hno
    exact ⟨c', h, elseRule_of_ne hk'⟩

theorem mimics_conditionalRule (hr : Rules.Mimic q r r') (h : q.Continues c c')
    (hk : c.kind ≠ .endOfInput) :
    Mimics q.Resumes (conditionalRule r) (conditionalRule r') (Stmt.mapSpans q.move) c c' := by
  refine mimics_advance_bind h hk fun h₁ => ?_
  refine (mimics_conditionRule hr h₁).bind fun e c₂ c₂' h₂ => ?_
  refine (hr.block h₂).bind (fun _ => ?_) fun yes c₃ c₃' h₃ => ?_
  · exact needsMore_elseRule_bind fun _ => needsMore_expectOr_bind (by decide)
  refine (mimicsInside_elseRule hr h₃).bind (fun _ => needsMore_expectOr_bind (by decide)) ?_
  intro no c₄ c₄' h₄
  refine mimics_expectOr_bind h₄ (by decide) fun h₅ => mimics_endStatement_bind h₅ ?_
  cases no <;> simp [Stmt.mapSpans, q.move_merge, Token.mapSpan]

theorem mimics_incrementRule (hr : Rules.Mimic q r r') (h : q.Continues c c') :
    Mimics q.Continues (incrementRule r) (incrementRule r') (Option.map (Expr.mapSpans q.move))
      c c' := by
  refine mimics_current_bind (mimics_ite (h.kind_iff (by decide) (by decide)) (fun hk => ?_) fun _ => ?_)
  · refine mimics_advance_bind h (by simp [Cursor.kind, hk]) fun hd => ?_
    exact Mimics.bind (hr.expr hd trivial) fun e d d' hd => mimics_pure hd rfl
  · exact mimics_pure h rfl

theorem mimics_counterRule (hr : Rules.Mimic q r r') (h : q.Continues c c') :
    Mimics q.Continues (counterRule r) (counterRule r') (Expr.mapSpans q.move) c c' := by
  refine Mimics.bind (hr.expr h trivial) fun e d d' hd => ?_
  rw [Expr.isVar_mapSpans]
  exact mimics_ite Iff.rfl (fun _ => mimics_pure hd rfl) fun _ => mimics_fail

theorem mimics_countingRule (hr : Rules.Mimic q r r') (h : q.Continues c c')
    (hk : c.kind ≠ .endOfInput) :
    Mimics q.Resumes (countingRule r) (countingRule r') (Stmt.mapSpans q.move) c c' := by
  refine mimics_advance_bind h hk fun h₁ => ?_
  refine mimics_expectOr_bind h₁ (by decide) fun h₂ => ?_
  refine (mimics_counterRule hr h₂).bind fun v c₃ c₃' h₃ => ?_
  refine mimics_expectOr_bind h₃ (by decide) fun h₄ => ?_
  refine Mimics.bind (hr.expr h₄ trivial) fun a c₅ c₅' h₅ => ?_
  refine mimics_expectOr_bind h₅ (by decide) fun h₆ => ?_
  refine Mimics.bind (hr.expr h₆ trivial) fun b c₇ c₇' h₇ => ?_
  refine (mimics_incrementRule hr h₇).bind fun i c₈ c₈' h₈ => ?_
  refine mimics_expectOr_bind h₈ (by decide) fun h₉ => ?_
  refine (hr.block h₉).bind (fun _ => needsMore_expectOr_bind (by decide)) fun body d d' hd => ?_
  refine mimics_expectOr_bind hd (by decide) fun he => mimics_endStatement_bind he ?_
  simp [Stmt.mapSpans, q.move_merge, Token.mapSpan]

theorem mimics_testedLoopRule (hr : Rules.Mimic q r r') (h : q.Continues c c')
    (hk : c.kind ≠ .endOfInput) :
    Mimics q.Resumes (testedLoopRule r) (testedLoopRule r') (Stmt.mapSpans q.move) c c' := by
  refine mimics_advance_bind h hk fun h₁ => ?_
  refine (mimics_conditionRule hr h₁).bind fun e c₂ c₂' h₂ => ?_
  refine (hr.block h₂).bind (fun _ => needsMore_expectOr_bind (by decide)) fun body d d' hd => ?_
  refine mimics_expectOr_bind hd (by decide) fun he => mimics_endStatement_bind he ?_
  simp [Stmt.mapSpans, q.move_merge, Token.mapSpan]

theorem mimics_repeatedLoopRule (hr : Rules.Mimic q r r') (h : q.Continues c c')
    (hk : c.kind ≠ .endOfInput) :
    Mimics q.Resumes (repeatedLoopRule r) (repeatedLoopRule r') (Stmt.mapSpans q.move) c c' := by
  refine mimics_advance_bind h hk fun h₁ => ?_
  refine (hr.block h₁).bind (fun _ => needsMore_expectOr_bind (by decide)) fun body d d' hd => ?_
  refine mimics_expectOr_bind hd (by decide) fun h₂ => ?_
  refine (mimics_conditionRule hr h₂).bind fun e c₃ c₃' h₃ => mimics_endStatement_bind h₃ ?_
  simp [Stmt.mapSpans, q.move_merge, Token.mapSpan]

theorem statementsRule_of_endsBlock (h : c.skipEndLines.kind.endsBlock = true) :
    statementsRule r c = .done [] c.skipEndLines := by
  rw [statementsRule, skipEndLines_bind, current_bind]
  exact congrFun (if_pos h) _

/-- Inside of a block a statement comes first, and then the others. -/
theorem statementsRule_eq_done_iff {ss : List Stmt} {d : Cursor}
    (h : c.skipEndLines.kind.endsBlock ≠ true) :
    statementsRule r c = .done ss d ↔ ∃ s others e, r.stmt .statement c.skipEndLines = .done s e ∧
      r.statements e = .done others d ∧ s :: others = ss := by
  have hrule : statementsRule r c = (r.stmt .statement >>= fun s => r.statements >>= fun others =>
      pure (s :: others)) c.skipEndLines := by
    rw [statementsRule, skipEndLines_bind, current_bind]
    exact congrFun (if_neg h) _
  rw [hrule]
  simp only [bind_eq_done_iff, pure_eq_done_iff]
  constructor
  · rintro ⟨s, e, hs, others, f, hothers, hss, rfl⟩
    exact ⟨s, others, e, hs, hothers, hss⟩
  · rintro ⟨s, others, e, hs, hothers, hss⟩
    exact ⟨s, e, hs, others, d, hothers, hss, rfl⟩

/-- The statements of a script are read alike in the other row, as far as they end inside of it. -/
theorem mimicsInside_statementsRule (hr : Rules.Mimic q r r') (h : q.Resumes c c') :
    MimicsInside q.Continues (statementsRule r) (statementsRule r') (Block.mapSpansAll q.move)
      c c' := by
  intro ss d hss hd
  rcases h.skipEndLines with ⟨hend, hskip⟩ | ⟨hend, -⟩
  · have hkind := hskip.kind_eq hend
    by_cases hblock : c.skipEndLines.kind.endsBlock = true
    · rw [statementsRule_of_endsBlock hblock] at hss
      cases hss
      exact ⟨_, hskip, statementsRule_of_endsBlock (by rwa [hkind])⟩
    · obtain ⟨s, others, e, hs, hothers, rfl⟩ := (statementsRule_eq_done_iff hblock).mp hss
      have hstmt : Mimics q.Resumes (r.stmt .statement) (r'.stmt .statement) _ _ _ :=
        hr.stmt hskip hend trivial
      obtain ⟨e', he, hs'⟩ := hstmt s e hs
      obtain ⟨d', hd', hothers'⟩ := hr.statements he others d hothers hd
      have hblock' : c'.skipEndLines.kind.endsBlock ≠ true := by rwa [hkind]
      exact ⟨d', hd', (statementsRule_eq_done_iff hblock').mpr ⟨_, _, e', hs', hothers', rfl⟩⟩
  · rw [statementsRule_of_endsBlock (by rw [hend]; rfl)] at hss
    cases hss
    exact absurd hend hd

/-- Statements from the end of the script on stay there. -/
theorem statementsRule_ends {ss : List Stmt} {d : Cursor} (h : statementsRule r c = .done ss d)
    (hend : c.kind = .endOfInput) : d.kind = .endOfInput := by
  have hskip : c.skipEndLines = c := skipEndLines_of_ne (by simp [hend])
  rw [statementsRule_of_endsBlock (by rw [hskip, hend]; rfl), hskip] at h
  cases h
  exact hend

theorem mimicsInside_blockRule (hr : Rules.Mimic q r r') (h : q.Continues c c') :
    MimicsInside q.Continues (blockRule r) (blockRule r') (Block.mapSpans q.move) c c' := by
  intro b d hb hd
  simp only [blockRule, bind_eq_done_iff, current_eq_done_iff, pure_eq_done_iff] at hb
  obtain ⟨_, _, ⟨rfl, rfl⟩, ss, e, hss, _, _, ⟨rfl, rfl⟩, rfl, rfl⟩ := hb
  have hne : c.kind ≠ .endOfInput := fun hk => hd (hr.ends hss hk)
  obtain ⟨e', he, hss'⟩ := hr.statements (.inl h) ss e hss hd
  refine ⟨e', he, ?_⟩
  rw [blockRule, current_bind, bind_of_done hss', current_bind, h.current_eq hne, he.current_eq hd]
  simp [Block.mapSpans, q.move_merge, Token.mapSpan, pure]

end

/-- One more level of calls is answered. -/
theorem mimic_answer {q : Sequel} {r r' : Rules} (hr : Rules.Mimic q r r') :
    Rules.Mimic q (Grammar.standard.answer r) (Grammar.standard.answer r') where
  expr := by
    intro rule c c' h hs
    have hk := hs.ne_endOfInput
    cases rule with
    | expression => exact mimics_expressionRule hr h
    | primary => exact mimics_primaryRule hr h
    | localVariable => exact mimics_variableRule .localSlot h (hk rfl)
    | persistentVariable => exact mimics_variableRule .persistentSlot h (hk rfl)
    | name => exact mimics_nameRule hr h (Grammar.standardPrimary_eq_name.mp hs)
    | literal => exact mimics_literalRule h (hk rfl)
    | grouping => exact mimics_groupingRule hr h (hk rfl)
    | unary => exact mimics_unaryRule hr h (hk rfl)
  arguments h := mimics_argumentsRule hr h
  stmt := by
    intro rule c c' h hk _
    cases rule with
    | statement => exact mimics_statementRule hr h hk
    | conditional => exact mimics_conditionalRule hr h hk
    | counting => exact mimics_countingRule hr h hk
    | testedLoop => exact mimics_testedLoopRule hr h hk
    | repeatedLoop => exact mimics_repeatedLoopRule hr h hk
  statements h := mimicsInside_statementsRule hr h
  block h := mimicsInside_blockRule hr h
  ends h hend := statementsRule_ends h hend

/-- At every depth the rules read a script in the other row as they read it alone. -/
theorem mimic_rules (q : Sequel) {depth depth' : Nat} (h : depth ≤ depth') :
    Rules.Mimic q (Grammar.standard.rules depth) (Grammar.standard.rules depth') := by
  induction depth generalizing depth' with
  | zero =>
    have hnone : ∀ s c a d, Grammar.standard.rules 0 s c ≠ .done a d := by
      intro s c a d hdone
      cases hdone
    exact {
      expr := fun _ _ _ _ hdone => absurd hdone (hnone _ _ _ _)
      arguments := fun _ _ _ hdone => absurd hdone (hnone _ _ _ _)
      stmt := fun _ _ _ _ _ hdone => absurd hdone (hnone _ _ _ _)
      statements := fun _ _ _ hdone => absurd hdone (hnone _ _ _ _)
      block := fun _ _ _ hdone => absurd hdone (hnone _ _ _ _)
      ends := fun hdone => absurd hdone (hnone _ _ _ _) }
  | succ depth ih =>
    obtain ⟨depth', rfl⟩ := Nat.exists_eq_add_of_le' (show 1 ≤ depth' by omega)
    exact mimic_answer (ih (by omega))

/-! ## Whole scripts -/

/-- What is done at some depth is done at every greater depth. -/
theorem rules_mono {s : Nonterminal} {c d : Cursor} {depth depth' : Nat} {a : s.Tree} (hc : c.Closed)
    (hs : s.CalledAt c.kind) (hle : depth ≤ depth')
    (h : Grammar.standard.rules depth s c = .done a d) :
    Grammar.standard.rules depth' s c = .done a d := by
  obtain ⟨ts, hts, -, hsame⟩ := repeats_rules hle s c hc hs d (by rw [h]; rfl)
  rw [hsame c d hc rfl hts rfl, h]
  rfl

/-- The statements of a script that goes on are its own, and then those that come behind. -/
theorem statements_continue {q : Sequel} {c c' d e : Cursor} {ss ss' : List Stmt} {depth depth' : Nat}
    (h : q.Resumes c c') (hss : Grammar.standard.rules depth .statements c = .done ss d)
    (hd : d.kind = .endOfInput) (hclosed : q.start.Closed)
    (hss' : Grammar.standard.rules depth' .statements q.start = .done ss' e) :
    Grammar.standard.rules (depth + depth') .statements c' =
      .done (Block.mapSpansAll q.move ss ++ ss') e := by
  induction depth generalizing c c' ss with
  | zero => cases hss
  | succ depth ih =>
    have hrun : statementsRule (Grammar.standard.rules depth) c = .done ss d := hss
    rw [Nat.add_right_comm]
    show statementsRule (Grammar.standard.rules (depth + depth')) c' = _
    rcases h.skipEndLines with ⟨hend, hskip⟩ | ⟨hend, hskip⟩
    · have hkind := hskip.kind_eq hend
      by_cases hblock : c.skipEndLines.kind.endsBlock = true
      · rw [statementsRule_of_endsBlock hblock] at hrun
        cases hrun
        exact absurd hd hend
      · obtain ⟨s, others, f, hs, hothers, rfl⟩ := (statementsRule_eq_done_iff hblock).mp hrun
        have hstmt : Mimics q.Resumes (Rules.stmt (Grammar.standard.rules depth) .statement)
            (Rules.stmt (Grammar.standard.rules (depth + depth')) .statement) _ _ _ :=
          (mimic_rules q (Nat.le_add_right depth depth')).stmt hskip hend trivial
        obtain ⟨f', hf, hs'⟩ := hstmt s f hs
        have hblock' : c'.skipEndLines.kind.endsBlock ≠ true := by rwa [hkind]
        exact (statementsRule_eq_done_iff hblock').mpr ⟨_, _, f', hs', ih hf hothers, rfl⟩
    · -- The script has no more statements, and the rule goes on with what comes behind.
      rw [statementsRule_of_endsBlock (by rw [hend]; rfl)] at hrun
      cases hrun
      have hle : depth' ≤ depth + depth' + 1 := by omega
      have hstart : statementsRule (Grammar.standard.rules (depth + depth')) q.start = .done ss' e :=
        rules_mono (s := .statements) hclosed trivial hle hss'
      rw [statementsRule, skipEndLines_bind, hskip]
      exact hstart

end Sigil
