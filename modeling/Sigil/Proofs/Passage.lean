import Sigil.Grammar.Progress

/-!
# Passing over tokens

What a parsing step does to the cursor is to pass over some tokens: `Cursor.Passes c ts d` says that
the tokens from `c` on are `ts` and then those from `d` on. Passages are put together and taken apart
like the lists of tokens they pass.

The second part says, for each step that rules are made of, when it is done with a given value at a
given cursor. A rule is opened with these lemmas in both directions: to see what a run of it has passed
over, and to run it over tokens that are known.
-/

namespace Sigil

/-- The kind of the first of the tokens, or `next` if there are none. -/
def firstKind (ts : List Token) (next : Kind) : Kind :=
  match ts with
  | [] => next
  | t :: _ => t.kind

@[simp] theorem firstKind_nil (next : Kind) : firstKind [] next = next := rfl

@[simp] theorem firstKind_cons (t : Token) (ts : List Token) (next : Kind) :
    firstKind (t :: ts) next = t.kind := rfl

/-- What the first of two rows starts with is what both start with, unless it is empty. -/
theorem firstKind_append (ts us : List Token) (next : Kind) :
    firstKind (ts ++ us) next = firstKind ts (firstKind us next) := by
  cases ts <;> rfl

/-- The end of the script is not among the tokens. -/
def Endless (ts : List Token) : Prop := ∀ t ∈ ts, t.kind ≠ .endOfInput

@[simp] theorem endless_nil : Endless [] := nofun

@[simp] theorem endless_cons {t : Token} {ts : List Token} :
    Endless (t :: ts) ↔ t.kind ≠ .endOfInput ∧ Endless ts :=
  List.forall_mem_cons

@[simp] theorem endless_append {ts us : List Token} :
    Endless (ts ++ us) ↔ Endless ts ∧ Endless us :=
  List.forall_mem_append

namespace Cursor

/-- The tokens `ts` lead from `c` to `d`. -/
def Passes (c : Cursor) (ts : List Token) (d : Cursor) : Prop :=
  c.file = d.file ∧ c.remaining = ts ++ d.remaining

variable {c d e : Cursor} {t : Token} {ts us : List Token}

theorem passes_refl (c : Cursor) : c.Passes [] c := ⟨rfl, rfl⟩

theorem Passes.trans (h : c.Passes ts e) (h' : e.Passes us d) : c.Passes (ts ++ us) d := by
  refine ⟨h.1.trans h'.1, ?_⟩
  rw [h.2, h'.2, List.append_assoc]

/-- A cursor is given by its script and the tokens from it on. -/
theorem eq_of_remaining (hf : c.file = d.file) (hr : c.remaining = d.remaining) : c = d := by
  obtain ⟨file, t, ts⟩ := c
  obtain ⟨file', t', ts'⟩ := d
  simp only [remaining, List.cons.injEq] at hf hr
  rw [hf, hr.1, hr.2]

theorem passes_nil_iff : c.Passes [] d ↔ c = d := by
  constructor
  · intro h
    exact eq_of_remaining h.1 h.2
  · rintro rfl
    exact passes_refl c

/-- To pass over a token, the cursor has to stand at it, and moves on by it. -/
theorem passes_cons_iff :
    c.Passes (t :: ts) d ↔ c.current = t ∧ c.ahead ≠ [] ∧ c.advance.Passes ts d := by
  obtain ⟨file, u, ahead⟩ := c
  cases ahead with
  | nil => simp [Passes, remaining]
  | cons v vs => simp [Passes, remaining, Cursor.advance, and_left_comm]

/-- Between two rows of tokens that are passed there is a place. -/
theorem passes_append_iff :
    c.Passes (ts ++ us) d ↔ ∃ e, c.Passes ts e ∧ e.Passes us d := by
  constructor
  · intro h
    induction ts generalizing c with
    | nil => exact ⟨c, passes_refl c, h⟩
    | cons t ts ih =>
      obtain ⟨ht, ha, h⟩ := passes_cons_iff.mp h
      obtain ⟨e, h₁, h₂⟩ := ih h
      exact ⟨e, passes_cons_iff.mpr ⟨ht, ha, h₁⟩, h₂⟩
  · rintro ⟨e, h₁, h₂⟩
    exact h₁.trans h₂

/-- What was ahead is what was passed, and what is ahead still. -/
theorem Passes.length_eq (h : c.Passes ts d) : c.ahead.length = ts.length + d.ahead.length := by
  have := congrArg List.length h.2
  simp only [remaining, List.length_cons, List.length_append] at this
  omega

theorem Passes.length_lt (h : c.Passes ts d) (hts : ts ≠ []) : d.ahead.length < c.ahead.length := by
  have := h.length_eq
  have := List.length_pos_iff.mpr hts
  omega

/-- The first token that is passed is the current one. -/
theorem Passes.uncons (h : c.Passes (t :: ts) d) :
    c.current = t ∧ c.advance.Passes ts d ∧ c.advance.ahead.length < c.ahead.length := by
  obtain ⟨ht, ha, hp⟩ := passes_cons_iff.mp h
  have h₁ := h.length_eq
  have h₂ := hp.length_eq
  rw [List.length_cons] at h₁
  exact ⟨ht, hp, by omega⟩

theorem Passes.head (h : c.Passes (t :: ts) d) : c.Passes [t] c.advance := by
  obtain ⟨ht, ha, -⟩ := passes_cons_iff.mp h
  exact passes_cons_iff.mpr ⟨ht, ha, passes_refl _⟩

/-- A token in the middle of what is passed is met on the way. -/
theorem Passes.meets (h : c.Passes (ts ++ t :: us) d) :
    ∃ e, c.Passes ts e ∧ e.current = t ∧ e.advance.Passes us d ∧
      e.advance.ahead.length < c.ahead.length := by
  obtain ⟨e, hts, hrest⟩ := passes_append_iff.mp h
  obtain ⟨ht, hus, hlt⟩ := hrest.uncons
  have := hts.length_eq
  exact ⟨e, hts, ht, hus, by omega⟩

/-- The token that is met first belongs to what is passed, or is the one at which the passage ends. -/
theorem Passes.kind_eq (h : c.Passes ts d) : c.kind = firstKind ts d.kind := by
  cases ts with
  | nil => rw [passes_nil_iff.mp h]; rfl
  | cons t ts => rw [kind, (passes_cons_iff.mp h).1]; rfl

/-- What follows the passed token is seen one place ahead. -/
theorem Passes.peek_one (h : c.Passes [t] d) : c.peek 1 = d.kind := by
  rw [peek, h.2]
  rfl

/-- Before the end of the script, moving on passes the current token. -/
theorem Closed.passes_advance (h : c.Closed) (hk : c.kind ≠ .endOfInput) :
    c.Passes [c.current] c.advance := by
  refine passes_cons_iff.mpr ⟨rfl, ?_, passes_refl _⟩
  intro ha
  have hlt := h.length_advance_lt hk
  rw [ha] at hlt
  exact absurd hlt (Nat.not_lt_zero _)

/-- Skipping the ends of lines starts with the current token, if that is the end of a line. -/
theorem skipEndLines_of_endLine (ha : c.ahead ≠ []) (hk : c.kind = .endLine) :
    c.skipEndLines = c.advance.skipEndLines := by
  obtain ⟨file, t, ahead⟩ := c
  cases ahead with
  | nil => exact absurd rfl ha
  | cons u us =>
    have ht : t.kind = .endLine := hk
    simp [skipEndLines, skipFrom, Cursor.advance, ht]

theorem skipEndLines_of_ne (hk : c.kind ≠ .endLine) : c.skipEndLines = c := by
  obtain ⟨file, t, ahead⟩ := c
  cases ahead with
  | nil => rfl
  | cons u us =>
    have ht : t.kind ≠ .endLine := hk
    simp [skipEndLines, skipFrom, ht]

/-- Skipping the ends of lines passes over ends of lines only. -/
theorem Closed.passes_skipEndLines (h : c.Closed) :
    ∃ ts, c.Passes ts c.skipEndLines ∧ ∀ t ∈ ts, t.kind = .endLine := by
  obtain ⟨file, t, ahead⟩ := c
  induction ahead generalizing t with
  | nil => exact ⟨[], passes_refl _, by simp⟩
  | cons u us ih =>
    by_cases hk : (Cursor.mk file t (u :: us)).kind = .endLine
    · have ht : t.kind = .endLine := hk
      obtain ⟨ts, hts, hall⟩ := ih u (closed_cons.mp h)
      refine ⟨t :: ts, ?_, by simpa [ht] using hall⟩
      rw [skipEndLines_of_endLine (by simp) hk]
      exact passes_cons_iff.mpr ⟨rfl, by simp, hts⟩
    · rw [skipEndLines_of_ne hk]
      exact ⟨[], passes_refl _, by simp⟩

/-! Whole rows of tokens. -/

theorem file_ofTokens (file : String) (tokens : List Token) : (ofTokens file tokens).file = file := by
  cases tokens <;> rfl

/-- Tokens that end with the end of the script are walked as they are. -/
theorem remaining_ofTokens (file : String) {tokens : List Token}
    (h : ∃ ts e, tokens = ts ++ [e] ∧ e.kind = .endOfInput) :
    (ofTokens file tokens).remaining = tokens := by
  obtain ⟨ts, e, rfl, he⟩ := h
  cases ts with
  | nil => simp [ofTokens, closing, he, remaining]
  | cons t ts => simp [ofTokens, closing, he, remaining]

end Cursor

/-! ## When a step is done -/

namespace Parse

variable {α β : Type} {c d : Cursor}

theorem bind_of_done {p : Parse α} {f : α → Parse β} {a : α} (h : p c = .done a d) :
    (p >>= f) c = f a d := by
  show Parse.bind p f c = f a d
  rw [Parse.bind, h]

theorem current_bind (f : Token → Parse β) (c : Cursor) : (current >>= f) c = f c.current c := rfl

theorem peek_bind (n : Nat) (f : Kind → Parse β) (c : Cursor) :
    (peek n >>= f) c = f (c.peek n) c := rfl

theorem advance_bind (f : Token → Parse β) (c : Cursor) :
    (advance >>= f) c = f c.current c.advance := rfl

theorem skipEndLines_bind (f : Unit → Parse β) (c : Cursor) :
    (skipEndLines >>= f) c = f () c.skipEndLines := rfl

theorem expectOr_bind {k : Kind} {problem : Cursor → Diagnostic} (f : Token → Parse β)
    (hk : c.kind = k) : (expectOr k problem >>= f) c = f c.current c.advance :=
  bind_of_done (if_pos hk)

theorem expect_bind {k : Kind} (f : Token → Parse β) (hk : c.kind = k) :
    (expect k >>= f) c = f c.current c.advance :=
  expectOr_bind f hk

/-- Two steps are done if the first is, and the second from there. -/
theorem bind_eq_done_iff {p : Parse α} {f : α → Parse β} {b : β} :
    (p >>= f) c = .done b d ↔ ∃ a e, p c = .done a e ∧ f a e = .done b d := by
  show Parse.bind p f c = .done b d ↔ _
  unfold Parse.bind
  cases p c <;> simp [and_assoc]

theorem pure_eq_done_iff {a b : α} : (pure a : Parse α) c = .done b d ↔ a = b ∧ c = d := by
  show Reply.done a c = .done b d ↔ _
  simp

theorem fail_eq_done_iff {problem : Cursor → Diagnostic} {b : α} :
    (fail problem : Parse α) c = .done b d ↔ False := by
  simp [fail]

theorem current_eq_done_iff {t : Token} : current c = .done t d ↔ c.current = t ∧ c = d := by
  simp [current]

theorem peek_eq_done_iff {n : Nat} {k : Kind} : peek n c = .done k d ↔ c.peek n = k ∧ c = d := by
  simp [peek]

theorem advance_eq_done_iff {t : Token} :
    advance c = .done t d ↔ c.current = t ∧ c.advance = d := by
  simp [advance]

theorem skipEndLines_eq_done_iff {u : Unit} :
    skipEndLines c = .done u d ↔ c.skipEndLines = d := by
  simp [skipEndLines]

theorem expectOr_eq_done_iff {k : Kind} {problem : Cursor → Diagnostic} {t : Token} :
    expectOr k problem c = .done t d ↔ c.kind = k ∧ c.current = t ∧ c.advance = d := by
  unfold expectOr
  split <;> simp [*]

theorem expect_eq_done_iff {k : Kind} {t : Token} :
    expect k c = .done t d ↔ c.kind = k ∧ c.current = t ∧ c.advance = d :=
  expectOr_eq_done_iff

end Parse

end Sigil
