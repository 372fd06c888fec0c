import Sigil.Proofs.Acceptance
import Sigil.Proofs.Legibility
import Sigil.Proofs.Simulation

/-!
# Written trees are read back

A tree that can be written is read back from what was written: every line of it is legible, so the
scanner finds the lexemes again, and the grammar derives the tree from their tokens. The derivation
follows the tree. All it has to know about what comes next is that no parenthesis does, which would make
a call of a name.
-/

namespace Sigil

open Lexeme

/-! ## The lines of a tree are legible -/

theorem breaks_of_mem_signs {x : Lexeme} (h : x ∈ signs) : x.Breaks := by
  simp only [signs, List.mem_cons, List.not_mem_nil, or_false] at h
  rcases h with rfl | rfl | rfl | rfl | rfl | rfl
  all_goals exact ⟨_, _, rfl, by decide⟩

theorem breaks_ofOperator {op : String} (h : IsOperator op) : (ofOperator op).Breaks := by
  cases h with
  | comparison h =>
    simp only [List.mem_cons, List.not_mem_nil, or_false] at h
    rcases h with rfl | rfl | rfl
    all_goals exact ⟨_, _, rfl, by decide⟩
  | @single c h =>
    obtain ⟨ha, hb, hc⟩ := isOperatorChar_iff.mp h
    have hspace : c ≠ ' ' := by
      rintro rfl
      revert hb
      decide
    have htab : c ≠ '\t' := by
      rintro rfl
      revert hb
      decide
    simp only [List.mem_cons, not_or] at hc
    refine ⟨c, [], by simp [ofOperator, sign], ?_⟩
    simp [continuesName, ha, hc.1, hspace, htab]

theorem Legible.sign_cons {x : Lexeme} {line : List Lexeme} (hx : x ∈ signs) (h : Legible line) :
    Legible (x :: line) :=
  .other (standalone_of_mem_signs hx) h

/-- A sign can follow anything. -/
theorem Legible.append_sign {x : Lexeme} {line line' : List Lexeme} (hx : x ∈ signs)
    (h : Legible line) (h' : Legible line') : Legible (line ++ x :: line') :=
  h.append (h'.sign_cons hx) ((breaks_of_mem_signs hx).head line')

theorem ofSlot_of_isWord {name : String} (h : IsWord name) : ofSlot name = ofWord name := by
  obtain ⟨c, cs, hname, hc, -⟩ := h.shape
  simp [ofSlot, hname, hc]

theorem ofSlot_of_numberText {name : String} (h : NumberText name.toList) :
    ofSlot name = sign .number name.toList := by
  obtain ⟨c, rest, hname, -, hc, -⟩ := starts_of_numberText h []
  simp [ofSlot, hname, hc]

theorem Variable.legible_words {v : Variable} (h : v.WellFormed) : Legible v.words := by
  have hslot : ∀ sigil ∈ signs, Legible [sigil, ofSlot v.name] := by
    intro sigil hs
    refine Legible.sign_cons hs ?_
    rcases h with h | ⟨_, h⟩
    · rw [ofSlot_of_isWord h.toIsWord]
      exact .word h.toIsWord (by simp) .nil
    · rw [ofSlot_of_numberText h]
      exact .other (standalone_number h) .nil
  unfold Variable.words
  split
  · exact hslot dollar (by simp [signs])
  · exact hslot diamond (by simp [signs])
  · rename_i hglobal
    rcases h with h | ⟨hne, _⟩
    · exact .word h.toIsWord (by simp) .nil
    · exact absurd hglobal hne

theorem Expr.legible_group {e : Expr} {words : List Lexeme} (h : Legible words) :
    Legible (e.group words) := by
  unfold Expr.group
  split
  · exact Legible.sign_cons (by simp [signs]) (h.append_sign (by simp [signs]) .nil)
  · exact h

/-- Expressions with semicolons between them can be written on a line. -/
theorem Expr.legible_wordsAll {es : List Expr} (h : ∀ e ∈ es, Legible e.words) :
    Legible (Expr.wordsAll es) := by
  induction es with
  | nil => exact .nil
  | cons e es ih =>
    obtain ⟨he, hes⟩ := List.forall_mem_cons.mp h
    rw [Expr.wordsAll]
    split
    · rw [List.append_nil]
      exact he
    · exact he.append_sign (by simp [signs]) (ih hes)

/-- A well-formed expression can be written on a line. -/
theorem Expr.WellFormed.legible_words {e : Expr} (h : e.WellFormed) : Legible e.words := by
  induction h with
  | number h => exact .other (standalone_number h) .nil
  | string hq hr => exact .other (standalone_ofString hq hr) .nil
  | var h => exact Variable.legible_words h
  | unary hop _ ih => exact .other (standalone_ofOperator hop) (Expr.legible_group ih)
  | binary hop _ _ ihl ihr =>
    exact (Expr.legible_group ihl).append (.other (standalone_ofOperator hop) ihr)
      ((breaks_ofOperator hop).head _)
  | call hn _ ih =>
    refine .word hn.toIsWord ((breaks_of_mem_signs ?_).head _) (Legible.sign_cons ?_ ?_)
    · simp [signs]
    · simp [signs]
    · exact (Expr.legible_wordsAll ih).append_sign (by simp [signs]) .nil

/-- The reserved words, as they are written. -/
def keywords : List String :=
  ["if", "else", "end if", "for", "end for", "while", "end while", "repeat", "until"]

/-- A word is told by its characters and its normal form. -/
theorem isWord_of_chars {w : String} (hhead : w.toList.head?.any startsName = true)
    (htail : w.toList.tail.all continuesName = true) (hnormal : normalizeName w = w) :
    IsWord w := by
  cases hw : w.toList with
  | nil => simp [hw] at hhead
  | cons c cs =>
    rw [hw] at hhead htail
    exact ⟨⟨c, cs, hw, by simpa using hhead, List.all_eq_true.mp htail⟩, hnormal⟩

/-- The words of the grammar are words. -/
theorem isWord_of_mem_keywords {w : String} (h : w ∈ keywords) : IsWord w := by
  have hall : ∀ w ∈ keywords, w.toList.head?.any startsName = true ∧
      w.toList.tail.all continuesName = true ∧ normalizeName w = w := by
    decide +kernel
  obtain ⟨hhead, htail, hnormal⟩ := hall w h
  exact isWord_of_chars hhead htail hnormal

theorem legible_keyword {w : String} (h : w ∈ keywords) : Legible [ofWord w] :=
  .word (isWord_of_mem_keywords h) (by simp) .nil

/-- The line of a keyword with something in parentheses behind it. -/
theorem legible_parenthesized {w : String} {words : List Lexeme} (hw : w ∈ keywords)
    (h : Legible words) : Legible (ofWord w :: openParen :: (words ++ [closeParen])) := by
  have hopen : openParen ∈ signs := by simp [signs]
  refine .word (isWord_of_mem_keywords hw) ((breaks_of_mem_signs hopen).head _)
    (Legible.sign_cons hopen ?_)
  exact h.append_sign (by simp [signs]) .nil

theorem Block.linesAll_eq (ss : List Stmt) : Block.linesAll ss = ss.flatMap Stmt.lines :=
  eq_flatMap_of_cons rfl (fun _ _ => rfl) ss

theorem Block.lines_eq (b : Block) : b.lines = b.body.flatMap Stmt.lines := by
  cases b with
  | mk body s => exact Block.linesAll_eq body

/-- A well-formed statement can be written on its lines. -/
theorem Stmt.WellFormed.legible_lines {s : Stmt} (h : s.WellFormed) :
    ∀ line ∈ s.lines, Legible line := by
  have hblock : ∀ b : Block, (∀ x ∈ b.body, ∀ line ∈ x.lines, Legible line) →
      ∀ line ∈ b.lines, Legible line := by
    intro b hb line hline
    rw [Block.lines_eq] at hline
    obtain ⟨x, hx, hline⟩ := List.mem_flatMap.mp hline
    exact hb x hx line hline
  induction h with
  | expression he => simpa [Stmt.lines] using he.legible_words
  | assign ht _ he =>
    simpa [Stmt.lines] using ht.legible_words.append_sign (by simp [signs]) he.legible_words
  | @cond c yes no s hc _ _ ihy ihn =>
    have hif := legible_parenthesized (w := "if") (by simp [keywords]) hc.legible_words
    have hend := legible_keyword (w := "end if") (by simp [keywords])
    have hyes := hblock yes ihy
    cases no with
    | none =>
      intro line hline
      simp only [Stmt.lines, List.mem_cons, List.mem_append, List.not_mem_nil, or_false] at hline
      rcases hline with rfl | hline | rfl
      · exact hif
      · exact hyes line hline
      · exact hend
    | some no =>
      have helse := legible_keyword (w := "else") (by simp [keywords])
      have hno := hblock no (ihn no rfl)
      intro line hline
      simp only [Stmt.lines, List.mem_cons, List.mem_append, List.not_mem_nil, or_false] at hline
      rcases hline with rfl | hline | rfl | hline | rfl
      · exact hif
      · exact hyes line hline
      · exact helse
      · exact hno line hline
      · exact hend
  | @count counter first last increment body s ht _ hf hl hi _ ihb =>
    have hargs : ∀ e ∈ counter :: first :: last :: increment.toList, Legible e.words := by
      intro e he
      simp only [List.mem_cons, Option.mem_toList] at he
      rcases he with rfl | rfl | rfl | he
      · exact ht.legible_words
      · exact hf.legible_words
      · exact hl.legible_words
      · exact (hi e he).legible_words
    intro line hline
    simp only [Stmt.lines, List.mem_cons, List.mem_append, List.not_mem_nil, or_false] at hline
    rcases hline with rfl | hline | rfl
    · exact legible_parenthesized (by simp [keywords]) (Expr.legible_wordsAll hargs)
    · exact hblock body ihb line hline
    · exact legible_keyword (by simp [keywords])
  | @loop c body s hc _ ihb =>
    intro line hline
    simp only [Stmt.lines, List.mem_cons, List.mem_append, List.not_mem_nil, or_false] at hline
    rcases hline with rfl | hline | rfl
    · exact legible_parenthesized (by simp [keywords]) hc.legible_words
    · exact hblock body ihb line hline
    · exact legible_keyword (by simp [keywords])
  | @loopUntil body c s _ hc ihb =>
    intro line hline
    simp only [Stmt.lines, List.mem_cons, List.mem_append, List.not_mem_nil, or_false] at hline
    rcases hline with rfl | hline | rfl
    · exact legible_keyword (by simp [keywords])
    · exact hblock body ihb line hline
    · exact legible_parenthesized (by simp [keywords]) hc.legible_words

theorem Block.WellFormed.legible_lines {b : Block} (h : b.WellFormed) :
    ∀ line ∈ b.lines, Legible line := by
  intro line hline
  rw [Block.lines_eq] at hline
  obtain ⟨s, hs, hline⟩ := List.mem_flatMap.mp hline
  exact (h s hs).legible_lines line hline

/-! ## The grammar derives a tree from its lexemes -/

theorem spells_nil_iff {ts : List Token} : Spells ts [] ↔ ts = [] := by
  simp [Spells]

theorem spells_cons_iff {ts : List Token} {x : Lexeme} {words : List Lexeme} :
    Spells ts (x :: words) ↔
      ∃ t us, ts = t :: us ∧ t.kind = x.kind ∧ t.value = x.value ∧ Spells us words := by
  simp only [Spells, List.map_cons, List.map_eq_cons_iff, Prod.mk.injEq]
  constructor
  · rintro ⟨t, us, rfl, ⟨hk, hv⟩, hus⟩
    exact ⟨t, us, rfl, hk, hv, hus⟩
  · rintro ⟨t, us, rfl, hk, hv, hus⟩
    exact ⟨t, us, rfl, ⟨hk, hv⟩, hus⟩

/-- Tokens that spell two rows of lexemes come in two rows. -/
theorem spells_append_iff {ts : List Token} {words words' : List Lexeme} :
    Spells ts (words ++ words') ↔
      ∃ us us', ts = us ++ us' ∧ Spells us words ∧ Spells us' words' := by
  simp only [Spells, List.map_append, List.map_eq_append_iff]

theorem spells_singleton_iff {ts : List Token} {x : Lexeme} :
    Spells ts [x] ↔ ∃ t, ts = [t] ∧ t.kind = x.kind ∧ t.value = x.value := by
  rw [spells_cons_iff]
  constructor
  · rintro ⟨t, us, rfl, hk, hv, hus⟩
    exact ⟨t, by rw [spells_nil_iff.mp hus], hk, hv⟩
  · rintro ⟨t, rfl, hk, hv⟩
    exact ⟨t, [], rfl, hk, hv, spells_nil_iff.mpr rfl⟩

/-- The tokens of the expression derive it, where no parenthesis follows: as an expression, and in
parentheses if need be as a primary expression. -/
structure Expr.Derived (e : Expr) : Prop where
  expression : ∀ next ts, next ≠ .openParen → Spells ts e.words →
    Sentence (.expr .expression) next ts e.unplaced
  primary : ∀ next ts, next ≠ .openParen → Spells ts (e.group e.words) →
    Sentence (.expr .primary) next ts e.unplaced

/-- What needs no parentheses is derived as an operand, and so as an expression. -/
theorem Expr.Derived.of_primary {e : Expr} (hgroup : e.group e.words = e.words)
    (h : ∀ next ts, next ≠ .openParen → Spells ts e.words →
      Sentence (.expr .primary) next ts e.unplaced) : e.Derived where
  expression next ts hnext hts := .primary (h next ts hnext hts)
  primary next ts hnext hts := h next ts hnext (hgroup ▸ hts)

theorem Expr.derived_arguments {es : List Expr} (h : ∀ e ∈ es, e.Derived) (hne : es ≠ [])
    {ts : List Token} (hts : Spells ts (Expr.wordsAll es)) :
    Sentence .arguments .closeParen ts (Expr.mapSpansAll (fun _ => .nowhere) es) := by
  induction es generalizing ts with
  | nil => exact absurd rfl hne
  | cons e es ih =>
    obtain ⟨he, hes⟩ := List.forall_mem_cons.mp h
    cases es with
    | nil =>
      have hts : Spells ts e.words := by simpa [Expr.wordsAll] using hts
      exact .lastArgument (he.expression _ _ (by decide) hts)
    | cons e' es =>
      have hts : Spells ts (e.words ++ semicolon :: Expr.wordsAll (e' :: es)) := hts
      obtain ⟨us, vs, rfl, hus, hvs⟩ := spells_append_iff.mp hts
      obtain ⟨sep, vs, rfl, hsep, -, hvs⟩ := spells_cons_iff.mp hvs
      have hfirst := he.expression .semicolon us (by decide) hus
      exact .moreArguments hfirst hsep (ih hes (by simp) hvs)

theorem kind_ofSlot {v : Variable} (h : v.WellFormed) :
    (ofSlot v.name).kind = .name ∨ (ofSlot v.name).kind = .number := by
  rcases h with h | ⟨_, h⟩
  · rw [ofSlot_of_isWord h.toIsWord]
    left
    simp [ofWord, h.free]
  · rw [ofSlot_of_numberText h]
    exact .inr rfl

theorem value_ofSlot {v : Variable} (h : v.WellFormed) : (ofSlot v.name).value = v.name := by
  rcases h with h | ⟨_, h⟩
  · rw [ofSlot_of_isWord h.toIsWord]
    rfl
  · rw [ofSlot_of_numberText h]
    exact String.ofList_toList

/-- The lexemes of a variable are derived as that variable. -/
theorem Variable.derived {v : Variable} (h : v.WellFormed) (s : Span) :
    (Expr.var v .undetermined s).Derived := by
  refine .of_primary rfl ?_
  intro next ts hnext hts
  obtain ⟨name, storage⟩ := v
  have hkind := kind_ofSlot h
  have hvalue := value_ofSlot h
  cases storage with
  | localSlot =>
    obtain ⟨sigil, us, rfl, hs, -, hus⟩ := spells_cons_iff.mp hts
    obtain ⟨t, rfl, hk, hv⟩ := spells_singleton_iff.mp hus
    obtain rfl : t.value = name := hv.trans hvalue
    rw [← hk] at hkind
    exact .localVariable hs hkind
  | persistentSlot =>
    obtain ⟨sigil, us, rfl, hs, -, hus⟩ := spells_cons_iff.mp hts
    obtain ⟨t, rfl, hk, hv⟩ := spells_singleton_iff.mp hus
    obtain rfl : t.value = name := hv.trans hvalue
    rw [← hk] at hkind
    exact .persistentVariable hs hkind
  | globalSlot =>
    obtain ⟨t, rfl, hk, rfl⟩ := spells_singleton_iff.mp hts
    have hname : IsName t.value := by
      rcases h with h | ⟨hne, _⟩
      · exact h
      · exact absurd rfl hne
    have hk : t.kind = .name := by
      rw [hk]
      simp [ofWord, hname.free]
    exact .globalVariable hk hnext

theorem Expr.derived_literal {text : String} {t : Ty} {s : Span}
    (h : (Expr.literal text t s).WellFormed) : (Expr.literal text t s).Derived := by
  refine .of_primary rfl ?_
  intro next ts _ hts
  cases h with
  | number h =>
    obtain ⟨t, rfl, hk, hv⟩ := spells_singleton_iff.mp hts
    obtain rfl : t.value = text := hv.trans String.ofList_toList
    exact .number hk
  | string hq hr =>
    obtain ⟨t, rfl, hk, rfl⟩ := spells_singleton_iff.mp hts
    exact .string hk

theorem Expr.derived_call {name : String} {args : List Expr} (hn : IsName name)
    (h : ∀ e ∈ args, e.Derived) (s : Span) : (Expr.call name args .undetermined s).Derived := by
  refine .of_primary rfl ?_
  intro next ts _ hts
  obtain ⟨t, ws, rfl, hk, rfl, hws⟩ := spells_cons_iff.mp hts
  obtain ⟨o, xs, rfl, ho, -, hxs⟩ := spells_cons_iff.mp hws
  obtain ⟨us, vs, rfl, hus, hvs⟩ := spells_append_iff.mp hxs
  obtain ⟨p, rfl, hp, -⟩ := spells_singleton_iff.mp hvs
  have hname : t.kind = .name := by
    rw [hk]
    simp [ofWord, hn.free]
  by_cases hargs : args = []
  · subst hargs
    obtain rfl := spells_nil_iff.mp hus
    exact .emptyCall hname ho hp
  · exact .call hname ho (Expr.derived_arguments h hargs hus) hp

theorem value_of_spelled_operator {t : Token} {op : String} (h : t.value = (ofOperator op).value) :
    t.value = op :=
  h.trans String.ofList_toList

/-- The lexemes of a well-formed expression are derived as that expression. -/
theorem Expr.WellFormed.derived {e : Expr} (h : e.WellFormed) : e.Derived := by
  induction h with
  | number h => exact Expr.derived_literal (.number h)
  | string hq hr => exact Expr.derived_literal (.string hq hr)
  | var h => exact Variable.derived h _
  | @unary op e s _ _ ih =>
    refine .of_primary rfl ?_
    intro next ts hnext hts
    obtain ⟨t, us, rfl, hk, hv, hus⟩ := spells_cons_iff.mp hts
    obtain rfl := value_of_spelled_operator hv
    exact .unary hk (ih.primary next us hnext hus)
  | @binary op l r s _ _ _ ihl ihr =>
    -- As a primary expression it stands in parentheses, and inside of them it is an expression again.
    have hexpr : ∀ next ts, next ≠ .openParen →
        Spells ts (Expr.binary op l r .undetermined s).words →
        Sentence (.expr .expression) next ts (Expr.binary op l r .undetermined s).unplaced := by
      intro next ts hnext hts
      obtain ⟨us, vs, rfl, hus, hvs⟩ := spells_append_iff.mp hts
      obtain ⟨t, rs, rfl, hk, hv, hrs⟩ := spells_cons_iff.mp hvs
      obtain rfl := value_of_spelled_operator hv
      exact .binary (ihl.primary _ us (by decide) hus) hk (ihr.expression next rs hnext hrs)
    refine ⟨hexpr, ?_⟩
    intro next ts _ hts
    obtain ⟨o, ws, rfl, ho, -, hws⟩ := spells_cons_iff.mp hts
    obtain ⟨us, vs, rfl, hus, hvs⟩ := spells_append_iff.mp hws
    obtain ⟨p, rfl, hp, -⟩ := spells_singleton_iff.mp hvs
    exact .grouping ho (hexpr _ us (by decide) hus) hp
  | call hn _ ih => exact Expr.derived_call hn ih _

theorem lineWords_cons (line : List Lexeme) (lines : List (List Lexeme)) :
    lineWords (line :: lines) = line ++ endLine :: lineWords lines := by
  simp [lineWords]

theorem lineWords_append (lines lines' : List (List Lexeme)) :
    lineWords (lines ++ lines') = lineWords lines ++ lineWords lines' := by
  simp [lineWords]

/-- The tokens of the statement derive it, whatever follows. -/
def Stmt.Derived (s : Stmt) : Prop :=
  ∀ next ts, Spells ts (lineWords s.lines) → Sentence (.stmt .statement) next ts s.unplaced

/-- The lines of statements are derived as these statements, before anything. -/
theorem Block.derived_statements {ss : List Stmt} (h : ∀ s ∈ ss, s.Derived) (next : Kind)
    {ts : List Token} (hts : Spells ts (lineWords (Block.linesAll ss))) :
    Sentence .statements next ts (Block.mapSpansAll (fun _ => .nowhere) ss) := by
  induction ss generalizing ts with
  | nil =>
    obtain rfl := spells_nil_iff.mp hts
    exact .noStatement
  | cons s ss ih =>
    obtain ⟨hs, hss⟩ := List.forall_mem_cons.mp h
    rw [Block.linesAll, lineWords_append] at hts
    obtain ⟨us, vs, rfl, hus, hvs⟩ := spells_append_iff.mp hts
    exact .moreStatements (hs _ us hus) (ih hss hvs)

/-- The tokens of a block between two lines: they start with the end of the first, and go up to the
second. -/
theorem Block.spells_nested {b : Block} (h : ∀ s ∈ b.body, s.Derived) (next : Kind)
    {ts : List Token} {words : List Lexeme}
    (hts : Spells ts (endLine :: (lineWords b.lines ++ words))) :
    ∃ ys us, ts = ys ++ us ∧ Sentence .block next ys b.unplaced ∧ Spells us words := by
  cases b with
  | mk body s =>
    obtain ⟨t, ts₁, rfl, ht, -, hts₁⟩ := spells_cons_iff.mp hts
    obtain ⟨ys, us, rfl, hys, hus⟩ := spells_append_iff.mp hts₁
    exact ⟨t :: ys, us, rfl, .block (.blankLine ht (Block.derived_statements h next hys)), hus⟩

/-- The tokens of a keyword with a condition behind it, up to the end of the line. -/
theorem spells_conditionLine {w : String} {c : Expr} (hc : c.WellFormed) {ts : List Token}
    {words : List Lexeme} (hts : Spells ts (conditionLine w c ++ words)) :
    ∃ i o cs p us, ts = i :: o :: (cs ++ p :: us) ∧ i.kind = (ofWord w).kind ∧
      o.kind = .openParen ∧ Sentence (.expr .expression) .closeParen cs c.unplaced ∧
      p.kind = .closeParen ∧ Spells us words := by
  simp only [conditionLine, List.cons_append, List.append_assoc, List.nil_append] at hts
  obtain ⟨i, ts₁, rfl, hi, -, hts₁⟩ := spells_cons_iff.mp hts
  obtain ⟨o, ts₂, rfl, ho, -, hts₂⟩ := spells_cons_iff.mp hts₁
  obtain ⟨cs, ts₃, rfl, hcs, hts₃⟩ := spells_append_iff.mp hts₂
  obtain ⟨p, us, rfl, hp, -, hus⟩ := spells_cons_iff.mp hts₃
  exact ⟨i, o, cs, p, us, rfl, hi, ho, hc.derived.expression _ cs (by decide) hcs, hp, hus⟩

/-- The tokens of a keyword that is the last line. -/
theorem spells_lastLine {w : String} {ts : List Token} (hts : Spells ts [ofWord w, endLine]) :
    ∃ f t, ts = [f, t] ∧ f.kind = (ofWord w).kind ∧ t.kind = .endLine := by
  obtain ⟨f, us, rfl, hf, -, hus⟩ := spells_cons_iff.mp hts
  obtain ⟨t, rfl, ht, -⟩ := spells_singleton_iff.mp hus
  exact ⟨f, t, rfl, hf, ht⟩

theorem Stmt.derived_expression {e : Expr} (he : e.WellFormed) (s : Span) :
    (Stmt.expression e s).Derived := by
  intro next ts hts
  simp only [Stmt.lines, lineWords_cons] at hts
  obtain ⟨us, vs, rfl, hus, hvs⟩ := spells_append_iff.mp hts
  obtain ⟨t, rfl, ht, -⟩ := spells_singleton_iff.mp hvs
  refine .expression (he.derived.expression _ us ?_ hus) (.line ht)
  rw [firstKind_cons, ht]
  decide

/-- The line of an assignment is derived as that assignment. -/
theorem Stmt.derived_assign {target value : Expr} (ht : target.WellFormed)
    (hv : target.isVar = true) (he : value.WellFormed) (s : Span) :
    (Stmt.assign target value s).Derived := by
  intro next ts hts
  simp only [Stmt.lines, lineWords_cons, List.append_assoc, List.cons_append] at hts
  obtain ⟨us, ts₁, rfl, hus, hts₁⟩ := spells_append_iff.mp hts
  obtain ⟨a, ts₂, rfl, ha, -, hts₂⟩ := spells_cons_iff.mp hts₁
  obtain ⟨vs, ts₃, rfl, hvs, hts₃⟩ := spells_append_iff.mp hts₂
  obtain ⟨t, rfl, htk, -⟩ := spells_singleton_iff.mp hts₃
  have htarget := ht.derived.expression .assign us (by decide) hus
  refine .assign htarget (by simpa using hv) ha (he.derived.expression _ vs ?_ hvs) (.line htk)
  rw [firstKind_cons, htk]
  decide

/-- The lines of a condition are derived as that condition, with an alternative or without. -/
theorem Stmt.derived_cond {c : Expr} {yes : Block} {no : Option Block} (hc : c.WellFormed)
    (hy : ∀ x ∈ yes.body, x.Derived) (hn : ∀ b ∈ no, ∀ x ∈ b.body, x.Derived) (s : Span) :
    (Stmt.cond c yes no s).Derived := by
  intro next ts hts
  cases no with
  | none =>
    simp only [Stmt.lines, lineWords_cons, lineWords_append] at hts
    obtain ⟨i, o, cs, p, ts₁, rfl, hi, ho, hcs, hp, hts₁⟩ := spells_conditionLine hc hts
    obtain ⟨ys, ts₂, rfl, hys, hts₂⟩ := Block.spells_nested hy .endIf hts₁
    obtain ⟨f, t, rfl, hf, ht⟩ := spells_lastLine hts₂
    exact .cond hi ho hcs hp hys hf (.line ht)
  | some no =>
    simp only [Stmt.lines, lineWords_cons, lineWords_append, List.cons_append, List.nil_append] at hts
    obtain ⟨i, o, cs, p, ts₁, rfl, hi, ho, hcs, hp, hts₁⟩ := spells_conditionLine hc hts
    obtain ⟨ys, ts₂, rfl, hys, hts₂⟩ := Block.spells_nested hy .elseWord hts₁
    obtain ⟨w, ts₃, rfl, hw, -, hts₃⟩ := spells_cons_iff.mp hts₂
    obtain ⟨ns, ts₄, rfl, hns, hts₄⟩ := Block.spells_nested (hn no rfl) .endIf hts₃
    obtain ⟨f, t, rfl, hf, ht⟩ := spells_lastLine hts₄
    exact .condElse hi ho hcs hp hys hw hns hf (.line ht)

theorem Stmt.derived_loop {c : Expr} {body : Block} (hc : c.WellFormed)
    (hb : ∀ x ∈ body.body, x.Derived) (s : Span) : (Stmt.loop c body s).Derived := by
  intro next ts hts
  simp only [Stmt.lines, lineWords_cons, lineWords_append] at hts
  obtain ⟨w, o, cs, p, ts₁, rfl, hw, ho, hcs, hp, hts₁⟩ := spells_conditionLine hc hts
  obtain ⟨ys, ts₂, rfl, hys, hts₂⟩ := Block.spells_nested hb .endWhile hts₁
  obtain ⟨f, t, rfl, hf, ht⟩ := spells_lastLine hts₂
  exact .loop hw ho hcs hp hys hf (.line ht)

theorem Stmt.derived_loopUntil {c : Expr} {body : Block} (hb : ∀ x ∈ body.body, x.Derived)
    (hc : c.WellFormed) (s : Span) : (Stmt.loopUntil body c s).Derived := by
  intro next ts hts
  simp only [Stmt.lines, lineWords_cons, lineWords_append, List.cons_append, List.nil_append] at hts
  obtain ⟨w, ts₁, rfl, hw, -, hts₁⟩ := spells_cons_iff.mp hts
  obtain ⟨ys, ts₂, rfl, hys, hts₂⟩ := Block.spells_nested hb .untilWord hts₁
  obtain ⟨u, o, cs, p, ts₃, rfl, hu, ho, hcs, hp, hts₃⟩ := spells_conditionLine hc hts₂
  obtain ⟨t, rfl, ht, -⟩ := spells_singleton_iff.mp hts₃
  exact .loopUntil hw hys hu ho hcs hp (.line ht)

theorem Expr.group_of_isVar {e : Expr} (h : e.isVar = true) (words : List Lexeme) :
    e.group words = words := by
  cases e with
  | binary op l r t s => cases h
  | _ => rfl

/-- Bounds and increment of a `for` are separated like arguments, but the counter is a primary
expression. -/
theorem Stmt.derived_count {counter first last : Expr} {increment : Option Expr} {body : Block}
    (ht : counter.WellFormed) (hv : counter.isVar = true) (hf : first.WellFormed)
    (hl : last.WellFormed) (hi : ∀ e ∈ increment, e.WellFormed)
    (hb : ∀ x ∈ body.body, x.Derived) (s : Span) :
    (Stmt.count counter first last increment body s).Derived := by
  intro next ts hts
  -- Without an increment and with one, the lexemes are the same up to the end of the second bound.
  simp only [Stmt.lines, countLine, lineWords_cons, lineWords_append, Expr.wordsAll,
    List.isEmpty_cons, Bool.false_eq_true, if_false, List.cons_append, List.append_assoc,
    List.nil_append] at hts
  obtain ⟨w, ts₁, rfl, hw, -, hts₁⟩ := spells_cons_iff.mp hts
  obtain ⟨o, ts₂, rfl, ho, -, hts₂⟩ := spells_cons_iff.mp hts₁
  obtain ⟨vs, ts₃, rfl, hvs, hts₃⟩ := spells_append_iff.mp hts₂
  obtain ⟨s₁, ts₄, rfl, hs₁, -, hts₄⟩ := spells_cons_iff.mp hts₃
  obtain ⟨as, ts₅, rfl, has, hts₅⟩ := spells_append_iff.mp hts₄
  obtain ⟨s₂, ts₆, rfl, hs₂, -, hts₆⟩ := spells_cons_iff.mp hts₅
  obtain ⟨bs, ts₇, rfl, hbs, hts₇⟩ := spells_append_iff.mp hts₆
  rw [← Expr.group_of_isVar hv counter.words] at hvs
  have hcounter := ht.derived.primary .semicolon vs (by decide) hvs
  have hvar : counter.unplaced.isVar = true := by simpa using hv
  have hfirst := hf.derived.expression .semicolon as (by decide) has
  cases increment with
  | none =>
    simp only [Option.toList_none, List.isEmpty_nil, if_true, List.nil_append] at hts₇
    obtain ⟨p, ts₈, rfl, hp, -, hts₈⟩ := spells_cons_iff.mp hts₇
    have hlast := hl.derived.expression .closeParen bs (by decide) hbs
    obtain ⟨ys, ts₉, rfl, hys, hts₉⟩ := Block.spells_nested hb .endFor hts₈
    obtain ⟨f, t, rfl, hfor, hend⟩ := spells_lastLine hts₉
    exact .count hw ho hcounter hvar hs₁ hfirst hs₂ hlast hp hys hfor (.line hend)
  | some i =>
    simp only [Option.toList_some, List.isEmpty_cons, Bool.false_eq_true, if_false, Expr.wordsAll,
      List.isEmpty_nil, if_true, List.append_nil, List.cons_append] at hts₇
    obtain ⟨s₃, ts₈, rfl, hs₃, -, hts₈⟩ := spells_cons_iff.mp hts₇
    have hlast := hl.derived.expression .semicolon bs (by decide) hbs
    obtain ⟨is, ts₉, rfl, his, hts₉⟩ := spells_append_iff.mp hts₈
    have hincrement := (hi i rfl).derived.expression .closeParen is (by decide) his
    obtain ⟨p, ts₁₀, rfl, hp, -, hts₁₀⟩ := spells_cons_iff.mp hts₉
    obtain ⟨ys, ts₁₁, rfl, hys, hts₁₁⟩ := Block.spells_nested hb .endFor hts₁₀
    obtain ⟨f, t, rfl, hfor, hend⟩ := spells_lastLine hts₁₁
    exact .countBy hw ho hcounter hvar hs₁ hfirst hs₂ hlast hs₃ hincrement hp hys hfor (.line hend)

/-- The lines of a well-formed statement are derived as that statement. -/
theorem Stmt.WellFormed.derived {s : Stmt} (h : s.WellFormed) : s.Derived := by
  induction h with
  | expression he => exact Stmt.derived_expression he _
  | assign ht hv he => exact Stmt.derived_assign ht hv he _
  | cond hc _ _ ihy ihn => exact Stmt.derived_cond hc ihy ihn _
  | count ht hv hf hl hi _ ihb => exact Stmt.derived_count ht hv hf hl hi ihb _
  | loop hc _ ihb => exact Stmt.derived_loop hc ihb _
  | loopUntil _ hc ihb => exact Stmt.derived_loopUntil ihb hc _

/-! ## Reading back -/

/-- The lines of a well-formed block are derived as a script. -/
theorem Block.WellFormed.derives {b : Block} (h : b.WellFormed) {ts : List Token} {e : Token}
    (hts : Spells ts (lineWords b.lines)) (he : e.kind = .endOfInput) :
    Derives (ts ++ [e]) b.unplaced := by
  cases b with
  | mk body s =>
    have hbody : ∀ x ∈ body, x.Derived := fun x hx => (h x hx).derived
    exact ⟨ts, e, rfl, he, .block (Block.derived_statements hbody .endOfInput hts)⟩

/-- A block that can be written is read back from the script that it is written as, whatever the
script is called. -/
theorem parse_written (file : String) (b : Block) (h : b.WellFormed) :
    ∃ tokens, (tokenize file b.written).result = .ok tokens ∧
      ∃ b', parseTokens file tokens = .ok b' ∧ b'.unplaced = b.unplaced := by
  have hlegible := h.legible_lines
  obtain ⟨ts, e, hscan, he, hts⟩ := scans_lines hlegible file 1 1
  refine ⟨ts ++ [e], ?_, parseTokens_of_derives (h.derives hts he)⟩
  rw [tokenize_eq_scan, Scanner.ofSource, Block.written, String.toList_ofList,
    foldBreaks_of_not_mem (return_not_mem_linesChars hlegible)]
  exact hscan

/-- Both places for parentheses, a name with a space, numbers that start and end with a point, and a
text that looks like a comment. -/
theorem parse_written_nested :
    let left : Expr := .binary "/" (.var ⟨"1", .localSlot⟩ .undetermined .nowhere)
      (.literal ".5" .number .nowhere) .undetermined .nowhere
    let right : Expr := .unary "-" (.binary "-" (.var ⟨"big sum", .globalSlot⟩ .undetermined .nowhere)
      (.literal "2." .number .nowhere) .undetermined .nowhere) .undetermined .nowhere
    let b : Block := .mk [.loop (.binary "<=" left right .undetermined .nowhere)
      (.mk [.expression (.call "log" [.literal "// x" .string .nowhere,
        .var ⟨"7", .persistentSlot⟩ .undetermined .nowhere] .undetermined .nowhere) .nowhere] .nowhere)
      .nowhere] .nowhere
    b.written = "while ( ( $ 1 / .5 ) <= - ( big sum - 2. ) )\nlog ( \"// x\" ; <> 7 )\nend while\n" ∧
    ∃ tokens, (tokenize "demo" b.written).result = .ok tokens ∧
      ∃ b', parseTokens "demo" tokens = .ok b' ∧ b'.unplaced = b.unplaced := by
  intro left right b
  have hname : ∀ name ∈ ["big sum", "log"], IsName name := by
    intro name hmem
    simp only [List.mem_cons, List.not_mem_nil, or_false] at hmem
    rcases hmem with rfl | rfl
    · exact ⟨isWord_of_chars (by decide) (by decide +kernel) (by decide +kernel), by decide⟩
    · exact ⟨isWord_of_chars (by decide) (by decide +kernel) (by decide +kernel), by decide⟩
  have hslot : ∀ (d : Char) (st : Storage), d.isDigit = true → st ≠ .globalSlot →
      (Variable.mk (String.ofList [d]) st).WellFormed := by
    intro d st hd hst
    refine .inr ⟨hst, ?_⟩
    rw [String.toList_ofList]
    exact .whole (by simpa using hd) (by simp)
  have hminus : IsOperator "-" := .single (c := '-') (by decide)
  have hleft : left.WellFormed := by
    refine .binary (.single (c := '/') (by decide)) (.var (hslot '1' _ (by decide) (by decide))) ?_
    exact .number (@NumberText.pointed [] ['5'] (by simp) (by simp) (by simp))
  have hright : right.WellFormed := by
    refine .unary hminus (.binary hminus (.var (.inl (hname _ (by simp)))) ?_)
    exact .number (@NumberText.pointed ['2'] [] (by simp) (by simp) (by simp))
  have hargs : ∀ e ∈ [Expr.literal "// x" .string .nowhere,
      .var ⟨"7", .persistentSlot⟩ .undetermined .nowhere], e.WellFormed := by
    intro e he
    simp only [List.mem_cons, List.not_mem_nil, or_false] at he
    rcases he with rfl | rfl
    · exact .string (by decide) (by decide)
    · exact .var (hslot '7' _ (by decide) (by decide))
  have hb : b.WellFormed := by
    intro s hs
    rw [List.mem_singleton.mp hs]
    refine .loop (.binary (.comparison (by simp)) hleft hright) ?_
    intro x hx
    rw [List.mem_singleton.mp hx]
    exact .expression (.call (hname _ (by simp)) hargs)
  exact ⟨by decide +kernel, parse_written "demo" b hb⟩

end Sigil
