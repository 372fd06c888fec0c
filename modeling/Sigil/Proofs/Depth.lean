import Mathlib.Data.List.Basic
import Mathlib.Data.List.Iterate
import Mathlib.Data.List.ProdSigma
import Mathlib.Order.Monotone.Basic
import Sigil.Proofs.Plans

/-!
# How deep calls nest

Calls are answered level by level, and more depth changes no answer (`settles_rules`). Parsing goes as deep
as there are pairs of a nonterminal and a token. This loses nothing, whatever the tables of the grammar are:
what is answered at any depth is answered at that one (`Grammar.run_eq_rules`).

From a place on, calls can be made only at the tokens ahead. So the calls that are answered at a depth are
some of finitely many, and they become more from one depth to the next until they never do again.
-/

namespace Sigil

open Parse Cursor

/-! ## More depth changes no answer -/

/-- Where `p` has a reply, `q` has the same. -/
def Parse.Settles {α : Type} (p q : Parse α) : Prop := ∀ c, p c ≠ .circular → q c = p c

/-- Where `r` has an answer, `r'` has the same. -/
def Rules.Settles (r r' : Rules) : Prop := ∀ s, (r s).Settles (r' s)

/-- A plan that has a reply keeps it if more calls are answered. -/
theorem Plan.settles {α : Type} {p : Rules → Parse α} (plan : Plan p) {r r' : Rules}
    (h : r.Settles r') : (p r).Settles (p r') := by
  induction plan with
  | look | fail | advance | skipEndLines | expectOr => exact fun _ _ => rfl
  | call s => exact h s
  | @bind _ _ p f first next ihfirst ihnext =>
    intro c hne
    replace hne : Parse.bind (p r) (f r) c ≠ .circular := hne
    show Parse.bind (p r') (f r') c = Parse.bind (p r) (f r) c
    rw [Parse.bind] at hne
    rw [Parse.bind, Parse.bind]
    cases hreply : p r c with
    | done a d =>
      rw [hreply] at hne
      rw [ihfirst c (by simp [hreply]), hreply]
      exact ihnext a d hne
    | failed x d => rw [ihfirst c (by simp [hreply]), hreply]
    | circular =>
      rw [hreply] at hne
      exact absurd rfl hne
  | @ite _ P _ p q yes no ihyes ihno =>
    show (if P then p r else q r).Settles (if P then p r' else q r')
    by_cases hP : P
    · rw [if_pos hP, if_pos hP]
      exact ihyes
    · rw [if_neg hP, if_neg hP]
      exact ihno

/-- A grammar keeps its answers if more calls are answered. -/
theorem settles_answer (g : Grammar) {r r' : Rules} (h : r.Settles r') :
    (g.answer r).Settles (g.answer r') :=
  fun s => (g.plan s).settles h

/-- A call that is answered at some depth has the same answer at every greater depth. -/
theorem settles_rules (g : Grammar) {depth depth' : Nat} (h : depth ≤ depth') :
    Rules.Settles (g.rules depth) (g.rules depth') := by
  induction depth generalizing depth' with
  | zero => exact fun s c hne => absurd rfl hne
  | succ depth ih =>
    obtain ⟨depth', rfl⟩ := Nat.exists_eq_add_of_le' (show 1 ≤ depth' by omega)
    exact settles_answer g (ih (by omega))

/-! ## Calls in a row of tokens -/

namespace Cursor

/-- The cursor can be moved on from `c` to `d`. -/
def Reaches (c d : Cursor) : Prop := ∃ places, c.Trail places d

variable {c d e : Cursor}

theorem Reaches.refl (c : Cursor) : c.Reaches c := ⟨[], rfl⟩

theorem Reaches.trans (h : c.Reaches e) (h' : e.Reaches d) : c.Reaches d := by
  obtain ⟨es, hes⟩ := h
  obtain ⟨fs, hfs⟩ := h'
  exact ⟨es ++ fs, hes.append hfs⟩

/-- The places that can be reached are as many as there are tokens. -/
theorem Reaches.exists_lt (h : c.Reaches d) :
    ∃ n < c.remaining.length, Cursor.advance^[n] c = d := by
  obtain ⟨places, hplaces⟩ := h
  induction places generalizing c with
  | nil => exact ⟨0, Nat.succ_pos _, hplaces⟩
  | cons e places ih =>
    obtain ⟨rfl, hrest⟩ := hplaces
    obtain ⟨n, hn, hd⟩ := ih hrest
    obtain ⟨file, t, ahead⟩ := c
    cases ahead with
    | nil => exact ⟨n, hn, hd⟩
    | cons u us => exact ⟨n + 1, Nat.succ_lt_succ hn, hd⟩

/-- Every place further on in a row can be reached. -/
theorem reaches_iterate_advance (c : Cursor) (n : Nat) : c.Reaches (Cursor.advance^[n] c) := by
  induction n generalizing c with
  | zero => exact .refl c
  | succ n ih => exact Reaches.trans ⟨[c.advance], rfl, rfl⟩ (ih c.advance)

end Cursor

/-- What follows a plan depends only on the answers to calls at places that it can reach. -/
theorem Plan.congr {α : Type} {p : Rules → Parse α} (plan : Plan p) {r r' : Rules} {calls : Calls}
    {c : Cursor} (hcalls : r.Trails calls) (hsame : ∀ s d, c.Reaches d → r' s d = r s d) :
    p r' c = p r c := by
  induction plan generalizing c with
  | look | fail | advance | skipEndLines | expectOr => rfl
  | call s => exact hsame s c (.refl c)
  | @bind _ _ p f first next ihfirst ihnext =>
    show Parse.bind (p r') (f r') c = Parse.bind (p r) (f r) c
    rw [Parse.bind, Parse.bind, ihfirst hsame]
    cases hreply : p r c with
    | done a e =>
      have hreach : c.Reaches e := ⟨_, first.trail hcalls (by rw [hreply]; rfl)⟩
      exact ihnext a fun s d hd => hsame s d (hreach.trans hd)
    | failed x e => rfl
    | circular => rfl
  | @ite _ P _ p q yes no ihyes ihno =>
    show (if P then p r' else q r') c = (if P then p r else q r) c
    by_cases hP : P
    · rw [if_pos hP, if_pos hP]
      exact ihyes hsame
    · rw [if_neg hP, if_neg hP]
      exact ihno hsame

/-! ## The depth that suffices -/

namespace Nonterminal

/-- All nonterminals. -/
def all : List Nonterminal :=
  [expr .expression, expr .primary, expr .localVariable, expr .persistentVariable, expr .name,
    expr .literal, expr .grouping, expr .unary, arguments, stmt .statement, stmt .conditional,
    stmt .counting, stmt .testedLoop, stmt .repeatedLoop, statements, block]

theorem mem_all (s : Nonterminal) : s ∈ all := by
  rcases s with rule | _ | rule | _ | _
  · cases rule <;> simp [all]
  · simp [all]
  · cases rule <;> simp [all]
  · simp [all]
  · simp [all]

end Nonterminal

instance {α : Type} (reply : Reply α) : Decidable (reply = .circular) :=
  match reply with
  | .done _ _ => isFalse nofun
  | .failed _ _ => isFalse nofun
  | .circular => isTrue rfl

namespace Grammar

/-- The calls that can be made from a place on: each nonterminal, at each token. -/
def callsFrom (c : Cursor) : List (Nonterminal × Cursor) :=
  Nonterminal.all ×ˢ List.iterate Cursor.advance c c.remaining.length

/-- Those of them that are answered at a depth. -/
def answered (g : Grammar) (c : Cursor) (depth : Nat) : List (Nonterminal × Cursor) :=
  (callsFrom c).filter fun call => g.rules depth call.1 call.2 ≠ .circular

variable {g : Grammar} {c d : Cursor} {s : Nonterminal} {depth depth' : Nat}

/-- A call can be made from a place on if its place can be reached. -/
theorem mem_callsFrom : (s, d) ∈ callsFrom c ↔ c.Reaches d := by
  rw [callsFrom, List.mem_product, List.mem_iterate]
  constructor
  · rintro ⟨-, n, -, rfl⟩
    exact reaches_iterate_advance c n
  · intro hd
    obtain ⟨n, hn, hd⟩ := hd.exists_lt
    exact ⟨s.mem_all, n, hn, hd.symm⟩

/-- The depth is the number of calls that can be made. -/
theorem length_callsFrom (c : Cursor) : (callsFrom c).length = depthFrom c := by
  rw [callsFrom, List.length_product, List.length_iterate]
  rfl

/-- More depth answers more calls. -/
theorem answered_sublist (h : depth ≤ depth') :
    (g.answered c depth).Sublist (g.answered c depth') := by
  refine List.monotone_filter_right _ fun call hcall => ?_
  rw [decide_eq_true_eq] at hcall ⊢
  rw [settles_rules g h call.1 call.2 hcall]
  exact hcall

/-- If no more calls are answered at a greater depth, then all calls are answered alike. -/
theorem rules_eq_of_answered_eq (h : depth ≤ depth')
    (heq : g.answered c depth = g.answered c depth') (s : Nonterminal) (hd : c.Reaches d) :
    g.rules depth' s d = g.rules depth s d := by
  by_cases hne : g.rules depth s d = .circular
  · rw [hne]
    by_contra hlater
    have hmem : (s, d) ∈ g.answered c depth' :=
      List.mem_filter.mpr ⟨mem_callsFrom.mpr hd, decide_eq_true hlater⟩
    rw [← heq] at hmem
    exact of_decide_eq_true (List.mem_filter.mp hmem).2 hne
  · exact settles_rules g h s d hne

/-- Once no more calls are answered at the next depth, none ever are. -/
theorem answered_stable (heq : g.answered c depth = g.answered c (depth + 1)) :
    g.answered c (depth + 1) = g.answered c (depth + 2) := by
  refine List.filter_congr fun call hcall => ?_
  have hsame : g.rules (depth + 2) call.1 call.2 = g.rules (depth + 1) call.1 call.2 := by
    refine (g.plan call.1).congr (g.trails_rules depth) fun s e he => ?_
    exact rules_eq_of_answered_eq (Nat.le_succ _) heq s ((mem_callsFrom.mp hcall).trans he)
  rw [hsame]

/-- What is answered at any depth is answered at the depth to which parsing goes. -/
theorem run_eq_rules (h : g.rules depth s c ≠ .circular) : g.run s c = g.rules depth s c := by
  -- The calls that are answered become more with the depth, until at some depth they do not.
  have hlength : (g.answered c (max depth (depthFrom c))).length =
      (g.answered c (depthFrom c)).length := by
    refine Nat.stabilises_of_monotone (f := fun n => (g.answered c n).length) ?_ ?_ ?_
      (Nat.le_max_right _ _)
    · exact fun n m hnm => (answered_sublist hnm).length_le
    · intro n
      rw [← length_callsFrom c]
      exact List.length_filter_le _ _
    · intro n hn
      have heq := (answered_sublist (Nat.le_succ n)).eq_of_length hn
      exact congrArg List.length (answered_stable heq)
  have heq := (answered_sublist (Nat.le_max_right depth (depthFrom c))).eq_of_length hlength.symm
  have hdeep := rules_eq_of_answered_eq (Nat.le_max_right depth (depthFrom c)) heq s (.refl c)
  calc g.run s c = g.rules (max depth (depthFrom c)) s c := hdeep.symm
    _ = g.rules depth s c := settles_rules g (Nat.le_max_left _ _) s c h

end Grammar

end Sigil
