import Sigil.Grammar.Reader
import Sigil.Proofs.Depth

/-!
# Runs of readers

A reader can be asked for anything at any place: to parse by a rule that does not fit, to move on at the end
of the script, to enter rules for any kind of token and go on after a failure. Its cursor stays in the row of
tokens all the same, and never goes back (`reader_stays_in_row`).

What one request does to the cursor is known from its plan (`Reader.trail_of_serve?`). From there it is an
induction over the requests (`Reader.trail_of_after?`).
-/

namespace Sigil

open Cursor

/-! ## Places by number -/

namespace Cursor

/-- How many tokens of the row are before the cursor. -/
def index (row : List Token) (c : Cursor) : Nat := row.length - c.remaining.length

/-- The cursor stands at a token of the row, and the tokens from there on are those of the row. -/
structure StandsIn (row : List Token) (c : Cursor) : Prop where
  index_lt : c.index row < row.length
  drop_index : row.drop (c.index row) = c.remaining

/-- The cursor stays in the row, from place to place. -/
structure StaysIn (row : List Token) (places : List Cursor) : Prop where
  /-- At every place it stands in the row. -/
  inside : ∀ c ∈ places, c.StandsIn row
  /-- It is never moved back. -/
  onward : places.Pairwise fun c d => c.index row ≤ d.index row
  /-- It is moved by one token at a time. -/
  single : places.IsChain fun c d => d = c.advance

variable {row : List Token} {c d : Cursor} {places : List Cursor}

/-- A cursor that has the end of a row before it stands in that row. -/
theorem standsIn_of_suffix (h : c.remaining <:+ row) : c.StandsIn row := by
  refine ⟨?_, (List.suffix_iff_eq_drop.mp h).symm⟩
  have hle := h.length_le
  have hpos : 0 < c.remaining.length := Nat.succ_pos _
  unfold index
  omega

theorem StandsIn.advance (h : c.StandsIn row) : c.advance.StandsIn row := by
  refine standsIn_of_suffix (c.remaining_advance_suffix.trans ?_)
  rw [← h.drop_index]
  exact List.drop_suffix _ _

/-- Moving on never leads back. -/
theorem index_le_index_advance (row : List Token) (c : Cursor) :
    c.index row ≤ c.advance.index row :=
  Nat.sub_le_sub_left c.remaining_advance_suffix.length_le _

/-- A trail that starts in the row stays in it. -/
theorem Trail.staysIn (h : c.Trail places d) (hc : c.StandsIn row) : StaysIn row (c :: places) := by
  induction places generalizing c with
  | nil =>
    exact ⟨List.forall_mem_singleton.mpr hc, List.pairwise_singleton _ _, .singleton _⟩
  | cons e places ih =>
    obtain ⟨rfl, hrest⟩ := h
    have hlater := ih hrest hc.advance
    have hstep := c.index_le_index_advance row
    refine ⟨List.forall_mem_cons.mpr ⟨hc, hlater.inside⟩, ?_, ?_⟩
    · refine List.pairwise_cons.mpr ⟨List.forall_mem_cons.mpr ⟨hstep, fun f hf => ?_⟩, hlater.onward⟩
      exact hstep.trans ((List.pairwise_cons.mp hlater.onward).1 f hf)
    · exact List.isChain_cons_cons.mpr ⟨rfl, hlater.single⟩

theorem Trail.getLast? (h : c.Trail places d) : (c :: places).getLast? = some d := by
  induction places generalizing c with
  | nil => exact congrArg some h
  | cons e places ih =>
    rw [List.getLast?_cons_cons]
    exact ih h.2

theorem Trail.index_le (row : List Token) (h : c.Trail places d) : c.index row ≤ d.index row := by
  induction places generalizing c with
  | nil =>
    obtain rfl : c = d := h
    exact Nat.le_refl _
  | cons e places ih =>
    obtain ⟨rfl, hrest⟩ := h
    exact (c.index_le_index_advance row).trans (ih hrest)

end Cursor

/-! ## Requests -/

namespace Request

/-- The plan of the step that a request is for. -/
def plan (g : Grammar) : (q : Request) → Plan fun r => q.step g r
  | current => .look _
  | kind => .look _
  | peek _ => .look _
  | position => .look _
  | misplaced _ => .look _
  | advance => .advance
  | expect _ => .expectOr _ _
  | expectOr _ _ => .expectOr _ _
  | skipEndLines => .skipEndLines
  | parse s => .call s
  | grammar => .look _
  | addStandard => .look _
  | addPrimary _ _ => .look _
  | addStatement _ _ => .look _

/-- The places that the cursor comes to on a request, also in the middle of the rules that it is for. -/
def trace (q : Request) (g : Grammar) (c : Cursor) : List Cursor := (q.plan g).trace g.run g.trace c

end Request

/-- A token that is not found is not passed. -/
theorem Parse.cursor_of_expectOr {k : Kind} {problem : Cursor → Diagnostic} {c d : Cursor}
    {x : Diagnostic} (h : expectOr k problem c = .failed x d) : d = c := by
  unfold expectOr at h
  split at h
  · cases h
  · cases h
    rfl

namespace Reader

/-- The places that the cursor comes to while requests are taken. -/
def trace (r : Reader) : List Request → List Cursor
  | [] => []
  | q :: qs =>
    q.trace r.grammar r.cursor ++
      match r.serve? q with
      | some step => step.next.trace qs
      | none => []

/-- The places of the cursor while requests are taken, the first one included. -/
def places (r : Reader) (requests : List Request) : List Cursor := r.cursor :: r.trace requests

variable {r r' : Reader} {q : Request} {requests : List Request} {step : Step q.Value}

theorem stop?_of_serve? (h : r.serve? q = some step) :
    (q.step r.grammar r.grammar.run r.cursor).stop? = some step.next.cursor := by
  unfold serve? at h
  split at h
  · next hreply =>
    obtain rfl := Option.some.inj h
    rw [hreply]
    rfl
  · next hreply =>
    obtain rfl := Option.some.inj h
    rw [hreply]
    rfl
  · cases h

/-- A request that fails leaves the reader where it failed. -/
theorem failed_of_serve? {x : Diagnostic} (h : r.serve? q = some step) (hx : step.result = .error x) :
    q.step r.grammar r.grammar.run r.cursor = .failed x step.next.cursor ∧
      step.next.grammar = q.revise r.grammar := by
  unfold serve? at h
  split at h
  · obtain rfl := Option.some.inj h
    cases hx
  · next hreply =>
    obtain rfl := Option.some.inj h
    cases hx
    exact ⟨hreply, rfl⟩
  · cases h

/-- Only a request that goes in circles is not served. -/
theorem circular_of_serve? (h : r.serve? q = none) :
    q.step r.grammar r.grammar.run r.cursor = .circular := by
  unfold serve? at h
  split at h
  · cases h
  · cases h
  · assumption

/-- Only a request to parse may not be taken, and only if no depth of nested calls is enough for it. -/
theorem endless_of_serve? (h : r.serve? q = none) :
    ∃ s, q = .parse s ∧ ∀ depth, r.grammar.rules depth s r.cursor = .circular := by
  have hcircular := circular_of_serve? h
  cases q with
  | parse s =>
    refine ⟨s, rfl, fun depth => ?_⟩
    by_contra hne
    exact hne ((Grammar.run_eq_rules hne).symm.trans hcircular)
  | expect k | expectOr k problem =>
    simp only [Request.step, Parse.expect, Parse.expectOr] at hcircular
    split at hcircular <;> cases hcircular
  | _ => cases hcircular

/-- Serving a request leads along its trail. -/
theorem trail_of_serve? (h : r.serve? q = some step) :
    r.cursor.Trail (q.trace r.grammar r.cursor) step.next.cursor :=
  (q.plan r.grammar).trail r.grammar.trails_run (stop?_of_serve? h)

/-- Several requests lead along their trails, one after the other. -/
theorem trail_of_after? (h : r.after? requests = some r') :
    r.cursor.Trail (r.trace requests) r'.cursor := by
  induction requests generalizing r with
  | nil => exact congrArg cursor (Option.some.inj h)
  | cons q requests ih =>
    obtain ⟨step, hstep, hrest⟩ := Option.bind_eq_some_iff.mp h
    rw [trace, hstep]
    exact (trail_of_serve? hstep).append (ih hrest)

end Reader

/-! ## Whole rows of tokens -/

/-- A row is closed by itself or by one more token. -/
theorem closedRow_cases (file : String) (tokens : List Token) :
    closedRow file tokens = tokens ∨
      ∃ line, closedRow file tokens = tokens ++ [.endOfInput file line] := by
  cases tokens with
  | nil => exact .inr ⟨1, rfl⟩
  | cons t ts =>
    rw [closedRow, ofTokens, closing, remaining]
    by_cases hlast : (ts.getLastD t).kind = .endOfInput
    · rw [if_pos hlast, List.append_nil]
      exact .inl rfl
    · rw [if_neg hlast]
      exact .inr ⟨_, rfl⟩

/-- A closed row ends with the end of the script. -/
theorem getLast?_closedRow (file : String) (tokens : List Token) :
    ∃ last, (closedRow file tokens).getLast? = some last ∧ last.kind = .endOfInput := by
  have hclosed := closed_ofTokens file tokens
  rw [Closed, List.getLastD_eq_getLast?] at hclosed
  exact ⟨_, List.getLast?_cons, hclosed⟩

/-- However a reader is used, it stays in its row of tokens. These are the tokens that it was given, with an
end of the script behind them if they had none. The cursor stands at one of them at every place that it comes
to, also in the middle of a rule, and is never moved back, whichever rules are entered for whichever kinds of
tokens, and whether what is asked for fails or not. A reader that does not find the token that it expects is
left as it was. And a request is not taken only if it is to parse what no depth of nested calls answers. -/
theorem reader_stays_in_row (file : String) (tokens : List Token) :
    (closedRow file tokens = tokens ∨
      ∃ line, closedRow file tokens = tokens ++ [.endOfInput file line]) ∧
    (∃ last, (closedRow file tokens).getLast? = some last ∧ last.kind = .endOfInput) ∧
    ∀ (g : Grammar) (requests : List Request) (r : Reader),
      (Reader.ofTokens g file tokens).after? requests = some r →
      StaysIn (closedRow file tokens) ((Reader.ofTokens g file tokens).places requests) ∧
      ((Reader.ofTokens g file tokens).places requests).getLast? = some r.cursor ∧
      (∀ more r', r.after? more = some r' →
        r.cursor.index (closedRow file tokens) ≤ r'.cursor.index (closedRow file tokens)) ∧
      (∀ k step x, r.serve? (.expect k) = some step → step.result = .error x → step.next = r) ∧
      (∀ k problem step x, r.serve? (.expectOr k problem) = some step → step.result = .error x →
        step.next = r) ∧
      ∀ q, r.serve? q = none →
        ∃ s, q = .parse s ∧ ∀ depth, r.grammar.rules depth s r.cursor = .circular := by
  refine ⟨closedRow_cases file tokens, getLast?_closedRow file tokens, fun g requests r hr => ?_⟩
  have htrail := Reader.trail_of_after? hr
  have hstart : (Reader.ofTokens g file tokens).cursor.StandsIn (closedRow file tokens) :=
    standsIn_of_suffix (List.suffix_refl _)
  refine ⟨htrail.staysIn hstart, htrail.getLast?, ?_, ?_, ?_, ?_⟩
  · intro more r' hr'
    exact (Reader.trail_of_after? hr').index_le _
  · intro k step x hstep hx
    obtain ⟨hfailed, hgrammar⟩ := Reader.failed_of_serve? hstep hx
    exact Reader.ext hgrammar (Parse.cursor_of_expectOr hfailed)
  · intro k problem step x hstep hx
    obtain ⟨hfailed, hgrammar⟩ := Reader.failed_of_serve? hstep hx
    exact Reader.ext hgrammar (Parse.cursor_of_expectOr hfailed)
  · intro q hq
    exact Reader.endless_of_serve? hq

/-- The tokens `a (` have no end of the script. Without a grammar no block can be parsed. With rules for names
and for the end of the script, which is then an operand, the call is parsed up to that end. It fails there for
want of a parenthesis, and from there the cursor is not moved on. -/
theorem reader_stays_in_row_at_end :
    let token (k : Kind) (text : String) : Token := ⟨k, text, .lines "unit" 1 1⟩
    let tokens := [token .name "a", token .openParen "("]
    let start := Reader.ofTokens .empty "unit" tokens
    let requests : List Request := [.parse .block, .addPrimary .endOfInput .literal,
      .addPrimary .name .name, .parse (.expr .primary), .advance]
    let r : Reader := ⟨(Grammar.empty.withPrimary .endOfInput .literal).withPrimary .name .name,
      ⟨"unit", .endOfInput "unit" 1, []⟩⟩
    start.after? requests = some r ∧
    StaysIn (closedRow "unit" tokens) (start.places requests) ∧
    (start.places requests).map (index (closedRow "unit" tokens)) = [0, 1, 2, 2, 2] ∧
    ∃ step x, r.serve? (.expect .closeParen) = some step ∧ step.result = .error x ∧ step.next = r := by
  intro token tokens start requests r
  have hr : start.after? requests = some r := rfl
  obtain ⟨hstays, -, -, hexpect, -, -⟩ := (reader_stays_in_row "unit" tokens).2.2 .empty requests r hr
  refine ⟨hr, hstays, by decide +kernel, ?_⟩
  exact ⟨_, _, rfl, rfl, hexpect .closeParen _ _ rfl rfl⟩

end Sigil
