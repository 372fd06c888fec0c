import Sigil.Diagnostic.Excerpt
import Sigil.Proofs.LineCount

/-!
# The lines that are shown

A line that is shown to the user is cut out of the text at line feeds only, and carriage returns at
its end are left out. The scanner counts carriage returns without a line feed behind them as line
breaks too. So the lines that are shown are those that the scanner counts in exactly the scripts that
have no such carriage return. In all others the lines that are shown run out too early.
-/

namespace Sigil

/-! ## Lines of a text -/

/-- The lines of a text, without the line breaks between them. -/
def brokenLines : List Char → List (List Char)
  | [] => [[]]
  | '\r' :: '\n' :: text => [] :: brokenLines text
  | '\r' :: text => [] :: brokenLines text
  | '\n' :: text => [] :: brokenLines text
  | c :: text => (brokenLines text).modifyHead (c :: ·)

/-- The text of line `n` of a script, counted from 1 as the scanner counts. -/
def scannedLine? (source : String) : Nat → Option (List Char)
  | 0 => none
  | n + 1 => (brokenLines source.toList)[n]?

/-- A text has one line more than line breaks. -/
theorem length_brokenLines (text : List Char) : (brokenLines text).length = lineBreaks text + 1 := by
  fun_induction brokenLines text with
  | case1 => rfl
  | case2 text ih => rw [lineBreaks, List.length_cons, ih]
  | case3 text hnext ih => rw [lineBreaks, List.length_cons, ih]; exact hnext
  | case4 text ih => rw [lineBreaks, List.length_cons, ih]
  | case5 c text hpair hreturn hfeed ih =>
    rw [lineBreaks, List.length_modifyHead, ih]
    · exact hpair
    · exact hreturn
    · exact hfeed

theorem isSome_scannedLine? (source : String) (n : Nat) :
    (scannedLine? source n).isSome = true ↔ 1 ≤ n ∧ n ≤ 1 + lineBreaks source.toList := by
  cases n with
  | zero => simp [scannedLine?]
  | succ n =>
    have hlength := length_brokenLines source.toList
    rw [scannedLine?, isSome_getElem?]
    omega

/-! ## Carriage returns that stand alone -/

/-- Behind every carriage return there is a line feed. -/
def NoLoneReturn (text : List Char) : Prop :=
  ∀ before after, text = before ++ '\r' :: after → after.head? = some '\n'

theorem noLoneReturn_cons {c : Char} {text : List Char} (hc : c ≠ '\r') :
    NoLoneReturn (c :: text) ↔ NoLoneReturn text := by
  constructor
  · intro h before after htext
    exact h (c :: before) after (by rw [htext]; rfl)
  · intro h before after htext
    cases before with
    | nil => exact absurd (List.cons.inj htext).1 hc
    | cons d before => exact h before after (List.cons.inj htext).2

theorem noLoneReturn_pair {text : List Char} :
    NoLoneReturn ('\r' :: '\n' :: text) ↔ NoLoneReturn text := by
  constructor
  · intro h before after htext
    exact h ('\r' :: '\n' :: before) after (by rw [htext]; rfl)
  · intro h before after htext
    cases before with
    | nil => rw [← (List.cons.inj htext).2]; rfl
    | cons d before =>
      have hrest : NoLoneReturn ('\n' :: text) := (noLoneReturn_cons (by decide)).mpr h
      exact hrest before after (List.cons.inj htext).2

theorem not_noLoneReturn {text : List Char} (hnext : ∀ rest, text ≠ '\n' :: rest) :
    ¬ NoLoneReturn ('\r' :: text) := by
  intro h
  have hhead := h [] text rfl
  cases text with
  | nil => cases hhead
  | cons c rest => exact hnext rest (by rw [Option.some.inj hhead])

theorem count_le_lineBreaks (text : List Char) : text.count '\n' ≤ lineBreaks text := by
  fun_induction lineBreaks text with
  | case1 => simp
  | case2 text ih => simp; omega
  | case3 text hnext ih => simp; omega
  | case4 text ih => simp; omega
  | case5 c text hpair hreturn hfeed ih =>
    rw [List.count_cons_of_ne fun h => hfeed h]
    exact ih

/-- Every line break has a line feed, unless a carriage return stands alone. -/
theorem count_eq_lineBreaks_iff (text : List Char) :
    text.count '\n' = lineBreaks text ↔ NoLoneReturn text := by
  fun_induction lineBreaks text with
  | case1 => simp [NoLoneReturn]
  | case2 text ih => rw [noLoneReturn_pair, ← ih]; simp
  | case3 text hnext ih =>
    have hle := count_le_lineBreaks text
    have hlone : ¬ NoLoneReturn ('\r' :: text) := not_noLoneReturn fun rest h => hnext rest h
    simp only [hlone, iff_false]
    simp
    omega
  | case4 text ih => rw [noLoneReturn_cons (by decide), ← ih]; simp
  | case5 c text hpair hreturn hfeed ih =>
    rw [noLoneReturn_cons fun h => hreturn h, ← ih, List.count_cons_of_ne fun h => hfeed h]

instance (text : List Char) : Decidable (NoLoneReturn text) :=
  decidable_of_iff _ (count_eq_lineBreaks_iff text)

/-! ## Lines between line feeds -/

theorem pieces_cons_of_ne {sep c : Char} (hc : c ≠ sep) (text : List Char) :
    pieces sep (c :: text) = (pieces sep text).modifyHead (c :: ·) := by
  rw [pieces, if_neg hc]
  cases hpieces : pieces sep text with
  | nil => exact absurd hpieces (pieces_ne_nil sep text)
  | cons piece others => rfl

theorem length_pieces (sep : Char) (text : List Char) :
    (pieces sep text).length = text.count sep + 1 := by
  induction text with
  | nil => rfl
  | cons c text ih =>
    by_cases hc : c = sep
    · rw [pieces, if_pos hc, List.length_cons, ih, hc, List.count_cons_self]
    · rw [pieces_cons_of_ne hc, List.length_modifyHead, ih, List.count_cons_of_ne hc]

theorem dropReturns_cons {c : Char} (hc : c ≠ '\r') (line : List Char) :
    dropReturns (c :: line) = c :: dropReturns line := by
  unfold dropReturns
  rw [List.reverse_cons, List.dropWhile_append]
  split
  · next hempty =>
    have hempty : line.reverse.dropWhile (· == '\r') = [] := by simpa using hempty
    simp [hempty, hc]
  · simp

/-- Without lone carriage returns, the lines between line feeds are those between line breaks. -/
theorem map_dropReturns_pieces {text : List Char} (h : NoLoneReturn text) :
    (pieces '\n' text).map dropReturns = brokenLines text := by
  fun_induction brokenLines text with
  | case1 => rfl
  | case2 text ih =>
    rw [pieces_cons_of_ne (by decide), pieces, if_pos rfl, List.modifyHead_cons, List.map_cons,
      ih (noLoneReturn_pair.mp h)]
    rfl
  | case3 text hnext ih => exact absurd h (not_noLoneReturn fun rest h => hnext rest h)
  | case4 text ih =>
    rw [pieces, if_pos rfl, List.map_cons, ih ((noLoneReturn_cons (by decide)).mp h)]
    rfl
  | case5 c text hpair hreturn hfeed ih =>
    have hc : c ≠ '\r' := fun h => hreturn h
    rw [pieces_cons_of_ne fun h => hfeed h, ← ih ((noLoneReturn_cons hc).mp h)]
    cases pieces '\n' text with
    | nil => rfl
    | cons piece others =>
      simp only [List.modifyHead_cons, List.map_cons, dropReturns_cons hc]

theorem lineText?_succ (source : String) (n : Nat) :
    lineText? source (n + 1) = ((pieces '\n' source.toList).map dropReturns)[n]? := by
  rw [lineText?, List.getElem?_map]

/-- Without lone carriage returns, the line that is shown is the one that was scanned. -/
theorem lineText?_eq_scannedLine? {source : String} (h : NoLoneReturn source.toList) (n : Nat) :
    lineText? source n = scannedLine? source n := by
  cases n with
  | zero => rfl
  | succ n => rw [lineText?_succ, map_dropReturns_pieces h, scannedLine?]

/-- The lines that are shown have to be as many as the lines that are counted. -/
theorem noLoneReturn_of_lineText? {source : String}
    (h : ∀ n, lineText? source n = scannedLine? source n) : NoLoneReturn source.toList := by
  have hlines : (pieces '\n' source.toList).map dropReturns = brokenLines source.toList := by
    apply List.ext_getElem?
    intro n
    rw [← lineText?_succ, h, scannedLine?]
  have hlength := congrArg List.length hlines
  rw [List.length_map, length_pieces, length_brokenLines] at hlength
  exact (count_eq_lineBreaks_iff _).mp (by omega)

/-- What is shown of a diagnostic ends with the line that it is about. -/
theorem Diagnostic.render_of_line {d : Diagnostic} {source : String} {line : List Char}
    (h : lineText? source d.position.line = some line) :
    ∃ heading, d.render source = heading ++ excerpt d.position.line line := by
  unfold Diagnostic.render
  rw [h]
  exact ⟨_, rfl⟩

/-- The lines that the scanner counts are numbered from 1 to the line of the end of the script. They
are the lines that are shown if and only if behind every carriage return there is a line feed. Then a
diagnostic about a token shows the line that the token starts on. -/
theorem shown_lines_iff_no_lone_return (file source : String) :
    (∀ n, (scannedLine? source n).isSome = true ↔ 1 ≤ n ∧ n ≤ 1 + lineBreaks source.toList) ∧
    (∀ tokens, (tokenize file source).result = .ok tokens →
      tokens.getLast? = some (.endOfInput file (1 + lineBreaks source.toList))) ∧
    ((∀ n, lineText? source n = scannedLine? source n) ↔ NoLoneReturn source.toList) ∧
    (NoLoneReturn source.toList → ∀ tokens, (tokenize file source).result = .ok tokens →
      ∀ t ∈ tokens, ∀ cause, ∃ line heading, scannedLine? source t.span.start.line = some line ∧
        (Diagnostic.mk cause t.span.start).render source =
          heading ++ excerpt t.span.start.line line) := by
  have hscan := Script.holds_tokens ⟨file, source⟩
  refine ⟨isSome_scannedLine? source, ?_, ⟨noLoneReturn_of_lineText?, lineText?_eq_scannedLine?⟩, ?_⟩
  · intro tokens htokens
    rw [htokens] at hscan
    exact hscan.2
  · intro hreturns tokens htokens t ht cause
    rw [htokens] at hscan
    obtain ⟨-, hfirst, hlast⟩ := hscan.1 t ht
    have hsome := (isSome_scannedLine? source t.span.start.line).mpr ⟨hfirst, hlast⟩
    obtain ⟨line, hline⟩ := Option.isSome_iff_exists.mp hsome
    have hshown := (lineText?_eq_scannedLine? hreturns t.span.start.line).trans hline
    obtain ⟨heading, hrender⟩ := Diagnostic.render_of_line (d := ⟨cause, t.span.start⟩) hshown
    exact ⟨line, heading, hline, hrender⟩

/-- Pairs of a carriage return and a line feed, one of them right behind the other. -/
theorem shown_lines_of_paired_returns :
    ∀ n, lineText? "a\r\n\r\n b" n = scannedLine? "a\r\n\r\n b" n :=
  (shown_lines_iff_no_lone_return "unit" "a\r\n\r\n b").2.2.1.mpr (by decide)

/-- A carriage return that stands alone ends a line for the scanner, which is not shown as a line. -/
theorem lone_return_hides_line :
    (tokenize "unit" "a\rb").result.toOption.map List.getLast? =
        some (some (.endOfInput "unit" 2)) ∧
      scannedLine? "a\rb" 2 = some ['b'] ∧ lineText? "a\rb" 2 = none := by
  decide +kernel

end Sigil
