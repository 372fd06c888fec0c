import Sigil.Proofs.Scanning
import Sigil.Proofs.Writing

/-!
# Written lines can be read

A scanner gives back the lexemes of a line that was written with single spaces between them. There is
one thing to watch: names may hold blanks, so a name takes the space behind it with it, and would take
the next lexeme too if that started like the rest of a name. A line is `Legible` when every lexeme on it
can be read before a space or the end of a line, and no name is followed by something that could
continue it.
-/

namespace Sigil

/-! ## Characters -/

/-- Whether every range of `s` lies below or above every range of `t`. -/
def CharSet.apart (s t : CharSet) : Bool :=
  s.ranges.all fun r => t.ranges.all fun q => r.2.blt q.1 || q.2.blt r.1

/-- Sets whose ranges lie apart from each other have no character in common. -/
theorem CharSet.not_contains_of_apart {s t : CharSet} {c : Char} (h : s.apart t = true)
    (hs : s.contains c = true) : t.contains c = false := by
  obtain ⟨r, hr, hlow, hhigh⟩ := (s.contains_iff c).mp hs
  rw [Bool.eq_false_iff]
  intro ht
  obtain ⟨q, hq, hlow', hhigh'⟩ := (t.contains_iff c).mp ht
  have hpair := List.all_eq_true.mp (List.all_eq_true.mp h r hr) q hq
  rw [Bool.or_eq_true, Nat.blt_eq, Nat.blt_eq] at hpair
  omega

theorem blankBeyondAscii_of_alphabetic {c : Char} (h : alphabeticBeyondAscii.contains c = true) :
    blankBeyondAscii.contains c = false :=
  -- Both tables are closed terms: every two of their ranges are compared.
  CharSet.not_contains_of_apart (by decide +kernel) h

theorem toNat_of_isAlpha {c : Char} (h : c.isAlpha = true) : 65 ≤ c.toNat ∧ c.toNat ≤ 122 := by
  have hrange : (decide (c.val ≥ 'A'.val ∧ c.val ≤ 'Z'.val) ||
      (c.val ≥ 'a'.val && c.val ≤ 'z'.val)) = true := h
  simp only [Bool.or_eq_true, Bool.and_eq_true, decide_eq_true_eq, ge_iff_le,
    UInt32.le_iff_toNat_le] at hrange
  change (65 ≤ c.toNat ∧ c.toNat ≤ 90) ∨ (97 ≤ c.toNat ∧ c.toNat ≤ 122) at hrange
  omega

theorem toNat_of_isDigit {c : Char} (h : c.isDigit = true) : 48 ≤ c.toNat ∧ c.toNat ≤ 57 := by
  simp only [Char.isDigit, Bool.and_eq_true, decide_eq_true_eq, ge_iff_le,
    UInt32.le_iff_toNat_le] at h
  exact h

theorem isBlank_of_visible {c : Char} (hlow : 33 ≤ c.toNat) (hhigh : c.toNat < 128) :
    isBlank c = false := by
  have hspace : c ≠ ' ' := by
    rintro rfl
    revert hlow
    decide
  simp only [isBlank, beq_eq_false_iff_ne.mpr hspace, Bool.false_or, Bool.or_eq_false_iff,
    Bool.and_eq_false_iff, decide_eq_false_iff_not]
  omega

theorem isBlank_of_startsName {c : Char} (h : startsName c = true) : isBlank c = false := by
  simp only [startsName, isAlphabetic, Bool.or_eq_true, Bool.and_eq_true, decide_eq_true_eq,
    beq_iff_eq] at h
  rcases h with (h | ⟨hc, h⟩) | rfl
  · have := toNat_of_isAlpha h
    exact isBlank_of_visible (by omega) (by omega)
  · have hspace : c ≠ ' ' := by
      rintro rfl
      revert hc
      decide
    simp only [isBlank, beq_eq_false_iff_ne.mpr hspace, blankBeyondAscii_of_alphabetic h,
      Bool.and_false, Bool.or_false, Bool.false_or, Bool.and_eq_false_iff,
      decide_eq_false_iff_not]
    omega
  · decide

theorem isBlank_of_isDigit {c : Char} (h : c.isDigit = true) : isBlank c = false := by
  have := toNat_of_isDigit h
  exact isBlank_of_visible (by omega) (by omega)

theorem startsName_of_isDigit {c : Char} (h : c.isDigit = true) : startsName c = false := by
  have hc := toNat_of_isDigit h
  have halpha : ¬ c.isAlpha = true := by
    intro ha
    have := toNat_of_isAlpha ha
    omega
  have hne : c ≠ '_' := by
    rintro rfl
    revert hc
    decide
  simp only [startsName, isAlphabetic, beq_eq_false_iff_ne.mpr hne, Bool.or_false,
    Bool.or_eq_false_iff, Bool.and_eq_false_iff, decide_eq_false_iff_not]
  exact ⟨by simpa using halpha, .inl (by omega)⟩

/-! ## What is passed over -/

theorem skipTrivia_space (line : Nat) (text : List Char) :
    skipTrivia line (' ' :: text) = skipTrivia line text := by
  rw [skipTrivia]
  · simp [isBlank]
  · simp
  · simp

/-- Nothing is passed over before a character that is neither blank nor a slash. -/
theorem skipTrivia_of_ne_slash {c : Char} (hb : isBlank c = false ∨ c = '\n') (hs : c ≠ '/')
    (line : Nat) (text : List Char) : skipTrivia line (c :: text) = ⟨[], c :: text, line⟩ := by
  have hc : isFiller c = false := by
    rcases hb with hb | rfl
    · simp [isFiller, hb]
    · rfl
  exact skipTrivia_of_start hc (fun _ h _ => hs h) (fun _ h _ => hs h) line

/-- A slash starts a comment only before another slash or a star. -/
theorem skipTrivia_slash {sep : Char} (h : sep = ' ' ∨ sep = '\n') (line : Nat)
    (text : List Char) :
    skipTrivia line ('/' :: sep :: text) = ⟨[], '/' :: sep :: text, line⟩ := by
  apply skipTrivia_of_start (by decide)
  · rintro rest - h'
    rcases h with rfl | rfl <;> simp at h'
  · rintro rest - h'
    rcases h with rfl | rfl <;> simp at h'

/-! ## Texts and the lexemes that are read from them -/

/-- The tokens are those of the lexemes, wherever they stand. -/
def Spells (tokens : List Token) (words : List Lexeme) : Prop :=
  tokens.map (fun t => (t.kind, t.value)) = words.map (fun x => (x.kind, x.value))

/-- A scan of the text gives the tokens of the lexemes, and the end of the script. -/
def Scans (text : List Char) (words : List Lexeme) : Prop :=
  ∀ file line seen, ∃ tokens e,
    (Scanner.mk file text line seen).scan.result = .ok (tokens ++ [e]) ∧
    e.kind = .endOfInput ∧ Spells tokens words

/-- The first thing that is read from the text is `x`, and nothing is passed over before it. -/
def Lexeme.ReadFrom (x : Lexeme) (text : List Char) : Prop :=
  ∃ c rest, text = c :: rest ∧ (∀ line, skipTrivia line text = ⟨[], text, line⟩) ∧
    Lexeme.read? c rest = some x

theorem scans_nil : Scans [] [] := by
  intro file line seen
  have hend : (skipTrivia line []).rest = [] := by simp [skipTrivia]
  refine ⟨[], _, Scanner.scan_of_end hend, rfl, rfl⟩

theorem scans_space {text : List Char} {words : List Lexeme} (h : Scans text words) :
    Scans (' ' :: text) words := by
  intro file line seen
  -- A step looks at the text only through what is passed over at its start.
  have hstep : (Scanner.mk file (' ' :: text) line seen).step =
      (Scanner.mk file text line seen).step := by
    simp only [Scanner.step, skipTrivia_space]
  have hscan : (Scanner.mk file (' ' :: text) line seen).scan =
      (Scanner.mk file text line seen).scan := by
    rw [Scanner.scan_eq, hstep, ← Scanner.scan_eq]
  rw [hscan]
  exact h file line seen

/-- Only the kind and the value of the lexeme that is read are kept: `x` may be written with fewer
blanks than the lexeme `y` that is read. -/
theorem scans_cons {x y : Lexeme} {rest : List Char} {words : List Lexeme}
    (hy : y.ReadFrom (y.text ++ rest)) (hk : y.kind = x.kind) (hv : y.value = x.value)
    (h : Scans rest words) : Scans (y.text ++ rest) (x :: words) := by
  intro file line seen
  obtain ⟨c, tail, htext, hskip, hread⟩ := hy
  rw [htext] at hskip ⊢
  have hrest : (skipTrivia line (c :: tail)).rest = c :: tail := by rw [hskip]
  have hscan := @Scanner.scan_of_lexeme ⟨file, c :: tail, line, seen⟩ c tail y hrest hread
  have hnext := @Scanner.next_of_lexeme ⟨file, c :: tail, line, seen⟩ c tail y rest hrest hread
    htext.symm
  obtain ⟨tokens, e, hok, he, hspells⟩ := h file ((skipTrivia line (c :: tail)).line + y.text.count '\n')
    ((skipTrivia line (c :: tail)).line + y.value.toList.count '\n')
  refine ⟨y.token file (skipTrivia line (c :: tail)).line :: tokens, e, ?_, he, ?_⟩
  · rw [hscan, hnext, hok]
    rfl
  · simp only [Spells, List.map_cons, Lexeme.token] at hspells ⊢
    rw [hspells, hk, hv]

/-! ## Lexemes that stand alone -/

/-- The lexeme is read as it is, before a space and before the end of a line. -/
structure Lexeme.Standalone (x : Lexeme) : Prop where
  /-- It has no carriage return, which would be folded. -/
  noReturn : '\r' ∉ x.text
  /-- It is read where it is followed by a space or the end of a line. -/
  reads : ∀ sep more, (sep = ' ' ∨ sep = '\n') → x.ReadFrom (x.text ++ sep :: more)

namespace Lexeme

theorem ne_return_of_not_blank {c : Char} (h : isBlank c = false) : c ≠ '\r' := by
  rintro rfl
  revert h
  decide

theorem ne_newline_of_not_blank {c : Char} (h : isBlank c = false) : c ≠ '\n' := by
  rintro rfl
  revert h
  decide

/-- A sign that no separator continues stands alone. -/
theorem standalone_symbol {k : Kind} {c : Char} {cs : List Char} (hn : startsName c = false)
    (hd : c.isDigit = false) (hb : isBlank c = false) (hq : c ≠ '"') (hr : '\r' ∉ cs)
    (hcs : cs = [] ∨ c ≠ '/' ∧ c ≠ '.')
    (h : ∀ sep more, (sep = ' ' ∨ sep = '\n') → symbol c (cs ++ sep :: more) = sign k (c :: cs)) :
    (sign k (c :: cs)).Standalone where
  noReturn := by
    simp only [sign, List.mem_cons, not_or]
    exact ⟨(ne_return_of_not_blank hb).symm, hr⟩
  reads := by
    intro sep more hsep
    refine ⟨c, cs ++ sep :: more, rfl, ?_, ?_⟩
    · intro line
      simp only [sign, List.cons_append]
      -- A slash could open a comment, but the separator behind it does not go on with one.
      by_cases hslash : c = '/'
      · have hnil : cs = [] := by
          rcases hcs with hnil | ⟨hne, _⟩
          · exact hnil
          · exact absurd hslash hne
        rw [hslash, hnil]
        exact skipTrivia_slash hsep line more
      · exact skipTrivia_of_ne_slash (.inl hb) hslash line _
    · have hnum : startsNumber c (cs ++ sep :: more) = false := by
        simp only [startsNumber, hd, Bool.false_or, Bool.and_eq_false_iff, beq_eq_false_iff_ne]
        rcases hcs with rfl | ⟨_, hne⟩
        · right
          rcases hsep with rfl | rfl <;> rfl
        · exact .inl hne
      rw [read?, if_neg (ne_newline_of_not_blank hb), if_neg (by simp [hn]), if_neg (by simp [hnum]),
        if_neg hq, h sep more hsep]

/-- The signs that are always written in the same way. -/
def signs : List Lexeme := [dollar, diamond, openParen, closeParen, semicolon, assign]

/-- The signs of the grammar can be written anywhere. -/
theorem standalone_of_mem_signs {x : Lexeme} (h : x ∈ signs) : x.Standalone := by
  simp only [signs, List.mem_cons, List.not_mem_nil, or_false] at h
  rcases h with rfl | rfl | rfl | rfl | rfl | rfl
  all_goals
    refine standalone_symbol ?_ ?_ ?_ ?_ ?_ ?_ ?_ <;>
      simp [startsName, isAlphabetic, isBlank, symbol]

/-- An operator of one character is what is neither in names, numbers and blanks nor a sign of the grammar.
-/
theorem isOperatorChar_iff {c : Char} : isOperatorChar c = true ↔
    isAlphanumeric c = false ∧ isBlank c = false ∧
      c ∉ ['_', '"', '(', ')', '\x7b', '\x7d', ';', '$', ':'] := by
  simp [isOperatorChar, and_assoc]

/-- Before a space or the end of a line, a single character is not taken for the start of a longer
sign. -/
theorem symbol_single {c sep : Char} {more : List Char} (h : isOperatorChar c = true)
    (hsep : sep = ' ' ∨ sep = '\n') : symbol c (sep :: more) = sign .operator [c] := by
  obtain ⟨_, _, hc⟩ := isOperatorChar_iff.mp h
  have hne : sep ≠ '>' ∧ sep ≠ '=' := by rcases hsep with rfl | rfl <;> decide
  unfold symbol
  split <;> simp_all

theorem standalone_comparison {c : Char} (h : c ∈ ['<', '>', '!']) :
    (sign .operator [c, '=']).Standalone := by
  simp only [List.mem_cons, List.not_mem_nil, or_false] at h
  rcases h with rfl | rfl | rfl
  all_goals
    refine standalone_symbol ?_ ?_ ?_ ?_ ?_ ?_ ?_ <;>
      simp [startsName, isAlphabetic, isBlank, symbol]

/-- Operators can be written anywhere. -/
theorem standalone_ofOperator {op : String} (h : IsOperator op) : (ofOperator op).Standalone := by
  cases h with
  | comparison h =>
    simp only [List.mem_cons, List.not_mem_nil, or_false] at h
    rcases h with rfl | rfl | rfl
    · exact standalone_comparison (c := '<') (by simp)
    · exact standalone_comparison (c := '>') (by simp)
    · exact standalone_comparison (c := '!') (by simp)
  | @single c h =>
    obtain ⟨ha, hb, hc⟩ := isOperatorChar_iff.mp h
    have hd : c.isDigit = false := by
      simp only [isAlphanumeric, isNumeric, Bool.or_eq_false_iff] at ha
      exact ha.2.1
    have hn : startsName c = false := by
      simp only [isAlphanumeric, Bool.or_eq_false_iff] at ha
      simp only [List.mem_cons, not_or] at hc
      simp [startsName, ha.1, hc.1]
    have hq : c ≠ '"' := by
      rintro rfl
      simp at hc
    rw [ofOperator, String.toList_ofList]
    exact standalone_symbol hn hd hb hq (by simp) (.inl rfl) fun _ _ hsep => symbol_single h hsep

/-- A number ends before a space or the end of a line. -/
theorem number_append {text more : List Char} {sep : Char} (h : NumberText text)
    (hsep : sep = ' ' ∨ sep = '\n') : number (text ++ sep :: more) = sign .number text := by
  have hdigit : sep.isDigit = false := by rcases hsep with rfl | rfl <;> rfl
  have hpoint : sep ≠ '.' := by rcases hsep with rfl | rfl <;> decide
  cases h with
  | whole hd hne =>
    unfold number
    rw [takeWhile_append_stop hd hdigit, dropWhile_append_stop hd hdigit]
    split
    · rename_i heq
      exact absurd (List.cons.inj heq).1 hpoint
    · rfl
  | @pointed digits fraction hd hf hne =>
    have hdot : Char.isDigit '.' = false := rfl
    unfold number
    rw [List.append_assoc, List.cons_append, takeWhile_append_stop hd hdot,
      dropWhile_append_stop hd hdot]
    simp only [takeWhile_append_stop hf hdigit]

/-- A number starts with a digit, or with a point and a digit. -/
theorem starts_of_numberText {text : List Char} (h : NumberText text) (more : List Char) :
    ∃ c rest, text = c :: rest ∧ startsNumber c (rest ++ more) = true ∧ startsName c = false ∧
      isBlank c = false ∧ c ≠ '/' := by
  have of_digit : ∀ c rest, c.isDigit = true → startsNumber c (rest ++ more) = true ∧
      startsName c = false ∧ isBlank c = false ∧ c ≠ '/' := by
    intro c rest hc
    refine ⟨by simp [startsNumber, hc], startsName_of_isDigit hc, isBlank_of_isDigit hc, ?_⟩
    rintro rfl
    revert hc
    decide
  cases h with
  | whole hd hne =>
    obtain ⟨c, rest, rfl⟩ := List.exists_cons_of_ne_nil hne
    exact ⟨c, rest, rfl, of_digit c rest (hd c (by simp))⟩
  | @pointed digits fraction hd hf hne =>
    cases digits with
    | cons c rest => exact ⟨c, rest ++ '.' :: fraction, rfl, of_digit c _ (hd c (by simp))⟩
    | nil =>
      have hne : fraction ≠ [] := by simpa using hne
      obtain ⟨d, rest, rfl⟩ := List.exists_cons_of_ne_nil hne
      refine ⟨'.', d :: rest, rfl, ?_, by decide, by decide, by decide⟩
      have hd : d.isDigit = true := hf d (by simp)
      simp [startsNumber, hd]

theorem return_not_mem_numberText {text : List Char} (h : NumberText text) : '\r' ∉ text := by
  have hdigits : ∀ ds : List Char, (∀ c ∈ ds, c.isDigit = true) → '\r' ∉ ds := by
    intro ds hd hmem
    have := hd '\r' hmem
    revert this
    decide
  cases h with
  | whole hd hne => exact hdigits _ hd
  | pointed hd hf hne =>
    simp only [List.mem_append, List.mem_cons, not_or]
    exact ⟨hdigits _ hd, by decide, hdigits _ hf⟩

/-- A number that a separator follows is read as it was written. -/
theorem standalone_number {text : List Char} (h : NumberText text) :
    (sign .number text).Standalone where
  noReturn := return_not_mem_numberText h
  reads := by
    intro sep more hsep
    obtain ⟨c, rest, rfl, hnum, hname, hblank, hslash⟩ := starts_of_numberText h (sep :: more)
    refine ⟨c, rest ++ sep :: more, rfl, ?_, ?_⟩
    · intro line
      exact skipTrivia_of_ne_slash (.inl hblank) hslash line _
    · rw [read?, if_neg (ne_newline_of_not_blank hblank), if_neg (by simp [hname]), if_pos hnum,
        ← List.cons_append, number_append h hsep]

/-- A text without quotes is read as it was written between quotes. -/
theorem standalone_ofString {s : String} (hq : '"' ∉ s.toList) (hr : '\r' ∉ s.toList) :
    (ofString s).Standalone where
  noReturn := by simpa [ofString] using hr
  reads := by
    intro sep more hsep
    refine ⟨'"', s.toList ++ '"' :: sep :: more, by simp [ofString], ?_, ?_⟩
    · intro line
      exact skipTrivia_of_ne_slash (.inl (by decide)) (by decide) line _
    · rw [read?, if_neg (by decide), if_neg (by decide), if_neg (by simp [startsNumber]),
        if_pos rfl, string?_eq_some_iff]
      exact ⟨s.toList, sep :: more, hq, rfl, by rw [String.ofList_toList, ofString]⟩

/-! ## Words -/

/-- A name keeps its normal form when it takes the space behind it with it. -/
theorem normalizeName_space {w : String} (h : IsWord w) :
    normalizeName (String.ofList (w.toList ++ [' '])) = w := by
  obtain ⟨c, cs, hw, hc, -⟩ := h.shape
  have hblank : isBlank c = false := isBlank_of_startsName hc
  have htrim : trimBlank (w.toList ++ [' ']) = trimBlank w.toList := by
    have hspace : isBlank ' ' = true := rfl
    simp only [trimBlank, hw, List.cons_append, List.dropWhile_cons, hblank, Bool.false_eq_true,
      if_false, trimEndBlank, List.reverse_cons, List.reverse_append, List.reverse_nil,
      List.nil_append, hspace, if_true]
  have hnormal := h.normal
  simp only [normalizeName, String.toList_ofList, htrim] at hnormal ⊢
  exact hnormal

/-- A word is read as far as it goes on as a name does. -/
theorem readFrom_word {c : Char} (hc : startsName c = true) (rest : List Char) :
    (word c rest).ReadFrom (c :: rest) := by
  have hblank : isBlank c = false := isBlank_of_startsName hc
  have hslash : c ≠ '/' := by
    rintro rfl
    revert hc
    decide
  refine ⟨c, rest, rfl, fun line => skipTrivia_of_ne_slash (.inl hblank) hslash line rest, ?_⟩
  rw [read?, if_neg (ne_newline_of_not_blank hblank), if_pos hc]

theorem readFrom_of_word {w : String} {c sep : Char} {cs more : List Char} (h : IsWord w)
    (hw : w.toList = c :: cs) (y : Lexeme) (hy : word c (cs ++ sep :: more) = y) :
    y.ReadFrom (w.toList ++ sep :: more) := by
  obtain ⟨c', cs', hw', hc, -⟩ := h.shape
  obtain ⟨rfl, rfl⟩ := List.cons.inj (hw.symm.trans hw')
  rw [hw, ← hy]
  exact readFrom_word hc _

end Lexeme

open Lexeme

/-- At the end of a line a word is read as it was written. -/
theorem scans_word_newline {w : String} {more : List Char} {words : List Lexeme} (h : IsWord w)
    (hs : Scans ('\n' :: more) words) : Scans (w.toList ++ '\n' :: more) (ofWord w :: words) := by
  obtain ⟨c, cs, hw, -, hcs⟩ := h.shape
  have hword : word c (cs ++ '\n' :: more) = ofWord w := by
    have hstop : continuesName '\n' = false := by decide
    simp only [word, takeWhile_append_stop hcs hstop, ← hw, String.ofList_toList, h.normal, ofWord]
  exact scans_cons (readFrom_of_word h hw _ hword) rfl rfl hs

/-- A word takes the space behind it, but nothing of a text that cannot continue a name. -/
theorem scans_word_space {w : String} {d : Char} {more : List Char} {words : List Lexeme}
    (h : IsWord w) (hd : continuesName d = false) (hs : Scans (d :: more) words) :
    Scans (w.toList ++ ' ' :: d :: more) (ofWord w :: words) := by
  obtain ⟨c, cs, hw, -, hcs⟩ := h.shape
  -- The lexeme that is read has the space in its text, and the same kind and value.
  let y : Lexeme := ⟨(reserved? w).getD .name, w, w.toList ++ [' ']⟩
  have hword : word c (cs ++ ' ' :: d :: more) = y := by
    have hcs' : ∀ x ∈ cs ++ [' '], continuesName x = true := by
      intro x hx
      rcases List.mem_append.mp hx with hx | hx
      · exact hcs x hx
      · rw [List.mem_singleton.mp hx]
        decide
    have htake : (cs ++ ' ' :: d :: more).takeWhile continuesName = cs ++ [' '] := by
      rw [← takeWhile_append_stop hcs' hd, List.append_assoc, List.singleton_append]
    have hvalue := normalizeName_space h
    simp only [hw, List.cons_append] at hvalue
    simp only [word, htake, hvalue, y, hw, List.cons_append]
  have htext : w.toList ++ ' ' :: d :: more = y.text ++ d :: more := by simp [y]
  have hread : y.ReadFrom (y.text ++ d :: more) := by
    rw [← htext]
    exact readFrom_of_word h hw y hword
  rw [htext]
  exact scans_cons hread rfl rfl hs

/-! ## Lines -/

/-- The lexeme does not start like the rest of a name. -/
def Lexeme.Breaks (x : Lexeme) : Prop :=
  ∃ c rest, x.text = c :: rest ∧ continuesName c = false

/-- The lexemes can be written on one line with single spaces between them. -/
inductive Legible : List Lexeme → Prop where
  /-- An empty line. -/
  | nil : Legible []
  /-- A word, before something that cannot continue it. -/
  | word {w : String} {line : List Lexeme} (hw : IsWord w) (hb : ∀ x ∈ line.head?, x.Breaks)
      (hl : Legible line) : Legible (ofWord w :: line)
  /-- Anything else. -/
  | other {x : Lexeme} {line : List Lexeme} (hx : x.Standalone) (hl : Legible line) :
      Legible (x :: line)

/-- Before a line, all that counts is its first lexeme. -/
theorem Lexeme.Breaks.head {x : Lexeme} (h : x.Breaks) (line : List Lexeme) :
    ∀ y ∈ (x :: line).head?, y.Breaks := by
  intro y hy
  cases hy
  exact h

/-- Two parts of a line can be put together where the second starts with what is no part of a name. -/
theorem Legible.append {line line' : List Lexeme} (h : Legible line) (h' : Legible line')
    (hb : ∀ x ∈ line'.head?, x.Breaks) : Legible (line ++ line') := by
  induction h with
  | nil => exact h'
  | @word w line hw hbreaks _ ih =>
    refine .word hw ?_ ih
    cases line with
    | nil => exact hb
    | cons x line => exact hbreaks
  | other hx _ ih => exact .other hx ih

theorem lineChars_singleton (x : Lexeme) : lineChars [x] = x.text := by
  simp [lineChars]

theorem lineChars_cons_cons (x y : Lexeme) (line : List Lexeme) :
    lineChars (x :: y :: line) = x.text ++ ' ' :: lineChars (y :: line) := by
  simp [lineChars, List.intercalate_cons_cons]

/-- A line starts with the first character of its first lexeme. -/
theorem lineChars_cons {x : Lexeme} {c : Char} {rest : List Char} (h : x.text = c :: rest)
    (line : List Lexeme) : ∃ more, lineChars (x :: line) = c :: more := by
  cases line with
  | nil => exact ⟨rest, by rw [lineChars_singleton, h]⟩
  | cons y line => exact ⟨_, by rw [lineChars_cons_cons, h, List.cons_append]⟩

theorem scans_endLine {more : List Char} {words : List Lexeme} (h : Scans more words) :
    Scans ('\n' :: more) (endLine :: words) := by
  have hread : endLine.ReadFrom (endLine.text ++ more) := by
    refine ⟨'\n', more, rfl, ?_, rfl⟩
    intro line
    exact skipTrivia_of_ne_slash (.inr rfl) (by decide) line more
  exact scans_cons hread rfl rfl h

/-- A legible line is read as the lexemes that it was written for. -/
theorem scans_line {line words : List Lexeme} {more : List Char} (hl : Legible line)
    (h : Scans more words) : Scans (lineChars line ++ '\n' :: more) (line ++ endLine :: words) := by
  induction hl with
  | nil => exact scans_endLine h
  | @word w line hw hb _ ih =>
    cases line with
    | nil =>
      rw [lineChars_singleton]
      exact scans_word_newline hw ih
    | cons x line =>
      obtain ⟨c, rest, hx, hc⟩ := hb x rfl
      obtain ⟨tail, htail⟩ := lineChars_cons hx line
      rw [lineChars_cons_cons, List.append_assoc, List.cons_append]
      rw [htail] at ih ⊢
      exact scans_word_space hw hc ih
  | @other x line hx _ ih =>
    cases line with
    | nil =>
      rw [lineChars_singleton]
      exact scans_cons (hx.reads _ _ (.inr rfl)) rfl rfl ih
    | cons y line =>
      rw [lineChars_cons_cons, List.append_assoc, List.cons_append]
      exact scans_cons (hx.reads _ _ (.inl rfl)) rfl rfl (scans_space ih)

/-- The lexemes of several lines, with the ends of the lines among them. -/
def lineWords (lines : List (List Lexeme)) : List Lexeme :=
  lines.flatMap fun line => line ++ [endLine]

/-- Legible lines are read as the lexemes that they were written for. -/
theorem scans_lines {lines : List (List Lexeme)} (h : ∀ line ∈ lines, Legible line) :
    Scans (linesChars lines) (lineWords lines) := by
  induction lines with
  | nil => exact scans_nil
  | cons line lines ih =>
    have hrest := ih fun l hl => h l (List.mem_cons_of_mem _ hl)
    have hline := scans_line (h line List.mem_cons_self) hrest
    simpa [linesChars, lineWords] using hline

/-! ## Line breaks -/

theorem return_not_mem_word {w : String} (h : IsWord w) : '\r' ∉ w.toList := by
  obtain ⟨c, cs, hw, hc, hcs⟩ := h.shape
  rw [hw, List.mem_cons, not_or]
  constructor
  · exact (ne_return_of_not_blank (isBlank_of_startsName hc)).symm
  · intro hmem
    have := hcs _ hmem
    revert this
    decide

theorem return_not_mem_lineChars {line : List Lexeme} (h : Legible line) :
    '\r' ∉ lineChars line := by
  have hcons : ∀ x line, '\r' ∉ x.text → '\r' ∉ lineChars line → '\r' ∉ lineChars (x :: line) := by
    intro x line hx hline
    cases line with
    | nil => rwa [lineChars_singleton]
    | cons y line =>
      rw [lineChars_cons_cons, List.mem_append, List.mem_cons]
      simp [hx, hline]
  induction h with
  | nil => simp [lineChars]
  | word hw _ _ ih => exact hcons _ _ (return_not_mem_word hw) ih
  | other hx _ ih => exact hcons _ _ hx.noReturn ih

/-- What is written has no carriage returns. -/
theorem return_not_mem_linesChars {lines : List (List Lexeme)} (h : ∀ line ∈ lines, Legible line) :
    '\r' ∉ linesChars lines := by
  intro hmem
  obtain ⟨line, hline, hmem⟩ := List.mem_flatMap.mp hmem
  rcases List.mem_append.mp hmem with hmem | hmem
  · exact return_not_mem_lineChars (h line hline) hmem
  · simp at hmem

end Sigil
