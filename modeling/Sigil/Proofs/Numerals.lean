import Mathlib.Data.List.Induction
import Mathlib.Data.List.TakeWhile
import Mathlib.Data.Nat.Digits.Defs
import Sigil.Lowering.Numeral
import Sigil.Proofs.TextModes
import Sigil.Proofs.Writing

/-!
# Numbers have their exact values

The digits of a number are added one by one, and every step is checked against the largest integer. A
step that is too large is never made up for by later digits, so a number is refused exactly if what it
denotes is too large, however many zeros it starts with. What it denotes is said here without the steps:
each digit weighs a power of the base.
-/

namespace Sigil

/-! ## What digits denote -/

/-- The number that a row of digits denotes in a base, where the last digit weighs 1. -/
def denoted (base : Nat) (digits : List Char) : Nat :=
  Nat.ofDigits base (digits.reverse.map digitValue)

/-- The number that the part before the point denotes. If more digits follow a 0 at its start, they are
octal ones, and what comes behind the first that is not octal does not count. -/
def wholeDenoted (whole : List Char) : Nat :=
  if 1 < whole.length ∧ whole.head? = some '0' then denoted 8 (whole.tail.takeWhile isOctalDigit)
  else denoted 10 whole

/-- Another digit counts the others once more in full. -/
theorem denoted_concat (base : Nat) (digits : List Char) (c : Char) :
    denoted base (digits ++ [c]) = base * denoted base digits + digitValue c := by
  rw [denoted, List.reverse_concat, List.map_cons, Nat.ofDigits_cons, Nat.add_comm]
  rfl

/-! ## Adding digits -/

/-- Once a number is too large, it stays so with one more digit; otherwise the digit decides. -/
theorem bind_appendDigit? {base : Nat} (hbase : 0 < base) (n : Nat) (c : Char) :
    (toInt? n).bind (appendDigit? base · c) = toInt? (base * n + digitValue c) := by
  have hshift : n ≤ base * n := Nat.le_mul_of_pos_left n hbase
  by_cases hn : base * n ≤ maxInt
  · have hfits : n ≤ maxInt := Nat.le_trans hshift hn
    simp [toInt?, appendDigit?, hn, hfits]
  · -- No digit makes up for a shift that is too large already.
    have hsum : ¬base * n + digitValue c ≤ maxInt := by omega
    by_cases hfits : n ≤ maxInt
    · simp [toInt?, appendDigit?, hn, hsum, hfits]
    · simp [toInt?, hsum, hfits]

/-- The digits that were added denote what was reached, unless that is too large. -/
theorem readDigits?_eq {base : Nat} (hbase : 0 < base) (digits : List Char) :
    readDigits? base digits = toInt? (denoted base digits) := by
  -- By induction from the right: the last digit is the last that is added.
  induction digits using List.reverseRecOn with
  | nil => rfl
  | append_singleton digits c ih =>
    rw [readDigits?, List.foldlM_append, ← readDigits?, ih, denoted_concat, ← bind_appendDigit? hbase]
    simp

/-! ## Numbers as they are written -/

theorem point_not_mem_of_digits {digits : List Char} (h : ∀ c ∈ digits, c.isDigit = true) :
    ∀ c ∈ digits, (c != '.') = true := by
  intro c hc
  rw [bne_iff_ne]
  rintro rfl
  exact absurd (h '.' hc) (by decide)

/-- There are only digits before the point of a number. -/
theorem NumberText.digits_of_wholePart {text : List Char} (h : NumberText text) :
    ∀ c ∈ wholePart text, c.isDigit = true := by
  cases h with
  | whole hd hne => rwa [wholePart, List.takeWhile_eq_self_iff.mpr (point_not_mem_of_digits hd)]
  | pointed hd hf hne => rwa [wholePart, takeWhile_append_stop (point_not_mem_of_digits hd) rfl]

/-- A number has the value that the digits before its point denote, if an integer can hold it. -/
theorem NumberText.numeralValue?_eq {text : String} (h : NumberText text.toList) :
    numeralValue? text = toInt? (wholeDenoted (wholePart text.toList)) := by
  have hdigits := h.digits_of_wholePart
  unfold numeralValue?
  generalize wholePart text.toList = whole at hdigits ⊢
  split
  · rename_i c rest
    rw [readDigits?_eq (by decide)]
    simp [wholeDenoted]
  · rename_i hplain
    have hdecimal : ¬(1 < whole.length ∧ whole.head? = some '0') := by
      rintro ⟨hlong, hzero⟩
      obtain ⟨rest, rfl⟩ := List.head?_eq_some_iff.mp hzero
      cases rest with
      | nil => simp at hlong
      | cons c rest => exact hplain c rest rfl
    rw [readDigits?_eq (by decide), List.takeWhile_eq_self_iff.mpr hdigits, wholeDenoted,
      if_neg hdecimal]

namespace Lexeme

/-- The lexeme of a number has one point at most, and digits otherwise. -/
theorem numberText_number {c : Char} {rest : List Char} (h : startsNumber c rest = true) :
    NumberText (number (c :: rest)).text := by
  have hdigits : ∀ text : List Char, ∀ d ∈ text.takeWhile Char.isDigit, d.isDigit = true :=
    fun text => List.all_eq_true.mp List.all_takeWhile
  have hne := number_text_ne_nil h
  unfold number at hne ⊢
  split at hne
  · rename_i behind hdrop
    refine .pointed (hdigits _) (hdigits _) ?_
    by_cases hc : c.isDigit = true
    · exact .inl (by simp [hc])
    · -- The number starts with its point, and then a digit comes.
      obtain ⟨-, hnext⟩ : c = '.' ∧ rest.head?.any Char.isDigit = true := by
        simpa [startsNumber, hc] using h
      have hbehind : behind = rest := by
        rw [List.dropWhile_cons_of_neg hc] at hdrop
        exact (List.cons.inj hdrop).2.symm
      cases rest with
      | nil => cases hnext
      | cons d rest => exact .inr (by simpa [hbehind] using hnext)
  · exact .whole (hdigits _) hne

/-- The value of a number is the text that was read. -/
theorem numberText_of_read {c : Char} {rest : List Char} {x : Lexeme} (h : read? c rest = some x)
    (hk : x.kind = .number) : NumberText x.value.toList := by
  cases form_of_read h with
  | endLine hc => cases hk
  | word hc => exact absurd hk (kind_word_ne (by decide) c rest)
  | number hc =>
    have htext := numberText_number hc
    obtain ⟨taken, -, hsign, -⟩ := exists_number_eq_sign (c :: rest)
    rw [hsign] at htext ⊢
    rwa [sign, String.toList_ofList]
  | string hc hinside hrest => cases hk
  | symbol hbreak hquote =>
    obtain ⟨k, text, hsymbol, hsign⟩ := exists_symbol_eq_sign c rest
    rw [hsign] at hk
    obtain rfl : k = .number := hk
    exact absurd hsymbol (by decide)

end Lexeme

/-! ## Numbers of scripts -/

/-- A number in a script is written as digits with at most one point among them. It has exactly the value
that the part before the point denotes, or none if that is beyond the largest integer. -/
theorem numeralValue?_exact {file source : String} {tokens : List Token} {t : Token}
    (h : (tokenize file source).result = .ok tokens) (ht : t ∈ tokens) (hk : t.kind = .number) :
    NumberText t.value.toList ∧
      numeralValue? t.value =
        if wholeDenoted (t.value.toList.takeWhile (· != '.')) ≤ 2147483647 then
          some (wholeDenoted (t.value.toList.takeWhile (· != '.')))
        else none := by
  have hnumber : t.kind = .number → NumberText t.value.toList :=
    Scanner.forall_of_scan (P := fun k value => k = .number → NumberText value.toList)
      (fun hend => by cases hend) Lexeme.numberText_of_read _ (scan_of_tokenize h) t ht
  exact ⟨hnumber hk, (hnumber hk).numeralValue?_eq⟩

/-- An octal number with zeros before it reaches the largest integer, and its fraction does not count; the
next integer is refused. -/
theorem numeralValue?_exact_at_the_limit :
    numeralValue? "0000001777777777789.25" = some 2147483647 ∧ numeralValue? "2147483648" = none := by
  have hscan : (tokenize "limit" "0000001777777777789.25+2147483648").result.toOption =
      some [⟨.number, "0000001777777777789.25", .lines "limit" 1 1⟩,
        ⟨.operator, "+", .lines "limit" 1 1⟩, ⟨.number, "2147483648", .lines "limit" 1 1⟩,
        .endOfInput "limit" 1] := by
    decide +kernel
  have htokens := eq_ok_of_toOption hscan
  constructor
  · rw [(numeralValue?_exact htokens (t := ⟨.number, _, .lines "limit" 1 1⟩) (.head _) rfl).2]
    decide
  · rw [(numeralValue?_exact htokens (t := ⟨.number, _, .lines "limit" 1 1⟩)
      (.tail _ (.tail _ (.head _))) rfl).2]
    decide

end Sigil
