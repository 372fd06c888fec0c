import Mathlib.Data.List.TakeWhile
import Sigil.Proofs.NameForm
import Sigil.Proofs.Segments

/-!
# Normal forms of names are canonical

The normal form of a name is made of words with single spaces between them (`Tidy`), in letters that are
their own lower case. Both are so after the first round of trimming, squeezing and lowering, and then a
second round finds nothing to do: a normal form is its own normal form.

A letter with another lower case is one of the `capitals`. No lower case is a capital, which is a fact about
the tables of the case mapping: they are compared as sets of code points.
-/

namespace Sigil

/-! ## Capitals -/

/-- The set of the given numbers, as the bits of one number. In this form sets are quickly compared. -/
def bitSet (numbers : List Nat) : Nat := numbers.foldr (fun n bits => bits ||| 1 <<< n) 0

theorem testBit_bitSet {numbers : List Nat} {n : Nat} :
    (bitSet numbers).testBit n = true ↔ n ∈ numbers := by
  induction numbers with
  | nil => simp [bitSet]
  | cons m numbers ih =>
    have hcons : bitSet (m :: numbers) = bitSet numbers ||| 1 <<< m := rfl
    rw [hcons, Nat.testBit_or, Bool.or_eq_true, ih, Nat.one_shiftLeft, Nat.testBit_two_pow,
      decide_eq_true_iff, List.mem_cons, or_comm, eq_comm]

/-- Sets without a common bit have no common member. -/
theorem not_mem_of_bitSet {numbers others : List Nat} (h : bitSet numbers &&& bitSet others = 0) {n : Nat}
    (hn : n ∈ numbers) : n ∉ others := by
  intro hother
  have hboth : (bitSet numbers &&& bitSet others).testBit n = true := by
    rw [Nat.testBit_and, testBit_bitSet.mpr hn, testBit_bitSet.mpr hother]
    rfl
  rw [h, Nat.zero_testBit] at hboth
  cases hboth

namespace CaseRun

/-- The code points of a run. -/
def codes (r : CaseRun) : List Nat :=
  List.range' r.first ((r.last - r.first) / r.step + 1) r.step

/-- The code points that those of a run are mapped to. -/
def images (r : CaseRun) : List Nat :=
  r.codes.map fun code => (Int.ofNat code + r.offset).toNat

theorem mem_of_map? {r : CaseRun} {n code : Nat} (h : r.map? n = some code) :
    n ∈ r.codes ∧ code ∈ r.images := by
  unfold map? at h
  split at h
  · rename_i hrun
    obtain ⟨hfirst, hlast, hstep⟩ := hrun
    have hsteps : (n - r.first) / r.step ≤ (r.last - r.first) / r.step :=
      Nat.div_le_div_right (Nat.sub_le_sub_right hlast _)
    have hcode : r.step * ((n - r.first) / r.step) = n - r.first :=
      Nat.mul_div_cancel' (Nat.dvd_of_mod_eq_zero hstep)
    have hmem : n ∈ r.codes :=
      List.mem_range'.mpr ⟨(n - r.first) / r.step, by omega, by omega⟩
    exact ⟨hmem, List.mem_map.mpr ⟨n, hmem, Option.some.inj h⟩⟩
  · cases h

end CaseRun

/-- The code points of the letters whose lower case is another letter. -/
def capitals : List Nat :=
  0x130 :: (List.range' 65 26 ++ lowercaseRuns.flatMap CaseRun.codes)

/-- The code points that lower cases of letters beyond ASCII have, and those that are left of ASCII without
its capitals. -/
def smalls : List Nat :=
  0x307 :: 'σ'.toNat :: 'ς'.toNat ::
    ((List.range 128).map (fun n => (Char.ofNat n).toLower.toNat) ++ lowercaseRuns.flatMap CaseRun.images)

/-- No lower case is a capital. -/
theorem not_mem_capitals_of_mem_smalls {n : Nat} (h : n ∈ smalls) : n ∉ capitals :=
  not_mem_of_bitSet (by decide +kernel) h

/-- What is no capital is its own lower case. -/
theorem lowercaseChar_of_not_mem_capitals {c : Char} (h : c.toNat ∉ capitals) :
    lowercaseChar c = [c] := by
  simp only [capitals, List.mem_cons, List.mem_append, List.mem_range'_1, List.mem_flatMap, not_or,
    not_exists, not_and] at h
  obtain ⟨hdotted, hascii, hruns⟩ := h
  unfold lowercaseChar
  split
  · have hlower : c.toLower = c := by
      unfold Char.toLower
      refine dif_neg fun hupper => ?_
      have hfirst : 65 ≤ c.toNat := hupper.1
      have hlast : c.toNat ≤ 90 := hupper.2
      exact hascii hfirst (by omega)
    rw [hlower]
  split
  · rename_i hc
    rw [hc] at hdotted
    exact absurd rfl hdotted
  · have hnone : lowercaseRuns.findSome? (·.map? c.toNat) = none := by
      refine List.findSome?_eq_none_iff.mpr fun r hr => ?_
      cases hmap : r.map? c.toNat with
      | none => rfl
      | some code => exact absurd (CaseRun.mem_of_map? hmap).1 (hruns r hr)
    rw [hnone]

theorem lowercaseChar_of_mem_smalls {c : Char} (h : c.toNat ∈ smalls) : lowercaseChar c = [c] :=
  lowercaseChar_of_not_mem_capitals (not_mem_capitals_of_mem_smalls h)

theorem mem_smalls_of_ascii {n : Nat} (h : n < 128) : (Char.ofNat n).toLower.toNat ∈ smalls := by
  have hmem := List.mem_map_of_mem (f := fun n => (Char.ofNat n).toLower.toNat) (List.mem_range.mpr h)
  simp only [smalls, List.mem_cons, List.mem_append]
  exact .inr (.inr (.inr (.inl hmem)))

/-- What a run of capitals is mapped to is in the tables of small letters. -/
theorem mem_smalls_of_map? {r : CaseRun} {n code : Nat} (hr : r ∈ lowercaseRuns)
    (h : r.map? n = some code) : (Char.ofNat code).toNat ∈ smalls := by
  have hmem := List.mem_flatMap.mpr ⟨r, hr, (CaseRun.mem_of_map? h).2⟩
  rcases toNat_ofNat_cases code with hcode | hzero
  · rw [hcode]
    simp only [smalls, List.mem_cons, List.mem_append]
    exact .inr (.inr (.inr (.inr hmem)))
  · rw [hzero]
    exact mem_smalls_of_ascii (n := 0) (by decide)

/-- The lower case of a character is in the tables, unless it is the character itself. -/
theorem mem_smalls_or_eq {c d : Char} (h : d ∈ lowercaseChar c) :
    d.toNat ∈ smalls ∨ lowercaseChar c = [c] := by
  unfold lowercaseChar at h ⊢
  split at h
  · rename_i hc
    left
    rw [List.mem_singleton.mp h, ← Char.ofNat_toNat c]
    exact mem_smalls_of_ascii hc
  rename_i hc
  rw [if_neg hc]
  split at h
  · left
    rcases List.mem_cons.mp h with rfl | hdot
    · exact mem_smalls_of_ascii (n := 105) (by decide)
    · rw [List.mem_singleton.mp hdot]
      exact List.mem_cons_self
  rename_i hdotted
  rw [if_neg hdotted]
  split at h
  · rename_i code hfind
    obtain ⟨r, hr, hmap⟩ := List.exists_of_findSome?_eq_some hfind
    left
    rw [List.mem_singleton.mp h]
    exact mem_smalls_of_map? hr hmap
  · exact .inr rfl

/-- The lower case of a character is its own lower case. -/
theorem lowercaseChar_of_mem_lowercaseChar {c d : Char} (h : d ∈ lowercaseChar c) :
    lowercaseChar d = [d] := by
  rcases mem_smalls_or_eq h with hsmall | hself
  · exact lowercaseChar_of_mem_smalls hsmall
  · rw [hself] at h
    rw [List.mem_singleton.mp h, hself]

theorem lowercaseChar_ne_nil (c : Char) : lowercaseChar c ≠ [] := by
  unfold lowercaseChar
  split
  · simp
  split
  · simp
  split
  · simp
  · simp

theorem lowercase_of_forall {text : List Char} (h : ∀ c ∈ text, lowercaseChar c = [c]) :
    lowercase text = text := by
  have hsigma : lowercaseChar 'Σ' ≠ ['Σ'] := by decide +kernel
  have hafter : ∀ before, lowercaseAfter before text = text := by
    induction text with
    | nil => exact fun _ => rfl
    | cons c text ih =>
      intro before
      obtain ⟨hc, htext⟩ := List.forall_mem_cons.mp h
      have hne : c ≠ 'Σ' := by
        rintro rfl
        exact hsigma hc
      rw [lowercaseAfter, if_neg hne, hc, ih htext]
      rfl
  exact hafter []

/-- The lower case of a text is its own lower case. -/
theorem lowercase_lowercase (text : List Char) : lowercase (lowercase text) = lowercase text := by
  refine lowercase_of_forall fun d hd => ?_
  rcases exists_of_mem_lowercase hd with rfl | rfl | ⟨c, -, hmem⟩
  · exact lowercaseChar_of_mem_smalls (by simp [smalls])
  · exact lowercaseChar_of_mem_smalls (by simp [smalls])
  · exact lowercaseChar_of_mem_lowercaseChar hmem

/-! ## Words with single spaces between them -/

/-- The text is not empty, and the blanks in it are single spaces between other characters. -/
inductive Tidy : List Char → Prop where
  | single {c : Char} (hc : isBlank c = false) : Tidy [c]
  | cons {c : Char} {text : List Char} (hc : isBlank c = false) (h : Tidy text) : Tidy (c :: text)
  | space {c : Char} {text : List Char} (hc : isBlank c = false) (h : Tidy text) : Tidy (c :: ' ' :: text)

namespace Tidy

variable {text : List Char}

theorem ne_nil (h : Tidy text) : text ≠ [] := by
  cases h <;> simp

theorem not_blank_head (h : Tidy text) : ∀ c ∈ text.head?, isBlank c = false := by
  cases h <;> simpa

theorem not_blank_last (h : Tidy text) : ∀ c ∈ text.getLast?, isBlank c = false := by
  induction h with
  | single hc => simpa
  | @cons c text hc h ih =>
    obtain ⟨d, rest, rfl⟩ := List.exists_cons_of_ne_nil h.ne_nil
    rwa [List.getLast?_cons_cons]
  | @space c text hc h ih =>
    obtain ⟨d, rest, rfl⟩ := List.exists_cons_of_ne_nil h.ne_nil
    rwa [List.getLast?_cons_cons, List.getLast?_cons_cons]

theorem eq_space (h : Tidy text) : ∀ c ∈ text, isBlank c = true → c = ' ' := by
  induction h with
  | single hc => simp [hc]
  | cons hc h ih => simpa [hc] using ih
  | space hc h ih => simpa [hc] using ih

/-- Between words there is one space only. -/
theorem not_double_space (h : Tidy text) : ¬ [' ', ' '] <:+: text := by
  have hspace : ∀ {c : Char}, isBlank c = false → ' ' ≠ c := by
    rintro c hc rfl
    exact absurd hc (by decide)
  induction h with
  | single hc => simp [List.infix_cons_iff]
  | cons hc h ih =>
    rw [List.infix_cons_iff, not_or]
    exact ⟨fun hstart => hspace hc (List.cons_prefix_cons.mp hstart).1, ih⟩
  | @space c text hc h ih =>
    obtain ⟨d, rest, rfl⟩ := List.exists_cons_of_ne_nil h.ne_nil
    have hd : isBlank d = false := h.not_blank_head d rfl
    rw [List.infix_cons_iff, not_or]
    refine ⟨fun hstart => hspace hc (List.cons_prefix_cons.mp hstart).1, ?_⟩
    rw [List.infix_cons_iff, not_or]
    refine ⟨fun hstart => ?_, ih⟩
    have hnext : [' '] <+: d :: rest := (List.cons_prefix_cons.mp hstart).2
    exact hspace hd (List.cons_prefix_cons.mp hnext).1

/-- A word may stand for the first character. -/
theorem replace_first {c : Char} {word : List Char} (h : Tidy (c :: text)) (hne : word ≠ [])
    (hword : ∀ d ∈ word, isBlank d = false) : Tidy (word ++ text) := by
  induction word with
  | nil => exact absurd rfl hne
  | cons d word ih =>
    obtain ⟨hd, hword⟩ := List.forall_mem_cons.mp hword
    by_cases hlast : word = []
    · subst hlast
      cases h with
      | single hc => exact .single hd
      | cons hc h => exact .cons hd h
      | space hc h => exact .space hd h
    · exact .cons hd (ih hlast hword)

/-! ### What is done to a name leaves tidy texts tidy -/

theorem trimBlank_eq (h : Tidy text) : trimBlank text = text := by
  have hstay : ∀ {text : List Char}, (∀ c ∈ text.head?, isBlank c = false) →
      text.dropWhile isBlank = text := by
    intro text hhead
    cases text with
    | nil => rfl
    | cons c rest => exact List.dropWhile_cons_of_neg (by simp [hhead c rfl])
  unfold trimBlank trimEndBlank
  rw [hstay h.not_blank_head, hstay, List.reverse_reverse]
  rw [List.head?_reverse]
  exact h.not_blank_last

theorem squeezeBlank_eq (h : Tidy text) : squeezeBlank text = text := by
  induction h with
  | single hc => rw [squeezeBlank_of_not_blank hc, squeezeBlank]
  | cons hc h ih => rw [squeezeBlank_of_not_blank hc, ih]
  | @space c text hc h ih =>
    rw [squeezeBlank_of_not_blank hc, squeezeBlank_of_blank (by decide), ih, if_neg]
    intro hhead
    exact absurd (h.not_blank_head ' ' hhead) (by decide)

/-- The lower case of a character other than a blank is a word. -/
theorem word_of_lowercase {c : Char} (hc : isBlank c = false) (before text : List Char) :
    ∃ word, Sigil.lowercaseAfter before (c :: text) = word ++ Sigil.lowercaseAfter (c :: before) text ∧
      word ≠ [] ∧ ∀ d ∈ word, isBlank d = false := by
  refine ⟨_, rfl, ?_, fun d hd => Bool.eq_false_iff.mpr fun hblank => ?_⟩
  · split
    · exact List.cons_ne_nil _ _
    · exact lowercaseChar_ne_nil c
  · obtain ⟨hnever, hsigma, hfinal⟩ := neverLowered_of_isBlank hblank
    split at hd
    · unfold lowercaseSigma at hd
      split at hd
      · exact hfinal (List.mem_singleton.mp hd)
      · exact hsigma (List.mem_singleton.mp hd)
    · rw [← hnever c hd, hblank] at hc
      cases hc

/-- Lowering a tidy text keeps its words and spaces apart. -/
theorem lowercaseAfter (h : Tidy text) (before : List Char) : Tidy (lowercaseAfter before text) := by
  induction h generalizing before with
  | @single c hc =>
    obtain ⟨word, heq, hne, hword⟩ := word_of_lowercase hc before []
    rw [heq]
    exact (single hc).replace_first hne hword
  | @cons c text hc h ih =>
    obtain ⟨word, heq, hne, hword⟩ := word_of_lowercase hc before text
    rw [heq]
    exact (cons hc (ih _)).replace_first hne hword
  | @space c text hc h ih =>
    obtain ⟨word, heq, hne, hword⟩ := word_of_lowercase hc before (' ' :: text)
    have hspace : Sigil.lowercaseAfter (c :: before) (' ' :: text) =
        ' ' :: Sigil.lowercaseAfter (' ' :: c :: before) text := rfl
    rw [heq, hspace]
    exact (space hc (ih _)).replace_first hne hword

end Tidy

/-! ## Normal forms -/

/-- Squeezing makes a text tidy, but for a space at its start. -/
theorem tidy_squeezeBlank {text : List Char} (hne : text ≠ [])
    (hlast : ∀ c ∈ text.getLast?, isBlank c = false) :
    Tidy (squeezeBlank text) ∨ ∃ rest, squeezeBlank text = ' ' :: rest ∧ Tidy rest := by
  induction text with
  | nil => exact absurd rfl hne
  | cons c text ih =>
    cases text with
    | nil =>
      have hc : isBlank c = false := hlast c rfl
      rw [squeezeBlank_of_not_blank hc]
      exact .inl (.single hc)
    | cons d text =>
      rw [List.getLast?_cons_cons] at hlast
      by_cases hc : isBlank c = true
      · right
        rw [squeezeBlank_of_blank hc]
        rcases ih (List.cons_ne_nil _ _) hlast with htidy | ⟨rest, hrest, htidy⟩
        · refine ⟨_, if_neg fun hhead => ?_, htidy⟩
          exact absurd (htidy.not_blank_head ' ' hhead) (by decide)
        · rw [hrest]
          exact ⟨rest, if_pos rfl, htidy⟩
      · left
        rw [Bool.not_eq_true] at hc
        rw [squeezeBlank_of_not_blank hc]
        rcases ih (List.cons_ne_nil _ _) hlast with htidy | ⟨rest, hrest, htidy⟩
        · exact .cons hc htidy
        · rw [hrest]
          exact .space hc htidy

theorem not_blank_head_trimBlank (text : List Char) :
    ∀ c ∈ (trimBlank text).head?, isBlank c = false := by
  intro c hc
  have hstart : trimBlank text <+: text.dropWhile isBlank := by
    unfold trimBlank trimEndBlank
    rw [← List.reverse_suffix, List.reverse_reverse]
    exact List.dropWhile_suffix _
  exact head?_dropWhile_eq_false isBlank text c (mem_head?_of_beginning hstart hc)

theorem not_blank_last_trimBlank (text : List Char) :
    ∀ c ∈ (trimBlank text).getLast?, isBlank c = false := by
  unfold trimBlank trimEndBlank
  rw [List.getLast?_reverse]
  exact head?_dropWhile_eq_false isBlank _

/-- Trimming leaves nothing of blanks only. -/
theorem trimBlank_eq_nil_iff {text : List Char} :
    trimBlank text = [] ↔ ∀ c ∈ text, isBlank c = true := by
  unfold trimBlank trimEndBlank
  rw [List.reverse_eq_nil_iff, List.dropWhile_eq_nil_iff, ← List.dropWhile_eq_nil_iff (l := text)]
  constructor
  · intro h
    cases hrest : text.dropWhile isBlank with
    | nil => rfl
    | cons c rest =>
      have hc : isBlank c = false := head?_dropWhile_eq_false isBlank text c (by rw [hrest]; rfl)
      rw [h c (by simp [hrest])] at hc
      cases hc
  · intro h
    simp [h]

/-- The normal form of a name is tidy, unless the name is blank. -/
theorem tidy_normalizeName {text : String} (h : trimBlank text.toList ≠ []) :
    Tidy (normalizeName text).toList := by
  have hlast := not_blank_last_trimBlank text.toList
  have hsqueezed : Tidy (squeezeBlank (trimBlank text.toList)) := by
    rcases tidy_squeezeBlank h hlast with htidy | ⟨rest, hrest, -⟩
    · exact htidy
    · obtain ⟨c, cs, hcs⟩ := List.exists_cons_of_ne_nil h
      have hc : isBlank c = false := not_blank_head_trimBlank text.toList c (by rw [hcs]; rfl)
      rw [hcs, squeezeBlank_of_not_blank hc] at hrest
      rw [(List.cons.inj hrest).1] at hc
      exact absurd hc (by decide)
  rw [normalizeName, String.toList_ofList]
  exact hsqueezed.lowercaseAfter []

theorem normalizeName_of_blank {text : String} (h : trimBlank text.toList = []) :
    normalizeName text = "" := by
  rw [normalizeName, h]
  rfl

/-- A tidy text in lower case is its own normal form. -/
theorem Tidy.normalizeName_eq {text : String} (h : Tidy text.toList)
    (hlower : lowercase text.toList = text.toList) : normalizeName text = text := by
  rw [normalizeName, h.trimBlank_eq, h.squeezeBlank_eq, hlower, String.ofList_toList]

/-- Normal forms of names are canonical: a normal form is its own normal form. It neither starts nor ends
with a blank, has no blanks but spaces, and no two of them in a row. It is empty for blank texts only. -/
theorem normalizeName_canonical (text : String) :
    normalizeName (normalizeName text) = normalizeName text ∧
    (∀ c ∈ (normalizeName text).toList.head?, isBlank c = false) ∧
    (∀ c ∈ (normalizeName text).toList.getLast?, isBlank c = false) ∧
    (∀ c ∈ (normalizeName text).toList, isBlank c = true → c = ' ') ∧
    ¬ [' ', ' '] <:+: (normalizeName text).toList ∧
    (normalizeName text = "" ↔ ∀ c ∈ text.toList, isBlank c = true) := by
  by_cases h : trimBlank text.toList = []
  · rw [normalizeName_of_blank h]
    refine ⟨by decide, by simp, by simp, by simp, by simp, ?_⟩
    exact iff_of_true rfl (trimBlank_eq_nil_iff.mp h)
  · have htidy := tidy_normalizeName h
    have hlower : lowercase (normalizeName text).toList = (normalizeName text).toList := by
      rw [normalizeName, String.toList_ofList, lowercase_lowercase]
    refine ⟨htidy.normalizeName_eq hlower, htidy.not_blank_head, htidy.not_blank_last, htidy.eq_space,
      htidy.not_double_space, iff_of_false ?_ (mt trimBlank_eq_nil_iff.mpr h)⟩
    intro hempty
    exact htidy.ne_nil (by rw [hempty]; rfl)

end Sigil
