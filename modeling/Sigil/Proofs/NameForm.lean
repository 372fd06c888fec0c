import Sigil.Token.Name

/-!
# Blanks in names

The normal form of a name has spaces in it and no other blanks. Blanks of other kinds are gone once runs
of blanks have been squeezed, and writing a text in lower case brings none back, as they are the lower case
of nothing else (`NeverLowered`). Characters like that are in the normal form only if they are in the name.
-/

namespace Sigil

theorem toNat_of_isBlank {c : Char} (h : isBlank c = true) :
    c.toNat = 32 ∨ (9 ≤ c.toNat ∧ c.toNat ≤ 13) ∨
      ∃ q ∈ blankBeyondAscii.ranges, q.1 ≤ c.toNat ∧ c.toNat ≤ q.2 := by
  simp only [isBlank, Bool.or_eq_true, Bool.and_eq_true, beq_iff_eq, decide_eq_true_eq] at h
  rcases h with (rfl | hascii) | ⟨-, hbeyond⟩
  · exact .inl rfl
  · exact .inr (.inl hascii)
  · exact .inr (.inr ((blankBeyondAscii.contains_iff c).mp hbeyond))

/-! ## Lower case -/

/-- The character is the lower case of no other one. -/
def NeverLowered (c : Char) : Prop := (∀ d, c ∈ lowercaseChar d → c = d) ∧ c ≠ 'σ' ∧ c ≠ 'ς'

/-- A number that is no code point stands for the character 0. -/
theorem toNat_ofNat_cases (code : Nat) :
    (Char.ofNat code).toNat = code ∨ (Char.ofNat code).toNat = 0 := by
  by_cases hvalid : code.isValidChar
  · left
    rw [Char.ofNat, dif_pos hvalid]
    rfl
  · right
    rw [Char.ofNat, dif_neg hvalid]
    rfl

/-- What a run maps to is in its range, or is no character. -/
theorem toNat_of_map? {r : CaseRun} {n code : Nat} (h : r.map? n = some code) :
    (Char.ofNat code).toNat = 0 ∨
      ((r.first : Int) + r.offset ≤ (Char.ofNat code).toNat ∧
        ((Char.ofNat code).toNat : Int) ≤ r.last + r.offset) := by
  have hnat := toNat_ofNat_cases code
  unfold CaseRun.map? at h
  split at h
  · rename_i hrun
    obtain ⟨hfirst, hlast, -⟩ := hrun
    have hcode : code = ((n : Int) + r.offset).toNat := (Option.some.inj h).symm
    omega
  · cases h

/-- A character that no part of the case mapping leads to is the lower case of no other one. -/
theorem neverLowered_of_apart {c : Char}
    (hascii : ∀ n < 128, (Char.ofNat n).toLower = c → Char.ofNat n = c)
    (hruns : ∀ r ∈ lowercaseRuns,
      (r.last : Int) + r.offset < c.toNat ∨ (c.toNat : Int) < r.first + r.offset)
    (hzero : c.toNat ≠ 0) (hother : c ∉ ['i', Char.ofNat 0x307, 'σ', 'ς']) : NeverLowered c := by
  simp only [List.mem_cons, List.not_mem_nil, or_false, not_or] at hother
  obtain ⟨hi, hdot, hsigma⟩ := hother
  refine ⟨fun d h => ?_, hsigma⟩
  unfold lowercaseChar at h
  split at h
  · rename_i hd
    have hlower := hascii d.toNat hd
    rw [Char.ofNat_toNat] at hlower
    exact (hlower (List.mem_singleton.mp h).symm).symm
  · split at h
    · simp only [List.mem_cons, List.not_mem_nil, or_false] at h
      rcases h with h | h
      · exact absurd h hi
      · exact absurd h hdot
    · split at h
      · rename_i code hfind
        obtain ⟨r, hr, hmap⟩ := List.exists_of_findSome?_eq_some hfind
        have hcode := toNat_of_map? hmap
        rw [← List.mem_singleton.mp h] at hcode
        have := hruns r hr
        omega
      · exact List.mem_singleton.mp h

/-- No blank is the lower case of anything else. -/
theorem neverLowered_of_isBlank {c : Char} (hc : isBlank c = true) : NeverLowered c := by
  -- The tables are closed terms: what the runs lead to is compared with every range of blanks.
  have happart : ∀ r ∈ lowercaseRuns, 33 ≤ (r.first : Int) + r.offset ∧
      ∀ q ∈ blankBeyondAscii.ranges,
        (r.last : Int) + r.offset < q.1 ∨ (q.2 : Int) < r.first + r.offset := by
    decide +kernel
  have hpositive : ∀ q ∈ blankBeyondAscii.ranges, 0 < q.1 := by decide
  have hascii : ∀ n < 128, isBlank (Char.ofNat n).toLower = true →
      Char.ofNat n = (Char.ofNat n).toLower := by
    decide +kernel
  have hrange := toNat_of_isBlank hc
  refine neverLowered_of_apart (fun n hn hlower => ?_) (fun r hr => ?_) ?_ ?_
  · rw [← hlower] at hc ⊢
    exact hascii n hn hc
  · obtain ⟨hvisible, hbeyond⟩ := happart r hr
    rcases hrange with hspace | hlow | ⟨q, hq, hlow, hhigh⟩
    · omega
    · omega
    · have := hbeyond q hq
      omega
  · rcases hrange with hspace | hlow | ⟨q, hq, hlow, -⟩
    · omega
    · omega
    · have := hpositive q hq
      omega
  · intro hmem
    have hnone : ['i', Char.ofNat 0x307, 'σ', 'ς'].all (fun x => !isBlank x) = true := by decide
    have hnot := List.all_eq_true.mp hnone c hmem
    rw [hc] at hnot
    cases hnot

/-- What comes out of a text is a sigma, or the lower case of a character of the text. -/
theorem exists_of_mem_lowercase {d : Char} {text : List Char} (h : d ∈ lowercase text) :
    d = 'σ' ∨ d = 'ς' ∨ ∃ c ∈ text, d ∈ lowercaseChar c := by
  have hafter : ∀ before, d ∈ lowercaseAfter before text →
      d = 'σ' ∨ d = 'ς' ∨ ∃ c ∈ text, d ∈ lowercaseChar c := by
    clear h
    induction text with
    | nil => exact fun _ h => by cases h
    | cons c text ih =>
      intro before h
      rw [lowercaseAfter, List.mem_append] at h
      rcases h with hhead | htail
      · split at hhead
        · rw [List.mem_singleton.mp hhead, lowercaseSigma]
          split
          · exact .inr (.inl rfl)
          · exact .inl rfl
        · exact .inr (.inr ⟨c, List.mem_cons_self, hhead⟩)
      · rcases ih _ htail with hsigma | hfinal | ⟨e, he, hd⟩
        · exact .inl hsigma
        · exact .inr (.inl hfinal)
        · exact .inr (.inr ⟨e, List.mem_cons_of_mem c he, hd⟩)
  exact hafter [] h

/-- What is the lower case of no other character comes out of a text only if it is in the text. -/
theorem mem_of_mem_lowercase {c : Char} {text : List Char} (hc : NeverLowered c)
    (h : c ∈ lowercase text) : c ∈ text := by
  rcases exists_of_mem_lowercase h with hsigma | hfinal | ⟨d, hd, hmem⟩
  · exact absurd hsigma hc.2.1
  · exact absurd hfinal hc.2.2
  · rwa [hc.1 d hmem]

/-! ## Normal forms -/

/-- A blank is left out before another one. -/
theorem squeezeBlank_of_blank {c : Char} (h : isBlank c = true) (text : List Char) :
    squeezeBlank (c :: text) =
      if (squeezeBlank text).head? = some ' ' then squeezeBlank text else ' ' :: squeezeBlank text := by
  rw [squeezeBlank, if_pos h]
  split
  · rename_i rest hrest
    rw [hrest, List.head?_cons, if_pos rfl]
  · rename_i hother
    rw [if_neg]
    intro hhead
    obtain ⟨rest, hrest⟩ := List.head?_eq_some_iff.mp hhead
    exact hother rest hrest

theorem squeezeBlank_of_not_blank {c : Char} (h : isBlank c = false) (text : List Char) :
    squeezeBlank (c :: text) = c :: squeezeBlank text := by
  rw [squeezeBlank, h]
  rfl

/-- The only blanks of a squeezed text are spaces. -/
theorem eq_space_of_isBlank_of_mem_squeezeBlank {c : Char} {text : List Char}
    (hc : isBlank c = true) (h : c ∈ squeezeBlank text) : c = ' ' := by
  induction text with
  | nil => cases h
  | cons d text ih =>
    unfold squeezeBlank at h
    split at h
    · split at h
      · rename_i rest hrest
        rcases List.mem_cons.mp h with hspace | hmem
        · exact hspace
        · rw [hrest] at ih
          exact ih (List.mem_cons_of_mem _ hmem)
      · rcases List.mem_cons.mp h with hspace | hmem
        · exact hspace
        · exact ih hmem
    · rename_i hd
      rcases List.mem_cons.mp h with rfl | hmem
      · exact absurd hc hd
      · exact ih hmem

/-- Squeezing brings in nothing but spaces. -/
theorem mem_of_mem_squeezeBlank {c : Char} {text : List Char} (hc : c ≠ ' ')
    (h : c ∈ squeezeBlank text) : c ∈ text := by
  induction text with
  | nil => exact h
  | cons d text ih =>
    refine List.mem_cons.mpr ?_
    unfold squeezeBlank at h
    split at h
    · split at h
      · rename_i rest hrest
        rw [hrest] at ih
        exact .inr (ih h)
      · exact .inr (ih ((List.mem_cons.mp h).resolve_left hc))
    · exact (List.mem_cons.mp h).imp_right ih

theorem mem_of_mem_trimBlank {c : Char} {text : List Char} (h : c ∈ trimBlank text) : c ∈ text := by
  unfold trimBlank trimEndBlank at h
  have hend := (List.dropWhile_suffix _).subset (List.mem_reverse.mp h)
  exact (List.dropWhile_suffix _).subset (List.mem_reverse.mp hend)

/-- What is neither a space nor the lower case of another character is in a name if it is in its normal
form. -/
theorem mem_of_mem_normalizeName {c : Char} {text : List Char} (hc : NeverLowered c) (hspace : c ≠ ' ')
    (h : c ∈ (normalizeName (String.ofList text)).toList) : c ∈ text := by
  rw [normalizeName, String.toList_ofList, String.toList_ofList] at h
  exact mem_of_mem_trimBlank (mem_of_mem_squeezeBlank hspace (mem_of_mem_lowercase hc h))

/-- The only blanks in the normal form of a name are spaces. -/
theorem eq_space_of_isBlank_of_mem_normalizeName {c : Char} {text : String}
    (hc : isBlank c = true) (h : c ∈ (normalizeName text).toList) : c = ' ' := by
  rw [normalizeName, String.toList_ofList] at h
  have hsqueezed := mem_of_mem_lowercase (neverLowered_of_isBlank hc) h
  exact eq_space_of_isBlank_of_mem_squeezeBlank hc hsqueezed

end Sigil
