import Sigil.Proofs.NameForm
import Sigil.Proofs.TextModes

/-!
# Spelling

Scripts may be written in capitals, and with as many spaces and tabs in a row as their authors like. Neither
makes a difference: the scanner gets the same tokens on the same lines from the text in even spelling, where
the letters are in lower case and every run of spaces and tabs is one space. Only the values of quoted texts
are what they are, so they come out in even spelling too.

Spaces are not the same everywhere: they are part of names, they separate numbers and signs, and they stand
for themselves in quoted texts. The proof is that of a simulation. Everything that the scanner does with a
text is cutting it where some property of its characters ends, and the properties it asks for are blind to
the spelling (`SpellingBlind`). So no run of spaces is ever cut in two.
-/

namespace Sigil

/-! ## Even spelling -/

/-- Whether `c` is a space or a tab. -/
def isSpace (c : Char) : Bool := c == ' ' || c == '\t'

/-- The character in even spelling: a space for a tab, and the lower case of a letter from `A` to `Z`. -/
def evenChar (c : Char) : Char := if isSpace c then ' ' else c.toLower

/-- The text in even spelling. -/
def evenOut : List Char → List Char
  | [] => []
  | c :: text =>
    -- Of a run of spaces and tabs the last one is kept.
    if isSpace c && text.head?.any isSpace then evenOut text else evenChar c :: evenOut text

/-- The source in even spelling. -/
def evenSpelling (source : String) : String := String.ofList (evenOut source.toList)

/-- The value of a token of the given kind, with quoted texts in even spelling. -/
def Kind.evenValue (k : Kind) (value : String) : String :=
  if k = .string then evenSpelling value else value

/-- The token as it is found in even spelling. -/
def Token.evened (t : Token) : Token := { t with value := t.kind.evenValue t.value }

/-- The lexeme in even spelling. -/
def Lexeme.evened (x : Lexeme) : Lexeme := ⟨x.kind, x.kind.evenValue x.value, evenOut x.text⟩

/-! ## Properties that are blind to the spelling -/

/-- The property does not tell a character from its even spelling. -/
def SpellingBlind (p : Char → Bool) : Prop := ∀ c, p (evenChar c) = p c

theorem toLower_of_beyond {c : Char} (h : 128 ≤ c.toNat) : c.toLower = c := by
  unfold Char.toLower
  refine dif_neg fun hupper => ?_
  have hle : c.toNat ≤ 90 := hupper.2
  omega

theorem evenChar_of_beyond {c : Char} (h : 128 ≤ c.toNat) : evenChar c = c := by
  have hspace : isSpace c = false := by
    rw [Bool.eq_false_iff]
    intro hc
    simp only [isSpace, Bool.or_eq_true, beq_iff_eq] at hc
    rcases hc with rfl | rfl <;> exact absurd h (by decide)
  rw [evenChar, hspace, toLower_of_beyond h]
  rfl

theorem evenChar_of_isSpace {c : Char} (h : isSpace c = true) : evenChar c = ' ' := if_pos h

/-- To show something of all characters, ASCII can be gone through. -/
theorem forall_char_of_ascii {P : Char → Prop} (h : ∀ n < 128, P (Char.ofNat n))
    (hbeyond : ∀ c : Char, 128 ≤ c.toNat → P c) (c : Char) : P c := by
  by_cases hascii : c.toNat < 128
  · have hc := h c.toNat hascii
    rwa [Char.ofNat_toNat] at hc
  · exact hbeyond c (Nat.le_of_not_lt hascii)

/-- Only ASCII characters have another spelling, so blindness is a matter of these. -/
theorem spellingBlind_of_ascii {p : Char → Bool}
    (h : ∀ n < 128, p (evenChar (Char.ofNat n)) = p (Char.ofNat n)) : SpellingBlind p :=
  forall_char_of_ascii h fun c hc => by rw [evenChar_of_beyond hc]

/-- The letters that have another spelling are such that names start with. -/
theorem toLower_of_not_startsName {c : Char} (h : startsName c = false) : c.toLower = c :=
  forall_char_of_ascii (P := fun c => startsName c = false → c.toLower = c) (by decide +kernel)
    (fun _ hd _ => toLower_of_beyond hd) c h

/-- Numbers and signs are in even spelling, as they are made of other characters than names are. -/
theorem even_of_not_startsName {c : Char} (hname : startsName c = false) (hspace : isSpace c = false) :
    evenChar c = c := by
  rw [evenChar, hspace, toLower_of_not_startsName hname]
  rfl

/-- What is asked about characters all over the scanner and in the making of names is blind. -/
theorem spellingBlind_of_mem {p : Char → Bool}
    (h : p ∈ [isBlank, isFiller, startsName, continuesName, Char.isDigit, isCased, isCaseIgnorable,
      (· == 'Σ')]) : SpellingBlind p := by
  have hall : ∀ p ∈ [isBlank, isFiller, startsName, continuesName, Char.isDigit, isCased, isCaseIgnorable,
      (· == 'Σ')], ∀ n < 128, p (evenChar (Char.ofNat n)) = p (Char.ofNat n) := by
    decide +kernel
  exact spellingBlind_of_ascii (hall p h)

theorem isBlank_blind : SpellingBlind isBlank := spellingBlind_of_mem (by simp)

theorem isFiller_blind : SpellingBlind isFiller := spellingBlind_of_mem (by simp)

theorem startsName_blind : SpellingBlind startsName := spellingBlind_of_mem (by simp)

theorem continuesName_blind : SpellingBlind continuesName := spellingBlind_of_mem (by simp)

theorem isDigit_blind : SpellingBlind Char.isDigit := spellingBlind_of_mem (by simp)

theorem isCased_blind : SpellingBlind isCased := spellingBlind_of_mem (by simp)

theorem isCaseIgnorable_blind : SpellingBlind isCaseIgnorable := spellingBlind_of_mem (by simp)

/-- The character is the even spelling of no other. -/
def Unmistakable (d : Char) : Prop := SpellingBlind (· == d)

/-- Spaces and the characters of names can be mistaken, but nothing else can. -/
theorem unmistakable_of_not_startsName {d : Char} (hname : startsName d = false)
    (hspace : isSpace d = false) : Unmistakable d := by
  intro c
  rw [Bool.eq_iff_iff, beq_iff_eq, beq_iff_eq]
  constructor
  · rintro rfl
    rw [startsName_blind] at hname
    have hc : isSpace c = false := by
      refine Bool.eq_false_iff.mpr fun h => ?_
      rw [evenChar_of_isSpace h] at hspace
      exact absurd hspace (by decide)
    exact (even_of_not_startsName hname hc).symm
  · rintro rfl
    exact even_of_not_startsName hname hspace

theorem Unmistakable.evenChar_eq_iff {d : Char} (hd : Unmistakable d) {c : Char} :
    evenChar c = d ↔ c = d := by
  have h : (evenChar c == d) = (c == d) := hd c
  rw [← beq_iff_eq, h, beq_iff_eq]

/-- Whether a character is an unmistakable one does not depend on its spelling. -/
theorem Unmistakable.blind_ne {d : Char} (hd : Unmistakable d) : SpellingBlind (· != d) := by
  intro c
  have h : (evenChar c == d) = (c == d) := hd c
  simp only [bne, h]

/-- All spaces are the same to a blind property. -/
theorem SpellingBlind.eq_of_isSpace {p : Char → Bool} (hp : SpellingBlind p) {c d : Char}
    (hc : isSpace c = true) (hd : isSpace d = true) : p c = p d := by
  rw [← hp c, ← hp d, evenChar_of_isSpace hc, evenChar_of_isSpace hd]

/-! ## Cutting texts -/

section

variable {c d : Char} {text rest : List Char} {p : Char → Bool}

/-- A run of spaces is evened out to one. -/
theorem evenOut_of_run (h : (isSpace c && text.head?.any isSpace) = true) :
    evenOut (c :: text) = evenOut text := by
  rw [evenOut, if_pos h]

theorem evenOut_of_not_run (h : (isSpace c && text.head?.any isSpace) = false) :
    evenOut (c :: text) = evenChar c :: evenOut text := by
  rw [evenOut, h]
  rfl

theorem evenOut_cons (h : isSpace c = false) (text : List Char) :
    evenOut (c :: text) = evenChar c :: evenOut text :=
  evenOut_of_not_run (by rw [h, Bool.false_and])

/-- What the even spelling of a text starts with. -/
theorem head?_evenOut (text : List Char) : (evenOut text).head? = text.head?.map evenChar := by
  induction text with
  | nil => rfl
  | cons c text ih =>
    by_cases hrun : (isSpace c && text.head?.any isSpace) = true
    · rw [evenOut_of_run hrun, ih]
      rw [Bool.and_eq_true, Option.any_eq_true] at hrun
      obtain ⟨hc, d, hd, hspace⟩ := hrun
      rw [hd, List.head?_cons, Option.map_some, Option.map_some, evenChar_of_isSpace hc,
        evenChar_of_isSpace hspace]
    · rw [evenOut_of_not_run (Bool.eq_false_iff.mpr hrun)]
      rfl

theorem exists_evenOut_cons (c : Char) (text : List Char) :
    ∃ others, evenOut (c :: text) = evenChar c :: others :=
  List.head?_eq_some_iff.mp (head?_evenOut (c :: text))

/-- What starts with an unmistakable character has started with it before. -/
theorem Unmistakable.starts (hd : Unmistakable d) (h : evenOut text = d :: rest) :
    ∃ others, text = d :: others := by
  have hhead := head?_evenOut text
  rw [h, List.head?_cons] at hhead
  obtain ⟨c, hc, heven⟩ := Option.map_eq_some_iff.mp hhead.symm
  rw [hd.evenChar_eq_iff.mp heven] at hc
  exact List.head?_eq_some_iff.mp hc

theorem head?_any_evenOut (hp : SpellingBlind p) (text : List Char) :
    (evenOut text).head?.any p = text.head?.any p := by
  rw [head?_evenOut]
  cases text.head? with
  | none => rfl
  | some c => exact hp c

/-- The cut between the two texts goes through no run of spaces. -/
def CleanCut (before after : List Char) : Prop :=
  (∀ c ∈ before.getLast?, isSpace c = false) ∨ ∀ c ∈ after.head?, isSpace c = false

/-- Texts can be evened out apart, if no run of spaces is cut. -/
theorem evenOut_append {before after : List Char} (h : CleanCut before after) :
    evenOut (before ++ after) = evenOut before ++ evenOut after := by
  induction before with
  | nil => rfl
  | cons c before ih =>
    have hcut : CleanCut before after := by
      refine h.imp_left fun hlast d hd => hlast d ?_
      rw [Option.mem_def] at hd ⊢
      rw [List.getLast?_cons, hd]
      rfl
    have hrun : (isSpace c && (before ++ after).head?.any isSpace) =
        (isSpace c && before.head?.any isSpace) := by
      cases before with
      | cons d before => rfl
      | nil =>
        rcases h with hlast | hhead
        · rw [hlast c rfl, Bool.false_and, Bool.false_and]
        · cases after with
          | nil => rfl
          | cons d after =>
            have hd : isSpace d = false := hhead d rfl
            simp [hd]
    rw [List.cons_append, evenOut, evenOut, hrun, ih hcut]
    split
    · rfl
    · rfl

/-- Where a blind property ends, no run of spaces is cut. -/
theorem cleanCut_takeWhile (hp : SpellingBlind p) (text : List Char) :
    CleanCut (text.takeWhile p) (text.dropWhile p) := by
  by_cases hspace : p ' ' = true
  · refine .inr fun c hc => Bool.eq_false_iff.mpr fun hcs => ?_
    have hstop := head?_dropWhile_eq_false p text c hc
    rw [hp.eq_of_isSpace hcs (d := ' ') rfl, hspace] at hstop
    cases hstop
  · refine .inl fun c hc => Bool.eq_false_iff.mpr fun hcs => hspace ?_
    have htaken := List.all_eq_true.mp List.all_takeWhile c (List.mem_of_getLast? hc)
    rwa [hp.eq_of_isSpace hcs (d := ' ') rfl] at htaken

theorem dropWhile_evenOut (hp : SpellingBlind p) (text : List Char) :
    (evenOut text).dropWhile p = evenOut (text.dropWhile p) := by
  induction text with
  | nil => rfl
  | cons c text ih =>
    by_cases hc : p c = true
    · rw [List.dropWhile_cons_of_pos hc, ← ih, evenOut]
      split
      · rfl
      · exact List.dropWhile_cons_of_pos ((hp c).trans hc)
    · rw [List.dropWhile_cons_of_neg hc]
      obtain ⟨others, hothers⟩ := exists_evenOut_cons c text
      rw [hothers]
      exact List.dropWhile_cons_of_neg (by rwa [hp c])

/-- What is blind to the spelling takes the same beginning of a text in every spelling. -/
theorem takeWhile_evenOut (hp : SpellingBlind p) (text : List Char) :
    (evenOut text).takeWhile p = evenOut (text.takeWhile p) := by
  have heven : evenOut (text.takeWhile p) ++ evenOut (text.dropWhile p) = evenOut text := by
    rw [← evenOut_append (cleanCut_takeWhile hp text), List.takeWhile_append_dropWhile]
  have hcut := List.takeWhile_append_dropWhile (p := p) (l := evenOut text)
  rw [dropWhile_evenOut hp] at hcut
  exact List.append_cancel_right (hcut.trans heven.symm)

/-- Even spelling keeps the line feeds. -/
theorem count_evenOut (text : List Char) : (evenOut text).count '\n' = text.count '\n' := by
  have hbreak : Unmistakable '\n' := unmistakable_of_not_startsName (by decide) (by decide)
  induction text with
  | nil => rfl
  | cons c text ih =>
    by_cases hrun : (isSpace c && text.head?.any isSpace) = true
    · have hc : c ≠ '\n' := by
        rintro rfl
        exact absurd hrun (by simp [isSpace])
      rw [evenOut_of_run hrun, ih, List.count_cons_of_ne hc]
    · have hc : (evenChar c == '\n') = (c == '\n') := hbreak c
      rw [evenOut_of_not_run (Bool.eq_false_iff.mpr hrun), List.count_cons, List.count_cons, ih, hc]

end

/-! ## Line breaks, blanks and comments -/

theorem head?_any_isSpace_foldBreaks (text : List Char) :
    (foldBreaks text).head?.any isSpace = text.head?.any isSpace := by
  fun_cases foldBreaks text <;> rfl

/-- Line breaks are folded in the same way in every spelling. -/
theorem foldBreaks_evenOut (text : List Char) : foldBreaks (evenOut text) = evenOut (foldBreaks text) := by
  have hreturn : Unmistakable '\r' := unmistakable_of_not_startsName (by decide) (by decide)
  have hfeed : Unmistakable '\n' := unmistakable_of_not_startsName (by decide) (by decide)
  fun_induction foldBreaks text with
  | case1 => rfl
  | case2 text ih =>
    rw [evenOut_cons rfl, evenOut_cons rfl, evenOut_cons rfl, ← ih]
    rfl
  | case3 text hnext ih =>
    have hstart : ∀ r, evenOut text = '\n' :: r → False := by
      intro r hr
      obtain ⟨others, hothers⟩ := hfeed.starts hr
      exact hnext others hothers
    rw [evenOut_cons rfl, evenOut_cons rfl, ← ih]
    show foldBreaks ('\r' :: evenOut text) = _
    rw [foldBreaks]
    · rfl
    · exact hstart
  | case4 c text hpair hother ih =>
    rw [evenOut, evenOut, head?_any_isSpace_foldBreaks, ← ih]
    split
    · rfl
    · rw [foldBreaks]
      · exact fun r hc _ => hother (hreturn.evenChar_eq_iff.mp hc)
      · exact fun hc => hother (hreturn.evenChar_eq_iff.mp hc)

/-- Comments end at the same place in even spelling, and have as many lines. -/
theorem blockComment_evenOut (text : List Char) :
    (blockComment (evenOut text)).2 = evenOut (blockComment text).2 ∧
      (blockComment (evenOut text)).1.count '\n' = (blockComment text).1.count '\n' := by
  have hstar : Unmistakable '*' := unmistakable_of_not_startsName (by decide) (by decide)
  have hslash : Unmistakable '/' := unmistakable_of_not_startsName (by decide) (by decide)
  have hrest : (blockComment (evenOut text)).2 = evenOut (blockComment text).2 := by
    fun_induction blockComment text with
    | case1 => rfl
    | case2 rest =>
      rw [evenOut_cons rfl, evenOut_cons rfl]
      rfl
    | case3 c rest hopen ih =>
      rw [← ih, evenOut]
      split
      · rfl
      · rw [blockComment]
        intro r hc hr
        obtain ⟨others, hothers⟩ := hslash.starts hr
        exact hopen others (hstar.evenChar_eq_iff.mp hc) hothers
  refine ⟨hrest, ?_⟩
  -- What is left of the text has as many line feeds as before, so the comment has as well.
  have hcount := congrArg (List.count '\n') (blockComment_append text)
  have heven := congrArg (List.count '\n') (blockComment_append (evenOut text))
  rw [List.count_append] at hcount heven
  rw [hrest, count_evenOut, count_evenOut] at heven
  omega

theorem isFiller_of_isSpace {c : Char} (h : isSpace c = true) : isFiller c = true := by
  rw [isFiller_blind.eq_of_isSpace h (d := ' ') rfl]
  decide

/-- A character that starts no comment starts none in even spelling. -/
theorem skipTrivia_evenChar {c : Char} {rest : List Char}
    (hline : ∀ r, c = '/' → rest = '/' :: r → False)
    (hblock : ∀ r, c = '/' → rest = '*' :: r → False) (line : Nat) :
    skipTrivia line (evenChar c :: evenOut rest) =
      if isFiller c then skipTrivia line (evenOut rest)
      else ⟨[], evenChar c :: evenOut rest, line⟩ := by
  have hstar : Unmistakable '*' := unmistakable_of_not_startsName (by decide) (by decide)
  have hslash : Unmistakable '/' := unmistakable_of_not_startsName (by decide) (by decide)
  rw [skipTrivia, ← isFiller_blind c]
  · rfl
  · intro r hc hr
    obtain ⟨others, hothers⟩ := hslash.starts hr
    exact hline others (hslash.evenChar_eq_iff.mp hc) hothers
  · intro r hc hr
    obtain ⟨others, hothers⟩ := hstar.starts hr
    exact hblock others (hslash.evenChar_eq_iff.mp hc) hothers

/-- The same is passed over in even spelling. -/
theorem skipTrivia_evenOut (line : Nat) (text : List Char) :
    skipTrivia line (evenOut text) =
      ⟨(skipTrivia line text).comments, evenOut (skipTrivia line text).rest,
        (skipTrivia line text).line⟩ := by
  have hfeed : Unmistakable '\n' := unmistakable_of_not_startsName (by decide) (by decide)
  fun_induction skipTrivia line text with
  | case1 => rw [evenOut, skipTrivia]
  | case2 line rest t ih =>
    rw [evenOut_cons rfl, evenOut_cons rfl]
    show skipTrivia line ('/' :: '/' :: evenOut rest) = _
    rw [skipTrivia, dropWhile_evenOut hfeed.blind_ne, ih]
  | case3 line rest t ih =>
    obtain ⟨hrest, hcount⟩ := blockComment_evenOut rest
    rw [evenOut_cons rfl, evenOut_cons rfl]
    show skipTrivia line ('/' :: '*' :: evenOut rest) = _
    rw [skipTrivia, hrest, hcount, ih]
  | case4 line c rest hline hblock hfiller ih =>
    rw [evenOut]
    split
    · exact ih
    · rw [skipTrivia_evenChar hline hblock, ← ih]
      exact if_pos hfiller
  | case5 line c rest hline hblock hfiller =>
    have hspace : isSpace c = false := Bool.eq_false_iff.mpr fun h => hfiller (isFiller_of_isSpace h)
    rw [evenOut_cons hspace, skipTrivia_evenChar hline hblock]
    exact if_neg hfiller

/-- What follows the blanks and comments does not start with a space. -/
theorem isSpace_of_skipTrivia {line : Nat} {text rest : List Char} {c : Char}
    (h : (skipTrivia line text).rest = c :: rest) : isSpace c = false := by
  fun_induction skipTrivia line text with
  | case1 => cases h
  | case2 line rest t ih => exact ih h
  | case3 line rest t ih => exact ih h
  | case4 line c rest _ _ _ ih => exact ih h
  | case5 line d rest _ _ hfiller =>
    obtain ⟨rfl, -⟩ := List.cons.inj h
    exact Bool.eq_false_iff.mpr fun hspace => hfiller (isFiller_of_isSpace hspace)

/-! ## Names -/

theorem toLower_of_isSpace {c : Char} (h : isSpace c = true) : c.toLower = c := by
  simp only [isSpace, Bool.or_eq_true, beq_iff_eq] at h
  rcases h with rfl | rfl <;> rfl

theorem SpellingBlind.toLower {p : Char → Bool} (hp : SpellingBlind p) (c : Char) :
    p c.toLower = p c := by
  have hc := hp c
  unfold evenChar at hc
  split at hc
  · rename_i hspace
    rw [toLower_of_isSpace hspace]
  · exact hc

theorem leadsToCased_map_toLower (text : List Char) :
    leadsToCased (text.map Char.toLower) = leadsToCased text := by
  have hignorable : isCaseIgnorable ∘ Char.toLower = isCaseIgnorable :=
    funext isCaseIgnorable_blind.toLower
  unfold leadsToCased
  rw [List.dropWhile_map, hignorable]
  cases text.dropWhile isCaseIgnorable with
  | nil => rfl
  | cons c rest => exact isCased_blind.toLower c

theorem lowercaseChar_toLower (c : Char) : lowercaseChar c.toLower = lowercaseChar c :=
  forall_char_of_ascii (P := fun c => lowercaseChar c.toLower = lowercaseChar c) (by decide +kernel)
    (fun d hd => by rw [toLower_of_beyond hd]) c

theorem eq_space_of_toLower {c : Char} (h : c.toLower = ' ') : c = ' ' := by
  have hname : startsName c = false := by
    rw [← startsName_blind.toLower c, h]
    decide
  rw [← toLower_of_not_startsName hname, h]

/-- The lower case of a text does not depend on its case. -/
theorem lowercaseAfter_map_toLower (before text : List Char) :
    lowercaseAfter (before.map Char.toLower) (text.map Char.toLower) = lowercaseAfter before text := by
  have hsigma : Unmistakable 'Σ' := spellingBlind_of_mem (by simp)
  induction text generalizing before with
  | nil => rfl
  | cons c text ih =>
    have hc : c.toLower = 'Σ' ↔ c = 'Σ' := by
      have h : (c.toLower == 'Σ') = (c == 'Σ') := SpellingBlind.toLower hsigma c
      rw [← beq_iff_eq, h, beq_iff_eq]
    have hrest := ih (c :: before)
    rw [List.map_cons] at hrest
    rw [List.map_cons, lowercaseAfter, lowercaseAfter, hrest, lowercaseSigma, lowercaseSigma,
      leadsToCased_map_toLower, leadsToCased_map_toLower, lowercaseChar_toLower]
    simp only [hc]

theorem head?_squeezeBlank_of_blank {c : Char} (h : isBlank c = true) (text : List Char) :
    (squeezeBlank (c :: text)).head? = some ' ' := by
  rw [squeezeBlank_of_blank h]
  split
  · assumption
  · rfl

theorem isBlank_of_isSpace {c : Char} (h : isSpace c = true) : isBlank c = true := by
  rw [isBlank_blind.eq_of_isSpace h (d := ' ') rfl]
  decide

/-- Runs of blanks are squeezed in the same way in every spelling. -/
theorem squeezeBlank_evenOut (text : List Char) :
    squeezeBlank (evenOut text) = (squeezeBlank text).map Char.toLower := by
  induction text with
  | nil => rfl
  | cons c text ih =>
    by_cases hrun : (isSpace c && text.head?.any isSpace) = true
    · rw [evenOut_of_run hrun, ih]
      rw [Bool.and_eq_true, Option.any_eq_true] at hrun
      obtain ⟨hc, d, hd, hspace⟩ := hrun
      obtain ⟨rest, rfl⟩ := List.head?_eq_some_iff.mp hd
      rw [squeezeBlank_of_blank (isBlank_of_isSpace hc),
        if_pos (head?_squeezeBlank_of_blank (isBlank_of_isSpace hspace) rest)]
    · rw [evenOut_of_not_run (Bool.eq_false_iff.mpr hrun)]
      by_cases hc : isBlank c = true
      · have hhead : ((squeezeBlank text).map Char.toLower).head? = some ' ' ↔
            (squeezeBlank text).head? = some ' ' := by
          rw [List.head?_map, Option.map_eq_some_iff]
          constructor
          · rintro ⟨d, hd, heq⟩
            rwa [eq_space_of_toLower heq] at hd
          · exact fun h => ⟨' ', h, rfl⟩
        rw [squeezeBlank_of_blank ((isBlank_blind c).trans hc), squeezeBlank_of_blank hc, ih]
        simp only [hhead]
        split
        · rfl
        · rfl
      · have hspace : isSpace c = false := Bool.eq_false_iff.mpr fun h => hc (isBlank_of_isSpace h)
        rw [Bool.not_eq_true] at hc
        rw [squeezeBlank_of_not_blank ((isBlank_blind c).trans hc), squeezeBlank_of_not_blank hc, ih,
          List.map_cons, evenChar, hspace]
        rfl

theorem evenOut_concat (text : List Char) (c : Char) :
    evenOut (text ++ [c]) =
      if isSpace c && text.getLast?.any isSpace then evenOut text else evenOut text ++ [evenChar c] := by
  induction text with
  | nil => simp [evenOut]
  | cons d text ih =>
    cases text with
    | nil =>
      by_cases hc : isSpace c = true
      · by_cases hd : isSpace d = true
        · simp [evenOut, hc, hd, evenChar]
        · simp [evenOut, hd]
      · simp [evenOut, hc]
    | cons e text =>
      by_cases hrun : (isSpace d && isSpace e) = true
      · rw [List.getLast?_cons_cons, List.cons_append, evenOut_of_run hrun, evenOut_of_run hrun, ih]
      · rw [Bool.not_eq_true] at hrun
        rw [List.getLast?_cons_cons, List.cons_append, evenOut_of_not_run hrun, evenOut_of_not_run hrun, ih]
        split
        · rfl
        · rfl

theorem reverse_evenOut (text : List Char) : (evenOut text).reverse = evenOut text.reverse := by
  induction text with
  | nil => rfl
  | cons c text ih =>
    rw [List.reverse_cons, evenOut_concat, List.getLast?_reverse, ← ih, evenOut]
    split
    · rfl
    · rw [List.reverse_cons]

theorem trimBlank_evenOut (text : List Char) : trimBlank (evenOut text) = evenOut (trimBlank text) := by
  unfold trimBlank trimEndBlank
  rw [dropWhile_evenOut isBlank_blind, reverse_evenOut, dropWhile_evenOut isBlank_blind, reverse_evenOut]

/-- All spellings of a name have one normal form. -/
theorem normalizeName_evenSpelling (text : String) :
    normalizeName (evenSpelling text) = normalizeName text := by
  unfold normalizeName evenSpelling lowercase
  rw [String.toList_ofList, trimBlank_evenOut, squeezeBlank_evenOut]
  exact congrArg String.ofList (lowercaseAfter_map_toLower [] _)

/-! ## Lexemes -/

theorem evenSpelling_ofList (text : List Char) :
    evenSpelling (String.ofList text) = String.ofList (evenOut text) := by
  rw [evenSpelling, String.toList_ofList]

/-- Characters other than spaces and capitals are in even spelling already. -/
theorem evenOut_eq_self {text : List Char} (h : ∀ c ∈ text, isSpace c = false ∧ evenChar c = c) :
    evenOut text = text := by
  induction text with
  | nil => rfl
  | cons c text ih =>
    obtain ⟨hspace, heven⟩ := h c List.mem_cons_self
    rw [evenOut_cons hspace, heven, ih fun d hd => h d (List.mem_cons_of_mem c hd)]

theorem count_evenValue (k : Kind) (value : String) :
    (k.evenValue value).toList.count '\n' = value.toList.count '\n' := by
  unfold Kind.evenValue
  split
  · rw [evenSpelling, String.toList_ofList, count_evenOut]
  · rfl

theorem evenValue_of_ne_string {k : Kind} (hk : k ≠ .string) (value : String) :
    k.evenValue value = value := if_neg hk

namespace Lexeme

variable {c : Char} {rest text : List Char}

/-- A sign that has no other spelling. -/
theorem evened_sign {k : Kind} (hk : k ≠ .string)
    (h : ∀ d ∈ text, isSpace d = false ∧ evenChar d = d) : (sign k text).evened = sign k text := by
  simp only [evened, sign, evenValue_of_ne_string hk, evenOut_eq_self h]

/-- A word is read in every spelling, with the same value. -/
theorem evened_word (hc : isSpace c = false) (rest : List Char) :
    word (evenChar c) (evenOut rest) = (word c rest).evened := by
  have htext : evenChar c :: (evenOut rest).takeWhile continuesName =
      evenOut (c :: rest.takeWhile continuesName) := by
    rw [evenOut_cons hc, takeWhile_evenOut continuesName_blind]
  have hvalue : normalizeName (String.ofList (evenOut (c :: rest.takeWhile continuesName))) =
      normalizeName (String.ofList (c :: rest.takeWhile continuesName)) := by
    rw [← evenSpelling_ofList, normalizeName_evenSpelling]
  simp only [evened, word, htext, hvalue, evenValue_of_ne_string (reserved?_getD_ne (by decide) _)]

theorem startsNumber_evenOut (c : Char) (rest : List Char) :
    startsNumber (evenChar c) (evenOut rest) = startsNumber c rest := by
  have hpoint : (evenChar c == '.') = (c == '.') := unmistakable_of_not_startsName (by decide) (by decide) c
  rw [startsNumber, startsNumber, isDigit_blind c, hpoint, head?_any_evenOut isDigit_blind]

theorem even_of_numeral {d : Char} (h : d.isDigit = true ∨ d = '.') :
    isSpace d = false ∧ evenChar d = d := by
  rcases h with hdigit | rfl
  · have hspace : isSpace d = false := by
      refine Bool.eq_false_iff.mpr fun hd => ?_
      have hblank := isBlank_of_isSpace hd
      rw [isBlank_of_isDigit hdigit] at hblank
      exact Bool.false_ne_true hblank
    exact ⟨hspace, even_of_not_startsName (startsName_of_isDigit hdigit) hspace⟩
  · decide

/-- A number has one spelling only. -/
theorem number_evenOut (text : List Char) : number (evenOut text) = number text := by
  have hdigits : ∀ l : List Char, (evenOut l).takeWhile Char.isDigit = l.takeWhile Char.isDigit := by
    intro l
    rw [takeWhile_evenOut isDigit_blind]
    exact evenOut_eq_self fun d hd => even_of_numeral (.inl (List.all_eq_true.mp List.all_takeWhile d hd))
  have hpoint : Unmistakable '.' := unmistakable_of_not_startsName (by decide) (by decide)
  unfold number
  rw [hdigits, dropWhile_evenOut isDigit_blind]
  cases text.dropWhile Char.isDigit with
  | nil => rfl
  | cons c rest =>
    by_cases hc : c = '.'
    · subst hc
      rw [evenOut_cons rfl]
      show sign .number (_ ++ '.' :: (evenOut rest).takeWhile Char.isDigit) = _
      rw [hdigits]
      rfl
    · split
      · rename_i heq
        obtain ⟨others, hothers⟩ := hpoint.starts heq
        exact absurd (List.cons.inj hothers).1 hc
      · split
        · rename_i heq
          exact absurd (List.cons.inj heq).1 hc
        · rfl

theorem evened_number (text : List Char) : (number text).evened = number text := by
  have hmem : ∀ d ∈ (number text).text, d.isDigit = true ∨ d = '.' := fun d hd => mem_number_text hd
  obtain ⟨taken, -, hsign, -⟩ := exists_number_eq_sign text
  rw [hsign] at hmem ⊢
  exact evened_sign (by decide) fun d hd => even_of_numeral (hmem d hd)

/-- A quoted text is read in every spelling, with its value evened out. -/
theorem string?_evenOut (rest : List Char) : string? (evenOut rest) = (string? rest).map evened := by
  have hquote : SpellingBlind (· != '"') := (unmistakable_of_not_startsName (by decide) (by decide)).blind_ne
  unfold string?
  rw [takeWhile_evenOut hquote, dropWhile_evenOut hquote]
  cases hclosing : rest.dropWhile (· != '"') with
  | nil => rfl
  | cons q behind =>
    have hq : (q != '"') = false := head?_dropWhile_eq_false _ rest q (by rw [hclosing]; rfl)
    have hinside : CleanCut (rest.takeWhile (· != '"')) ['"'] := .inr fun c hc => by
      cases hc
      rfl
    obtain ⟨others, hothers⟩ := exists_evenOut_cons q behind
    rw [hothers]
    simp only [Option.map_some, evened, Kind.evenValue, if_true, evenSpelling_ofList]
    rw [evenOut_cons rfl, evenOut_append hinside]
    rfl

theorem symbol_evenOut (c : Char) (rest : List Char) : symbol c (evenOut rest) = symbol c rest := by
  cases rest with
  | nil => rfl
  | cons d rest =>
    have hequals : evenChar d = '=' ↔ d = '=' :=
      (unmistakable_of_not_startsName (by decide) (by decide)).evenChar_eq_iff
    have hgreater : evenChar d = '>' ↔ d = '>' :=
      (unmistakable_of_not_startsName (by decide) (by decide)).evenChar_eq_iff
    obtain ⟨others, hothers⟩ := exists_evenOut_cons d rest
    rw [hothers]
    unfold symbol
    split <;> simp_all

theorem evened_symbol (hname : startsName c = false) (hspace : isSpace c = false) (rest : List Char) :
    (symbol c rest).evened = symbol c rest := by
  have hmem : ∀ d ∈ (symbol c rest).text, d = c ∨ d = '=' ∨ d = '>' := fun d hd => mem_symbol_text hd
  obtain ⟨k, text, hk, hsign⟩ := exists_symbol_eq_sign c rest
  rw [hsign] at hmem ⊢
  refine evened_sign (List.ne_of_not_mem_cons hk) fun d hd => ?_
  rcases hmem d hd with rfl | rfl | rfl
  · exact ⟨hspace, even_of_not_startsName hname hspace⟩
  · decide
  · decide

/-- The lexeme that is read in even spelling is the one that is read otherwise, in even spelling. -/
theorem read?_evenOut (hspace : isSpace c = false) (rest : List Char) :
    read? (evenChar c) (evenOut rest) = (read? c rest).map evened := by
  have hfeed : evenChar c = '\n' ↔ c = '\n' :=
    (unmistakable_of_not_startsName (by decide) (by decide)).evenChar_eq_iff
  have hquote : evenChar c = '"' ↔ c = '"' :=
    (unmistakable_of_not_startsName (by decide) (by decide)).evenChar_eq_iff
  unfold read?
  rw [startsName_blind c, startsNumber_evenOut]
  simp only [hfeed, hquote]
  split
  · rfl
  split
  · exact congrArg some (evened_word hspace rest)
  split
  · rw [← evenOut_cons hspace, number_evenOut, Option.map_some, evened_number]
  split
  · exact string?_evenOut rest
  · rename_i hname _ _
    rw [Bool.not_eq_true] at hname
    rw [even_of_not_startsName hname hspace, symbol_evenOut, Option.map_some,
      evened_symbol hname hspace]

/-- A lexeme ends in no run of spaces, unless it takes all of it. -/
theorem cleanCut_of_read {x : Lexeme} (hspace : isSpace c = false) (h : read? c rest = some x) :
    ∃ after, c :: rest = x.text ++ after ∧ CleanCut x.text after := by
  obtain ⟨after, htext, -⟩ := lexemeOf_read h
  refine ⟨after, htext, ?_⟩
  cases form_of_read h with
  | endLine hc =>
    refine .inl fun d hd => ?_
    cases hd
    rfl
  | word hc =>
    rw [word, List.cons_append] at htext
    have hafter : rest.dropWhile continuesName = after := by
      have hsplit := List.takeWhile_append_dropWhile (p := continuesName) (l := rest)
      exact List.append_cancel_left (hsplit.trans (List.cons.inj htext).2)
    rw [← hafter]
    refine .inr fun d hd => Bool.eq_false_iff.mpr fun hdspace => ?_
    have hstop := head?_dropWhile_eq_false continuesName rest d hd
    rw [continuesName_blind.eq_of_isSpace hdspace (d := ' ') rfl] at hstop
    exact absurd hstop (by decide)
  | number hc => exact .inl fun d hd => (even_of_numeral (mem_number_text (List.mem_of_getLast? hd))).1
  | string hc hinside hrest =>
    refine .inl fun d hd => ?_
    rw [← List.cons_append, List.getLast?_concat] at hd
    cases hd
    rfl
  | symbol hbreak hquote =>
    refine .inl fun d hd => ?_
    rcases mem_symbol_text (List.mem_of_getLast? hd) with rfl | rfl | rfl
    · exact hspace
    · rfl
    · rfl

end Lexeme

/-! ## Scans -/

/-- The scanner before the text in even spelling. -/
def Scanner.evened (s : Scanner) : Scanner := ⟨s.file, evenOut s.rest, s.line, s.seen⟩

/-- Behind a lexeme, what is left of the text in even spelling is what is left of the text, in even
spelling. -/
theorem drop_evened_text {c : Char} {rest : List Char} {x : Lexeme} (hspace : isSpace c = false)
    (h : Lexeme.read? c rest = some x) :
    (evenChar c :: evenOut rest).drop x.evened.text.length =
      evenOut ((c :: rest).drop x.text.length) := by
  obtain ⟨after, htext, hcut⟩ := Lexeme.cleanCut_of_read hspace h
  rw [← evenOut_cons hspace, htext, evenOut_append hcut, List.drop_left]
  exact List.drop_left

/-- One step: before a lexeme both scanners give the token of that lexeme, and go on at the same place. -/
theorem Scanner.evened_of_lexeme {s : Scanner} {c : Char} {rest : List Char} {x : Lexeme}
    (htext : (skipTrivia s.line s.rest).rest = c :: rest) (hread : Lexeme.read? c rest = some x) :
    s.evened.scan.result = s.step.next.evened.scan.result.map
      ((x.token s.file (skipTrivia s.line s.rest).line).evened :: ·) := by
  have hspace := isSpace_of_skipTrivia htext
  have hskip : skipTrivia s.evened.line s.evened.rest = _ := skipTrivia_evenOut s.line s.rest
  have heven : (skipTrivia s.evened.line s.evened.rest).rest = evenChar c :: evenOut rest := by
    rw [hskip, htext, evenOut_cons hspace]
  have hread' : Lexeme.read? (evenChar c) (evenOut rest) = some x.evened := by
    rw [Lexeme.read?_evenOut hspace, hread, Option.map_some]
  have hvalue : x.evened.value.toList.count '\n' = x.value.toList.count '\n' := count_evenValue _ _
  have hlines : x.evened.text.count '\n' = x.text.count '\n' := count_evenOut _
  have hscan := scan_of_lexeme heven hread'
  simp only [step_of_lexeme heven hread', Lexeme.token, drop_evened_text hspace hread, hskip, hvalue,
    hlines] at hscan
  rw [step_of_lexeme htext hread]
  exact hscan

/-- From the text in even spelling a scanner gets the tokens of the text. -/
theorem Scanner.scan_evened (s : Scanner) :
    s.evened.scan.result = s.scan.result.map (List.map Token.evened) := by
  induction s using scanInduction with
  | ended s htext =>
    have hskip : skipTrivia s.evened.line s.evened.rest = _ := skipTrivia_evenOut s.line s.rest
    rw [scan_of_end htext, scan_of_end (by rw [hskip, htext]; rfl), hskip]
    rfl
  | unclosed s c rest htext hread =>
    have hskip : skipTrivia s.evened.line s.evened.rest = _ := skipTrivia_evenOut s.line s.rest
    have hspace := isSpace_of_skipTrivia htext
    have heven : (skipTrivia s.evened.line s.evened.rest).rest = evenChar c :: evenOut rest := by
      rw [hskip, htext, evenOut_cons hspace]
    have hread' : Lexeme.read? (evenChar c) (evenOut rest) = none := by
      rw [Lexeme.read?_evenOut hspace, hread, Option.map_none]
    rw [scan_of_unclosed htext hread, scan_of_unclosed heven hread', hskip]
    rfl
  | lexeme s c rest x htext hread ih =>
    rw [scan_of_lexeme htext hread, evened_of_lexeme htext hread, ih]
    cases s.step.next.scan.result with
    | error d => rfl
    | ok tokens => rfl

/-- Neither the case of letters nor the amount of blank space matters to the scanner. From the source in
even spelling it gets tokens of the same kinds, on the same lines and with the same values, but for quoted
texts, whose values come out in even spelling; or it fails, for both sources on the same line. -/
theorem tokenize_evenSpelling (file source : String) :
    (tokenize file (evenSpelling source)).result =
      (tokenize file source).result.map (List.map Token.evened) := by
  have hsource : Scanner.ofSource file (evenSpelling source) = (Scanner.ofSource file source).evened := by
    rw [Scanner.ofSource, evenSpelling, String.toList_ofList, foldBreaks_evenOut]
    rfl
  rw [tokenize_eq_scan, tokenize_eq_scan, hsource]
  exact (Scanner.ofSource file source).scan_evened

example : evenSpelling "End\t If \r\n$X  :=\t\"A  \tB\"" = "end if \r\n$x := \"a b\"" := by decide

end Sigil
