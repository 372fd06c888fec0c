import Sigil.Program.Analysis
import Sigil.Proofs.Legibility
import Sigil.Proofs.Simulation

/-!
# Scripts can be called by their names

The name of a script in a file is made from the name of the file. The name in a call is made from a run of
characters that the scanner cuts out of a text, by rules of its own. The two meet: a script whose file is
called by something that can be a name is called by every spelling of that name.
-/

namespace Sigil

open Lexeme

/-! ## Names of files -/

theorem pieces_of_not_mem {sep : Char} {text : List Char} (h : sep ∉ text) : pieces sep text = [text] := by
  induction text with
  | nil => rfl
  | cons c text ih =>
    rw [List.mem_cons, not_or] at h
    rw [pieces, if_neg (Ne.symm h.1), ih h.2]

/-- A separator between two texts keeps their pieces apart. -/
theorem pieces_append (sep : Char) (before after : List Char) :
    pieces sep (before ++ sep :: after) = pieces sep before ++ pieces sep after := by
  induction before with
  | nil => simp [pieces]
  | cons c before ih =>
    rw [List.cons_append, pieces, pieces, ih]
    split
    · rfl
    · obtain ⟨piece, others, hpieces⟩ := List.exists_cons_of_ne_nil (pieces_ne_nil sep before)
      rw [hpieces]
      rfl

/-- A file is called by what follows the last slash of its path. -/
theorem fileName?_append {file : List Char} (hslash : '/' ∉ file) (hne : file ≠ [])
    (hdots : file ≠ ['.'] ∧ file ≠ ['.', '.']) (folder : List Char) :
    fileName? (folder ++ '/' :: file) = some file := by
  have hkept : [file].filter (fun p => p ≠ [] ∧ p ≠ ['.']) = [file] := by simp [hne, hdots.1]
  rw [fileName?, pieces_append, pieces_of_not_mem hslash, List.filter_append, hkept,
    List.getLast?_concat]
  exact if_neg hdots.2

/-- The stem of a file is its name up to the last point. -/
theorem stem_append {name extension : List Char} (hne : name ≠ []) (hpoint : '.' ∉ extension) :
    stem (name ++ '.' :: extension) = name := by
  have hreverse : (name ++ '.' :: extension).reverse = extension.reverse ++ '.' :: name.reverse := by simp
  have hdrop : (extension.reverse ++ '.' :: name.reverse).dropWhile (· != '.') = '.' :: name.reverse := by
    exact dropWhile_append_stop (bne_of_not_mem (mt List.mem_reverse.mp hpoint)) rfl
  obtain ⟨c, cs, hcs⟩ := List.exists_cons_of_ne_nil (mt List.reverse_eq_nil_iff.mp hne)
  rw [stem, hreverse, hdrop, hcs]
  show (c :: cs).reverse = name
  rw [← hcs, List.reverse_reverse]

/-! ## Names in calls -/

/-- The text is a spelling of a name or of a reserved word. -/
inductive NameText : List Char → Prop where
  | mk {c : Char} {cs : List Char} (hc : startsName c = true) (hcs : ∀ d ∈ cs, continuesName d = true) :
      NameText (c :: cs)

/-- What is written as a name is told by its characters. -/
theorem nameText_iff {text : List Char} :
    NameText text ↔ text.head?.any startsName = true ∧ text.tail.all continuesName = true := by
  constructor
  · rintro ⟨hc, hcs⟩
    exact ⟨hc, List.all_eq_true.mpr hcs⟩
  · rintro ⟨hhead, htail⟩
    rw [Option.any_eq_true] at hhead
    obtain ⟨c, hc, hstart⟩ := hhead
    obtain ⟨cs, rfl⟩ := List.head?_eq_some_iff.mp hc
    exact .mk hstart (List.all_eq_true.mp htail)

instance : DecidablePred NameText := fun _ => decidable_of_iff _ nameText_iff.symm

namespace NameText

variable {text : List Char}

theorem ne_nil (h : NameText text) : text ≠ [] := by
  cases h
  simp

/-- There is nothing in a name that it could not go on with. -/
theorem not_mem (h : NameText text) {d : Char} (hd : continuesName d = false) : d ∉ text := by
  cases h with
  | @mk c cs hc hcs =>
    have hfirst : continuesName c = true := by
      simp only [startsName, Bool.or_eq_true] at hc
      simp only [continuesName, isAlphanumeric, Bool.or_eq_true]
      rcases hc with halpha | hunderscore
      · exact .inl (.inl (.inl (.inl halpha)))
      · exact .inl (.inl (.inr hunderscore))
    have hall : ∀ e ∈ c :: cs, continuesName e = true := List.forall_mem_cons.mpr ⟨hfirst, hcs⟩
    intro hmem
    rw [hall d hmem] at hd
    cases hd

/-- A file with the name of a script is neither this directory nor the one above. -/
theorem ne_dots (h : NameText text) (more : List Char) : text ++ more ≠ ['.'] ∧ text ++ more ≠ ['.', '.'] := by
  have hpoint : '.' ∉ text := h.not_mem (by decide)
  obtain ⟨c, cs, rfl⟩ := List.exists_cons_of_ne_nil h.ne_nil
  rw [List.mem_cons, not_or] at hpoint
  constructor
  · intro heq
    exact hpoint.1 (List.cons.inj heq).1.symm
  · intro heq
    exact hpoint.1 (List.cons.inj heq).1.symm

/-- Before an opening parenthesis the whole text is read, as a name unless it is reserved. -/
theorem readFrom (h : NameText text) (hfree : reserved? (normalizeName (String.ofList text)) = none)
    (more : List Char) :
    ReadFrom ⟨.name, normalizeName (String.ofList text), text⟩ (text ++ '(' :: more) := by
  cases h with
  | @mk c cs hc hcs =>
    have hword : word c (cs ++ '(' :: more) = ⟨.name, normalizeName (String.ofList (c :: cs)), c :: cs⟩ := by
      simp only [word, takeWhile_append_stop hcs (by decide : continuesName '(' = false), hfree,
        Option.getD_none]
    rw [← hword]
    exact readFrom_word hc _

end NameText

/-- A lexeme on one line gives a token on that line. -/
theorem Scanner.scan_of_readFrom {x : Lexeme} {rest : List Char} (h : x.ReadFrom (x.text ++ rest))
    (htext : '\n' ∉ x.text) (hvalue : '\n' ∉ x.value.toList) (file : String) (line seen : Nat) :
    (Scanner.mk file (x.text ++ rest) line seen).scan.result =
      (Scanner.mk file rest line line).scan.result.map
        (Token.mk x.kind x.value (.lines file line line) :: ·) := by
  obtain ⟨c, tail, hcons, hskip, hread⟩ := h
  have hstart : (skipTrivia line (x.text ++ rest)).rest = c :: tail := by rw [hskip, hcons]
  have hscan := @Scanner.scan_of_lexeme ⟨file, x.text ++ rest, line, seen⟩ c tail x hstart hread
  have hnext := @Scanner.next_of_lexeme ⟨file, x.text ++ rest, line, seen⟩ c tail x rest hstart hread
    hcons.symm
  have hline : (skipTrivia line (x.text ++ rest)).line = line := by rw [hskip]
  simp only [hnext, Lexeme.token, hline, List.count_eq_zero_of_not_mem htext,
    List.count_eq_zero_of_not_mem hvalue, Nat.add_zero] at hscan
  exact hscan

/-- A sign of one character is read before any text. -/
theorem readFrom_sign {k : Kind} {c : Char} {rest : List Char} (hblank : isBlank c = false) (hslash : c ≠ '/')
    (hread : read? c rest = some (sign k [c])) : (sign k [c]).ReadFrom ([c] ++ rest) :=
  ⟨c, rest, rfl, fun line => skipTrivia_of_ne_slash (.inl hblank) hslash line rest, hread⟩

theorem scan_parens (file : String) :
    (Scanner.mk file ['(', ')'] 1 1).scan.result =
      .ok [⟨.openParen, "(", .lines file 1 1⟩, ⟨.closeParen, ")", .lines file 1 1⟩,
        .endOfInput file 1] := by
  have hopen : (Scanner.mk file ['(', ')'] 1 1).scan.result =
      (Scanner.mk file [')'] 1 1).scan.result.map (⟨.openParen, "(", .lines file 1 1⟩ :: ·) :=
    Scanner.scan_of_readFrom (readFrom_sign (by decide) (by decide) (by decide)) (by decide) (by decide)
      file 1 1
  have hclose : (Scanner.mk file [')'] 1 1).scan.result =
      (Scanner.mk file [] 1 1).scan.result.map (⟨.closeParen, ")", .lines file 1 1⟩ :: ·) :=
    Scanner.scan_of_readFrom (readFrom_sign (by decide) (by decide) (by decide)) (by decide) (by decide)
      file 1 1
  have hskip : skipTrivia 1 [] = ⟨[], [], 1⟩ := by rw [skipTrivia]
  have hend : (Scanner.mk file [] 1 1).scan.result = .ok [.endOfInput file 1] := by
    rw [Scanner.scan_of_end (by rw [hskip]), hskip]
  rw [hopen, hclose, hend]
  rfl

/-- The tokens of a call without arguments. -/
theorem tokenize_call {text : List Char} (h : NameText text)
    (hfree : reserved? (normalizeName (String.ofList text)) = none) (file : String) :
    (tokenize file (String.ofList (text ++ ['(', ')']))).result =
      .ok [⟨.name, normalizeName (String.ofList text), .lines file 1 1⟩,
        ⟨.openParen, "(", .lines file 1 1⟩, ⟨.closeParen, ")", .lines file 1 1⟩,
        .endOfInput file 1] := by
  have hreturn : '\r' ∉ text ++ ['(', ')'] := by
    simp [h.not_mem (by decide : continuesName '\r' = false)]
  have hvalue : '\n' ∉ (normalizeName (String.ofList text)).toList := fun hmem =>
    absurd (eq_space_of_isBlank_of_mem_normalizeName (by decide) hmem) (by decide)
  have hscan := Scanner.scan_of_readFrom (h.readFrom hfree [')']) (h.not_mem (by decide)) hvalue file 1 1
  rw [tokenize_eq_scan, Scanner.ofSource, String.toList_ofList, foldBreaks_of_not_mem hreturn]
  rw [scan_parens] at hscan
  exact hscan

/-- A script in a file whose name, without its extension, can be a name in scripts is called by every
spelling of that name. -/
theorem parse_call_of_stem (name spelling : List Char) (hname : NameText name)
    (hfree : reserved? (normalizeName (String.ofList name)) = none) (hspelling : NameText spelling)
    (hsame : normalizeName (String.ofList spelling) = normalizeName (String.ofList name)) :
    (∀ folder extension, '/' ∉ extension → '.' ∉ extension →
      (fileName? (folder ++ '/' :: (name ++ '.' :: extension))).map stem = some name) ∧
    ∀ path source file, (fileName? path.toList).map stem = some name →
      Script.parse ⟨file, String.ofList (spelling ++ ['(', ')'])⟩ =
        .ok (.mk [.expression (.call (Script.ofPath path source).name [] .undetermined (.lines file 1 1))
          (.lines file 1 1)] (.lines file 1 1)) := by
  constructor
  · intro folder extension hslash hpoint
    have hfile : '/' ∉ name ++ '.' :: extension := by
      simp [hname.not_mem (by decide : continuesName '/' = false), hslash]
    rw [fileName?_append hfile (by simp) (hname.ne_dots _), Option.map_some, stem_append hname.ne_nil hpoint]
  · intro path source file hstem
    have hcalled : (Script.ofPath path source).name = normalizeName (String.ofList name) := by
      rw [Script.ofPath, hstem]
      rfl
    rw [← hsame] at hfree
    rw [Script.parse, tokenize_call hspelling hfree, hcalled, ← hsame]
    rfl

/-- The file is called by two words. The first ends in a capital sigma and the second starts with a dotted
capital I, whose lower case are two characters. In the call they are spelled otherwise, with a tab between them
and a space behind them. -/
theorem parse_call_of_stem_two_words :
    let name := "ΟΔΟΣ  İx".toList
    let spelling := "οδος\tİX ".toList
    let path := "tools/ΟΔΟΣ  İx.prog"
    NameText name ∧ NameText spelling ∧
      normalizeName (String.ofList spelling) = normalizeName (String.ofList name) ∧
      (fileName? path.toList).map stem = some name ∧
      Script.parse ⟨"caller", String.ofList (spelling ++ ['(', ')'])⟩ =
        .ok (.mk [.expression (.call (Script.ofPath path "").name [] .undetermined (.lines "caller" 1 1))
          (.lines "caller" 1 1)] (.lines "caller" 1 1)) := by
  intro name spelling path
  have hfree : NameText name ∧ reserved? (normalizeName (String.ofList name)) = none := by decide +kernel
  have hspelling : NameText spelling ∧ normalizeName (String.ofList spelling) =
      normalizeName (String.ofList name) := by decide +kernel
  have hstem : (fileName? path.toList).map stem = some name := by decide +kernel
  obtain ⟨-, hparse⟩ := parse_call_of_stem name spelling hfree.1 hfree.2 hspelling.1 hspelling.2
  exact ⟨hfree.1, hspelling.1, hspelling.2, hstem, hparse path "" "caller" hstem⟩

end Sigil
