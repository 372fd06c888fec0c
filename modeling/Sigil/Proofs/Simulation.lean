import Mathlib.Data.List.TakeWhile
import Sigil.Proofs.NameForm
import Sigil.Proofs.Scanning

/-!
# The lexer keeps up with the scanner

The lexer reads the source as it was given, folds line breaks while it reads, and hands back what it has
read too much. The scanner has the folded text before it and takes whole lexemes from it. `Lexer.StandsAt`
says that a lexer has the same text before it as a scanner, be its first character handed back or not.

A lexer that stands at the place of a scanner reads the first character of the text
(`Lexer.StandsAt.read_cons`), so each of its loops takes the beginning of the text that it should
(`Lexer.StandsAt.readOn`), each rule the lexeme (`Lexer.StandsAt.name` and so on), and each token leaves it
at the place of the scanner again (`Lexer.next_agrees`). The tokens of a script are therefore those that
the scanner finds in the folded text (`tokenize_eq_scan`).
-/

namespace Sigil

/-! ## Single characters -/

/-- The lexer has the text of the scanner before it. -/
inductive Lexer.StandsAt (l : Lexer) (s : Scanner) : Prop where
  /-- All of that text is still in the source. -/
  | ahead (hback : l.handedBack = false) (hfile : l.file = s.file)
      (htext : foldBreaks l.source = s.rest) (hline : l.line = s.line) (hseen : l.seen = s.seen)
  /-- The first character of that text was handed back. -/
  | back (c : Char) (hback : l.handedBack = true) (hcurrent : l.current = some c)
      (hfile : l.file = s.file) (htext : c :: foldBreaks l.source = s.rest) (hline : l.seen = s.line)
      (hseen : l.seen = s.seen) (hnext : l.line = lineBehind s.line c)

namespace Lexer

variable {l : Lexer} {s : Scanner} {file : String} {c : Char} {text : List Char} {line seen : Nat}

/-- Lexer and scanner start at the same place. -/
theorem standsAt_ofSource (file source : String) :
    (ofSource file source).StandsAt (.ofSource file source) :=
  .ahead rfl rfl rfl rfl rfl

/-- Only the empty text is folded to the empty one. -/
theorem eq_nil_of_foldBreaks (h : foldBreaks text = []) : text = [] := by
  revert h
  fun_cases foldBreaks text <;> simp

/-- Line breaks are folded one by one as they are read. -/
theorem exists_read_eq_take (hback : l.handedBack = false) (hfold : foldBreaks l.source = c :: text) :
    ∃ source, l.read = l.take c source ∧ foldBreaks source = text := by
  unfold read
  rw [if_neg (by simp [hback])]
  split
  · rename_i hnil
    rw [hnil, foldBreaks] at hfold
    cases hfold
  · rename_i source hpair
    rw [hpair, foldBreaks] at hfold
    obtain ⟨rfl, rfl⟩ := List.cons.inj hfold
    exact ⟨source, rfl, rfl⟩
  · rename_i source hnext hreturn
    rw [hreturn, foldBreaks] at hfold
    · obtain ⟨rfl, rfl⟩ := List.cons.inj hfold
      exact ⟨source, rfl, rfl⟩
    · exact fun rest h => hnext rest (by rw [h])
  · rename_i d source hpair hreturn hcons
    rw [hcons, foldBreaks] at hfold
    · obtain ⟨rfl, rfl⟩ := List.cons.inj hfold
      exact ⟨source, rfl, rfl⟩
    · exact fun rest hd h => hreturn hd
    · exact fun hd => hreturn hd

namespace StandsAt

theorem file_eq (h : l.StandsAt s) : l.file = s.file := by
  cases h with
  | ahead _ hfile => exact hfile
  | back _ _ _ hfile => exact hfile

theorem seen_eq (h : l.StandsAt s) : l.seen = s.seen := by
  cases h with
  | ahead _ _ _ _ hseen => exact hseen
  | back _ _ _ _ _ _ hseen => exact hseen

theorem position_eq (h : l.StandsAt s) : l.position = s.position := by
  rw [position, Scanner.position, h.file_eq, h.seen_eq]

/-- The lexer that reads a character is behind it, and in front of it again after handing it back. -/
theorem read_cons (h : l.StandsAt ⟨file, c :: text, line, seen⟩) :
    l.read.1 = some c ∧ l.read.2.StandsAt ⟨file, text, lineBehind line c, line⟩ ∧
      l.read.2.unread.StandsAt ⟨file, c :: text, line, line⟩ := by
  cases h with
  | ahead hback hfile htext hline hseen =>
    obtain ⟨source, hread, rfl⟩ := exists_read_eq_take hback htext
    obtain rfl : l.line = line := hline
    rw [hread]
    exact ⟨rfl, .ahead rfl hfile rfl rfl rfl, .back c rfl rfl hfile rfl rfl rfl rfl⟩
  | back d hback hcurrent hfile htext hline hseen hnext =>
    -- The character is folded already, and its line was counted when it was read for the first time.
    obtain ⟨rfl, rfl⟩ := List.cons.inj htext
    have hread : l.read = (l.current, { l with handedBack := false }) := by
      rw [read, if_pos hback]
    rw [hread]
    exact ⟨hcurrent, .ahead rfl hfile rfl hnext hline,
      .back d rfl hcurrent hfile rfl hline hline hnext⟩

/-- At the end the lexer reads nothing, and stays there. -/
theorem read_nil (h : l.StandsAt ⟨file, [], line, seen⟩) :
    l.read.1 = none ∧ l.read.2.StandsAt ⟨file, [], line, line⟩ := by
  cases h with
  | ahead hback hfile htext hline hseen =>
    have hread : l.read = (none, { l with current := none, seen := l.line }) := by
      rw [read, if_neg (by simp [hback]), eq_nil_of_foldBreaks htext]
    rw [hread]
    exact ⟨rfl, .ahead hback hfile htext hline hline⟩
  | back d _ _ _ htext => cases htext

end StandsAt

/-! ## Runs of characters -/

/-- How far `go` lets a reader go in a text: the beginning that is taken, and what is left. -/
def splitRun {σ : Type} (go : σ → Char → Option σ) : σ → List Char → List Char × List Char
  | _, [] => ([], [])
  | state, c :: text =>
    match go state c with
    | none => ([], c :: text)
    | some state => (c :: (splitRun go state text).1, (splitRun go state text).2)

/-- The run has taken `taken` and has `rest` behind it, on the given line. -/
inductive Run.Ends (file : String) : Run → (taken rest : List Char) → (line : Nat) → Prop where
  /-- There is no more to read. -/
  | ended {taken : List Char} {line : Nat} {l : Lexer} (h : l.StandsAt ⟨file, [], line, line⟩) :
      Ends file ⟨taken, none, l⟩ taken [] line
  /-- The first character behind the run was read, and can be handed back. -/
  | stopped {taken rest : List Char} {c : Char} {line : Nat} {l : Lexer}
      (h : l.StandsAt ⟨file, rest, lineBehind line c, line⟩)
      (hback : l.unread.StandsAt ⟨file, c :: rest, line, line⟩) :
      Ends file ⟨taken, some c, l⟩ taken (c :: rest) line

namespace Run.Ends

variable {run : Run} {taken rest : List Char}

theorem taken_eq (h : run.Ends file taken rest line) : run.taken = taken := by
  cases h <;> rfl

theorem stop_eq (h : run.Ends file taken rest line) : run.stop = rest.head? := by
  cases h <;> rfl

theorem cons (h : run.Ends file taken rest line) (c : Char) :
    (Run.mk (c :: run.taken) run.stop run.lexer).Ends file (c :: taken) rest line := by
  cases h with
  | ended h => exact .ended h
  | stopped h hback => exact .stopped h hback

/-- What was read too much is handed back. -/
theorem handBack (h : run.Ends file taken rest line) :
    run.handBack.StandsAt ⟨file, rest, line, line⟩ := by
  cases h with
  | ended h => exact h
  | stopped h hback => exact hback

theorem of_end (h : run.Ends file taken [] line) : run.lexer.StandsAt ⟨file, [], line, line⟩ := by
  cases h with
  | ended h => exact h

theorem of_cons (h : run.Ends file taken (c :: rest) line) :
    run.lexer.StandsAt ⟨file, rest, lineBehind line c, line⟩ := by
  cases h with
  | stopped h hback => exact h

end Run.Ends

/-- A loop takes the beginning of the text that it should, and counts the lines in it. -/
theorem StandsAt.readOn {σ : Type} (go : σ → Char → Option σ) (state : σ)
    (h : l.StandsAt ⟨file, text, line, seen⟩) :
    (l.readOn go state).Ends file (splitRun go state text).1 (splitRun go state text).2
      (line + (splitRun go state text).1.count '\n') := by
  induction text generalizing l state line seen with
  | nil =>
    obtain ⟨hread, hend⟩ := h.read_nil
    unfold Lexer.readOn
    split
    · exact .ended hend
    · rename_i c hc
      rw [hread] at hc
      cases hc
  | cons c text ih =>
    obtain ⟨hread, hbehind, hback⟩ := h.read_cons
    unfold Lexer.readOn splitRun
    split
    · rename_i hc
      rw [hread] at hc
      cases hc
    · rename_i d hd
      rw [hread] at hd
      obtain rfl := Option.some.inj hd
      cases hgo : go state c with
      | none => exact .stopped hbehind hback
      | some state' =>
        have hrun := (ih state' hbehind).cons c
        rwa [lineBehind_add_count] at hrun

theorem splitRun_append {σ : Type} (go : σ → Char → Option σ) (state : σ) (text : List Char) :
    (splitRun go state text).1 ++ (splitRun go state text).2 = text := by
  fun_induction splitRun go state text with
  | case1 state => rfl
  | case2 state c text hgo => rfl
  | case3 state c text state' hgo ih => rw [List.cons_append, ih]

/-- What `go` never lets pass is not taken. -/
theorem not_mem_splitRun {σ : Type} {go : σ → Char → Option σ} (hc : ∀ state, go state c = none)
    (state : σ) (text : List Char) : c ∉ (splitRun go state text).1 := by
  fun_induction splitRun go state text with
  | case1 state => exact List.not_mem_nil
  | case2 state d text hgo => exact List.not_mem_nil
  | case3 state d text state' hgo ih =>
    rw [List.mem_cons, not_or]
    refine ⟨?_, ih⟩
    rintro rfl
    rw [hc state] at hgo
    cases hgo

/-- A loop over characters of one kind takes all of them up to the first of another kind. -/
theorem splitRun_predicate (p : Char → Bool) (text : List Char) :
    splitRun (fun _ c => if p c then some () else none) () text =
      (text.takeWhile p, text.dropWhile p) := by
  induction text with
  | nil => rfl
  | cons c text ih =>
    by_cases hc : p c = true
    · simp [splitRun, hc, ih]
    · simp [splitRun, hc]

theorem StandsAt.readWhile (p : Char → Bool) (h : l.StandsAt ⟨file, text, line, seen⟩) :
    (l.readWhile p).Ends file (text.takeWhile p) (text.dropWhile p)
      (line + (text.takeWhile p).count '\n') := by
  have hrun := h.readOn (fun _ c => if p c then some () else none) ()
  rwa [splitRun_predicate] at hrun

/-- A loop that never takes a line feed stays on its line. -/
theorem StandsAt.readWhile_of_line {p : Char → Bool} (hp : p '\n' = false)
    (h : l.StandsAt ⟨file, text, line, seen⟩) :
    (l.readWhile p).Ends file (text.takeWhile p) (text.dropWhile p) line := by
  have hline : '\n' ∉ text.takeWhile p := by
    intro hmem
    have := List.mem_takeWhile_imp hmem
    rw [hp] at this
    cases this
  have hrun := h.readWhile p
  rwa [List.count_eq_zero_of_not_mem hline] at hrun

end Lexer

/-! ## The rules for tokens -/

/-- The lexer has found what the scanner has found, and stands at its place. -/
structure Step.Agrees (found : Step Lexer) (step : Step Scanner) : Prop where
  comments : found.comments = step.comments
  result : found.result = step.result
  next : found.next.StandsAt step.next

/-- The step that takes the lexeme from the given line, before the text `after`. -/
def Lexeme.step (x : Lexeme) (file : String) (line : Nat) (after : List Char) : Step Scanner :=
  ⟨[], .ok (x.token file line),
    ⟨file, after, line + x.text.count '\n', line + x.value.toList.count '\n'⟩⟩

namespace Lexer

variable {l : Lexer} {file : String} {c : Char} {text after : List Char} {line seen : Nat} {x : Lexeme}

/-- The token of a lexeme that stays on its line. -/
theorem StandsAt.give (htext : '\n' ∉ x.text) (hvalue : '\n' ∉ x.value.toList)
    (h : l.StandsAt ⟨file, after, line, line⟩) :
    (l.give x.kind x.value line).Agrees (x.step file line after) := by
  have hresult : x.token file line = ⟨x.kind, x.value, .lines l.file line l.seen⟩ := by
    rw [Lexeme.token, List.count_eq_zero_of_not_mem hvalue, h.file_eq, h.seen_eq]
    rfl
  refine ⟨rfl, congrArg Except.ok hresult.symm, ?_⟩
  rw [Lexeme.step, List.count_eq_zero_of_not_mem htext, List.count_eq_zero_of_not_mem hvalue]
  exact h

/-- A name is what goes on as a name does. -/
theorem StandsAt.name (hc : startsName c = true) (h : l.StandsAt ⟨file, text, line, line⟩) :
    (l.name c).Agrees ((Lexeme.word c text).step file line (text.dropWhile continuesName)) := by
  have hrun := h.readWhile_of_line (p := continuesName) (by decide)
  have hbreak : '\n' ∉ (Lexeme.word c text).text := by
    rw [Lexeme.word, List.mem_cons, not_or]
    constructor
    · rintro rfl
      revert hc
      decide
    · intro hmem
      have := List.mem_takeWhile_imp hmem
      revert this
      decide
  have hvalue : '\n' ∉ (Lexeme.word c text).value.toList := by
    intro hmem
    exact absurd (eq_space_of_isBlank_of_mem_normalizeName (by decide) hmem) (by decide)
  have hgive := hrun.handBack.give hbreak hvalue
  simp only [Lexer.name, hrun.taken_eq, h.seen_eq]
  simp only [Lexeme.word] at hgive ⊢
  exact hgive

/-- A number with a point goes on with digits only. -/
theorem splitRun_digits (text : List Char) :
    splitRun continuesNumber true text = (text.takeWhile Char.isDigit, text.dropWhile Char.isDigit) := by
  induction text with
  | nil => rfl
  | cons c text ih =>
    by_cases hc : c.isDigit = true
    · simp [splitRun, continuesNumber, hc, ih]
    · simp [splitRun, continuesNumber, hc]

/-- A number without a point so far goes on over a point. -/
theorem splitRun_of_point {text rest : List Char} (h : text.dropWhile Char.isDigit = '.' :: rest) :
    (splitRun continuesNumber false text).1 =
      text.takeWhile Char.isDigit ++ '.' :: rest.takeWhile Char.isDigit := by
  induction text with
  | nil => cases h
  | cons c text ih =>
    by_cases hc : c.isDigit = true
    · rw [List.dropWhile_cons_of_pos hc] at h
      rw [List.takeWhile_cons_of_pos hc]
      simp only [splitRun, continuesNumber, hc, if_true, ih h, List.cons_append]
    · rw [List.dropWhile_cons_of_neg hc] at h
      cases h
      simp [splitRun, continuesNumber, splitRun_digits]

theorem splitRun_of_no_point {text : List Char}
    (h : ∀ rest, text.dropWhile Char.isDigit ≠ '.' :: rest) :
    (splitRun continuesNumber false text).1 = text.takeWhile Char.isDigit := by
  induction text with
  | nil => rfl
  | cons c text ih =>
    by_cases hc : c.isDigit = true
    · rw [List.dropWhile_cons_of_pos hc] at h
      rw [List.takeWhile_cons_of_pos hc]
      simp only [splitRun, continuesNumber, hc, if_true, ih h]
    · rw [List.dropWhile_cons_of_neg hc] at h
      have hpoint : c ≠ '.' := by
        rintro rfl
        exact h text rfl
      simp [splitRun, continuesNumber, hc, hpoint]

/-- The loop over a number and the lexeme of a number are made of the same characters. -/
theorem number_eq_sign (hc : c.isDigit = true ∨ c = '.') (text : List Char) :
    Lexeme.number (c :: text) =
      Lexeme.sign .number (c :: (splitRun continuesNumber (c == '.') text).1) := by
  rcases hc with hc | rfl
  · have hpoint : (c == '.') = false := by
      rw [beq_eq_false_iff_ne]
      rintro rfl
      revert hc
      decide
    rw [Lexeme.number, List.dropWhile_cons_of_pos hc, List.takeWhile_cons_of_pos hc, hpoint]
    split
    · next rest hrest => rw [splitRun_of_point hrest, List.cons_append]
    · next hrest => rw [splitRun_of_no_point hrest]
  · simp [Lexeme.number, splitRun_digits]

theorem not_mem_number (hc : c.isDigit = true ∨ c = '.') (state : Bool) (text : List Char) :
    '\n' ∉ c :: (splitRun continuesNumber state text).1 := by
  rw [List.mem_cons, not_or]
  constructor
  · rintro rfl
    revert hc
    decide
  · exact not_mem_splitRun (fun state => by cases state <;> rfl) state text

/-- A number is what the loop over digits and a point takes. -/
theorem StandsAt.number (hc : c.isDigit = true ∨ c = '.') (h : l.StandsAt ⟨file, text, line, line⟩) :
    (l.number c).Agrees ((Lexeme.number (c :: text)).step file line
      (splitRun continuesNumber (c == '.') text).2) := by
  have hrun := h.readOn continuesNumber (c == '.')
  have hbreak := not_mem_number hc (c == '.') text
  rw [List.count_eq_zero_of_not_mem fun hmem => hbreak (List.mem_cons_of_mem c hmem)] at hrun
  rw [number_eq_sign hc]
  simp only [Lexer.number, hrun.taken_eq, h.seen_eq]
  exact hrun.handBack.give (x := .sign .number _) hbreak (by rwa [Lexeme.sign, String.toList_ofList])

/-- A quoted text goes up to the next quote, over line breaks. -/
theorem StandsAt.string {inside behind : List Char} (hinside : '"' ∉ inside)
    (h : l.StandsAt ⟨file, inside ++ '"' :: behind, line, line⟩) :
    l.string.Agrees (Lexeme.step ⟨.string, String.ofList inside, '"' :: (inside ++ ['"'])⟩ file line
      behind) := by
  have hplain := bne_of_not_mem hinside
  have hrun := h.readWhile (· != '"')
  rw [takeWhile_append_stop hplain (by decide), dropWhile_append_stop hplain (by decide)] at hrun
  have hstop : (l.readWhile (· != '"')).stop = some '"' := hrun.stop_eq
  have hnext := hrun.of_cons
  unfold Lexer.string
  simp only [hstop, hrun.taken_eq]
  refine ⟨rfl, ?_, ?_⟩
  · simp only [Lexer.give, Lexeme.step, Lexeme.token, hnext.file_eq, hnext.seen_eq, h.seen_eq,
      String.toList_ofList]
  · simpa [Lexer.give, Lexeme.step, lineBehind] using hnext

/-- A quoted text that is never closed takes all that is left, and is complained about where it starts. -/
theorem StandsAt.string_of_unclosed (hquote : '"' ∉ text) (h : l.StandsAt ⟨file, text, line, line⟩) :
    l.string.Agrees ⟨[], .error ⟨.unterminatedString, ⟨line, file⟩⟩,
      ⟨file, [], line + text.count '\n', line + text.count '\n'⟩⟩ := by
  have hplain := bne_of_not_mem hquote
  have hrun := h.readWhile (· != '"')
  rw [List.takeWhile_eq_self_iff.mpr hplain, List.dropWhile_eq_nil_iff.mpr hplain] at hrun
  have hstop : (l.readWhile (· != '"')).stop = none := hrun.stop_eq
  unfold Lexer.string
  simp only [hstop]
  refine ⟨rfl, ?_, hrun.of_end⟩
  rw [h.seen_eq, h.file_eq]

/-! ## Signs -/

/-- What the sign `c` is before a text, and what it leaves of that text. -/
def Sign.of (c : Char) (text : List Char) : Sign × List Char :=
  match text.head?.bind fun d => (Sign.before c).lookup d with
  | some sign => (sign, text.tail)
  | none => (Sign.alone c, text)

theorem StandsAt.follows_of_eq (h : l.StandsAt ⟨file, c :: text, line, line⟩) :
    (l.follows c).1 = true ∧ (l.follows c).2.StandsAt ⟨file, text, lineBehind line c, line⟩ := by
  obtain ⟨hread, hbehind, -⟩ := h.read_cons
  simp only [follows, hread, if_true]
  exact ⟨trivial, hbehind⟩

/-- What does not follow stays where it is. -/
theorem StandsAt.follows_of_ne (hne : text.head? ≠ some c) (h : l.StandsAt ⟨file, text, line, line⟩) :
    (l.follows c).1 = false ∧ (l.follows c).2.StandsAt ⟨file, text, line, line⟩ := by
  cases text with
  | nil =>
    obtain ⟨hread, hend⟩ := h.read_nil
    simp only [follows, hread]
    exact ⟨trivial, hend⟩
  | cons d text =>
    have hd : d ≠ c := fun hd => hne (congrArg some hd)
    obtain ⟨hread, -, hback⟩ := h.read_cons
    simp only [follows, hread, hd, if_false]
    exact ⟨trivial, hback⟩

/-- Of the continuations of a sign the one is chosen that comes next in the text, if any. -/
theorem StandsAt.choose {options : List (Char × Sign)} (hoptions : ∀ o ∈ options, o.1 ≠ '\n')
    (otherwise : Sign) (h : l.StandsAt ⟨file, text, line, line⟩) :
    match text.head?.bind fun d => options.lookup d with
    | some sign => (choose otherwise options l).1 = sign ∧
        (choose otherwise options l).2.StandsAt ⟨file, text.tail, line, line⟩
    | none => (choose otherwise options l).1 = otherwise ∧
        (choose otherwise options l).2.StandsAt ⟨file, text, line, line⟩ := by
  induction options generalizing l with
  | nil =>
    have hnone : (text.head?.bind fun d => List.lookup d ([] : List (Char × Sign))) = none := by
      cases text <;> rfl
    rw [hnone]
    exact ⟨rfl, h⟩
  | cons o options ih =>
    obtain ⟨d, sign⟩ := o
    obtain ⟨hd, hothers⟩ := List.forall_mem_cons.mp hoptions
    by_cases hfirst : text.head? = some d
    · obtain ⟨rest, rfl⟩ := List.head?_eq_some_iff.mp hfirst
      obtain ⟨hfollows, hbehind⟩ := h.follows_of_eq
      rw [lineBehind, if_neg hd] at hbehind
      simp only [Lexer.choose, hfollows, if_true]
      simpa using hbehind
    · obtain ⟨hfollows, hstays⟩ := h.follows_of_ne hfirst
      have hlookup : (text.head?.bind fun e => List.lookup e ((d, sign) :: options)) =
          text.head?.bind fun e => options.lookup e := by
        cases text with
        | nil => rfl
        | cons e text =>
          have hne : (e == d) = false := beq_eq_false_iff_ne.mpr fun he => hfirst (congrArg some he)
          simp only [List.head?_cons, Option.bind_some, List.lookup_cons, hne]
      rw [hlookup]
      simp only [Lexer.choose, hfollows]
      exact ih hothers hstays

/-- The lexer tells a sign by the characters of the folded text. -/
theorem StandsAt.sign (c : Char) (h : l.StandsAt ⟨file, text, line, line⟩) :
    (l.sign c).1 = (Sign.of c text).1 ∧
      (l.sign c).2.StandsAt ⟨file, (Sign.of c text).2, line, line⟩ := by
  have hbefore : ∀ o ∈ Sign.before c, o.1 ≠ '\n' := by
    unfold Sign.before
    split <;> simp
  have hchoose := h.choose hbefore (Sign.alone c)
  unfold Sign.of
  split at hchoose <;> exact hchoose

/-- A sign stands by itself if none of its continuations comes next. -/
theorem Sign.of_eq_alone (h : ∀ o ∈ Sign.before c, ∀ rest, text ≠ o.1 :: rest) :
    Sign.of c text = (Sign.alone c, text) := by
  have hnone : (text.head?.bind fun d => (Sign.before c).lookup d) = none := by
    cases text with
    | nil => rfl
    | cons d text =>
      refine List.lookup_eq_none_iff.mpr fun o ho => ?_
      rw [bne_iff_ne]
      rintro rfl
      exact h o ho text rfl
  rw [Sign.of, hnone]

/-- Unless it opens a comment, a sign makes the same token for the lexer as for the scanner. -/
theorem Sign.of_eq_symbol (hline : ∀ rest, c = '/' → text = '/' :: rest → False)
    (hblock : ∀ rest, c = '/' → text = '*' :: rest → False) :
    Sign.of c text = (.token (Lexeme.symbol c text).kind (Lexeme.symbol c text).value,
      (c :: text).drop (Lexeme.symbol c text).text.length) := by
  fun_cases Lexeme.symbol c text with
  | case1 | case2 | case3 | case4 | case5 | case6 => exact of_eq_alone (List.forall_mem_nil _)
  | case7 | case9 | case10 | case11 | case12 => rfl
  | case8 text hassign =>
    exact of_eq_alone (List.forall_mem_singleton.mpr fun rest h => hassign rest h)
  | case13 c text hopen hclose hcurly hcurly' hsemicolon hdollar hcolon _ hdiamond hle hge hne =>
    have hbefore : ∀ o ∈ Sign.before c, ∀ rest, text ≠ o.1 :: rest := by
      unfold Sign.before
      split
      · exact absurd rfl hcolon
      · exact List.forall_mem_cons.mpr ⟨fun rest => hdiamond rest rfl,
          List.forall_mem_singleton.mpr fun rest => hle rest rfl⟩
      · exact List.forall_mem_singleton.mpr fun rest => hge rest rfl
      · exact List.forall_mem_singleton.mpr fun rest => hne rest rfl
      · exact List.forall_mem_cons.mpr ⟨fun rest => hline rest rfl,
          List.forall_mem_singleton.mpr fun rest => hblock rest rfl⟩
      · exact List.forall_mem_nil _
    have halone : Sign.alone c = .token .operator (String.ofList [c]) := by
      rw [Sign.alone] <;> assumption
    rw [of_eq_alone hbefore, halone]
    rfl

/-- Only two slashes, or a slash and a star, open a comment. -/
theorem Sign.of_eq_comment {long : Bool} (h : (Sign.of c text).1 = .comment long) :
    c = '/' ∧ text = (if long then '*' else '/') :: (Sign.of c text).2 := by
  by_cases hline : ∃ rest, c = '/' ∧ text = '/' :: rest
  · obtain ⟨rest, rfl, rfl⟩ := hline
    obtain rfl : false = long := Sign.comment.inj h
    exact ⟨rfl, rfl⟩
  by_cases hblock : ∃ rest, c = '/' ∧ text = '*' :: rest
  · obtain ⟨rest, rfl, rfl⟩ := hblock
    obtain rfl : true = long := Sign.comment.inj h
    exact ⟨rfl, rfl⟩
  · rw [of_eq_symbol (fun rest hc ht => hline ⟨rest, hc, ht⟩)
      (fun rest hc ht => hblock ⟨rest, hc, ht⟩)] at h
    cases h

theorem Lexeme.exists_symbol_text (hc : c ≠ '\n') (text : List Char) :
    ∃ after, c :: text = (Lexeme.symbol c text).text ++ after ∧
      '\n' ∉ (Lexeme.symbol c text).value.toList ∧ '\n' ∉ (Lexeme.symbol c text).text := by
  unfold Lexeme.symbol
  split
  all_goals refine ⟨_, rfl, ?_⟩
  all_goals simp [Lexeme.sign, hc.symm]

/-! ## Comments -/

/-- A long comment is read up to the slash of its closing, or to the end. -/
theorem splitRun_comment {previous : Option Char} (text : List Char)
    (h : previous = some '*' → ∀ rest, text ≠ '/' :: rest) :
    (∃ behind, (splitRun continuesComment previous text).2 = '/' :: behind ∧
      blockComment text = ((splitRun continuesComment previous text).1 ++ ['/'], behind)) ∨
    ((splitRun continuesComment previous text).2 = [] ∧
      blockComment text = ((splitRun continuesComment previous text).1, [])) := by
  fun_induction blockComment text generalizing previous with
  | case1 => exact .inr ⟨rfl, rfl⟩
  | case2 rest =>
    have hstar : continuesComment previous '*' = some (some '*') := by
      simp [continuesComment]
    have hslash : continuesComment (some '*') '/' = none := by simp [continuesComment]
    refine .inl ⟨rest, ?_, ?_⟩ <;> simp [splitRun, hstar, hslash]
  | case3 c rest hclosing ih =>
    -- The loop remembers one character, and the hypothesis is that this one and the next close nothing.
    have hgo : continuesComment previous c = some (some c) := by
      rw [continuesComment, if_neg]
      rintro ⟨hprevious, rfl⟩
      exact h hprevious rest rfl
    have hnext : some c = some '*' → ∀ behind, rest ≠ '/' :: behind :=
      fun hc behind => hclosing behind (Option.some.inj hc)
    rcases ih hnext with ⟨behind, hrest, hcomment⟩ | ⟨hrest, hcomment⟩
    · exact .inl ⟨behind, by simp [splitRun, hgo, hrest], by simp [splitRun, hgo, hcomment]⟩
    · exact .inr ⟨by simp [splitRun, hgo, hrest], by simp [splitRun, hgo, hcomment]⟩

/-- Behind a long comment the lexer has the text that the scanner goes on with. -/
theorem StandsAt.skipLongComment (h : l.StandsAt ⟨file, text, line, line⟩) :
    ∃ seen, (l.skipComment true).StandsAt
      ⟨file, (blockComment text).2, line + (blockComment text).1.count '\n', seen⟩ := by
  have hrun := h.readOn continuesComment none
  have hstart : (none : Option Char) = some '*' → ∀ rest, text ≠ '/' :: rest := fun h => by cases h
  rcases splitRun_comment text hstart with ⟨behind, hrest, hcomment⟩ | ⟨hrest, hcomment⟩
  · rw [hrest] at hrun
    rw [hcomment, List.count_append]
    exact ⟨_, hrun.of_cons⟩
  · rw [hrest] at hrun
    rw [hcomment]
    exact ⟨_, hrun.of_end⟩

/-- A short comment leaves the end of its line to be read. -/
theorem StandsAt.skipShortComment (h : l.StandsAt ⟨file, text, line, line⟩) :
    (l.skipComment false).StandsAt ⟨file, text.dropWhile (· != '\n'), line, line⟩ :=
  (h.readWhile_of_line (p := (· != '\n')) (by decide)).handBack

end Lexer

/-! ## Tokens -/

namespace Scanner

variable {s : Scanner} {c : Char} {text rest after : List Char} {x : Lexeme}

/-- The step to a lexeme that stands behind nothing but blanks. -/
theorem step_eq_lexeme (hstart : s.rest.dropWhile isFiller = c :: text)
    (hline : ∀ rest, c = '/' → text = '/' :: rest → False)
    (hblock : ∀ rest, c = '/' → text = '*' :: rest → False)
    (hread : Lexeme.read? c text = some x) (hafter : c :: text = x.text ++ after) :
    s.step = x.step s.file s.line after := by
  have hc : isFiller c = false := head?_dropWhile_eq_false isFiller s.rest c (by rw [hstart]; rfl)
  have hskip : skipTrivia s.line s.rest = ⟨[], c :: text, s.line⟩ := by
    rw [skipTrivia_dropWhile, hstart, skipTrivia_of_start hc hline hblock]
  rw [step_of_lexeme (by rw [hskip]) hread, hskip, hafter, List.drop_left]
  rfl

end Scanner

/-- What is found behind a comment is found before it, and the comment with it. -/
theorem Step.Agrees.behind_comment {found : Step Lexer} {s next : Scanner} (h : found.Agrees next.step)
    (hfile : next.file = s.file)
    (hskip : skipTrivia s.line s.rest = ⟨s.line :: (skipTrivia next.line next.rest).comments,
      (skipTrivia next.line next.rest).rest, (skipTrivia next.line next.rest).line⟩) :
    Step.Agrees ⟨s.line :: found.comments, found.result, found.next⟩ s.step := by
  have hstep : s.step = ⟨s.line :: next.step.comments, next.step.result, next.step.next⟩ := by
    simp only [Scanner.step, hskip, hfile]
    split
    · rfl
    · split <;> rfl
  rw [hstep]
  exact ⟨congrArg _ h.comments, h.result, h.next⟩

namespace Lexer

variable {l : Lexer} {s : Scanner} {file : String} {c : Char} {text : List Char} {line seen : Nat}

theorem head?_foldBreaks_any_isDigit (source : List Char) :
    (foldBreaks source).head?.any Char.isDigit = source.head?.any Char.isDigit := by
  fun_cases foldBreaks source <;> rfl

/-- A digit is told by the source as it was given: no line break is folded into one. -/
theorem StandsAt.nextIsDigit (hback : l.handedBack = false)
    (h : l.StandsAt ⟨file, text, line, seen⟩) : l.nextIsDigit = text.head?.any Char.isDigit := by
  cases h with
  | ahead _ _ htext =>
    obtain rfl : foldBreaks l.source = text := htext
    rw [head?_foldBreaks_any_isDigit, Lexer.nextIsDigit, hback]
    rfl
  | back d htrue =>
    rw [hback] at htrue
    cases htrue

/-- Behind the blanks the lexer reads the character with which the next token starts. -/
theorem StandsAt.exists_start (h : l.StandsAt s) (hstop : (l.readWhile isFiller).stop = some c) :
    ∃ text, s.rest.dropWhile isFiller = c :: text ∧
      (l.readWhile isFiller).lexer.StandsAt ⟨s.file, text, lineBehind s.line c, s.line⟩ := by
  have hrun : (l.readWhile isFiller).Ends s.file _ (s.rest.dropWhile isFiller) s.line :=
    h.readWhile_of_line (by decide)
  rw [hrun.stop_eq] at hstop
  obtain ⟨text, htext⟩ := List.head?_eq_some_iff.mp hstop
  rw [htext] at hrun
  exact ⟨text, htext, hrun.of_cons⟩

theorem lineBehind_of_ne (hc : c ≠ '\n') (line : Nat) : lineBehind line c = line := if_neg hc

/-- The end of a line is left behind, but is still the last that was seen. -/
theorem agrees_endLine (hstart : s.rest.dropWhile isFiller = '\n' :: text)
    (h : l.StandsAt ⟨s.file, text, s.line + 1, s.line⟩) :
    (l.give .endLine "\\n" s.line).Agrees s.step := by
  have hread : Lexeme.read? '\n' text = some .endLine := rfl
  rw [Scanner.step_eq_lexeme hstart (by simp) (by simp) hread rfl]
  refine ⟨rfl, ?_, h⟩
  simp only [Lexer.give, Lexeme.step, Lexeme.token, h.file_eq, h.seen_eq]
  rfl

theorem agrees_name (hstart : s.rest.dropWhile isFiller = c :: text) (hbreak : c ≠ '\n')
    (hname : startsName c = true) (h : l.StandsAt ⟨s.file, text, s.line, s.line⟩) :
    (l.name c).Agrees s.step := by
  have hslash : c ≠ '/' := by
    rintro rfl
    revert hname
    decide
  have hread : Lexeme.read? c text = some (Lexeme.word c text) := by
    rw [Lexeme.read?, if_neg hbreak, if_pos hname]
  have hafter : c :: text = (Lexeme.word c text).text ++ text.dropWhile continuesName := by
    simp [Lexeme.word]
  rw [Scanner.step_eq_lexeme hstart (fun _ hc _ => hslash hc) (fun _ hc _ => hslash hc) hread hafter]
  exact h.name hname

/-- A number, with or without a point. -/
theorem agrees_number (hstart : s.rest.dropWhile isFiller = c :: text) (hbreak : c ≠ '\n')
    (hname : ¬ startsName c = true) (hnumber : Lexeme.startsNumber c text = true)
    (h : l.StandsAt ⟨s.file, text, s.line, s.line⟩) : (l.number c).Agrees s.step := by
  have hc : c.isDigit = true ∨ c = '.' := by
    rw [Lexeme.startsNumber, Bool.or_eq_true, Bool.and_eq_true, beq_iff_eq] at hnumber
    exact hnumber.imp_right And.left
  have hslash : c ≠ '/' := by
    rintro rfl
    revert hc
    decide
  have hread : Lexeme.read? c text = some (Lexeme.number (c :: text)) := by
    rw [Lexeme.read?, if_neg hbreak, if_neg hname, if_pos hnumber]
  have hafter : c :: text = (Lexeme.number (c :: text)).text ++
      (splitRun continuesNumber (c == '.') text).2 := by
    rw [number_eq_sign hc, Lexeme.sign, List.cons_append, splitRun_append]
  rw [Scanner.step_eq_lexeme hstart (fun _ hc _ => hslash hc) (fun _ hc _ => hslash hc) hread hafter]
  exact h.number hc

/-- A quoted text, closed or not. -/
theorem agrees_string (hstart : s.rest.dropWhile isFiller = '"' :: text)
    (h : l.StandsAt ⟨s.file, text, s.line, s.line⟩) : l.string.Agrees s.step := by
  have hquote : Lexeme.read? '"' text = Lexeme.string? text := rfl
  by_cases hmem : '"' ∈ text
  · obtain ⟨inside, behind, rfl, hinside⟩ := List.eq_append_cons_of_mem hmem
    have hread := Lexeme.string?_eq_some_iff.mpr ⟨inside, behind, hinside, rfl, rfl⟩
    have hafter : '"' :: (inside ++ '"' :: behind) = '"' :: (inside ++ ['"']) ++ behind := by simp
    rw [Scanner.step_eq_lexeme hstart (by simp) (by simp) (hquote.trans hread) hafter]
    exact h.string hinside
  · have hskip : skipTrivia s.line s.rest = ⟨[], '"' :: text, s.line⟩ := by
      rw [skipTrivia_dropWhile, hstart, skipTrivia_of_start (by decide) (by simp) (by simp)]
    have hread : Lexeme.string? text = none := by
      rw [Option.eq_none_iff_forall_ne_some]
      intro x hx
      obtain ⟨inside, behind, -, rfl, -⟩ := Lexeme.string?_eq_some_iff.mp hx
      exact hmem (by simp)
    rw [Scanner.step_of_unclosed (by rw [hskip]) (hquote.trans hread), hskip]
    exact h.string_of_unclosed hmem

/-- A sign that opens no comment. -/
theorem agrees_symbol {kind : Kind} {value : String} (hstart : s.rest.dropWhile isFiller = c :: text)
    (hread : Lexeme.read? c text = some (Lexeme.symbol c text)) (hbreak : c ≠ '\n')
    (hsign : (Sign.of c text).1 = .token kind value)
    (h : l.StandsAt ⟨s.file, (Sign.of c text).2, s.line, s.line⟩) :
    (l.give kind value s.line).Agrees s.step := by
  have hline : ∀ rest, c = '/' → text = '/' :: rest → False := by
    rintro rest rfl rfl
    cases hsign
  have hblock : ∀ rest, c = '/' → text = '*' :: rest → False := by
    rintro rest rfl rfl
    cases hsign
  obtain ⟨after, hafter, hvalue, htext⟩ := Lexeme.exists_symbol_text hbreak text
  rw [Sign.of_eq_symbol hline hblock] at hsign h
  obtain ⟨rfl, rfl⟩ := Sign.token.inj hsign
  rw [Scanner.step_eq_lexeme hstart hline hblock hread hafter]
  simp only [hafter, List.drop_left] at h
  exact h.give htext hvalue

/-- A comment, behind which `found` is the next token. -/
theorem agrees_comment {long : Bool} (hstart : s.rest.dropWhile isFiller = c :: text)
    (hsign : (Sign.of c text).1 = .comment long)
    (h : l.StandsAt ⟨s.file, (Sign.of c text).2, s.line, s.line⟩)
    (ih : ∀ s, (l.skipComment long).StandsAt s → (l.skipComment long).next.Agrees s.step) :
    Step.Agrees ⟨s.line :: (l.skipComment long).next.comments, (l.skipComment long).next.result,
      (l.skipComment long).next.next⟩ s.step := by
  obtain ⟨rfl, htext⟩ := Sign.of_eq_comment hsign
  -- With the rest named, the text is the opening and the rest, and the scanner passes over that.
  generalize (Sign.of '/' text).2 = rest at h htext
  subst htext
  have hskip := skipTrivia_dropWhile s.line s.rest
  rw [hstart] at hskip
  cases long with
  | false =>
    rw [if_neg (by simp), skipTrivia] at hskip
    exact (ih _ h.skipShortComment).behind_comment rfl hskip
  | true =>
    rw [if_pos rfl, skipTrivia] at hskip
    obtain ⟨seen, hl⟩ := h.skipLongComment
    exact (ih _ hl).behind_comment rfl hskip

/-- The lexer makes the token that the scanner finds, and stands at its place again. -/
theorem next_agrees (l : Lexer) (s : Scanner) (h : l.StandsAt s) : l.next.Agrees s.step := by
  -- The lexer starts again behind each comment, while the scanner passes over all of them in one step.
  fun_induction Lexer.next l generalizing s with
  | case1 l blanks start hstop =>
    have hrun : blanks.Ends s.file _ (s.rest.dropWhile isFiller) s.line :=
      h.readWhile_of_line (by decide)
    rw [hrun.stop_eq, List.head?_eq_none_iff] at hstop
    have hskip : skipTrivia s.line s.rest = ⟨[], [], s.line⟩ := by
      rw [skipTrivia_dropWhile, hstop, skipTrivia]
    rw [hstop] at hrun
    have hend := hrun.of_end
    rw [Scanner.step_of_end (by rw [hskip]), hskip]
    refine ⟨rfl, ?_, hend⟩
    have hseen : start = s.line := hend.seen_eq
    simp only [Lexer.give, Token.endOfInput, hend.file_eq, hend.seen_eq, hseen]
  | case2 l blanks start hstop =>
    obtain ⟨text, hstart, hl⟩ := h.exists_start hstop
    have hseen : start = s.line := hl.seen_eq
    rw [hseen]
    exact agrees_endLine hstart hl
  | case3 l blanks c hstop hbreak hname =>
    obtain ⟨text, hstart, hl⟩ := h.exists_start hstop
    rw [lineBehind_of_ne hbreak] at hl
    exact agrees_name hstart hbreak hname hl
  | case4 l blanks c hstop hbreak hname hnumber =>
    obtain ⟨text, hstart, hl⟩ := h.exists_start hstop
    have hdigit : blanks.lexer.nextIsDigit = _ := hl.nextIsDigit (handedBack_readOn _ _ _)
    rw [hdigit] at hnumber
    rw [lineBehind_of_ne hbreak] at hl
    exact agrees_number hstart hbreak hname hnumber hl
  | case5 l blanks hstop hbreak hname hnumber =>
    obtain ⟨text, hstart, hl⟩ := h.exists_start hstop
    exact agrees_string hstart hl
  | case6 l blanks start c hstop hbreak hname hnumber hquote found kind value hsign =>
    obtain ⟨text, hstart, hl⟩ := h.exists_start hstop
    have hdigit : blanks.lexer.nextIsDigit = _ := hl.nextIsDigit (handedBack_readOn _ _ _)
    have hnumber' : ¬ Lexeme.startsNumber c text = true := by rwa [hdigit] at hnumber
    have hread : Lexeme.read? c text = some (Lexeme.symbol c text) := by
      rw [Lexeme.read?, if_neg hbreak, if_neg hname, if_neg hnumber', if_neg hquote]
    rw [lineBehind_of_ne hbreak] at hl
    obtain ⟨hfound, hrest⟩ := hl.sign c
    have hseen : start = s.line := hl.seen_eq
    rw [hseen]
    exact agrees_symbol hstart hread hbreak (hfound.symm.trans hsign) hrest
  | case7 l blanks start c hstop hbreak hname hnumber hquote found long hsign step ih =>
    obtain ⟨text, hstart, hl⟩ := h.exists_start hstop
    rw [lineBehind_of_ne hbreak] at hl
    obtain ⟨hfound, hrest⟩ := hl.sign c
    have hseen : start = s.line := hl.seen_eq
    rw [hseen]
    exact agrees_comment hstart (hfound.symm.trans hsign) hrest ih

/-! ## Whole scripts -/

/-- The equation of a scan, without the proofs that it ends. -/
theorem scan_eq (l : Lexer) :
    l.scan = match l.next.result with
      | .error d => ⟨l.next.comments, .error d⟩
      | .ok token =>
        if token.kind = .endOfInput then ⟨l.next.comments, .ok [token]⟩
        else ⟨l.next.comments ++ l.next.next.scan.comments,
          l.next.next.scan.result.map (token :: ·)⟩ := by
  rw [Lexer.scan]
  split
  · rename_i d hd
    rw [hd]
  · rename_i token ht
    rw [ht]
    simp only [dite_eq_ite]

/-- From the same place on the lexer finds the same tokens as the scanner. -/
theorem StandsAt.scan (h : l.StandsAt s) : l.scan = s.scan := by
  induction s using Scanner.scanInduction generalizing l with
  | ended s htext =>
    obtain ⟨hcomments, hresult, -⟩ := l.next_agrees s h
    rw [scan_eq, Scanner.scan_eq, hcomments, hresult, Scanner.step_of_end htext]
    rfl
  | unclosed s c rest htext hread =>
    obtain ⟨hcomments, hresult, -⟩ := l.next_agrees s h
    rw [scan_eq, Scanner.scan_eq, hcomments, hresult, Scanner.step_of_unclosed htext hread]
  | lexeme s c rest x htext hread ih =>
    obtain ⟨hcomments, hresult, hnext⟩ := l.next_agrees s h
    rw [scan_eq, Scanner.scan_eq, hcomments, hresult, ih hnext, Scanner.step_of_lexeme htext hread]

end Lexer

/-- The tokens of a script are those that the scanner finds in its text with line breaks folded. -/
theorem tokenize_eq_scan (file source : String) :
    tokenize file source = (Scanner.ofSource file source).scan :=
  (Lexer.standsAt_ofSource file source).scan

theorem scan_of_tokenize {file source : String} {tokens : List Token}
    (h : (tokenize file source).result = .ok tokens) :
    (Scanner.ofSource file source).scan.result = .ok tokens := by
  rwa [tokenize_eq_scan] at h

end Sigil
