import Sigil.Proofs.ScannerCalls

/-!
# The style of line breaks

Scripts come with line feeds, with carriage returns, with pairs of the two, or with any mixture of these.
`unifyBreaks` is what an editor does to bring such a text into one style: it replaces the pairs first, and
then the carriage returns that are left.

The lexer reads either text as it is. It takes different steps through the two, since a pair is one
character for it in one of them and no pair is left in the other. But at each token it stands at the same
place of the same folded text, so what it makes of the two is the same.
-/

namespace Sigil

/-- The text with every pair of a carriage return and a line feed replaced by a line feed. -/
def replacePairs : List Char → List Char
  | [] => []
  | '\r' :: '\n' :: text => '\n' :: replacePairs text
  | c :: text => c :: replacePairs text

/-- The text with every carriage return replaced by a line feed. -/
def replaceReturns (text : List Char) : List Char :=
  text.map fun c => if c = '\r' then '\n' else c

/-- The source with line feeds as its only line breaks. -/
def unifyBreaks (source : String) : String :=
  String.ofList (replaceReturns (replacePairs source.toList))

/-- Folding in one go comes to the same as replacing the pairs and then the carriage returns. -/
theorem foldBreaks_eq_replaced (text : List Char) :
    foldBreaks text = replaceReturns (replacePairs text) := by
  fun_induction foldBreaks text with
  | case1 => rfl
  | case2 text ih => simp [replacePairs, replaceReturns, ih]
  | case3 text hnext ih =>
    rw [replacePairs]
    · simp [replaceReturns, ih]
    · exact fun rest _ h => hnext rest h
  | case4 c text hpair hreturn ih =>
    have hc : c ≠ '\r' := fun h => hreturn h
    rw [replacePairs]
    · simp [replaceReturns, ih, hc]
    · exact hpair

theorem toList_unifyBreaks (source : String) :
    (unifyBreaks source).toList = replaceReturns (replacePairs source.toList) :=
  String.toList_ofList

/-- In the unified style no carriage return is left. -/
theorem return_not_mem_unifyBreaks (source : String) : '\r' ∉ (unifyBreaks source).toList := by
  rw [toList_unifyBreaks]
  intro h
  obtain ⟨c, -, hc⟩ := List.mem_map.mp h
  split at hc
  · exact absurd hc (by decide)
  · contradiction

/-- At the start of the unified source the lexer stands where the scanner of the source stands. -/
theorem standsAt_unifyBreaks (file source : String) :
    (Lexer.ofSource file (unifyBreaks source)).StandsAt (.ofSource file source) := by
  have htext : foldBreaks (unifyBreaks source).toList = foldBreaks source.toList := by
    rw [foldBreaks_of_not_mem (return_not_mem_unifyBreaks source), toList_unifyBreaks,
      foldBreaks_eq_replaced]
  exact .ahead rfl rfl htext rfl rfl

/-- The style of the line breaks makes no difference to the lexer. From the unified source it gets the same
tokens with the same lines, or the same diagnostic, and passes over comments on the same lines. Asked for
one token after the other it gives the same reply each time, and has reached the same position. -/
theorem tokenize_unifyBreaks (file source : String) :
    '\r' ∉ (unifyBreaks source).toList ∧
    tokenize file (unifyBreaks source) = tokenize file source ∧
    ∀ n, (Lexer.ofSource file (unifyBreaks source)).reply n = (Lexer.ofSource file source).reply n ∧
      ((Lexer.ofSource file (unifyBreaks source)).after n).position =
        ((Lexer.ofSource file source).after n).position := by
  have hunified := standsAt_unifyBreaks file source
  have hgiven := Lexer.standsAt_ofSource file source
  refine ⟨return_not_mem_unifyBreaks source, hunified.scan.trans hgiven.scan.symm, fun n => ⟨?_, ?_⟩⟩
  · rw [hunified.reply, hgiven.reply]
  · rw [(hunified.after n).position_eq, (hgiven.after n).position_eq]

/-- Line breaks of all three kinds, one of them in a quoted text, one behind a point and one that is handed
back at the end of a comment. -/
example : (tokenize "demo" "x.\r\"\r\n\"//\r\n.5").result.toOption =
    (tokenize "demo" "x.\n\"\n\"//\n.5").result.toOption := by
  decide +kernel

end Sigil
