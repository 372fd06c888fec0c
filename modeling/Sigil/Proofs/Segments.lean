import Sigil.Proofs.Simulation

/-!
# Nothing is lost in a scan

The text of a script is a row of segments: runs of blanks, comments, and the lexemes of its tokens, in
order. `Segmented` says so without any scanning. Where a segment ends can depend on what follows it: a
name takes all that could continue it, a comment of one line goes up to the end of the line, and any
other comment up to the first closing after its opening.
-/

namespace Sigil

/-- Whether tokens of the kind are written as their value. -/
def Kind.isPlain : Kind → Bool
  | .number | .dollar | .diamond | .openParen | .closeParen | .openCurly | .closeCurly | .semicolon
  | .colon | .assign | .operator => true
  | _ => false

/-- Before the text `after`, the lexeme of a token of the given kind and value is `text`. -/
inductive LexemeOf (after : List Char) :
    (kind : Kind) → (value : String) → (text : List Char) → Prop where
  /-- The end of a line is a line feed. -/
  | endLine : LexemeOf after .endLine "\\n" ['\n']
  /-- A text stands between quotes, and has none inside. -/
  | string {value : String} (h : '"' ∉ value.toList) :
      LexemeOf after .string value ('"' :: (value.toList ++ ['"']))
  /-- A number or a sign is its value. -/
  | plain {kind : Kind} {value : String} (hk : kind.isPlain = true) (hne : value.toList ≠ []) :
      LexemeOf after kind value value.toList
  /-- A name or a reserved word is the longest run of characters that can be one. Its value is the
  normal form of the run, and decides which of the two it is. -/
  | word {c : Char} {cs : List Char} (hc : startsName c = true)
      (hcs : ∀ d ∈ cs, continuesName d = true)
      (hafter : ∀ d ∈ after.head?, continuesName d = false) :
      LexemeOf after ((reserved? (normalizeName (String.ofList (c :: cs)))).getD .name)
        (normalizeName (String.ofList (c :: cs))) (c :: cs)

/-- The text is a row of segments, and the tokens are those of its lexemes. -/
inductive Segmented : (text : List Char) → (tokens : List Token) → Prop where
  /-- No text. -/
  | nil : Segmented [] []
  /-- A run of blanks other than line feeds, up to the next character of another kind. -/
  | blanks {run rest : List Char} {tokens : List Token} (hne : run ≠ [])
      (hrun : ∀ c ∈ run, isFiller c = true) (hrest : ∀ c ∈ rest.head?, isFiller c = false)
      (h : Segmented rest tokens) : Segmented (run ++ rest) tokens
  /-- A comment up to the end of its line. -/
  | lineComment {body rest : List Char} {tokens : List Token} (hbody : '\n' ∉ body)
      (hrest : ∀ c ∈ rest.head?, c = '\n') (h : Segmented rest tokens) :
      Segmented ('/' :: '/' :: (body ++ rest)) tokens
  /-- A comment up to the first closing after its opening. -/
  | blockComment {body rest : List Char} {tokens : List Token}
      (hbody : ¬ ['*', '/'] <:+: body ++ ['*']) (h : Segmented rest tokens) :
      Segmented ('/' :: '*' :: (body ++ '*' :: '/' :: rest)) tokens
  /-- A comment that is never closed takes all of the text. -/
  | openComment {body : List Char} (hbody : ¬ ['*', '/'] <:+: body) :
      Segmented ('/' :: '*' :: body) []
  /-- The lexeme of the next token. -/
  | lexeme {text rest : List Char} {token : Token} {tokens : List Token}
      (hx : LexemeOf rest token.kind token.value text) (h : Segmented rest tokens) :
      Segmented (text ++ rest) (token :: tokens)

/-! ## Blanks and comments -/

theorem not_infix_cons {c : Char} {rest : List Char} (hc : ∀ r, c = '*' → rest = '/' :: r → False)
    (h : ¬ ['*', '/'] <:+: rest) : ¬ ['*', '/'] <:+: c :: rest := by
  rw [List.infix_cons_iff, not_or]
  refine ⟨?_, h⟩
  rintro ⟨r, hr⟩
  obtain ⟨hstar, hslash⟩ := List.cons.inj hr
  exact hc r hstar.symm hslash.symm

/-- A comment is closed at the first closing, or there is none. -/
theorem blockComment_cases (text : List Char) :
    (∃ body, (blockComment text).1 = body ++ ['*', '/'] ∧ ¬ ['*', '/'] <:+: body ++ ['*']) ∨
    ((blockComment text).1 = text ∧ (blockComment text).2 = [] ∧ ¬ ['*', '/'] <:+: text) := by
  fun_induction blockComment text with
  | case1 =>
    right
    simp
  | case2 rest =>
    left
    exact ⟨[], rfl, by decide⟩
  -- No closing starts at `c`, so the first one is the first one of the rest.
  | case3 c rest hc ih =>
    have htext := blockComment_append rest
    rcases ih with ⟨body, hinside, hbody⟩ | ⟨hall, hnil, hopen⟩
    · left
      refine ⟨c :: body, by rw [hinside, List.cons_append], not_infix_cons ?_ hbody⟩
      intro r hstar hslash
      cases body with
      | nil => simp at hslash
      | cons d body =>
        obtain ⟨rfl, -⟩ := List.cons.inj hslash
        rw [hinside] at htext
        exact hc _ hstar htext.symm
    · right
      exact ⟨by rw [hall], hnil, not_infix_cons hc hopen⟩

theorem LexemeOf.ne_nil {after text : List Char} {kind : Kind} {value : String}
    (h : LexemeOf after kind value text) : text ≠ [] := by
  cases h with
  | plain hk hne => exact hne
  | _ => simp

theorem Segmented.eq_nil {tokens : List Token} (h : Segmented [] tokens) : tokens = [] := by
  generalize htext : ([] : List Char) = text at h
  cases h with
  | nil => rfl
  | blanks hne =>
    rw [eq_comm, List.append_eq_nil_iff] at htext
    exact absurd htext.1 hne
  | lineComment => simp at htext
  | blockComment => simp at htext
  | openComment => rfl
  | lexeme hx =>
    rw [eq_comm, List.append_eq_nil_iff] at htext
    exact absurd htext.1 hx.ne_nil

theorem segmented_of_lineComment {rest part : List Char} {tokens : List Token}
    (hpart : part <+: rest.dropWhile (· != '\n')) (h : Segmented part tokens) :
    Segmented ('/' :: '/' :: (rest.takeWhile (· != '\n') ++ part)) tokens := by
  have hbody : '\n' ∉ rest.takeWhile (· != '\n') := by
    intro hmem
    have := List.all_eq_true.mp List.all_takeWhile _ hmem
    simp at this
  have hrest : ∀ c ∈ part.head?, c = '\n' := by
    intro c hc
    simpa using head?_dropWhile_eq_false _ rest c (mem_head?_of_beginning hpart hc)
  exact .lineComment hbody hrest h

theorem segmented_of_blockComment {rest part : List Char} {tokens : List Token}
    (hpart : part <+: (blockComment rest).2) (h : Segmented part tokens) :
    Segmented ('/' :: '*' :: ((blockComment rest).1 ++ part)) tokens := by
  rcases blockComment_cases rest with ⟨body, htext, hbody⟩ | ⟨htext, hnil, hopen⟩
  · rw [htext, List.append_assoc]
    exact .blockComment hbody h
  · rw [hnil, List.prefix_nil] at hpart
    rw [hpart] at h ⊢
    rw [h.eq_nil, htext, List.append_nil]
    exact .openComment hopen

theorem segmented_of_blanks {text part : List Char} {tokens : List Token}
    (hne : text.takeWhile isFiller ≠ []) (hpart : part <+: text.dropWhile isFiller)
    (h : Segmented part tokens) : Segmented (text.takeWhile isFiller ++ part) tokens := by
  have hrun : ∀ c ∈ text.takeWhile isFiller, isFiller c = true :=
    List.all_eq_true.mp List.all_takeWhile
  have hrest : ∀ c ∈ part.head?, isFiller c = false := by
    intro c hc
    exact head?_dropWhile_eq_false _ text c (mem_head?_of_beginning hpart hc)
  exact .blanks hne hrun hrest h

/-- The text `gap` is made of blanks and comments, and ends before the text `rest`: it is a row of
segments in front of any beginning of `rest`. -/
def Gap (gap rest : List Char) : Prop :=
  ∀ part tokens, part <+: rest → Segmented part tokens → Segmented (gap ++ part) tokens

/-- Two gaps in a row are one. -/
theorem Gap.append {gap gap' rest : List Char} (h : Gap gap (gap' ++ rest)) (h' : Gap gap' rest) :
    Gap (gap ++ gap') rest := by
  intro part tokens hpart hsegmented
  rw [List.append_assoc]
  exact h _ _ ((List.prefix_append_right_inj gap').mpr hpart) (h' _ _ hpart hsegmented)

/-- What is passed over before a token is made of blanks and comments. -/
theorem exists_gap_skipTrivia (line : Nat) (text : List Char) :
    ∃ gap, text = gap ++ (skipTrivia line text).rest ∧ Gap gap (skipTrivia line text).rest := by
  -- Blanks are passed over one by one, but make one segment as long as they go on: the whole run is
  -- taken off before the steps of `skipTrivia` are looked at.
  by_cases hrun : text.takeWhile isFiller = []
  · rw [skipTrivia.eq_def]
    split
    · exact ⟨[], rfl, fun _ _ _ h => h⟩
    · rename_i rest
      have hshort := length_dropWhile_le (· != '\n') rest
      obtain ⟨gap, htext, hgap⟩ := exists_gap_skipTrivia line (rest.dropWhile (· != '\n'))
      have hcomment : Gap ('/' :: '/' :: rest.takeWhile (· != '\n'))
          (rest.dropWhile (· != '\n')) := fun _ _ => segmented_of_lineComment
      rw [htext] at hcomment
      refine ⟨'/' :: '/' :: rest.takeWhile (· != '\n') ++ gap, ?_, hcomment.append hgap⟩
      rw [List.append_assoc, ← htext]
      simp
    · rename_i rest
      have hshort := length_blockComment_le rest
      obtain ⟨gap, htext, hgap⟩ := exists_gap_skipTrivia
        (line + (blockComment rest).1.count '\n') (blockComment rest).2
      have hcomment : Gap ('/' :: '*' :: (blockComment rest).1) (blockComment rest).2 :=
        fun _ _ => segmented_of_blockComment
      rw [htext] at hcomment
      refine ⟨'/' :: '*' :: (blockComment rest).1 ++ gap, ?_, hcomment.append hgap⟩
      rw [List.append_assoc, ← htext, List.cons_append, List.cons_append, blockComment_append]
    · rename_i c rest _ _
      by_cases hc : isFiller c = true
      · rw [List.takeWhile_cons_of_pos hc] at hrun
        simp at hrun
      · unfold isFiller at hc
        rw [if_neg hc]
        exact ⟨[], rfl, fun _ _ _ h => h⟩
  · have hsplit := List.takeWhile_append_dropWhile (p := isFiller) (l := text)
    have hshort : (text.dropWhile isFiller).length < text.length := by
      have hlen := congrArg List.length hsplit
      have hpos := List.length_pos_iff.mpr hrun
      rw [List.length_append] at hlen
      omega
    obtain ⟨gap, htext, hgap⟩ := exists_gap_skipTrivia line (text.dropWhile isFiller)
    have hblanks : Gap (text.takeWhile isFiller) (text.dropWhile isFiller) :=
      fun _ _ => segmented_of_blanks hrun
    rw [skipTrivia_dropWhile]
    rw [htext] at hblanks
    refine ⟨text.takeWhile isFiller ++ gap, ?_, hblanks.append hgap⟩
    rw [List.append_assoc, ← htext, hsplit]
termination_by text.length
decreasing_by
  · subst_vars
    simp only [List.length_cons]
    omega
  · subst_vars
    simp only [List.length_cons]
    omega
  · exact hshort

/-- What is passed over before a token is made of segments. -/
theorem segmented_of_skipTrivia (line : Nat) (text : List Char) {tokens : List Token}
    (h : Segmented (skipTrivia line text).rest tokens) : Segmented text tokens := by
  obtain ⟨gap, htext, hgap⟩ := exists_gap_skipTrivia line text
  have hsegments := hgap _ _ (List.prefix_refl _) h
  rwa [← htext] at hsegments

/-! ## Lexemes -/

theorem lexemeOf_sign {k : Kind} {text after : List Char} (hk : k.isPlain = true)
    (hne : text ≠ []) : LexemeOf after (Lexeme.sign k text).kind (Lexeme.sign k text).value text := by
  have h : LexemeOf after k (String.ofList text) (String.ofList text).toList :=
    .plain hk (by simpa using hne)
  rwa [String.toList_ofList] at h

/-- A word is read as far as it goes on as a name does. -/
theorem lexemeOf_word {c : Char} (rest : List Char) (hc : startsName c = true) :
    ∃ after, c :: rest = (Lexeme.word c rest).text ++ after ∧
      LexemeOf after (Lexeme.word c rest).kind (Lexeme.word c rest).value
        (Lexeme.word c rest).text := by
  refine ⟨rest.dropWhile continuesName, ?_, ?_⟩
  · simp [Lexeme.word]
  · simp only [Lexeme.word]
    exact .word hc (List.all_eq_true.mp List.all_takeWhile) (head?_dropWhile_eq_false _ _)

/-- A number is written as some beginning of the text. -/
theorem exists_number_eq_sign (text : List Char) :
    ∃ taken after, Lexeme.number text = Lexeme.sign .number taken ∧ text = taken ++ after := by
  have htext := (List.takeWhile_append_dropWhile (p := Char.isDigit) (l := text)).symm
  unfold Lexeme.number
  split
  · rename_i rest hdrop
    have hrest := (List.takeWhile_append_dropWhile (p := Char.isDigit) (l := rest)).symm
    refine ⟨_, rest.dropWhile Char.isDigit, rfl, ?_⟩
    rw [List.append_assoc, List.cons_append, ← hrest, ← hdrop]
    exact htext
  · exact ⟨_, text.dropWhile Char.isDigit, rfl, htext⟩

theorem lexemeOf_number {c : Char} {rest : List Char} (h : Lexeme.startsNumber c rest = true) :
    ∃ after, c :: rest = (Lexeme.number (c :: rest)).text ++ after ∧
      LexemeOf after (Lexeme.number (c :: rest)).kind (Lexeme.number (c :: rest)).value
        (Lexeme.number (c :: rest)).text := by
  have hne := Lexeme.number_text_ne_nil h
  obtain ⟨taken, after, hsign, htext⟩ := exists_number_eq_sign (c :: rest)
  rw [hsign] at hne ⊢
  exact ⟨after, htext, lexemeOf_sign rfl hne⟩

theorem lexemeOf_string {inside : List Char} (h : '"' ∉ inside) (after : List Char) :
    LexemeOf after .string (String.ofList inside) ('"' :: (inside ++ ['"'])) := by
  have hlexeme : LexemeOf after .string (String.ofList inside)
      ('"' :: ((String.ofList inside).toList ++ ['"'])) := .string (by rwa [String.toList_ofList])
  rwa [String.toList_ofList] at hlexeme

/-- A sign is read with what continues it. -/
theorem lexemeOf_symbol (c : Char) (rest : List Char) :
    ∃ after, c :: rest = (Lexeme.symbol c rest).text ++ after ∧
      LexemeOf after (Lexeme.symbol c rest).kind (Lexeme.symbol c rest).value
        (Lexeme.symbol c rest).text := by
  unfold Lexeme.symbol
  split <;> exact ⟨_, rfl, lexemeOf_sign rfl (by simp)⟩

/-- What is read at the start of a text is the lexeme of its token there. -/
theorem lexemeOf_read {c : Char} {rest : List Char} {x : Lexeme}
    (h : Lexeme.read? c rest = some x) :
    ∃ after, c :: rest = x.text ++ after ∧ LexemeOf after x.kind x.value x.text := by
  cases Lexeme.form_of_read h with
  | endLine hc =>
    subst hc
    exact ⟨rest, rfl, .endLine⟩
  | word hc => exact lexemeOf_word rest hc
  | number hc => exact lexemeOf_number hc
  | @string inside behind hc hinside hrest =>
    refine ⟨behind, ?_, lexemeOf_string hinside behind⟩
    rw [hc, hrest, List.cons_append, List.append_assoc, List.singleton_append]
  | symbol hbreak hquote => exact lexemeOf_symbol c rest

/-! ## Whole scripts -/

/-- A scan that succeeds finds the tokens of all lexemes of its text, and the end of the script. -/
theorem Scanner.segmented_of_scan (s : Scanner) {tokens : List Token}
    (h : s.scan.result = .ok tokens) :
    ∃ ts e, tokens = ts ++ [e] ∧ e.kind = .endOfInput ∧ (∀ t ∈ ts, t.kind ≠ .endOfInput) ∧
      Segmented s.rest ts := by
  induction s using scanInduction generalizing tokens with
  | ended s htext =>
    rw [scan_of_end htext] at h
    refine ⟨[], _, (Except.ok.inj h).symm, rfl, by simp, ?_⟩
    apply segmented_of_skipTrivia s.line
    rw [htext]
    exact .nil
  -- Only a quote without an end is not read, and then the scan does not succeed.
  | unclosed s c rest htext hread =>
    rw [scan_of_unclosed htext hread] at h
    cases h
  | lexeme s c rest x htext hread ih =>
    obtain ⟨others, hothers, rfl⟩ := exists_others htext hread h
    obtain ⟨ts, e, rfl, he, hts, hsegmented⟩ := ih hothers
    obtain ⟨after, hafter, hlexeme⟩ := lexemeOf_read hread
    refine ⟨x.token s.file (skipTrivia s.line s.rest).line :: ts, e, rfl, he, ?_, ?_⟩
    · exact List.forall_mem_cons.mpr ⟨Lexeme.kind_ne_endOfInput hread, hts⟩
    · rw [next_of_lexeme htext hread hafter] at hsegmented
      apply segmented_of_skipTrivia s.line
      rw [htext, hafter]
      exact .lexeme hlexeme hsegmented

/-- The scanner drops nothing and makes nothing up: where it succeeds, the text of the script, with its
line breaks folded, is a row of blanks, comments and the lexemes of the tokens, in their order. -/
theorem tokenize_segmented (file source : String) (tokens : List Token)
    (h : (tokenize file source).result = .ok tokens) :
    ∃ ts e, tokens = ts ++ [e] ∧ e.kind = .endOfInput ∧ (∀ t ∈ ts, t.kind ≠ .endOfInput) ∧
      Segmented (foldBreaks source.toList) ts :=
  Scanner.segmented_of_scan _ (scan_of_tokenize h)

/-- A reserved word with a tab inside, comments of both kinds, one of them right behind a name, and a
line break of two characters. -/
theorem tokenize_segmented_comments :
    let source := "End\tif/*x*/ <>\r\n\"q\"//c"
    let tokens : List Token := [⟨.endIf, "end if", .lines "demo" 1 1⟩,
      ⟨.diamond, "<>", .lines "demo" 1 1⟩, ⟨.endLine, "\\n", .lines "demo" 1 1⟩,
      ⟨.string, "q", .lines "demo" 2 2⟩, .endOfInput "demo" 2]
    (tokenize "demo" source).result = .ok tokens ∧
    ∃ ts e, tokens = ts ++ [e] ∧ e.kind = .endOfInput ∧ (∀ t ∈ ts, t.kind ≠ .endOfInput) ∧
      Segmented (foldBreaks source.toList) ts := by
  intro source tokens
  have hok : (tokenize "demo" source).result = .ok tokens := eq_ok_of_toOption (by decide +kernel)
  exact ⟨hok, tokenize_segmented "demo" source tokens hok⟩

end Sigil
