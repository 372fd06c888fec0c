import Sigil.Proofs.NameForm
import Sigil.Proofs.ScopeTables
import Sigil.Proofs.TreeText

/-!
# The texts of parsed trees

What is written on the nodes of a parsed tree are the values of its tokens, and these are free of whatever
would spoil the text of the tree. Names and numbers have no sigils in them, and nothing but a quoted text can
have a line feed in it. Tagging writes types only. So the trees of scripts whose quoted texts stay on one line
are told apart by their texts, before tagging and after it.
-/

namespace Sigil

/-! ## Values of tokens -/

/-- The value has nothing in it that a tree with such a token could be misread by. -/
structure Kind.PlainValue (k : Kind) (value : String) : Prop where
  newline : k ≠ .string → '\n' ∉ value.toList
  sigil : k = .name ∨ k = .number → ∀ c ∈ value.toList, isSigilChar c = false

theorem isSigilChar_cases {c : Char} (h : isSigilChar c = true) : c = '$' ∨ c = '<' ∨ c = '>' := by
  simpa [isSigilChar, or_assoc] using h

theorem neverLowered_of_isSigilChar {c : Char} (h : isSigilChar c = true) : NeverLowered c := by
  rcases isSigilChar_cases h with rfl | rfl | rfl
  all_goals
    exact neverLowered_of_apart (by decide +kernel) (by decide +kernel) (by decide) (by decide)

theorem not_name_of_isSigilChar {c : Char} (h : isSigilChar c = true) :
    c ≠ ' ' ∧ startsName c = false ∧ continuesName c = false := by
  rcases isSigilChar_cases h with rfl | rfl | rfl <;> decide

namespace Lexeme

theorem plainValue_word {c : Char} (hc : startsName c = true) (rest : List Char) :
    (word c rest).kind.PlainValue (word c rest).value where
  newline := by
    intro _ hmem
    have hspace := eq_space_of_isBlank_of_mem_normalizeName (by decide) hmem
    exact absurd hspace (by decide)
  sigil := by
    intro _ d hd
    rw [Bool.eq_false_iff]
    intro hsigil
    obtain ⟨hspace, hstart, hlater⟩ := not_name_of_isSigilChar hsigil
    have hmem := mem_of_mem_normalizeName (neverLowered_of_isSigilChar hsigil) hspace hd
    rcases List.mem_cons.mp hmem with rfl | hrest
    · rw [hc] at hstart
      cases hstart
    · have hpart : continuesName d = true := List.all_eq_true.mp List.all_takeWhile d hrest
      rw [hlater] at hpart
      cases hpart

theorem plainValue_number (text : List Char) : (number text).kind.PlainValue (number text).value := by
  have hmem : ∀ d ∈ (number text).text, d.isDigit = true ∨ d = '.' := fun d hd => mem_number_text hd
  obtain ⟨taken, -, hsign, -⟩ := exists_number_eq_sign text
  rw [hsign] at hmem ⊢
  constructor
  · intro _ hnewline
    rw [sign, String.toList_ofList] at hnewline
    exact absurd (hmem _ hnewline) (by decide)
  · intro _ d hd
    rw [sign, String.toList_ofList] at hd
    rw [Bool.eq_false_iff]
    intro hsigil
    rcases isSigilChar_cases hsigil with rfl | rfl | rfl <;> exact absurd (hmem _ hd) (by decide)

theorem plainValue_symbol {c : Char} (hc : c ≠ '\n') (rest : List Char) :
    (symbol c rest).kind.PlainValue (symbol c rest).value := by
  have hmem : ∀ d ∈ (symbol c rest).text, d = c ∨ d = '=' ∨ d = '>' := fun d hd => mem_symbol_text hd
  obtain ⟨k, text, hk, hsign⟩ := exists_symbol_eq_sign c rest
  rw [hsign] at hmem ⊢
  constructor
  · intro _ hnewline
    rw [sign, String.toList_ofList] at hnewline
    rcases hmem _ hnewline with h | h | h
    · exact hc h.symm
    · exact absurd h (by decide)
    · exact absurd h (by decide)
  · rintro (rfl | rfl)
    · exact absurd hk (by decide)
    · exact absurd hk (by decide)

/-- Only a quoted text has line breaks in its value. -/
theorem plainValue_of_read {c : Char} {rest : List Char} {x : Lexeme} (h : read? c rest = some x) :
    x.kind.PlainValue x.value := by
  cases form_of_read h with
  | endLine hc => exact ⟨fun _ => by decide, fun hk => by rcases hk with hk | hk <;> cases hk⟩
  | word hc => exact plainValue_word hc rest
  | number hc => exact plainValue_number (c :: rest)
  | string hc hinside hrest =>
    exact ⟨fun hk => absurd rfl hk, fun hk => by rcases hk with hk | hk <;> cases hk⟩
  | symbol hbreak hquote => exact plainValue_symbol hbreak rest

end Lexeme

theorem Token.plainValue_endOfInput (file : String) (line : Nat) :
    (Token.endOfInput file line).kind.PlainValue (Token.endOfInput file line).value :=
  ⟨fun _ => by simp [Token.endOfInput], fun hk => by rcases hk with hk | hk <;> cases hk⟩

theorem Scanner.plainValue_of_scan (s : Scanner) {tokens : List Token} (h : s.scan.result = .ok tokens) :
    ∀ t ∈ tokens, t.kind.PlainValue t.value :=
  s.forall_of_scan (Token.plainValue_endOfInput s.file s.line) Lexeme.plainValue_of_read h

/-! ## What is written on parsed trees -/

namespace Expr

/-- The quoted text that the expression is, if it is one. -/
def quote? : Expr → Option String
  | .literal text .string _ => some text
  | _ => none

theorem head_of_quote? {e : Expr} {text : String} (h : e.quote? = some text) :
    e.head = .literal text := by
  unfold quote? at h
  split at h
  · rw [← Option.some.inj h]
    rfl
  · cases h

/-- What is written on the root is plain, unless that is a quoted text. -/
def PlainButQuotes (e : Expr) : Prop := e.head.Plain ∨ ∃ text, e.quote? = some text

/-- What is written on the nodes is plain, but for quoted texts. -/
def AllPlainButQuotes (e : Expr) : Prop := ∀ p ∈ e :: e.parts, p.PlainButQuotes

/-- An expression is plain if it is by itself and its children are. -/
theorem allPlainButQuotes_of_children {e : Expr} (h : e.PlainButQuotes)
    (hchildren : ∀ c ∈ e.children, c.AllPlainButQuotes) : e.AllPlainButQuotes := by
  refine List.forall_mem_cons.mpr ⟨h, ?_⟩
  rw [parts_eq]
  exact List.forall_mem_flatMap.mpr hchildren

end Expr

/-- What is written on the expressions of a tree is plain, but for quoted texts. -/
def Nonterminal.PlainButQuotes : (s : Nonterminal) → s.Tree → Prop
  | .expr _, e => e.AllPlainButQuotes
  | .arguments, es => ∀ e ∈ es, e.AllPlainButQuotes
  | .stmt _, s => ∀ e ∈ s.expressions, e.AllPlainButQuotes
  | .statements, ss => ∀ s ∈ ss, ∀ e ∈ s.expressions, e.AllPlainButQuotes
  | .block, b => ∀ e ∈ b.expressions, e.AllPlainButQuotes

theorem allPlainButQuotes_var {t : Token} (ht : t.kind.PlainValue t.value)
    (hk : t.kind = .name ∨ t.kind = .number) (storage : Storage) (type : Ty) (place : Span) :
    (Expr.var ⟨t.value, storage⟩ type place).AllPlainButQuotes := by
  have hstring : t.kind ≠ .string := by rcases hk with hk | hk <;> simp [hk]
  exact Expr.allPlainButQuotes_of_children (.inl ⟨ht.newline hstring, ht.sigil hk⟩) (List.forall_mem_nil _)

/-- What is written on the tree of a phrase are the values of its tokens. -/
theorem Phrase.plainButQuotes {target : Expr → Prop} {s : Nonterminal} {next : Kind}
    {ts : List Token} {tree : s.Tree} (h : Phrase target s next ts tree)
    (hts : ∀ t ∈ ts, t.kind.PlainValue t.value) : s.PlainButQuotes tree := by
  induction h with
  | primary _ ih => exact ih hts
  | binary _ hop _ ihl ihr =>
    simp only [List.forall_mem_append, List.forall_mem_cons] at hts
    obtain ⟨hl, hvalue, hr⟩ := hts
    refine Expr.allPlainButQuotes_of_children (.inl (hvalue.newline (by simp [hop]))) ?_
    exact List.forall_mem_cons.mpr ⟨ihl hl, List.forall_mem_singleton.mpr (ihr hr)⟩
  | localVariable _ hn =>
    simp only [List.forall_mem_cons] at hts
    exact allPlainButQuotes_var hts.2.1 hn _ _ _
  | persistentVariable _ hn =>
    simp only [List.forall_mem_cons] at hts
    exact allPlainButQuotes_var hts.2.1 hn _ _ _
  | globalVariable hn _ => exact allPlainButQuotes_var (hts _ List.mem_cons_self) (.inl hn) _ _ _
  | emptyCall hn _ _ =>
    simp only [List.forall_mem_cons] at hts
    exact Expr.allPlainButQuotes_of_children (.inl (hts.1.newline (by simp [hn]))) (List.forall_mem_nil _)
  | call hn _ _ _ iha =>
    simp only [List.forall_mem_append, List.forall_mem_cons] at hts
    exact Expr.allPlainButQuotes_of_children (.inl (hts.1.newline (by simp [hn]))) (iha hts.2.2.1)
  | number ht =>
    have hvalue := List.forall_mem_singleton.mp hts
    exact Expr.allPlainButQuotes_of_children (.inl (hvalue.newline (by simp [ht]))) (List.forall_mem_nil _)
  | string _ => exact Expr.allPlainButQuotes_of_children (.inr ⟨_, rfl⟩) (List.forall_mem_nil _)
  | grouping _ _ _ ih =>
    simp only [List.forall_mem_append, List.forall_mem_cons] at hts
    exact ih hts.2.1
  | unary hop _ ih =>
    obtain ⟨hvalue, hrest⟩ := List.forall_mem_cons.mp hts
    refine Expr.allPlainButQuotes_of_children (.inl (hvalue.newline (by simp [hop]))) ?_
    exact List.forall_mem_singleton.mpr (ih hrest)
  | lastArgument _ ih => exact List.forall_mem_singleton.mpr (ih hts)
  | moreArguments _ _ _ ihe ihes =>
    simp only [List.forall_mem_append, List.forall_mem_cons] at hts
    exact List.forall_mem_cons.mpr ⟨ihe hts.1, ihes hts.2.2⟩
  | expression _ _ ih =>
    exact List.forall_mem_singleton.mpr (ih (List.forall_mem_append.mp hts).1)
  | assign _ _ _ _ _ ihe ihv =>
    simp only [List.forall_mem_append, List.forall_mem_cons] at hts
    exact List.forall_mem_cons.mpr ⟨ihe hts.1, List.forall_mem_singleton.mpr (ihv hts.2.2.1)⟩
  | cond _ _ _ _ _ _ _ ihc ihy =>
    simp only [List.forall_mem_append, List.forall_mem_cons] at hts
    obtain ⟨-, -, hc, -, hy, -⟩ := hts
    exact List.forall_mem_cons.mpr ⟨ihc hc, ihy hy⟩
  | condElse _ _ _ _ _ _ _ _ _ ihc ihy ihn =>
    simp only [List.forall_mem_append, List.forall_mem_cons] at hts
    obtain ⟨-, -, hc, -, hy, -, hn, -⟩ := hts
    exact List.forall_mem_cons.mpr ⟨ihc hc, List.forall_mem_append.mpr ⟨ihy hy, ihn hn⟩⟩
  | count _ _ _ _ _ _ _ _ _ _ _ _ ihv iha ihb ihy =>
    simp only [List.forall_mem_append, List.forall_mem_cons] at hts
    obtain ⟨-, -, hv, -, ha, -, hb, -, hy, -⟩ := hts
    refine List.forall_mem_cons.mpr ⟨ihv hv, List.forall_mem_cons.mpr ⟨iha ha, ?_⟩⟩
    exact List.forall_mem_cons.mpr ⟨ihb hb, ihy hy⟩
  | countBy _ _ _ _ _ _ _ _ _ _ _ _ _ _ ihv iha ihb ihi ihy =>
    simp only [List.forall_mem_append, List.forall_mem_cons] at hts
    obtain ⟨-, -, hv, -, ha, -, hb, -, hi, -, hy, -⟩ := hts
    refine List.forall_mem_cons.mpr ⟨ihv hv, List.forall_mem_cons.mpr ⟨iha ha, ?_⟩⟩
    exact List.forall_mem_cons.mpr ⟨ihb hb, List.forall_mem_cons.mpr ⟨ihi hi, ihy hy⟩⟩
  | loop _ _ _ _ _ _ _ ihc ihy =>
    simp only [List.forall_mem_append, List.forall_mem_cons] at hts
    obtain ⟨-, -, hc, -, hy, -⟩ := hts
    exact List.forall_mem_cons.mpr ⟨ihc hc, ihy hy⟩
  | loopUntil _ _ _ _ _ _ _ ihy ihc =>
    simp only [List.forall_mem_append, List.forall_mem_cons] at hts
    obtain ⟨-, hy, -, -, hc, -⟩ := hts
    exact List.forall_mem_append.mpr ⟨ihy hy, List.forall_mem_singleton.mpr (ihc hc)⟩
  | noStatement => exact List.forall_mem_nil _
  | blankLine _ _ ih => exact ih (List.forall_mem_cons.mp hts).2
  | moreStatements _ _ ihs ihss =>
    obtain ⟨hs, hss⟩ := List.forall_mem_append.mp hts
    exact List.forall_mem_cons.mpr ⟨ihs hs, ihss hss⟩
  | block _ ih =>
    intro e he
    rw [Block.expressions_eq] at he
    obtain ⟨s, hs, hmem⟩ := List.mem_flatMap.mp he
    exact ih hts s hs e hmem

/-! ## Spans and types -/

namespace Expr

variable (f : Span → Span)

theorem head_mapSpans (e : Expr) : (e.mapSpans f).head = e.head := by
  cases e <;> rfl

theorem quote?_mapSpans (e : Expr) : (e.mapSpans f).quote? = e.quote? := by
  cases e with
  | literal text t place => cases t <;> rfl
  | _ => rfl

theorem children_mapSpans (e : Expr) : (e.mapSpans f).children = e.children.map (mapSpans f) := by
  cases e with
  | call name args t s => rw [mapSpans, children, mapSpansAll_eq, children]
  | _ => rfl

theorem parts_mapSpans (e : Expr) : (e.mapSpans f).parts = e.parts.map (mapSpans f) := by
  induction e using induction_children with
  | h e ih =>
    rw [parts_eq, parts_eq, children_mapSpans, List.flatMap_map, List.map_flatMap, List.flatMap_def,
      List.flatMap_def]
    refine congrArg List.flatten (List.map_congr_left fun c hc => ?_)
    rw [ih c hc, List.map_cons]

variable {f}

theorem plainButQuotes_of_mapSpans {e : Expr} (h : (e.mapSpans f).PlainButQuotes) :
    e.PlainButQuotes := by
  unfold PlainButQuotes at h
  rwa [head_mapSpans, quote?_mapSpans] at h

theorem allPlainButQuotes_of_mapSpans {e : Expr} (h : (e.mapSpans f).AllPlainButQuotes) :
    e.AllPlainButQuotes := by
  intro p hp
  have hmem : p.mapSpans f ∈ e.mapSpans f :: (e.mapSpans f).parts := by
    rw [parts_mapSpans, ← List.map_cons]
    exact List.mem_map_of_mem hp
  exact plainButQuotes_of_mapSpans (h _ hmem)

end Expr

theorem Block.expressions_mapSpans_of_forall {f : Span → Span} {b : Block}
    (h : ∀ x ∈ b.body, (x.mapSpans f).expressions = x.expressions.map (Expr.mapSpans f)) :
    (b.mapSpans f).expressions = b.expressions.map (Expr.mapSpans f) := by
  rw [Block.expressions_eq, Block.expressions_eq, Block.body_mapSpans, List.flatMap_map, List.map_flatMap,
    List.flatMap_def, List.flatMap_def, List.map_congr_left h]

theorem Stmt.expressions_mapSpans (f : Span → Span) (s : Stmt) :
    (s.mapSpans f).expressions = s.expressions.map (Expr.mapSpans f) := by
  induction s using Stmt.induction_limbs with
  | h s ih =>
    have hlimbs : ∀ limb ∈ s.limbs,
        (limb.mapSpans f).expressions = limb.expressions.map (Expr.mapSpans f) := by
      intro limb hlimb
      cases limb with
      | expr branch e => rfl
      | block branch b => exact Block.expressions_mapSpans_of_forall (ih _ hlimb)
    rw [Stmt.expressions_eq, Stmt.expressions_eq, Stmt.limbs_mapSpans, List.flatMap_map,
      List.map_flatMap, List.flatMap_def, List.flatMap_def, List.map_congr_left hlimbs]

theorem Expr.head_tagged (e : Expr) : e.tagged.head = e.head := by
  cases e <;> rfl

/-- What the nodes of an expression are does not depend on types. -/
theorem Expr.typeBlind_heads : TypeBlind fun e : Expr => (e :: e.parts).map Expr.head where
  tagged e := by
    rw [Expr.parts_tagged, ← List.map_cons, List.map_map]
    exact List.map_congr_left fun p _ => p.head_tagged
  withType e t := by cases e <;> rfl

/-- Tagging leaves everything that is written on a tree as it is. -/
theorem Block.Plain.tagged {b : Block} (h : b.Plain) : b.tagged.Plain := by
  intro e he p hp
  have hmem := List.mem_map_of_mem (f := fun e : Expr => (e :: e.parts).map Expr.head) he
  rw [Expr.typeBlind_heads.expressions] at hmem
  obtain ⟨e', he', heads⟩ := List.mem_map.mp hmem
  have hhead : p.head ∈ (e' :: e'.parts).map Expr.head := by
    rw [heads]
    exact List.mem_map_of_mem hp
  obtain ⟨p', hp', heq⟩ := List.mem_map.mp hhead
  rw [← heq]
  exact h e' he' p' hp'

/-! ## Scripts -/

theorem mem_remaining_ofTokens {file : String} {tokens : List Token} {t : Token}
    (h : t ∈ (Cursor.ofTokens file tokens).remaining) : t ∈ tokens ∨ ∃ line, t = .endOfInput file line := by
  cases tokens with
  | nil => exact .inr ⟨1, List.mem_singleton.mp h⟩
  | cons u us =>
    rw [Cursor.ofTokens, Cursor.remaining, ← List.cons_append, List.mem_append] at h
    refine h.imp_right fun hclosing => ?_
    unfold Cursor.closing at hclosing
    split at hclosing
    · cases hclosing
    · exact ⟨_, List.mem_singleton.mp hclosing⟩

/-- The quoted texts in a block. -/
def Block.quotes (b : Block) : List String := (Expr.withParts b.expressions).filterMap Expr.quote?

/-- A script is plain if its quoted texts are. -/
theorem Script.plain_of_parse {s : Script} {b : Block} (h : s.parse = .ok b)
    (hquotes : ∀ text ∈ b.quotes, '\n' ∉ text.toList) : b.Plain := by
  obtain ⟨tokens, hscan, hparse⟩ := Script.exists_tokens_of_parse h
  obtain ⟨d, hrun, -⟩ := parseTokens_eq_ok_iff.mp hparse
  have hclosed := Cursor.closed_ofTokens s.name tokens
  obtain ⟨ts, hpasses, hphrase⟩ := sound_rules _ .block _ _ _ hclosed trivial hrun
  have hts : ∀ t ∈ ts, t.kind.PlainValue t.value := by
    intro t ht
    have hrow : t ∈ (Cursor.ofTokens s.name tokens).remaining := by
      rw [hpasses.2]
      exact List.mem_append_left _ ht
    rcases mem_remaining_ofTokens hrow with htoken | ⟨line, rfl⟩
    · exact Scanner.plainValue_of_scan _ (scan_of_tokenize hscan) t htoken
    · exact Token.plainValue_endOfInput s.name line
  have hunplaced : ∀ e ∈ b.unplaced.expressions, e.AllPlainButQuotes := hphrase.plainButQuotes hts
  rw [Block.expressions_mapSpans_of_forall fun x _ => x.expressions_mapSpans _] at hunplaced
  intro e he p hp
  have hparts := Expr.allPlainButQuotes_of_mapSpans (hunplaced _ (List.mem_map_of_mem he))
  rcases hparts p hp with hplain | ⟨text, htext⟩
  · exact hplain
  · have hmem : p ∈ Expr.withParts b.expressions := by
      rw [Expr.withParts_eq]
      exact List.mem_flatMap.mpr ⟨e, he, hp⟩
    rw [Expr.head_of_quote? htext]
    exact hquotes text (List.mem_filterMap.mpr ⟨p, hmem, htext⟩)

/-- The text of a tree tells it from all others. Two blocks that are parsed from scripts, and possibly
tagged, are the same up to spans if they are shown alike, unless a quoted text goes over the end of a line. -/
theorem render_tells_blocks_apart {s s' : Script} {body body' b b' : Block} (hs : s.parse = .ok body)
    (hs' : s'.parse = .ok body') (hquotes : ∀ text ∈ body.quotes, '\n' ∉ text.toList)
    (hquotes' : ∀ text ∈ body'.quotes, '\n' ∉ text.toList)
    (hb : b = body ∨ ∃ w, b = (body.tag w).1) (hb' : b' = body' ∨ ∃ w, b' = (body'.tag w).1)
    (h : (b.outline none).render = (b'.outline none).render) : b.unplaced = b'.unplaced := by
  have hbody := Script.plain_of_parse hs hquotes
  have hbody' := Script.plain_of_parse hs' hquotes'
  have hplain : b.Plain := by
    rcases hb with rfl | ⟨w, rfl⟩
    · exact hbody
    · rw [Block.tag_eq]
      exact hbody.tagged
  have hplain' : b'.Plain := by
    rcases hb' with rfl | ⟨w, rfl⟩
    · exact hbody'
    · rw [Block.tag_eq]
      exact hbody'.tagged
  exact Block.unplaced_eq_of_render hplain hplain' h

/-- Two spellings of an assignment, with a quoted text that looks like a literal and its type. -/
theorem render_tells_blocks_apart_two_spellings :
    let s : Script := ⟨"one", "$x := \"a : b\" + f(-1; <>y)"⟩
    let s' : Script := ⟨"two", "\n $X:=(\"a : b\"+F( - 1 ;<>Y) )\n"⟩
    let w : Walk := ⟨.empty, .empty⟩
    ∃ body body', s.parse = .ok body ∧ s'.parse = .ok body' ∧ body.span ≠ body'.span ∧
      (∀ text ∈ body.quotes, '\n' ∉ text.toList) ∧ (∀ text ∈ body'.quotes, '\n' ∉ text.toList) ∧
      ((body.tag w).1.outline none).render = ((body'.tag w).1.outline none).render ∧
      (body.tag w).1.unplaced = (body'.tag w).1.unplaced := by
  intro s s' w
  let shown (b : Block) := (b.span, b.quotes, ((b.tag w).1.outline none).render)
  let text := "Block\n+> Statement::Assignment\n   +[Variable]> Variable $x : string\n" ++
    "   +[EXPR]> BinaryOp + : string\n            +> Literal a : b : string\n" ++
    "            +> Call f : undetermined\n               +> UnaryOp - : number\n" ++
    "               |  +> Literal 1 : number\n               +> Variable <>y : undetermined\n"
  have hparses : s.parse.toOption.map shown = some (.lines "one" 1 1, ["a : b"], text) := by
    decide +kernel
  have hparses' : s'.parse.toOption.map shown = some (.lines "two" 1 3, ["a : b"], text) := by
    decide +kernel
  obtain ⟨body, hbody, hshown⟩ := Option.map_eq_some_iff.mp hparses
  obtain ⟨body', hbody', hshown'⟩ := Option.map_eq_some_iff.mp hparses'
  have hs := eq_ok_of_toOption hbody
  have hs' := eq_ok_of_toOption hbody'
  simp only [shown, Prod.mk.injEq] at hshown hshown'
  obtain ⟨hspan, hquotes, htext⟩ := hshown
  obtain ⟨hspan', hquotes', htext'⟩ := hshown'
  have hline : ∀ text ∈ ["a : b"], '\n' ∉ text.toList := by decide
  rw [← hquotes] at hline
  have hline' := hline
  rw [hquotes, ← hquotes'] at hline'
  have hsame := htext.trans htext'.symm
  refine ⟨body, body', hs, hs', ?_, hline, hline', hsame, ?_⟩
  · rw [hspan, hspan']
    decide
  · exact render_tells_blocks_apart hs hs' hline hline' (.inr ⟨w, rfl⟩) (.inr ⟨w, rfl⟩) hsame

end Sigil
