import Sigil.Proofs.Continuation
import Sigil.Proofs.TokenJoin

/-!
# Joined scripts

Two scripts that can be parsed, one below the other, are a script whose statements are those of the first
and then those of the second, moved down. The last line of the first is ended by the line break between
them, all of its blocks are closed, and tagging never looks at what it knows already. So what is found in
the joined script is what is found in the first, and then what is found in the second.
-/

namespace Sigil

open Parse Cursor

/-! ## Parsing -/

theorem exists_statements_of_parseTokens {file : String} {tokens : List Token} {b : Block}
    (h : parseTokens file tokens = .ok b) :
    ∃ depth d, Grammar.standard.rules depth .statements (.ofTokens file tokens) = .done b.body d ∧
      d.kind = .endOfInput := by
  obtain ⟨d, hrun, hd⟩ := parseTokens_eq_ok_iff.mp h
  unfold Grammar.run at hrun
  cases hdepth : Grammar.depthFrom (.ofTokens file tokens) with
  | zero =>
    rw [hdepth] at hrun
    cases hrun
  | succ depth =>
    rw [hdepth] at hrun
    have hblock : blockRule (Grammar.standard.rules depth) (.ofTokens file tokens) = .done b d := hrun
    simp only [blockRule, bind_eq_done_iff, current_eq_done_iff, pure_eq_done_iff] at hblock
    obtain ⟨_, _, ⟨rfl, rfl⟩, ss, e, hss, _, _, ⟨rfl, rfl⟩, rfl, rfl⟩ := hblock
    exact ⟨depth, e, hss, hd⟩

theorem parseTokens_of_statements {file : String} {tokens : List Token} {ss : List Stmt} {d : Cursor}
    {depth : Nat}
    (h : Grammar.standard.rules depth .statements (.ofTokens file tokens) = .done ss d)
    (hd : d.kind = .endOfInput) : ∃ b, parseTokens file tokens = .ok b ∧ b.body = ss := by
  have hclosed := closed_ofTokens file tokens
  have hblock : Grammar.standard.rules (depth + 1) .block (.ofTokens file tokens) =
      .done (.mk ss ((Cursor.ofTokens file tokens).current.span.merge d.current.span)) d := by
    show blockRule (Grammar.standard.rules depth) _ = _
    have hss : Rules.statements (Grammar.standard.rules depth) (.ofTokens file tokens) = .done ss d := h
    rw [blockRule, current_bind, bind_of_done hss]
    rfl
  -- The depth may be less than what a run is given, or more.
  have hle := Nat.le_max_left (depth + 1) (Grammar.depthFrom (.ofTokens file tokens))
  have hle' := Nat.le_max_right (depth + 1) (Grammar.depthFrom (.ofTokens file tokens))
  have hrun := (rules_eq_run (s := .block) hclosed trivial hle').symm.trans
    (rules_mono hclosed trivial hle hblock)
  exact ⟨_, parseTokens_eq_ok_iff.mpr ⟨d, hrun, hd⟩, rfl⟩

/-- Statements that start with the end of a line start behind it. -/
theorem rules_statements_of_endLine {c : Cursor} (ha : c.ahead ≠ []) (hk : c.kind = .endLine)
    (depth : Nat) :
    Grammar.standard.rules depth .statements c = Grammar.standard.rules depth .statements c.advance := by
  cases depth with
  | zero => rfl
  | succ depth => exact statementsRule_of_endLine ha hk

section

variable {file : String} {ts us : List Token} {e f l : Token} {b b' : Block}

/-- Tokens that are moved down are parsed to the same statements, moved down. -/
theorem statements_shift (hus : Endless us) (hf : f.kind = .endOfInput)
    (hb : parseTokens file (us ++ [f]) = .ok b) (n : Nat) :
    ∃ depth d, Grammar.standard.rules depth .statements
        (.ofTokens file ((us ++ [f]).map (Token.shift n))) =
          .done (b.body.map (Stmt.mapSpans (Span.shift n))) d ∧ d.kind = .endOfInput := by
  obtain ⟨depth, d, hss, hd⟩ := exists_statements_of_parseTokens hb
  let q : Sequel := ⟨file, Span.shift n, f.shift n, [], fun _ _ => rfl, .inl hf⟩
  have hend : q.start.kind = .endOfInput := hf
  have hskip : q.start.skipEndLines = q.start := skipEndLines_of_ne (by simp [hend])
  have hnone : Grammar.standard.rules 1 .statements q.start = .done [] q.start := by
    have hrun : statementsRule (Grammar.standard.rules 0) q.start = .done [] q.start.skipEndLines :=
      statementsRule_of_endsBlock (by rw [hskip, hend]; rfl)
    rw [hskip] at hrun
    exact hrun
  have hcontinues : q.Continues (.ofTokens file (us ++ [f]))
      (.ofTokens file ((us ++ [f]).map (Token.shift n))) := by
    refine ⟨us, f, hus, hf, ofTokens_append file hf, ?_⟩
    rw [List.map_append]
    exact ofTokens_append file (e := f.shift n) hf
  have hrun := statements_continue (.inl hcontinues) hss hd hend hnone
  rw [List.append_nil, Block.mapSpansAll_eq] at hrun
  exact ⟨_, _, hrun, hend⟩

/-- A line break between the tokens of two scripts joins their statements. -/
theorem parseTokens_join (hts : Endless ts) (he : e.kind = .endOfInput)
    (hb : parseTokens file (ts ++ [e]) = .ok b) (hl : l.kind = .endLine)
    (hus : Endless us) (hf : f.kind = .endOfInput) (hb' : parseTokens file (us ++ [f]) = .ok b')
    (n : Nat) :
    ∃ j, parseTokens file (ts ++ l :: (us ++ [f]).map (Token.shift n)) = .ok j ∧
      j.body = b.body ++ b'.body.map (Stmt.mapSpans (Span.shift n)) := by
  obtain ⟨depth, d, hss, hd⟩ := exists_statements_of_parseTokens hb
  obtain ⟨depth', d', hss', hd'⟩ := statements_shift hus hf hb' n
  generalize hlow : (us ++ [f]).map (Token.shift n) = low at hss' ⊢
  have hends : ∃ vs g, low = vs ++ [g] ∧ g.kind = .endOfInput :=
    ⟨us.map (Token.shift n), f.shift n, by rw [← hlow, List.map_append]; rfl, hf⟩
  have hne : low ≠ [] := by
    obtain ⟨vs, g, rfl, -⟩ := hends
    simp
  let q : Sequel := ⟨file, id, l, low, fun _ _ => rfl, .inr ⟨hl, hne⟩⟩
  have hpass : (Cursor.ofTokens file (ts ++ l :: low)).Passes ts q.start := by
    refine ⟨file_ofTokens file _, remaining_ofTokens file ?_⟩
    obtain ⟨vs, g, rfl, hg⟩ := hends
    exact ⟨ts ++ l :: vs, g, by simp, hg⟩
  have hcontinues : q.Continues (.ofTokens file (ts ++ [e])) (.ofTokens file (ts ++ l :: low)) := by
    refine ⟨ts, e, hts, he, ofTokens_append file he, ?_⟩
    have hsame : ts.map (Token.mapSpan q.move) = ts := List.map_id' ts
    rw [hsame]
    exact hpass
  have hadvance : q.start.advance = .ofTokens file low := by
    apply eq_of_remaining
    · rw [file_ofTokens]
      cases low <;> rfl
    · rw [remaining_ofTokens file hends]
      cases low with
      | nil => exact absurd rfl hne
      | cons v vs => rfl
  have hstart : Grammar.standard.rules depth' .statements q.start = _ :=
    (rules_statements_of_endLine (c := q.start) hne hl depth').trans (hadvance ▸ hss')
  have hrun := statements_continue (.inl hcontinues) hss hd
    ((closed_ofTokens file _).of_passes hpass) hstart
  have hsame : Block.mapSpansAll q.move b.body = b.body := by
    rw [Block.mapSpansAll_eq]
    exact (List.map_congr_left fun s _ => s.mapSpans_id).trans (List.map_id' b.body)
  rw [hsame] at hrun
  exact parseTokens_of_statements hrun hd'

end

/-- The script of two texts with a line break between them has the statements of both. -/
theorem Script.parse_join {name above below : String} {b b' : Block}
    (hb : Script.parse ⟨name, above⟩ = .ok b) (hb' : Script.parse ⟨name, below⟩ = .ok b')
    (hreturn : above.toList.getLast? ≠ some '\r') (hcomment : endMode above ≠ .blockComment) :
    ∃ ts n j, (tokenize name above).result = .ok (ts ++ [.endOfInput name n]) ∧
      Script.parse ⟨name, above ++ "\n" ++ below⟩ = .ok j ∧
      j.body = b.body ++ b'.body.map (Stmt.mapSpans (Span.shift n)) := by
  obtain ⟨tokens, hscan, hparse⟩ := Script.exists_tokens_of_parse hb
  obtain ⟨tokens', hscan', hparse'⟩ := Script.exists_tokens_of_parse hb'
  obtain ⟨ts, n, rfl, hjoin⟩ := tokenize_joined hscan hreturn hcomment
  have hts : Endless ts := by
    obtain ⟨vs, e, heq, -, hvs, -⟩ := Scanner.segmented_of_scan _ (scan_of_tokenize hscan)
    rwa [(List.append_inj' heq rfl).1]
  obtain ⟨us, f, rfl, hf, hus, -⟩ := Scanner.segmented_of_scan _ (scan_of_tokenize hscan')
  obtain ⟨j, hj, hbody⟩ := parseTokens_join hts rfl hparse (l := .endLine name n) rfl hus hf hparse' n
  refine ⟨ts, n, j, hscan, ?_, hbody⟩
  have hscanned := hjoin below
  rw [show (tokenize name below).result = .ok (us ++ [f]) from hscan'] at hscanned
  show (tokenize name (above ++ "\n" ++ below)).result.bind _ = _
  rw [hscanned]
  exact hj

/-! ## Tagging -/

section

variable {b b' j : Block} {n : Nat}

/-- Tagging the joined block does what tagging both blocks does, the second further down. -/
theorem Block.trace_join (h : j.body = b.body ++ b'.body.map (Stmt.mapSpans (Span.shift n))) :
    j.trace = b.trace ++ b'.trace.map (Action.shift n) := by
  have hmoved : (b'.body.map (Stmt.mapSpans (Span.shift n))).flatMap Stmt.trace =
      (b'.body.flatMap Stmt.trace).map (Action.shift n) := by
    rw [List.flatMap_map, List.map_flatMap, List.flatMap_def, List.flatMap_def]
    exact congrArg List.flatten (List.map_congr_left fun s _ => s.trace_shift n)
  rw [Block.trace_eq, h, List.flatMap_append, hmoved, Block.trace_eq, Block.trace_eq]

theorem Block.body_tagged_join
    (h : j.body = b.body ++ b'.body.map (Stmt.mapSpans (Span.shift n))) :
    j.tagged.body = b.tagged.body ++ b'.tagged.body.map (Stmt.mapSpans (Span.shift n)) := by
  rw [Block.tagged_eq, Block.tagged_eq, Block.tagged_eq]
  show j.body.map Stmt.tagged = b.body.map Stmt.tagged ++ (b'.body.map Stmt.tagged).map _
  rw [h, List.map_append, List.map_map, List.map_map]
  exact congrArg _ (List.map_congr_left fun s _ => s.tagged_mapSpans _)

theorem Script.isSome_known_join {s t u : Script} (h : j.records = b.records ++ b'.records)
    (cell : Cell) :
    ((u.taggedAs j .empty).scope.known cell).isSome = true ↔
      ((s.taggedAs b .empty).scope.known cell).isSome = true ∨
        ((t.taggedAs b' .empty).scope.known cell).isSome = true := by
  have hempty : (Scope.empty.fresh.known cell).isSome = false := by cases cell <;> rfl
  simp [Script.taggedAs, Scope.isSome_known_recordAll, h, hempty, or_and_right, exists_or]

end

/-- The highest number of an argument in either of two scopes. -/
theorem Scope.argCount_eq_max {s t u : Scope}
    (h : ∀ k, k ∈ u.args.keys ↔ k ∈ s.args.keys ∨ k ∈ t.args.keys) :
    u.argCount = max s.argCount t.argCount := by
  obtain ⟨hsle, hsmem⟩ := s.argCount_spec
  obtain ⟨htle, htmem⟩ := t.argCount_spec
  obtain ⟨hule, humem⟩ := u.argCount_spec
  have hs : s.argCount ≤ u.argCount := by
    rcases hsmem with hzero | hmem
    · omega
    · exact hule _ ((h _).mpr (.inl hmem))
  have ht : t.argCount ≤ u.argCount := by
    rcases htmem with hzero | hmem
    · omega
    · exact hule _ ((h _).mpr (.inr hmem))
  rcases humem with hzero | hmem
  · omega
  · rcases (h _).mp hmem with hmem | hmem
    · have := hsle _ hmem
      omega
    · have := htle _ hmem
      omega

/-- The script `v` is `t` and, moved down by `n` lines, `u`. -/
structure TaggedScript.Joins (t u v : TaggedScript) (n : Nat) : Prop where
  /-- The statements are those of the first, and then those of the second. -/
  body : v.procedure.body.body =
    t.procedure.body.body ++ u.procedure.body.body.map (Stmt.mapSpans (Span.shift n))
  /-- There are as many parameters as in that of the two which has more. -/
  params : v.procedure.params.length = max t.procedure.params.length u.procedure.params.length
  /-- The local variables are those of both. -/
  locals : ∀ name, name ∈ v.scope.locals.keys ↔ name ∈ t.scope.locals.keys ∨ name ∈ u.scope.locals.keys
  /-- The global variables are those of both. -/
  globals : ∀ name,
    name ∈ v.scope.globals.keys ↔ name ∈ t.scope.globals.keys ∨ name ∈ u.scope.globals.keys
  /-- The persistent variables are those of both. -/
  persistents : ∀ name,
    name ∈ v.scope.persistents.keys ↔ name ∈ t.scope.persistents.keys ∨ name ∈ u.scope.persistents.keys

/-- The joined script is tagged as both scripts are, the second further down. -/
theorem Script.joins_taggedAs {s t u : Script} {b b' j : Block} {n : Nat}
    (h : j.body = b.body ++ b'.body.map (Stmt.mapSpans (Span.shift n))) :
    (s.taggedAs b .empty).Joins (t.taggedAs b' .empty) (u.taggedAs j .empty) n := by
  have hrecords : j.records = b.records ++ b'.records := by
    rw [Block.records, Block.trace_join h, List.filterMap_append, filterMap_record?_shift]
    rfl
  have hknown := Script.isSome_known_join (s := s) (t := t) (u := u) hrecords
  have hargs : (u.taggedAs j .empty).scope.argCount =
      max (s.taggedAs b .empty).scope.argCount (t.taggedAs b' .empty).scope.argCount := by
    refine Scope.argCount_eq_max fun k => ?_
    rw [Scope.mem_keys_args, Scope.mem_keys_args, Scope.mem_keys_args]
    exact hknown (.arg k)
  constructor
  · exact Block.body_tagged_join h
  · simpa [Script.taggedAs, paramNames] using hargs
  · intro name
    rw [Scope.mem_keys_locals, Scope.mem_keys_locals, Scope.mem_keys_locals]
    exact hknown (.localSlot name)
  · intro name
    rw [Scope.mem_keys_globals, Scope.mem_keys_globals, Scope.mem_keys_globals]
    exact hknown (.globalSlot name)
  · intro name
    rw [Scope.mem_keys_persistents, Scope.mem_keys_persistents, Scope.mem_keys_persistents]
    exact hknown (.persistentSlot name)

/-! ## Analysis -/

/-- The script is analysed to `t` when it is the only one of its program. -/
def TaggedScript.IsAnalysisOf (t : TaggedScript) (s : Script) : Prop :=
  ∃ a, (analyze [s]).1 = .ok a ∧ a.scripts = [t]

/-- The analysis of `joined` is that of `first` and, moved down by `n` lines, that of `second`. -/
structure AnalysesJoin (first second joined : Script) (n : Nat) : Prop where
  /-- All three scripts can be analysed, and their trees and tables are joined. -/
  scripts : ∃ t u v : TaggedScript,
    t.IsAnalysisOf first ∧ u.IsAnalysisOf second ∧ v.IsAnalysisOf joined ∧ t.Joins u v n
  /-- The errors are those of the first, and then those of the second. -/
  errors : (analyze [joined]).2.errors =
    (analyze [first]).2.errors ++ (analyze [second]).2.errors.map (Diagnostic.shift n)
  /-- The warnings are those of the first, and then those of the second. -/
  warnings : (analyze [joined]).2.warnings =
    (analyze [first]).2.warnings ++ (analyze [second]).2.warnings.map (Diagnostic.shift n)

theorem collected_of_parse {s : Script} {b : Block} (h : s.parse = .ok b) :
    (analyze [s]).2.errors = b.errors ∧ (analyze [s]).2.warnings = b.warnings := by
  obtain ⟨herrors, hwarnings⟩ := collects_alone s
  rw [herrors, hwarnings, Script.errors, Script.warnings, h]
  exact ⟨rfl, rfl⟩

/-- If all three scripts can be parsed, the analysis of the joined one is that of both. -/
theorem analysesJoin_of_parse {s t u : Script} {b b' j : Block} {n : Nat} (hs : s.parse = .ok b)
    (ht : t.parse = .ok b') (hu : u.parse = .ok j)
    (hbody : j.body = b.body ++ b'.body.map (Stmt.mapSpans (Span.shift n))) :
    AnalysesJoin s t u n := by
  have htrace := Block.trace_join hbody
  obtain ⟨hserrors, hswarnings⟩ := collected_of_parse hs
  obtain ⟨hterrors, htwarnings⟩ := collected_of_parse ht
  obtain ⟨huerrors, huwarnings⟩ := collected_of_parse hu
  constructor
  · exact ⟨_, _, _, analyze_alone_of_parse hs, analyze_alone_of_parse ht, analyze_alone_of_parse hu,
      Script.joins_taggedAs hbody⟩
  · rw [hserrors, hterrors, huerrors, Block.errors, htrace, List.filterMap_append,
      filterMap_error?_shift]
    rfl
  · rw [hswarnings, htwarnings, huwarnings, Block.warnings, htrace, List.filterMap_append,
      filterMap_warning?_shift]
    rfl

/-- Joining two scripts with a line break joins their analyses: the second is moved down by as many lines
as the first has. The first may end neither with a carriage return nor in a comment without a closing. -/
theorem analyze_join {name above below : String} (habove : (Script.mk name above).Parses)
    (hbelow : (Script.mk name below).Parses) (hreturn : above.toList.getLast? ≠ some '\r')
    (hcomment : endMode above ≠ .blockComment) :
    ∃ ts n, (tokenize name above).result = .ok (ts ++ [.endOfInput name n]) ∧
      AnalysesJoin ⟨name, above⟩ ⟨name, below⟩ ⟨name, above ++ "\n" ++ below⟩ n := by
  obtain ⟨b, hb⟩ := habove
  obtain ⟨b', hb'⟩ := hbelow
  obtain ⟨ts, n, j, hscan, hj, hbody⟩ := Script.parse_join hb hb' hreturn hcomment
  exact ⟨ts, n, hscan, analysesJoin_of_parse hb hb' hj hbody⟩

/-- The last line above is a comment, both scripts have arguments, and what is found in the second is an
operand of another type and a number that is used as an integer. -/
theorem analyze_join_of_two :
    let above := "if($1 = 2)\n<>seen := \"a\nb\"\nend if // done"
    let below := "for($i; 1; 2.5)\ntotal := $3 + (1 + \"x\")\nend for"
    (Script.mk "unit" above).Parses ∧ (Script.mk "unit" below).Parses ∧
      above.toList.getLast? ≠ some '\r' ∧ endMode above ≠ .blockComment ∧
      ∃ ts n, (tokenize "unit" above).result = .ok (ts ++ [.endOfInput "unit" n]) ∧
        AnalysesJoin ⟨"unit", above⟩ ⟨"unit", below⟩ ⟨"unit", above ++ "\n" ++ below⟩ n := by
  intro above below
  have hparses : ∀ source ∈ [above, below],
      (Script.parse ⟨"unit", source⟩).toOption.isSome = true := by
    decide +kernel
  have hall : ∀ source ∈ [above, below], (Script.mk "unit" source).Parses := by
    intro source hmem
    obtain ⟨b, hb⟩ := Option.isSome_iff_exists.mp (hparses source hmem)
    exact ⟨b, eq_ok_of_toOption hb⟩
  have habove := hall above (by simp)
  have hbelow := hall below (by simp)
  have hreturn : above.toList.getLast? ≠ some '\r' := by decide +kernel
  have hcomment : endMode above ≠ .blockComment := by decide +kernel
  exact ⟨habove, hbelow, hreturn, hcomment, analyze_join habove hbelow hreturn hcomment⟩

end Sigil
