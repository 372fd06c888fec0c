import Sigil.Proofs.Passage
import Sigil.Proofs.Unplaced

/-!
# The grammar of the language

The grammar says which rows of tokens are expressions, statements and blocks, and which tree each of
them stands for. It does so without any parsing: `Phrase target s next ts tree` says that the tokens
`ts`, standing before a token of kind `next`, can be read as an `s` that is `tree`. Trees of the grammar
have no places.

What follows a row of tokens matters in two ways only. A bare name is a variable only if no parenthesis
follows it, and a statement may leave out the end of its line only before a token that ends the block.

Which expressions can be assigned to and counted with is a parameter of the grammar. In the language
they are the variables.
-/

namespace Sigil

/-- How a statement ends before a token of kind `next`. -/
inductive Ending (next : Kind) : List Token → Prop where
  /-- With the end of its line. -/
  | line {t : Token} (ht : t.kind = .endLine) : Ending next [t]
  /-- With nothing, where the block ends. -/
  | block (hnext : next.endsBlock = true) : Ending next []

/-- The tokens, before a token of kind `next`, are an `s` that stands for the given tree. -/
inductive Phrase (target : Expr → Prop) :
    (s : Nonterminal) → (next : Kind) → List Token → s.Tree → Prop where
  /-- `expression := primary`. -/
  | primary {next : Kind} {ts : List Token} {e : Expr}
      (h : Phrase target (.expr .primary) next ts e) :
      Phrase target (.expr .expression) next ts e
  /-- `expression := primary operator expression`. -/
  | binary {next : Kind} {ts us : List Token} {op : Token} {l r : Expr}
      (hl : Phrase target (.expr .primary) .operator ts l) (hop : op.kind = .operator)
      (hr : Phrase target (.expr .expression) next us r) :
      Phrase target (.expr .expression) next (ts ++ op :: us)
        (.binary op.value l r .undetermined .nowhere)
  /-- `primary := $ name | $ number`. -/
  | localVariable {next : Kind} {sigil name : Token} (hs : sigil.kind = .dollar)
      (hn : name.kind = .name ∨ name.kind = .number) :
      Phrase target (.expr .primary) next [sigil, name]
        (.var ⟨name.value, .localSlot⟩ .undetermined .nowhere)
  /-- `primary := <> name | <> number`. -/
  | persistentVariable {next : Kind} {sigil name : Token} (hs : sigil.kind = .diamond)
      (hn : name.kind = .name ∨ name.kind = .number) :
      Phrase target (.expr .primary) next [sigil, name]
        (.var ⟨name.value, .persistentSlot⟩ .undetermined .nowhere)
  /-- `primary := name`, unless a parenthesis follows. -/
  | globalVariable {next : Kind} {name : Token} (hn : name.kind = .name)
      (hnext : next ≠ .openParen) :
      Phrase target (.expr .primary) next [name]
        (.var ⟨name.value, .globalSlot⟩ .undetermined .nowhere)
  /-- `primary := name ( )`. -/
  | emptyCall {next : Kind} {name o p : Token} (hn : name.kind = .name)
      (ho : o.kind = .openParen) (hp : p.kind = .closeParen) :
      Phrase target (.expr .primary) next [name, o, p] (.call name.value [] .undetermined .nowhere)
  /-- `primary := name ( arguments )`. -/
  | call {next : Kind} {ts : List Token} {name o p : Token} {args : List Expr}
      (hn : name.kind = .name) (ho : o.kind = .openParen)
      (ha : Phrase target .arguments .closeParen ts args) (hp : p.kind = .closeParen) :
      Phrase target (.expr .primary) next (name :: o :: (ts ++ [p]))
        (.call name.value args .undetermined .nowhere)
  /-- `primary := number`. -/
  | number {next : Kind} {t : Token} (ht : t.kind = .number) :
      Phrase target (.expr .primary) next [t] (.literal t.value .number .nowhere)
  /-- `primary := string`. -/
  | string {next : Kind} {t : Token} (ht : t.kind = .string) :
      Phrase target (.expr .primary) next [t] (.literal t.value .string .nowhere)
  /-- `primary := ( expression )`, which stands for the tree inside. -/
  | grouping {next : Kind} {ts : List Token} {o p : Token} {e : Expr} (ho : o.kind = .openParen)
      (he : Phrase target (.expr .expression) .closeParen ts e) (hp : p.kind = .closeParen) :
      Phrase target (.expr .primary) next (o :: (ts ++ [p])) e
  /-- `primary := operator primary`. -/
  | unary {next : Kind} {ts : List Token} {op : Token} {e : Expr} (hop : op.kind = .operator)
      (he : Phrase target (.expr .primary) next ts e) :
      Phrase target (.expr .primary) next (op :: ts) (.unary op.value e .undetermined .nowhere)
  /-- `arguments := expression`. -/
  | lastArgument {next : Kind} {ts : List Token} {e : Expr}
      (he : Phrase target (.expr .expression) next ts e) :
      Phrase target .arguments next ts [e]
  /-- `arguments := expression ; arguments`. -/
  | moreArguments {next : Kind} {ts us : List Token} {sep : Token} {e : Expr} {es : List Expr}
      (he : Phrase target (.expr .expression) .semicolon ts e) (hsep : sep.kind = .semicolon)
      (hes : Phrase target .arguments next us es) :
      Phrase target .arguments next (ts ++ sep :: us) (e :: es)
  /-- `statement := expression end`. -/
  | expression {next : Kind} {ts zs : List Token} {e : Expr}
      (he : Phrase target (.expr .expression) (firstKind zs next) ts e) (hz : Ending next zs) :
      Phrase target (.stmt .statement) next (ts ++ zs) (.expression e .nowhere)
  /-- `statement := target := expression end`. -/
  | assign {next : Kind} {ts us zs : List Token} {a : Token} {e v : Expr}
      (he : Phrase target (.expr .expression) .assign ts e) (ht : target e)
      (ha : a.kind = .assign)
      (hv : Phrase target (.expr .expression) (firstKind zs next) us v) (hz : Ending next zs) :
      Phrase target (.stmt .statement) next (ts ++ a :: (us ++ zs)) (.assign e v .nowhere)
  /-- `statement := if ( expression ) block end if end`. -/
  | cond {next : Kind} {cs ys zs : List Token} {i o p f : Token} {c : Expr} {yes : Block}
      (hi : i.kind = .ifWord) (ho : o.kind = .openParen)
      (hc : Phrase target (.expr .expression) .closeParen cs c) (hp : p.kind = .closeParen)
      (hy : Phrase target .block .endIf ys yes) (hf : f.kind = .endIf) (hz : Ending next zs) :
      Phrase target (.stmt .statement) next (i :: o :: (cs ++ p :: (ys ++ f :: zs)))
        (.cond c yes none .nowhere)
  /-- `statement := if ( expression ) block else block end if end`. -/
  | condElse {next : Kind} {cs ys ns zs : List Token} {i o p w f : Token} {c : Expr}
      {yes no : Block} (hi : i.kind = .ifWord) (ho : o.kind = .openParen)
      (hc : Phrase target (.expr .expression) .closeParen cs c) (hp : p.kind = .closeParen)
      (hy : Phrase target .block .elseWord ys yes) (hw : w.kind = .elseWord)
      (hn : Phrase target .block .endIf ns no) (hf : f.kind = .endIf) (hz : Ending next zs) :
      Phrase target (.stmt .statement) next (i :: o :: (cs ++ p :: (ys ++ w :: (ns ++ f :: zs))))
        (.cond c yes (some no) .nowhere)
  /-- `statement := for ( target ; expression ; expression ) block end for end`. -/
  | count {next : Kind} {vs as bs ys zs : List Token} {w o s₁ s₂ p f : Token} {v a b : Expr}
      {body : Block} (hw : w.kind = .forWord) (ho : o.kind = .openParen)
      (hv : Phrase target (.expr .primary) .semicolon vs v) (ht : target v)
      (h₁ : s₁.kind = .semicolon)
      (ha : Phrase target (.expr .expression) .semicolon as a) (h₂ : s₂.kind = .semicolon)
      (hb : Phrase target (.expr .expression) .closeParen bs b) (hp : p.kind = .closeParen)
      (hy : Phrase target .block .endFor ys body) (hf : f.kind = .endFor) (hz : Ending next zs) :
      Phrase target (.stmt .statement) next
        (w :: o :: (vs ++ s₁ :: (as ++ s₂ :: (bs ++ p :: (ys ++ f :: zs)))))
        (.count v a b none body .nowhere)
  /-- `statement := for ( target ; expression ; expression ; expression ) block end for end`. -/
  | countBy {next : Kind} {vs as bs is ys zs : List Token} {w o s₁ s₂ s₃ p f : Token}
      {v a b i : Expr} {body : Block} (hw : w.kind = .forWord) (ho : o.kind = .openParen)
      (hv : Phrase target (.expr .primary) .semicolon vs v) (ht : target v)
      (h₁ : s₁.kind = .semicolon)
      (ha : Phrase target (.expr .expression) .semicolon as a) (h₂ : s₂.kind = .semicolon)
      (hb : Phrase target (.expr .expression) .semicolon bs b) (h₃ : s₃.kind = .semicolon)
      (hi : Phrase target (.expr .expression) .closeParen is i) (hp : p.kind = .closeParen)
      (hy : Phrase target .block .endFor ys body) (hf : f.kind = .endFor) (hz : Ending next zs) :
      Phrase target (.stmt .statement) next
        (w :: o :: (vs ++ s₁ :: (as ++ s₂ :: (bs ++ s₃ :: (is ++ p :: (ys ++ f :: zs))))))
        (.count v a b (some i) body .nowhere)
  /-- `statement := while ( expression ) block end while end`. -/
  | loop {next : Kind} {cs ys zs : List Token} {w o p f : Token} {c : Expr} {body : Block}
      (hw : w.kind = .whileWord) (ho : o.kind = .openParen)
      (hc : Phrase target (.expr .expression) .closeParen cs c) (hp : p.kind = .closeParen)
      (hy : Phrase target .block .endWhile ys body) (hf : f.kind = .endWhile)
      (hz : Ending next zs) :
      Phrase target (.stmt .statement) next (w :: o :: (cs ++ p :: (ys ++ f :: zs)))
        (.loop c body .nowhere)
  /-- `statement := repeat block until ( expression ) end`. -/
  | loopUntil {next : Kind} {cs ys zs : List Token} {w u o p : Token} {c : Expr} {body : Block}
      (hw : w.kind = .repeatWord) (hy : Phrase target .block .untilWord ys body)
      (hu : u.kind = .untilWord) (ho : o.kind = .openParen)
      (hc : Phrase target (.expr .expression) .closeParen cs c) (hp : p.kind = .closeParen)
      (hz : Ending next zs) :
      Phrase target (.stmt .statement) next (w :: (ys ++ u :: o :: (cs ++ p :: zs)))
        (.loopUntil body c .nowhere)
  /-- `statements :=`. -/
  | noStatement {next : Kind} : Phrase target .statements next [] []
  /-- `statements := end-of-line statements`. -/
  | blankLine {next : Kind} {ts : List Token} {t : Token} {ss : List Stmt}
      (ht : t.kind = .endLine) (hs : Phrase target .statements next ts ss) :
      Phrase target .statements next (t :: ts) ss
  /-- `statements := statement statements`. -/
  | moreStatements {next : Kind} {ts us : List Token} {s : Stmt} {ss : List Stmt}
      (hs : Phrase target (.stmt .statement) (firstKind us next) ts s)
      (hss : Phrase target .statements next us ss) :
      Phrase target .statements next (ts ++ us) (s :: ss)
  /-- `block := statements`. -/
  | block {next : Kind} {ts : List Token} {ss : List Stmt}
      (hs : Phrase target .statements next ts ss) :
      Phrase target .block next ts (.mk ss .nowhere)

/-- `script := block end-of-script`: the tokens stand for the given tree. -/
def Derives (tokens : List Token) (b : Block) : Prop :=
  ∃ ts e, tokens = ts ++ [e] ∧ e.kind = .endOfInput ∧
    Phrase (fun e => e.isVar = true) .block .endOfInput ts b

end Sigil
