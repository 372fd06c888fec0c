import Sigil.Grammar.Rules

/-!
# Readers

A reader is a cursor in a row of tokens, with the grammar that is parsed by from there on. It takes
requests: to look at what it stands at, to move on, to parse, or to change its grammar. A request may
fail, and the reader then takes the next one from where it has stopped.
-/

namespace Sigil

/-- What a reader can be asked for. -/
inductive Request where
  /-- The token that the reader stands at. -/
  | current
  /-- The kind of that token. -/
  | kind
  /-- The kind of the token `offset` places ahead. -/
  | peek (offset : Nat)
  /-- The line of the token that the reader stands at. -/
  | position
  /-- What is wrong with that token, as `message` says. -/
  | misplaced (message : String)
  /-- To move on by one token. -/
  | advance
  /-- To move on by a token of kind `k`. -/
  | expect (k : Kind)
  /-- To move on by a token of kind `k`, or to fail as `problem` says. -/
  | expectOr (k : Kind) (problem : Cursor → Diagnostic)
  /-- To move on past the ends of lines. -/
  | skipEndLines
  /-- To parse a nonterminal. -/
  | parse (s : Nonterminal)
  /-- The grammar. -/
  | grammar
  /-- To put the entries of the language over those of the grammar. -/
  | addStandard
  /-- To enter a rule for operands that start with a token of kind `k`. -/
  | addPrimary (k : Kind) (rule : ExprRule)
  /-- To enter a rule for statements that start with a token of kind `k`. -/
  | addStatement (k : Kind) (rule : StmtRule)

namespace Request

/-- What a request gives. -/
abbrev Value : Request → Type
  | current => Token
  | kind => Kind
  | peek _ => Kind
  | position => Position
  | misplaced _ => Diagnostic
  | advance => Token
  | expect _ => Token
  | expectOr _ _ => Token
  | skipEndLines => Unit
  | parse s => s.Tree
  | grammar => Grammar
  | addStandard => Unit
  | addPrimary _ _ => Unit
  | addStatement _ _ => Unit

/-- The parsing step that a request is for, under the grammar `g`. What it parses is called for. -/
def step (g : Grammar) (r : Rules) : (q : Request) → Parse q.Value
  | current => Parse.current
  | kind => Parse.look Cursor.kind
  | peek offset => Parse.peek offset
  | position => Parse.look Cursor.position
  | misplaced message => Parse.look (Cursor.misplaced message)
  | advance => Parse.advance
  | expect k => Parse.expect k
  | expectOr k problem => Parse.expectOr k problem
  | skipEndLines => Parse.skipEndLines
  | parse s => r s
  | grammar => pure g
  | addStandard => pure ()
  | addPrimary _ _ => pure ()
  | addStatement _ _ => pure ()

/-- The grammar after a request. -/
def revise (g : Grammar) : Request → Grammar
  | addStandard => g.withStandard
  | addPrimary k rule => g.withPrimary k rule
  | addStatement k rule => g.withStatement k rule
  | _ => g

end Request

/-- A place in a row of tokens, and what it is parsed by. -/
@[ext]
structure Reader where
  /-- The grammar. -/
  grammar : Grammar
  /-- The place. -/
  cursor : Cursor

/-- One request, taken. -/
structure Reader.Step (α : Type) where
  /-- What was asked for, or what is wrong. -/
  result : Except Diagnostic α
  /-- The reader after the request. -/
  next : Reader

namespace Reader

/-- The reader at the first of the given tokens. -/
def ofTokens (g : Grammar) (file : String) (tokens : List Token) : Reader :=
  ⟨g, .ofTokens file tokens⟩

/-- Takes a request, unless it goes in circles. -/
def serve? (r : Reader) (q : Request) : Option (Step q.Value) :=
  match q.step r.grammar r.grammar.run r.cursor with
  | .done a c => some ⟨.ok a, ⟨q.revise r.grammar, c⟩⟩
  | .failed d c => some ⟨.error d, ⟨q.revise r.grammar, c⟩⟩
  | .circular => none

/-- The reader after some requests, unless one of them goes in circles. -/
def after? (r : Reader) : List Request → Option Reader
  | [] => some r
  | q :: qs => (r.serve? q).bind fun step => step.next.after? qs

end Reader

end Sigil
