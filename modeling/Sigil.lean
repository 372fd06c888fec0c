import Sigil.Text.CharSet
import Sigil.Text.Blank
import Sigil.Text.Alphabetic
import Sigil.Text.Lowercase
import Sigil.Text.Quoted
import Sigil.Text.Digits
import Sigil.Text.Pieces
import Sigil.Text.Similarity
import Sigil.Source.Position
import Sigil.Source.Lines
import Sigil.Token.Kind
import Sigil.Token.Basic
import Sigil.Token.Name
import Sigil.Token.Lexer
import Sigil.Token.Lexeme
import Sigil.Token.Scanner
import Sigil.Diagnostic.Basic
import Sigil.Diagnostic.Excerpt
import Sigil.Tree.Ty
import Sigil.Tree.Variable
import Sigil.Tree.Expr
import Sigil.Tree.Stmt
import Sigil.Tree.Outline
import Sigil.Grammar.Cursor
import Sigil.Grammar.Parse
import Sigil.Grammar.Table
import Sigil.Grammar.Rules
import Sigil.Grammar.Reader
import Sigil.Grammar.Progress
import Sigil.Typing.Table
import Sigil.Typing.Scope
import Sigil.Typing.Session
import Sigil.Typing.Tagging
import Sigil.Log.Event
import Sigil.Log.Filter
import Sigil.Program.Script
import Sigil.Program.Analysis
import Sigil.Lowering.Numeral
import Sigil.Lowering.Builtin
import Sigil.Lowering.Environment
import Sigil.Lowering.Check
import Sigil.Lowering.Program
import Sigil.CommandLine.Parameter
import Sigil.CommandLine.Usage
import Sigil.CommandLine.Invocation
import Sigil.CommandLine.Input
import Sigil.CommandLine.Volume
import Sigil.CommandLine.Run
import Sigil.Main
import Sigil.Proofs.Passage
import Sigil.Proofs.Phrase
import Sigil.Proofs.Acceptance
import Sigil.Proofs.Legibility
import Sigil.Proofs.TreeInduction
import Sigil.Proofs.RoundTrip
import Sigil.Proofs.ScopeCells
import Sigil.Proofs.TagTrace
import Sigil.Proofs.Retagging
import Sigil.Proofs.Segments
import Sigil.Proofs.Occurrence
import Sigil.Proofs.ScriptByScript
import Sigil.Proofs.NestedScopes
import Sigil.Proofs.Slots
import Sigil.Proofs.ScopeTables
import Sigil.Proofs.Arguments
import Sigil.Proofs.Outcome
import Sigil.Proofs.Locality
import Sigil.Proofs.LooseGrammar
import Sigil.Proofs.FirstFault
import Sigil.Proofs.LineCount
import Sigil.Proofs.Placement
import Sigil.Proofs.ShownLines
import Sigil.Proofs.Reports
import Sigil.Proofs.BreakStyle
import Sigil.Proofs.TextModes
import Sigil.Proofs.Displacement
import Sigil.Proofs.TokenJoin
import Sigil.Proofs.Continuation
import Sigil.Proofs.ScriptJoin
import Sigil.Proofs.Violations
import Sigil.Proofs.Annotation
import Sigil.Proofs.NameForm
import Sigil.Proofs.TokenLines
import Sigil.Proofs.SpanNesting
import Sigil.Proofs.ScannerCalls
import Sigil.Proofs.OpenQuote
import Sigil.Proofs.Plans
import Sigil.Proofs.Depth
import Sigil.Proofs.NestedCalls
import Sigil.Proofs.Spelling
import Sigil.Proofs.OutlineText
import Sigil.Proofs.TreeText
import Sigil.Proofs.ShownTrees
import Sigil.Proofs.CanonicalName
import Sigil.Proofs.CallableScripts
import Sigil.Proofs.Numerals
import Sigil.Proofs.CommentLines
import Sigil.Proofs.LogAgreement
import Sigil.Proofs.ReaderRuns
