import ScriptFront.Text.Ranges
import ScriptFront.Text.Blank
import ScriptFront.Text.Printable
import ScriptFront.Text.Extend
import ScriptFront.Text.Quote
import ScriptFront.Source.Position
import ScriptFront.Source.Line
import ScriptFront.Diagnostic.Fault
import ScriptFront.Diagnostic.Render
import ScriptFront.Token.Kind
import ScriptFront.Token.Basic
import ScriptFront.Token.Lexeme
import ScriptFront.Token.Escape
import ScriptFront.Token.Scan
import ScriptFront.Token.Cursor
import ScriptFront.Token.Session
import ScriptFront.Tree.Type
import ScriptFront.Tree.Basic
import ScriptFront.Tree.Operator
import ScriptFront.Tree.Print
import ScriptFront.Grammar.Read
import ScriptFront.Grammar.Type
import ScriptFront.Grammar.Names
import ScriptFront.Grammar.Operand
import ScriptFront.Grammar.Phrase
import ScriptFront.Tree.Same
import ScriptFront.Program
import ScriptFront.Grammar.Rule
import ScriptFront.Main
import ScriptFront.Proofs.Scan.Progress
import ScriptFront.Proofs.Grammar.Steps
import ScriptFront.Proofs.Grammar.Unfold
import ScriptFront.Proofs.Grammar.Readers
import ScriptFront.Proofs.Grammar.Derivation
import ScriptFront.Proofs.Grammar.Soundness
import ScriptFront.Proofs.Tree.Shape
import ScriptFront.Proofs.Grammar.Shaped
import ScriptFront.Proofs.Program.Budget
import ScriptFront.Proofs.Grammar.Tail
import ScriptFront.Proofs.Program.Compose
import ScriptFront.Proofs.Print.Lexes
import ScriptFront.Proofs.Print.ReadExpr
import ScriptFront.Proofs.Print.ReadStmt
import ScriptFront.Proofs.Print.ScanText
import ScriptFront.Proofs.Print.Indent
import ScriptFront.Proofs.Print.ScanPrinted
import ScriptFront.Proofs.Print.RoundTrip
import ScriptFront.Proofs.Grammar.Faults
import ScriptFront.Proofs.Scan.Munch
import ScriptFront.Proofs.Scan.Places
import ScriptFront.Proofs.Grammar.Precedence
import ScriptFront.Proofs.Grammar.Targets
import ScriptFront.Proofs.Grammar.Loop
import ScriptFront.Proofs.Grammar.Params
import ScriptFront.Proofs.Print.Groups
import ScriptFront.Proofs.Print.Necessary
import ScriptFront.Proofs.Grammar.Chain
import ScriptFront.Proofs.Grammar.Declare
import ScriptFront.Proofs.Tree.Anchors
import ScriptFront.Proofs.Grammar.Positions
import ScriptFront.Proofs.Grammar.ErrorPlaces
import ScriptFront.Proofs.Diagnostic.Caret
import ScriptFront.Proofs.Token.Stream
import ScriptFront.Proofs.Print.Layout
