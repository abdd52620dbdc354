import Lexiscope.CommandLine.Disk
import Lexiscope.CommandLine.Folder
import Lexiscope.CommandLine.Invocation
import Lexiscope.CommandLine.Options
import Lexiscope.Decimal.Nearest
import Lexiscope.Decimal.Shortest
import Lexiscope.Decimal.Text
import Lexiscope.Diagnostic
import Lexiscope.Eval.Fault
import Lexiscope.Eval.Machine
import Lexiscope.Eval.Operation
import Lexiscope.Eval.Run
import Lexiscope.Journal.Event
import Lexiscope.Journal.Filter
import Lexiscope.Journal.Pattern
import Lexiscope.Main
import Lexiscope.Proofs.Braced.Basic
import Lexiscope.Proofs.Braced.Run
import Lexiscope.Proofs.Braced.Session
import Lexiscope.Proofs.Braced.Store
import Lexiscope.Proofs.Curbed.Depth
import Lexiscope.Proofs.Curbed.Output
import Lexiscope.Proofs.Curbed.Passage
import Lexiscope.Proofs.Curbed.Run
import Lexiscope.Proofs.Decimal.Double
import Lexiscope.Proofs.Decimal.ReadBack
import Lexiscope.Proofs.Eval.Comparison
import Lexiscope.Proofs.Eval.Effects
import Lexiscope.Proofs.Eval.Ending
import Lexiscope.Proofs.Eval.Evaluator
import Lexiscope.Proofs.Eval.Fuel
import Lexiscope.Proofs.Eval.Names
import Lexiscope.Proofs.Eval.Reach
import Lexiscope.Proofs.Eval.Sequence
import Lexiscope.Proofs.Eval.Sites
import Lexiscope.Proofs.Eval.Upkeep
import Lexiscope.Proofs.Eval.Walk
import Lexiscope.Proofs.Eval.WellFormed
import Lexiscope.Proofs.Grammar.Basic
import Lexiscope.Proofs.Grammar.Completeness
import Lexiscope.Proofs.Grammar.Moved
import Lexiscope.Proofs.Grammar.Seam
import Lexiscope.Proofs.Grammar.Soundness
import Lexiscope.Proofs.Grammar.WellFormed
import Lexiscope.Proofs.Lexical.Basic
import Lexiscope.Proofs.Lexical.Comment
import Lexiscope.Proofs.Lexical.Echo
import Lexiscope.Proofs.Lexical.Fault
import Lexiscope.Proofs.Lexical.Gap
import Lexiscope.Proofs.Lexical.Halt
import Lexiscope.Proofs.Lexical.Lines
import Lexiscope.Proofs.Lexical.Literal
import Lexiscope.Proofs.Lexical.Munch
import Lexiscope.Proofs.Lexical.Places
import Lexiscope.Proofs.Lexical.Resume
import Lexiscope.Proofs.Lexical.Split
import Lexiscope.Proofs.Lexical.Unclosed
import Lexiscope.Proofs.Lockstep.Run
import Lexiscope.Proofs.Lockstep.Session
import Lexiscope.Proofs.Lockstep.Similar
import Lexiscope.Proofs.Lockstep.Store
import Lexiscope.Proofs.Lockstep.Syntax
import Lexiscope.Proofs.Nesting.Deepest
import Lexiscope.Proofs.Nesting.Filter
import Lexiscope.Proofs.Nesting.Height
import Lexiscope.Proofs.Printing.Derived
import Lexiscope.Proofs.Printing.Formed
import Lexiscope.Proofs.Printing.Layout
import Lexiscope.Proofs.Printing.Pieces
import Lexiscope.Proofs.Printing.Quote
import Lexiscope.Proofs.Printing.Respaced
import Lexiscope.Proofs.Printing.Survival
import Lexiscope.Proofs.Provenance.Literal
import Lexiscope.Proofs.Provenance.Parse
import Lexiscope.Proofs.Provenance.Session
import Lexiscope.Proofs.Renaming.Confined
import Lexiscope.Proofs.Renaming.Copy
import Lexiscope.Proofs.Renaming.Run
import Lexiscope.Proofs.Renaming.Store
import Lexiscope.Proofs.Session.Concatenation
import Lexiscope.Proofs.Session.Host
import Lexiscope.Proofs.Session.Recovery
import Lexiscope.Proofs.Shell.Alongside
import Lexiscope.Proofs.Shell.Cut
import Lexiscope.Proofs.Shell.Lines
import Lexiscope.Proofs.Store.Basic
import Lexiscope.Proofs.Store.Isolation
import Lexiscope.Proofs.Store.Lookup
import Lexiscope.Proofs.Store.Plain
import Lexiscope.Proofs.Store.Upkeep
import Lexiscope.Proofs.Store.WellFormed
import Lexiscope.Proofs.Syntax.Tokens
import Lexiscope.Proofs.Text.Utf8
import Lexiscope.Proofs.Viable.EndMarker
import Lexiscope.Proofs.Viable.Expression
import Lexiscope.Proofs.Viable.Program
import Lexiscope.Proofs.Viable.Series
import Lexiscope.Proofs.Viable.Statement
import Lexiscope.Proofs.Viable.Steps
import Lexiscope.Scope
import Lexiscope.Session
import Lexiscope.Shell
import Lexiscope.Sink
import Lexiscope.Syntax.Basic
import Lexiscope.Syntax.Outline
import Lexiscope.Syntax.Parser
import Lexiscope.Syntax.Print
import Lexiscope.Text.Alphanumeric
import Lexiscope.Text.Blank
import Lexiscope.Text.CodeSet
import Lexiscope.Text.Digits
import Lexiscope.Text.Escape
import Lexiscope.Text.Extender
import Lexiscope.Text.Utf8
import Lexiscope.Text.Visible
import Lexiscope.Token.Basic
import Lexiscope.Token.Lexer
import Lexiscope.Value
