import Annotations.CommandLine.Arguments
import Annotations.CommandLine.Run
import Annotations.Diagnostic
import Annotations.Document
import Annotations.Fault
import Annotations.Literal
import Annotations.Main
import Annotations.Number.Binary64
import Annotations.Number.Decimal
import Annotations.Number.FloatStyle
import Annotations.Number.Reading
import Annotations.Number.Shortest
import Annotations.Outline
import Annotations.Parser.Rules
import Annotations.Parser.State
import Annotations.Proofs.Literal.Fold
import Annotations.Proofs.Number.Nearest
import Annotations.Proofs.Number.ReadBack
import Annotations.Proofs.Number.Rounding
import Annotations.Proofs.Parser.Acceptance
import Annotations.Proofs.Parser.Accepts
import Annotations.Proofs.Parser.Grammar
import Annotations.Proofs.Parser.Lists
import Annotations.Proofs.Tag.Nesting
import Annotations.Proofs.Tag.Printable
import Annotations.Proofs.Tag.RoundTrip
import Annotations.Proofs.Tag.Spelling
import Annotations.Proofs.Tag.Unquoted
import Annotations.Proofs.Text.Classes
import Annotations.Proofs.Token.Cut
import Annotations.Proofs.Token.Lexeme
import Annotations.Proofs.Token.Tokenisation
import Annotations.Settings
import Annotations.Source.Cursor
import Annotations.Source.Position
import Annotations.Tag.Basic
import Annotations.Tag.Canonical
import Annotations.Tag.Document
import Annotations.Tag.Outline
import Annotations.Tag.Reading
import Annotations.Text.Blank
import Annotations.Text.Bytes
import Annotations.Text.CodeRange
import Annotations.Text.Invisible
import Annotations.Text.Letter
import Annotations.Text.Line
import Annotations.Text.Numeral
import Annotations.Text.Quoted
import Annotations.Token.Basic
import Annotations.Token.Scan
import Annotations.Proofs.Parser.Lockstep
import Annotations.Proofs.Parser.NestingLimit
import Annotations.Proofs.Parser.Sentences
import Annotations.Proofs.Parser.Failures
import Annotations.Proofs.Parser.CorrectPrefix
import Annotations.Proofs.Tag.Spacing
import Annotations.Proofs.Tag.Pointing
import Annotations.Proofs.Parser.Loops
import Annotations.Proofs.Parser.Cursor
import Annotations.Proofs.Parser.Calls
import Annotations.Proofs.Parser.Lookahead
import Annotations.Proofs.Text.Places
import Annotations.Proofs.Token.Joining
import Annotations.Proofs.Tag.Trailing
import Annotations.Proofs.Tag.Caret
import Annotations.Proofs.Tag.Positions
import Annotations.Proofs.Tag.Labels
import Annotations.Proofs.CommandLine.Reached
import Annotations.Proofs.CommandLine.LineByLine
import Annotations.Proofs.Number.Styles
import Annotations.Proofs.Tag.OneLine
import Annotations.Proofs.CommandLine.FixedPoint
import Annotations.Proofs.Document.Legible
import Annotations.Proofs.Tag.Json
import Annotations.Proofs.CommandLine.JsonLines
import Annotations.Proofs.Token.Refusals
import Annotations.Proofs.Parser.FoldedLists
import Annotations.Proofs.Tag.Trimmed
import Annotations.Proofs.CommandLine.LineNumbers
import Annotations.Proofs.CommandLine.Argument
import Annotations.Proofs.Text.Offsets
import Annotations.Proofs.Tag.Detached
import Annotations.Proofs.Parser.Braces
