import Lindenmayer.Arithmetic
import Lindenmayer.Text.Blank
import Lindenmayer.Text.Quoted
import Lindenmayer.Text.Digit
import Lindenmayer.Text.Newline
import Lindenmayer.RuleStore
import Lindenmayer.EventStream
import Lindenmayer.Expansion
import Lindenmayer.Parser.Expression
import Lindenmayer.Decimal.Shortest
import Lindenmayer.Decimal.Numeral
import Lindenmayer.Grammar.LSystem
import Lindenmayer.Drawing.Turtle
import Lindenmayer.Drawing.Svg
import Lindenmayer.Play
import Lindenmayer.Main
import Lindenmayer.Proofs.Expansion.Generation
import Lindenmayer.Proofs.Expansion.Composition
import Lindenmayer.Proofs.EventStream.Unfolding
import Lindenmayer.Proofs.EventStream.Agreement
import Lindenmayer.Proofs.Decimal.PlainNumeral
import Lindenmayer.Proofs.Grammar.FileFormat
import Lindenmayer.Proofs.Parser.Reading
import Lindenmayer.Proofs.Parser.Suffix
import Lindenmayer.Proofs.Parser.Recovery
import Lindenmayer.Proofs.Parser.Repetition
import Lindenmayer.Proofs.Grammar.Lexical
import Lindenmayer.Proofs.Grammar.Line
import Lindenmayer.Proofs.Grammar.Values
import Lindenmayer.Proofs.Grammar.Lines
import Lindenmayer.Proofs.Config.LastSetting
import Lindenmayer.Proofs.RuleStore.LastRule
import Lindenmayer.Proofs.Grammar.Acceptance
import Lindenmayer.Proofs.Grammar.Attribution
import Lindenmayer.Proofs.Grammar.Colors
import Lindenmayer.Proofs.Grammar.Loading
import Lindenmayer.Proofs.Grammar.Termination
import Lindenmayer.Proofs.Drawing.Stroke
import Lindenmayer.Proofs.Number.Infinity
import Lindenmayer.Proofs.Drawing.Calls
import Lindenmayer.Proofs.Drawing.Tracing
import Lindenmayer.Proofs.Play.Answers
import Lindenmayer.Proofs.Play.Collected
import Lindenmayer.Proofs.Play.Batches
import Lindenmayer.Proofs.Play.Nesting
import Lindenmayer.Proofs.EventStream.Depth
import Lindenmayer.Proofs.Play.Balanced
import Lindenmayer.Proofs.Drawing.Branches
import Lindenmayer.Proofs.Drawing.Atomicity
import Lindenmayer.Proofs.Drawing.Scaling
import Lindenmayer.Proofs.Stack.Laziness
import Lindenmayer.Proofs.Text.LineEnds
import Lindenmayer.Proofs.Parser.LineEnds
import Lindenmayer.Proofs.Grammar.LineEnds
import Lindenmayer.Proofs.Grammar.PlainFile
import Lindenmayer.Proofs.Source.Lockstep
import Lindenmayer.Proofs.RuleStore.Extensional
import Lindenmayer.Proofs.RuleStore.Construction
import Lindenmayer.Proofs.RuleStore.Propagating
import Lindenmayer.Proofs.EventStream.Growth
import Lindenmayer.Proofs.Grammar.PrintedRules
import Lindenmayer.Proofs.Grammar.LineOrder
import Lindenmayer.Proofs.Files.ZeroInPath
import Lindenmayer.Proofs.Play.Refusals
import Lindenmayer.Proofs.Command.Outcome
import Lindenmayer.Proofs.Command.Reports
import Lindenmayer.Proofs.Command.Traceless
import Lindenmayer.Proofs.Command.Unread
import Lindenmayer.Proofs.ErrorRecord.Distinct
import Lindenmayer.Proofs.Text.Quoted
import Lindenmayer.Proofs.Command.Listing
import Lindenmayer.Proofs.Command.Sampling
import Lindenmayer.Proofs.Markup.Layout
import Lindenmayer.Proofs.Decimal.FixedNumeral
import Lindenmayer.Proofs.Drawing.Numerals
import Lindenmayer.Proofs.Command.Overflow
import Lindenmayer.Proofs.Command.Account
import Lindenmayer.Proofs.Command.InvalidBounds
import Lindenmayer.Proofs.Decimal.Value
import Lindenmayer.Proofs.Decimal.Trimming
import Lindenmayer.Proofs.Drawing.NegativeZero
import Lindenmayer.Proofs.Drawing.Extents
