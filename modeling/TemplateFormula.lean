import TemplateFormula.Builtin.Basic
import TemplateFormula.Builtin.Date
import TemplateFormula.Builtin.Math
import TemplateFormula.Builtin.Money
import TemplateFormula.Builtin.Table
import TemplateFormula.Builtin.Text
import TemplateFormula.Calendar.Day
import TemplateFormula.Calendar.Field
import TemplateFormula.Calendar.Iso
import TemplateFormula.Calendar.Layout
import TemplateFormula.Calendar.Period
import TemplateFormula.Calendar.Reader
import TemplateFormula.Calendar.Relative
import TemplateFormula.Calendar.Span
import TemplateFormula.Calendar.Stamp
import TemplateFormula.Calendar.Unit
import TemplateFormula.Calendar.Zone
import TemplateFormula.Command
import TemplateFormula.Evaluation.Call
import TemplateFormula.Evaluation.Error
import TemplateFormula.Evaluation.Evaluator
import TemplateFormula.Evaluation.Machine
import TemplateFormula.Evaluation.Options
import TemplateFormula.Evaluation.Pipeline
import TemplateFormula.Evaluation.Summary
import TemplateFormula.Expr
import TemplateFormula.Expr.Equality
import TemplateFormula.Filter.Basic
import TemplateFormula.Filter.Collection
import TemplateFormula.Filter.Condition
import TemplateFormula.Filter.Date
import TemplateFormula.Filter.Number
import TemplateFormula.Filter.Table
import TemplateFormula.Filter.Text
import TemplateFormula.Json.Printer
import TemplateFormula.Json.Reader
import TemplateFormula.Main
import TemplateFormula.Number.Exact
import TemplateFormula.Number.FixedPoint
import TemplateFormula.Number.Layout
import TemplateFormula.Number.Numeral
import TemplateFormula.Number.Rounding
import TemplateFormula.Number.Shortest
import TemplateFormula.Number.Size
import TemplateFormula.Operator
import TemplateFormula.Proofs.Builtin.Money
import TemplateFormula.Proofs.Builtin.Reading
import TemplateFormula.Proofs.Builtin.Summing
import TemplateFormula.Proofs.Buffered.Discipline
import TemplateFormula.Proofs.Buffered.Following
import TemplateFormula.Proofs.Buffered.Parser
import TemplateFormula.Proofs.Buffered.Reachable
import TemplateFormula.Proofs.Calendar.Comparing
import TemplateFormula.Proofs.Calendar.Counting
import TemplateFormula.Proofs.Calendar.Flooring
import TemplateFormula.Proofs.Calendar.Months
import TemplateFormula.Proofs.Calendar.Patterns
import TemplateFormula.Proofs.Calendar.Periods
import TemplateFormula.Proofs.Calendar.Returning
import TemplateFormula.Proofs.Calendar.Swapping
import TemplateFormula.Proofs.Continuing.Conditionals
import TemplateFormula.Proofs.Continuing.Cursors
import TemplateFormula.Proofs.Continuing.Expressions
import TemplateFormula.Proofs.Continuing.Heads
import TemplateFormula.Proofs.Continuing.Islands
import TemplateFormula.Proofs.Continuing.Minus
import TemplateFormula.Proofs.Continuing.Operands
import TemplateFormula.Proofs.Continuing.Sources
import TemplateFormula.Proofs.Evaluation.Chains
import TemplateFormula.Proofs.Evaluation.Comparison
import TemplateFormula.Proofs.Evaluation.Correspondence
import TemplateFormula.Proofs.Evaluation.Counting
import TemplateFormula.Proofs.Evaluation.Filtering
import TemplateFormula.Proofs.Evaluation.FreeText
import TemplateFormula.Proofs.Evaluation.Islands
import TemplateFormula.Proofs.Evaluation.Isolation
import TemplateFormula.Proofs.Evaluation.Items
import TemplateFormula.Proofs.Evaluation.Leading
import TemplateFormula.Proofs.Evaluation.Limits
import TemplateFormula.Proofs.Evaluation.Lockstep
import TemplateFormula.Proofs.Evaluation.Nesting
import TemplateFormula.Proofs.Evaluation.Noninterference
import TemplateFormula.Proofs.Evaluation.Parameters
import TemplateFormula.Proofs.Evaluation.Randomless
import TemplateFormula.Proofs.Evaluation.Registration
import TemplateFormula.Proofs.Evaluation.Rules
import TemplateFormula.Proofs.Evaluation.Scopes
import TemplateFormula.Proofs.Evaluation.Setting
import TemplateFormula.Proofs.Evaluation.Shortcuts
import TemplateFormula.Proofs.Evaluation.Simulation
import TemplateFormula.Proofs.Evaluation.SourceOrder
import TemplateFormula.Proofs.Evaluation.Termination
import TemplateFormula.Proofs.Expr.Layer
import TemplateFormula.Proofs.Expr.Numbering
import TemplateFormula.Proofs.Filter.Distinct
import TemplateFormula.Proofs.Filter.Encodings
import TemplateFormula.Proofs.Filter.Sorting
import TemplateFormula.Proofs.Json.Expression
import TemplateFormula.Proofs.Json.Form
import TemplateFormula.Proofs.Json.RoundTrip
import TemplateFormula.Proofs.Json.Scalars
import TemplateFormula.Proofs.Lexing.Breaks
import TemplateFormula.Proofs.Lexing.Closing
import TemplateFormula.Proofs.Lexing.Continuing
import TemplateFormula.Proofs.Lexing.Enclosing
import TemplateFormula.Proofs.Lexing.Following
import TemplateFormula.Proofs.Lexing.Joining
import TemplateFormula.Proofs.Lexing.Lines
import TemplateFormula.Proofs.Lexing.Literals
import TemplateFormula.Proofs.Lexing.Modes
import TemplateFormula.Proofs.Lexing.Outcomes
import TemplateFormula.Proofs.Lexing.Pieces
import TemplateFormula.Proofs.Lexing.Places
import TemplateFormula.Proofs.Lexing.Progress
import TemplateFormula.Proofs.Lexing.Reading
import TemplateFormula.Proofs.Lexing.Spots
import TemplateFormula.Proofs.Lexing.Tiling
import TemplateFormula.Proofs.Number.Conversion
import TemplateFormula.Proofs.Number.Decimals
import TemplateFormula.Proofs.Number.Digits
import TemplateFormula.Proofs.Number.Doubles
import TemplateFormula.Proofs.Number.Hexadecimal
import TemplateFormula.Proofs.Number.Integers
import TemplateFormula.Proofs.Number.Order
import TemplateFormula.Proofs.Number.Prefixes
import TemplateFormula.Proofs.Number.Sums
import TemplateFormula.Proofs.Number.Whole
import TemplateFormula.Proofs.Parsing.Combinators
import TemplateFormula.Proofs.Parsing.Deepening
import TemplateFormula.Proofs.Parsing.Depth
import TemplateFormula.Proofs.Parsing.Enclosing
import TemplateFormula.Proofs.Parsing.Endings
import TemplateFormula.Proofs.Parsing.Expressions
import TemplateFormula.Proofs.Parsing.FreeText
import TemplateFormula.Proofs.Parsing.Height
import TemplateFormula.Proofs.Parsing.Joining
import TemplateFormula.Proofs.Parsing.Operands
import TemplateFormula.Proofs.Parsing.Pairing
import TemplateFormula.Proofs.Parsing.Precedence
import TemplateFormula.Proofs.Parsing.Spending
import TemplateFormula.Proofs.Printing.Embedding
import TemplateFormula.Proofs.Printing.Flat
import TemplateFormula.Proofs.Printing.Lexing
import TemplateFormula.Proofs.Printing.Numeral
import TemplateFormula.Proofs.Printing.Parsing
import TemplateFormula.Proofs.Printing.Quote
import TemplateFormula.Proofs.Printing.RoundTrip
import TemplateFormula.Proofs.Printing.Written
import TemplateFormula.Proofs.Relabeling.Builtin
import TemplateFormula.Proofs.Relabeling.Collection
import TemplateFormula.Proofs.Relabeling.Filter
import TemplateFormula.Proofs.Relabeling.Json
import TemplateFormula.Proofs.Relabeling.Likeness
import TemplateFormula.Proofs.Relabeling.Observation
import TemplateFormula.Proofs.Relabeling.Value
import TemplateFormula.Proofs.Renaming.Options
import TemplateFormula.Proofs.Renaming.Value
import TemplateFormula.Proofs.Rendering.Document
import TemplateFormula.Proofs.Rendering.Embedding
import TemplateFormula.Proofs.Rendering.Escaping
import TemplateFormula.Proofs.Rendering.Joining
import TemplateFormula.Proofs.Resolving.Agreement
import TemplateFormula.Proofs.Resolving.Segments
import TemplateFormula.Proofs.Resolving.Shorthand
import TemplateFormula.Proofs.Resolving.Words
import TemplateFormula.Proofs.Text.CamelCase
import TemplateFormula.Proofs.Text.CodePoints
import TemplateFormula.Proofs.Text.Percent
import TemplateFormula.Proofs.Text.Positions
import TemplateFormula.Proofs.Text.Splitting
import TemplateFormula.Proofs.Text.Utf8
import TemplateFormula.Proofs.Value.Comparison
import TemplateFormula.Proofs.Value.Indexing
import TemplateFormula.Proofs.Value.Members
import TemplateFormula.Render
import TemplateFormula.Resolver
import TemplateFormula.Source.Cursor
import TemplateFormula.Source.Lexer
import TemplateFormula.Source.Parser
import TemplateFormula.Source.Position
import TemplateFormula.Source.Primary
import TemplateFormula.Source.Scan
import TemplateFormula.Source.Token
import TemplateFormula.Text.Alphabetic
import TemplateFormula.Text.Base64
import TemplateFormula.Text.Blank
import TemplateFormula.Text.CamelCase
import TemplateFormula.Text.Case
import TemplateFormula.Text.Escape
import TemplateFormula.Text.Html
import TemplateFormula.Text.Percent
import TemplateFormula.Text.Search
import TemplateFormula.Text.Utf8
import TemplateFormula.Value.Argument
import TemplateFormula.Value.Arithmetic
import TemplateFormula.Value.Basic
import TemplateFormula.Value.Comparison
import TemplateFormula.Value.Conversion
import TemplateFormula.Value.Member
