import QueryTidy.Analyzer
import QueryTidy.Bytes.Utf8
import QueryTidy.Check
import QueryTidy.Command.Check
import QueryTidy.Command.Format
import QueryTidy.Command.Input
import QueryTidy.Command.Live
import QueryTidy.CommandLine.Flag
import QueryTidy.CommandLine.Invocation
import QueryTidy.Config.Basic
import QueryTidy.Config.Load
import QueryTidy.Dictionary
import QueryTidy.Editor.Debounce
import QueryTidy.Editor.Session
import QueryTidy.Editor.Timeline
import QueryTidy.Failure
import QueryTidy.Files
import QueryTidy.Format
import QueryTidy.Json.Value
import QueryTidy.Layout.Line
import QueryTidy.Layout.Passes
import QueryTidy.Layout.Phrase
import QueryTidy.Live
import QueryTidy.Log.Event
import QueryTidy.Log.Filter
import QueryTidy.Log.History
import QueryTidy.Main
import QueryTidy.Program
import QueryTidy.Proofs.Acceptance
import QueryTidy.Proofs.Additions
import QueryTidy.Proofs.Analysis
import QueryTidy.Proofs.Bytes.Utf8
import QueryTidy.Proofs.Check.Corrections
import QueryTidy.Proofs.Check.Languages
import QueryTidy.Proofs.Check.Misspellings
import QueryTidy.Proofs.Check.Patterns
import QueryTidy.Proofs.Check.Structure
import QueryTidy.Proofs.Check.Trimming
import QueryTidy.Proofs.Command.Check
import QueryTidy.Proofs.Command.Format
import QueryTidy.Proofs.Command.Live
import QueryTidy.Proofs.Config.Keywords
import QueryTidy.Proofs.Config.Loading
import QueryTidy.Proofs.Config.QuietPeriod
import QueryTidy.Proofs.Correcting
import QueryTidy.Proofs.Editor.Debouncing
import QueryTidy.Proofs.Editor.History
import QueryTidy.Proofs.Editor.Reformatting
import QueryTidy.Proofs.Files
import QueryTidy.Proofs.Formatting
import QueryTidy.Proofs.Grading
import QueryTidy.Proofs.Indentation
import QueryTidy.Proofs.Json.Grammar
import QueryTidy.Proofs.Json.Unambiguity
import QueryTidy.Proofs.KeywordLines
import QueryTidy.Proofs.Layout.Families
import QueryTidy.Proofs.Layout.Gaps
import QueryTidy.Proofs.Layout.Items
import QueryTidy.Proofs.Layout.Keywords
import QueryTidy.Proofs.Layout.Lines
import QueryTidy.Proofs.Layout.Passes
import QueryTidy.Proofs.Layout.PhrasePasses
import QueryTidy.Proofs.Layout.Phrases
import QueryTidy.Proofs.Layout.Printing
import QueryTidy.Proofs.Layout.Rendering
import QueryTidy.Proofs.Layout.Tidying
import QueryTidy.Proofs.Live.Lines
import QueryTidy.Proofs.Placement
import QueryTidy.Proofs.Registration
import QueryTidy.Proofs.Report.Json
import QueryTidy.Proofs.Spacing
import QueryTidy.Proofs.Spelling
import QueryTidy.Proofs.Text.Capitals
import QueryTidy.Proofs.Text.Classes
import QueryTidy.Proofs.Text.Keyed
import QueryTidy.Proofs.Text.Letters
import QueryTidy.Proofs.Text.Lines
import QueryTidy.Proofs.Text.Numerals
import QueryTidy.Proofs.Text.Pieces
import QueryTidy.Proofs.Text.Search
import QueryTidy.Proofs.Toml.Place
import QueryTidy.Proofs.Toml.Sections
import QueryTidy.Proofs.Toml.Writing
import QueryTidy.Proofs.Whitespace
import QueryTidy.Proofs.WordRows
import QueryTidy.Report.Basic
import QueryTidy.Report.Json
import QueryTidy.Report.Render
import QueryTidy.Report.Style
import QueryTidy.Report.Yaml
import QueryTidy.Rule
import QueryTidy.Severity
import QueryTidy.Text.Alphabetic
import QueryTidy.Text.Basic
import QueryTidy.Text.Blank
import QueryTidy.Text.CodeRange
import QueryTidy.Text.Control
import QueryTidy.Text.Decimal
import QueryTidy.Text.Digits
import QueryTidy.Text.Fold
import QueryTidy.Text.Mark
import QueryTidy.Text.Number
import QueryTidy.Text.Piece
import QueryTidy.Text.Recent
import QueryTidy.Text.Uppercase
import QueryTidy.Text.WordChar
import QueryTidy.Toml.Document
import QueryTidy.Toml.Expression
import QueryTidy.Toml.Quoted
import QueryTidy.Toml.Range
import QueryTidy.Toml.Scalar
import QueryTidy.Toml.Tree
import QueryTidy.Toml.Value
import QueryTidy.Yaml.Number
import QueryTidy.Yaml.Scalar
