import LineMarkup.Arguments
import LineMarkup.Command
import LineMarkup.Command.Run
import LineMarkup.Declaration
import LineMarkup.Document
import LineMarkup.Escape
import LineMarkup.Files
import LineMarkup.Files.Tree
import LineMarkup.Inline
import LineMarkup.Job
import LineMarkup.Json
import LineMarkup.Keyword
import LineMarkup.Line
import LineMarkup.Main
import LineMarkup.Paragraph
import LineMarkup.Path
import LineMarkup.Pattern
import LineMarkup.Proofs.Arguments.Acceptance
import LineMarkup.Proofs.Arguments.Spelling
import LineMarkup.Proofs.Command.Convert
import LineMarkup.Proofs.Command.Export
import LineMarkup.Proofs.Command.Given
import LineMarkup.Proofs.Command.Init
import LineMarkup.Proofs.Command.Options
import LineMarkup.Proofs.Command.Printing
import LineMarkup.Proofs.Document.Blocks
import LineMarkup.Proofs.Document.Comment
import LineMarkup.Proofs.Document.Declaration
import LineMarkup.Proofs.Document.Insertion
import LineMarkup.Proofs.Document.Line
import LineMarkup.Proofs.Document.Literal
import LineMarkup.Proofs.Document.Outcome
import LineMarkup.Proofs.Document.Runs
import LineMarkup.Proofs.Document.Values
import LineMarkup.Proofs.Escape.Marked
import LineMarkup.Proofs.Escape.Runs
import LineMarkup.Proofs.Escape.Unescape
import LineMarkup.Proofs.Files.Alike
import LineMarkup.Proofs.Files.Events
import LineMarkup.Proofs.Files.Growth
import LineMarkup.Proofs.Files.Reading
import LineMarkup.Proofs.Files.Replay
import LineMarkup.Proofs.Files.Trail
import LineMarkup.Proofs.Inline.CodeSpan
import LineMarkup.Proofs.Inline.Comment
import LineMarkup.Proofs.Inline.Divergence
import LineMarkup.Proofs.Inline.Heading
import LineMarkup.Proofs.Inline.Leftmost
import LineMarkup.Proofs.Inline.Literal
import LineMarkup.Proofs.Inline.Marked
import LineMarkup.Proofs.Inline.Nesting
import LineMarkup.Proofs.Inline.Presence
import LineMarkup.Proofs.Inline.Site
import LineMarkup.Proofs.Inline.StandIn
import LineMarkup.Proofs.Inline.Tags
import LineMarkup.Proofs.Inline.Veil
import LineMarkup.Proofs.Inline.Words
import LineMarkup.Proofs.Job.Batch
import LineMarkup.Proofs.Job.Beside
import LineMarkup.Proofs.Job.Delivery
import LineMarkup.Proofs.Job.Inputs
import LineMarkup.Proofs.Job.Isolation
import LineMarkup.Proofs.Job.LineEndings
import LineMarkup.Proofs.Job.Order
import LineMarkup.Proofs.Job.Planning
import LineMarkup.Proofs.Path.Extension
import LineMarkup.Proofs.Path.Named
import LineMarkup.Proofs.Path.Parent
import LineMarkup.Proofs.Path.Parts
import LineMarkup.Proofs.Settings.Agreement
import LineMarkup.Proofs.Settings.OutputPath
import LineMarkup.Proofs.Settings.Override
import LineMarkup.Proofs.Settings.Precedence
import LineMarkup.Proofs.Settings.Separator
import LineMarkup.Proofs.Settings.Sequence
import LineMarkup.Proofs.Template.Location
import LineMarkup.Proofs.Template.Placeholder
import LineMarkup.Proofs.Template.Sections
import LineMarkup.Proofs.Text.Lines
import LineMarkup.Proofs.Text.Scan
import LineMarkup.Proofs.Text.Substitution
import LineMarkup.Proofs.Text.Tokens
import LineMarkup.Proofs.Text.Trim
import LineMarkup.Settings
import LineMarkup.Settings.Files
import LineMarkup.Settings.Override
import LineMarkup.Settings.Reader
import LineMarkup.Starter
import LineMarkup.Template
import LineMarkup.Template.Location
import LineMarkup.Text.Basic
import LineMarkup.Text.Pieces
import LineMarkup.Text.Quoted
import LineMarkup.Text.Ranges
import LineMarkup.Text.Space
import LineMarkup.Text.Word
import LineMarkup.Time.Date
import LineMarkup.Time.Format
import LineMarkup.Time.Moment
import LineMarkup.Toml.Reader
import LineMarkup.Toml.Scalar
import LineMarkup.Toml.Value
import LineMarkup.Variables
import LineMarkup.Variables.Reader
