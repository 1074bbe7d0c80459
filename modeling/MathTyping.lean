import MathTyping.Bracket
import MathTyping.Bracket.Match
import MathTyping.Bracket.Token
import MathTyping.BracketCache
import MathTyping.Buffer
import MathTyping.CodeContext
import MathTyping.CommandLine
import MathTyping.CommandLine.Arguments
import MathTyping.Completion
import MathTyping.Config
import MathTyping.Config.Load
import MathTyping.Decimal
import MathTyping.Diagnostic
import MathTyping.Edit
import MathTyping.Equation
import MathTyping.Fault
import MathTyping.Geometry
import MathTyping.Highlight
import MathTyping.Host
import MathTyping.Json
import MathTyping.Json.Codec
import MathTyping.Json.Config
import MathTyping.Json.Document
import MathTyping.Json.Printer
import MathTyping.Json.Reader
import MathTyping.Json.Session
import MathTyping.Json.Suggestion
import MathTyping.Key
import MathTyping.Main
import MathTyping.Offset
import MathTyping.Popup
import MathTyping.Position
import MathTyping.Preview
import MathTyping.Proofs.Screen
import MathTyping.Proofs.Session.Run
import MathTyping.Query
import MathTyping.Query.Detect
import MathTyping.Region
import MathTyping.Region.Locate
import MathTyping.Render
import MathTyping.Render.Local
import MathTyping.RenderKind
import MathTyping.Scripts
import MathTyping.Session
import MathTyping.Session.Dispatch
import MathTyping.Session.Event
import MathTyping.Shortcut
import MathTyping.Snippet
import MathTyping.Snippet.Expand
import MathTyping.Symbol
import MathTyping.Symbol.Catalogue
import MathTyping.Symbol.Catalogue.Letters
import MathTyping.Symbol.Catalogue.Marks
import MathTyping.Symbol.Catalogue.Operators
import MathTyping.Symbol.Catalogue.Relations
import MathTyping.Symbol.Entry
import MathTyping.Symbol.Index
import MathTyping.Symbol.Insert
import MathTyping.Text.Blank
import MathTyping.Text.Column
import MathTyping.Text.Digit
import MathTyping.Text.Escape
import MathTyping.Text.Measure
import MathTyping.Text.Printable
import MathTyping.Text.Quoted
import MathTyping.Text.Search
import MathTyping.Text.Unassigned
import MathTyping.Toml.Reader
import MathTyping.Toml.Scalar
import MathTyping.Toml.Table
import MathTyping.Proofs.Session.Step
import MathTyping.Proofs.Session.Coherence
import MathTyping.Proofs.Session.BracketMarks
import MathTyping.Proofs.Session.Awaits
import MathTyping.Proofs.Session.Unanswered
import MathTyping.Proofs.Session.InPlace
import MathTyping.Proofs.Session.RequestQueue
import MathTyping.Proofs.Session.AnswerTiming
import MathTyping.Proofs.Popup.Replies
import MathTyping.Proofs.Session.OpenPopup
import MathTyping.Proofs.Session.Reached
import MathTyping.Proofs.Session.Teardown
import MathTyping.Proofs.Session.Repaints
import MathTyping.Proofs.Session.LatestPreview
import MathTyping.Proofs.Session.NeededRequests
import MathTyping.Proofs.Buffer.Places
import MathTyping.Proofs.Text.Occurrences
import MathTyping.Proofs.Json.Printed
import MathTyping.Proofs.Json.Lawful
import MathTyping.Proofs.Query.Extent
import MathTyping.Proofs.Query.Pattern
import MathTyping.Proofs.Query.Triggers
import MathTyping.Proofs.Query.Tails
import MathTyping.Proofs.Query.Calls
import MathTyping.Proofs.Popup.Edits
import MathTyping.Proofs.Popup.Expansion
import MathTyping.Proofs.Session.PopupEdits
import MathTyping.Proofs.Session.FailingScripts
import MathTyping.Proofs.Session.HeldSelection
import MathTyping.Proofs.Buffer.CursorLine
import MathTyping.Proofs.Buffer.Cuts
import MathTyping.Proofs.Buffer.Replacing
import MathTyping.Proofs.Buffer.SourceOffsets
import MathTyping.Proofs.Buffer.UnitOffsets
import MathTyping.Proofs.Region.Delimiters
import MathTyping.Proofs.Region.Gaps
import MathTyping.Proofs.Region.Blocks
import MathTyping.Proofs.Region.Extent
import MathTyping.Proofs.Region.Document
import MathTyping.Proofs.Bracket.Matching
import MathTyping.Proofs.Bracket.Places
import MathTyping.Proofs.Region.Local
import MathTyping.Proofs.Region.Missed
import MathTyping.Proofs.Region.Rescan
import MathTyping.Proofs.Equation.Stops
import MathTyping.Proofs.Equation.Progress
import MathTyping.Proofs.Equation.Stranding
import MathTyping.Proofs.Equation.Boxes
import MathTyping.Proofs.Bracket.Highlights
import MathTyping.Proofs.Bracket.Lexemes
import MathTyping.Proofs.Bracket.Scan
import MathTyping.Proofs.Bracket.Nesting
import MathTyping.Proofs.Bracket.Kinds
import MathTyping.Proofs.Bracket.WellFormed
import MathTyping.Proofs.Host.Reports
import MathTyping.Proofs.Host.Operation
import MathTyping.Proofs.Host.EventQueue
import MathTyping.Proofs.Host.Mirror
import MathTyping.Proofs.Host.Selection
import MathTyping.Proofs.Host.Wrapping
import MathTyping.Proofs.Guarded.Operation
import MathTyping.Proofs.Guarded.Buffer
import MathTyping.Proofs.Guarded.Delimiters
import MathTyping.Proofs.Guarded.Region
import MathTyping.Proofs.Guarded.Popup
import MathTyping.Proofs.Guarded.Equation
import MathTyping.Proofs.Guarded.Session
import MathTyping.Proofs.Json.Document
import MathTyping.Proofs.Json.Session
import MathTyping.Proofs.Popup.Draft
import MathTyping.Proofs.Popup.Undo
import MathTyping.Proofs.Symbol.Table
import MathTyping.Proofs.Symbol.Search
import MathTyping.Proofs.Popup.Symbols
import MathTyping.Proofs.Popup.SnippetNames
import MathTyping.Proofs.Popup.Selection
import MathTyping.Proofs.Region.CodeSpans
import MathTyping.Proofs.Render.Plain
import MathTyping.Proofs.Key.Modifiers
