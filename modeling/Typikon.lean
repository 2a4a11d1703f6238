import Typikon.Calendar.CivilDate
import Typikon.Calendar.Conversion
import Typikon.Calendar.Error
import Typikon.Calendar.Greek
import Typikon.Calendar.Iso8601
import Typikon.Calendar.Label
import Typikon.Calendar.LiturgicalDay
import Typikon.Calendar.Pascha
import Typikon.Calendar.Reckoning
import Typikon.Calendar.Topic
import Typikon.CommandLine.Arguments
import Typikon.CommandLine.DaySummary
import Typikon.CommandLine.Failure
import Typikon.CommandLine.FileError
import Typikon.CommandLine.Parameter
import Typikon.CommandLine.Path
import Typikon.CommandLine.Run
import Typikon.CommandLine.Settings
import Typikon.Compilation
import Typikon.Diagnostic
import Typikon.Document.Basic
import Typikon.Document.Keyword
import Typikon.Document.LibraryId
import Typikon.Document.PageLayout
import Typikon.Document.Reference
import Typikon.Document.Resolution
import Typikon.Document.Span
import Typikon.Draft.Basic
import Typikon.Draft.DateProperties
import Typikon.Draft.Event
import Typikon.Draft.Finding
import Typikon.Draft.Finish
import Typikon.Draft.Problem
import Typikon.Draft.Property
import Typikon.Draft.SetProperty
import Typikon.Index.Basic
import Typikon.Index.Entry
import Typikon.Index.EntrySet
import Typikon.Json.Basic
import Typikon.Json.Printer
import Typikon.Json.Record
import Typikon.Main
import Typikon.Stored.Calendar
import Typikon.Stored.Compilation
import Typikon.Stored.Document
import Typikon.Template.Basic
import Typikon.Template.Body
import Typikon.Template.Event
import Typikon.Template.Leaf
import Typikon.Template.Lexeme
import Typikon.Template.Location
import Typikon.Template.Node
import Typikon.Template.PageBlock
import Typikon.Template.Reading
import Typikon.Template.Scan
import Typikon.Template.SyntaxError
import Typikon.Template.Token
import Typikon.Text.Alphanumeric
import Typikon.Text.Blank
import Typikon.Text.Decimal
import Typikon.Text.Line
import Typikon.Text.Quoted
import Typikon.Text.Vocabulary
import Typikon.Toml
import Typikon.Proofs.Draft.Body
import Typikon.Proofs.Index.Answering
import Typikon.Proofs.Template.Grammar
import Typikon.Proofs.Document.Image
import Typikon.Proofs.Draft.BodyOfTree
import Typikon.Proofs.Draft.Walk
import Typikon.Proofs.Compilation.Paragraphs
import Typikon.Proofs.Calendar.Paschalion
import Typikon.Proofs.Calendar.Labels
import Typikon.Proofs.Calendar.Computus
import Typikon.Proofs.Calendar.Days
import Typikon.Proofs.Calendar.Paschas
import Typikon.Proofs.Calendar.MovableCycle
import Typikon.Proofs.Template.Locality
import Typikon.Proofs.Template.Recovery
import Typikon.Proofs.Template.Rendering
import Typikon.Proofs.Template.Printing
import Typikon.Proofs.Template.BodyReading
import Typikon.Proofs.Template.PageBlockReading
import Typikon.Proofs.Template.RoundTrip
import Typikon.Proofs.Diagnostic.Order
import Typikon.Proofs.Draft.Findings
import Typikon.Proofs.Template.Traversal
import Typikon.Proofs.Draft.Asking
import Typikon.Proofs.Compilation.Drivers
import Typikon.Proofs.Document.Pieces
import Typikon.Proofs.Draft.Conservation
import Typikon.Proofs.Compilation.Conservation
import Typikon.Proofs.Draft.Leaves
import Typikon.Proofs.Index.Failing
import Typikon.Proofs.Compilation.IndexIndependence
import Typikon.Proofs.Document.References
import Typikon.Proofs.Draft.References
import Typikon.Proofs.Draft.DateState
import Typikon.Proofs.Compilation.OneDay
import Typikon.Proofs.Template.Representation
import Typikon.Proofs.Draft.TextLeaves
import Typikon.Proofs.Compilation.TextLeaves
import Typikon.Proofs.Document.LayoutImage
import Typikon.Proofs.Draft.PageBlocksOfTree
import Typikon.Proofs.Compilation.Layout
import Typikon.Proofs.Calendar.DateText
import Typikon.Proofs.Json.Restoring
import Typikon.Proofs.Stored.Calendar
import Typikon.Proofs.Stored.Document
import Typikon.Proofs.Stored.Compilation
import Typikon.Proofs.Calendar.Anchors
import Typikon.Proofs.Calendar.NearestAnchors
import Typikon.Proofs.Calendar.Seasons
import Typikon.Proofs.Calendar.ModeCycle
import Typikon.Proofs.Calendar.LukanCycle
import Typikon.Proofs.Calendar.GospelCycle
import Typikon.Proofs.Index.Caching
import Typikon.Proofs.Compilation.Caching
import Typikon.Proofs.Calendar.Recurrence
import Typikon.Proofs.Calendar.Occurrence
import Typikon.Proofs.Draft.DateOrder
import Typikon.Proofs.Compilation.DateOrder
import Typikon.Proofs.Calendar.LabelOrder
import Typikon.Proofs.Template.Positions
import Typikon.Proofs.Template.Covering
import Typikon.Proofs.Template.Placement
import Typikon.Proofs.Template.Reporting
import Typikon.Proofs.Template.Assignments
import Typikon.Proofs.Document.Acceptance
import Typikon.Proofs.Text.Lines
import Typikon.Proofs.Template.LineByLine
import Typikon.Proofs.Template.ToEndOfLine
import Typikon.Proofs.Draft.Properties
import Typikon.Proofs.Index.Histories
import Typikon.Proofs.Index.Listing
import Typikon.Proofs.Document.Listed
import Typikon.Proofs.Draft.PageForms
import Typikon.Proofs.Compilation.PageForms
import Typikon.Proofs.Calendar.TriodionStarts
import Typikon.Proofs.CommandLine.JulianDay
import Typikon.Proofs.Template.JoinedTokens
import Typikon.Proofs.Text.OneLine
import Typikon.Proofs.Template.Quoting
import Typikon.Proofs.Calendar.Failures
import Typikon.Proofs.Draft.Messages
import Typikon.Proofs.CommandLine.ErrorLines
import Typikon.Proofs.Text.Trimming
import Typikon.Proofs.Calendar.DistantYears
import Typikon.Proofs.Document.LibraryNames
import Typikon.Proofs.Calendar.TriodionSundays
