import DocScribe.Block.Arguments
import DocScribe.Block.Basic
import DocScribe.Block.Layout
import DocScribe.Block.Render
import DocScribe.Block.Review
import DocScribe.Block.Wrap
import DocScribe.Catalog
import DocScribe.Change.Basic
import DocScribe.Change.Decode
import DocScribe.Command.Console
import DocScribe.Command.Line
import DocScribe.Command.Run
import DocScribe.Command.Sample
import DocScribe.Construct
import DocScribe.Decimal.Shortest
import DocScribe.Discovery.Basic
import DocScribe.Discovery.IgnoreRules
import DocScribe.Discovery.Walk
import DocScribe.Document.Basic
import DocScribe.Document.Report
import DocScribe.Document.Work
import DocScribe.Event
import DocScribe.Failure
import DocScribe.FileTree.Basic
import DocScribe.Format
import DocScribe.Glob.Basic
import DocScribe.Glob.Parser
import DocScribe.Indent
import DocScribe.Json.Basic
import DocScribe.Json.Parser
import DocScribe.Json.Printer
import DocScribe.LineDiff.Basic
import DocScribe.LineDiff.Runs
import DocScribe.LineDiff.Snake
import DocScribe.Main
import DocScribe.Path
import DocScribe.Pattern.Basic
import DocScribe.Pattern.CharSet
import DocScribe.Pattern.Class
import DocScribe.Pattern.Escape
import DocScribe.Pattern.Flags
import DocScribe.Pattern.Match
import DocScribe.Pattern.Parser
import DocScribe.Pattern.Property
import DocScribe.Pattern.Quote
import DocScribe.Pattern.Search
import DocScribe.Prompt.Basic
import DocScribe.Prompt.Scripted
import DocScribe.Proofs.Cuts
import DocScribe.Proofs.Docstrings
import DocScribe.Proofs.LineFacts
import DocScribe.Proofs.LineTracing
import DocScribe.Proofs.Matches
import DocScribe.Proofs.PatternRuns
import DocScribe.Proofs.PythonForms
import DocScribe.Proofs.PythonGrammar
import DocScribe.Proofs.PythonMatches
import DocScribe.Proofs.Redocumenting
import DocScribe.Proofs.Rounds
import DocScribe.Proofs.SecondRun
import DocScribe.Proofs.SessionFacts
import DocScribe.Proofs.Signatures
import DocScribe.Proofs.Sweep
import DocScribe.Proofs.SweepScan
import DocScribe.Proofs.SweepSettled
import DocScribe.Proofs.SweepThread
import DocScribe.Proofs.Threads
import DocScribe.Proofs.TreeFacts
import DocScribe.Proofs.Weave
import DocScribe.Proofs.WorkFacts
import DocScribe.Scan.Arguments
import DocScribe.Scan.Basic
import DocScribe.Scan.Candidate
import DocScribe.Scan.Grammar
import DocScribe.Scan.Session
import DocScribe.Scan.Shape
import DocScribe.Settings.Basic
import DocScribe.Settings.Decode
import DocScribe.Settings.Load
import DocScribe.Sorting
import DocScribe.Splice.Basic
import DocScribe.Splice.LineHistory
import DocScribe.Template.Arguments
import DocScribe.Template.Expr
import DocScribe.Template.Filter
import DocScribe.Template.Machine
import DocScribe.Template.Parser
import DocScribe.Template.Render
import DocScribe.Template.Test
import DocScribe.Template.Token
import DocScribe.Template.Value
import DocScribe.Text.Basic
import DocScribe.Text.Blank
import DocScribe.Text.Bytes
import DocScribe.Text.LineTable
import DocScribe.Text.Lines
import DocScribe.Text.Quoted
import DocScribe.Toml.Basic
import DocScribe.Toml.Parser
import DocScribe.Toml.Scalar
import DocScribe.Unicode.CaseFold
import DocScribe.Unicode.CaseMap
import DocScribe.Unicode.Category
import DocScribe.Unicode.Ranges
import DocScribe.Unicode.Script
import DocScribe.Proofs.Deeds
import DocScribe.Proofs.KindByKind
import DocScribe.Proofs.Consent
import DocScribe.Proofs.PathFacts
import DocScribe.Proofs.ChangeLookup
import DocScribe.Proofs.Listing
import DocScribe.Proofs.DryRun
import DocScribe.Proofs.OrderOfFiles
import DocScribe.Proofs.Tours
import DocScribe.Proofs.Routes
import DocScribe.Proofs.PathOrder
import DocScribe.Proofs.EntryOrder
import DocScribe.Proofs.ExitStatus
import DocScribe.Proofs.DiscoveredFiles
import DocScribe.Proofs.Recognition
import DocScribe.Proofs.ChangeFilter
import DocScribe.Proofs.PatternTokens
import DocScribe.Proofs.ReviewRoundTrip
import DocScribe.Proofs.WindowsEndings
import DocScribe.Proofs.PatternReading
import DocScribe.Proofs.MethodSource
import DocScribe.Proofs.LiteralMethods
import DocScribe.Proofs.SessionHistory
import DocScribe.Proofs.Words
import DocScribe.Proofs.FormatLookup
import DocScribe.Proofs.BlockLines
import DocScribe.Proofs.ReportTallies
import DocScribe.Proofs.LineNumbers
import DocScribe.Proofs.WordRows
import DocScribe.Proofs.WalkSteps
