import ReviewGate.AnalysisRequest
import ReviewGate.Artifacts
import ReviewGate.Calendar
import ReviewGate.ChangedFile
import ReviewGate.Changes
import ReviewGate.CommandLine.Invocation
import ReviewGate.CommandLine.Option
import ReviewGate.CommandLine.Reach
import ReviewGate.CommandLine.Run
import ReviewGate.CommandLine.Word
import ReviewGate.Demo
import ReviewGate.Fault
import ReviewGate.Forge.Client
import ReviewGate.Forge.Comments
import ReviewGate.Forge.Endpoint
import ReviewGate.Forge.Lookup
import ReviewGate.Forge.Retry
import ReviewGate.Forge.Reviews
import ReviewGate.Forge.Wire
import ReviewGate.Json.Encoded
import ReviewGate.Json.Malformed
import ReviewGate.Json.Reader
import ReviewGate.Json.Writer
import ReviewGate.Log
import ReviewGate.Main
import ReviewGate.Number.Decimal
import ReviewGate.Number.Exact
import ReviewGate.Number.Integer
import ReviewGate.Number.Power
import ReviewGate.Number.Shortest
import ReviewGate.Pool
import ReviewGate.Posting.Basic
import ReviewGate.Posting.Review
import ReviewGate.Posting.Summary
import ReviewGate.Proofs.Action
import ReviewGate.Proofs.AnalysisRequest
import ReviewGate.Proofs.Artifacts.Beside
import ReviewGate.Proofs.Artifacts.Flaws
import ReviewGate.Proofs.Artifacts.Read
import ReviewGate.Proofs.Artifacts.Rewrite
import ReviewGate.Proofs.Artifacts.RoundTrip
import ReviewGate.Proofs.Artifacts.Write
import ReviewGate.Proofs.ChangedPaths
import ReviewGate.Proofs.Changes
import ReviewGate.Proofs.CommandLine.Analyze
import ReviewGate.Proofs.CommandLine.Configuration
import ReviewGate.Proofs.CommandLine.Exit
import ReviewGate.Proofs.CommandLine.Guards
import ReviewGate.Proofs.CommandLine.Post
import ReviewGate.Proofs.CommandLine.Prepare
import ReviewGate.Proofs.CommandLine.Stored
import ReviewGate.Proofs.CommandLine.Test
import ReviewGate.Proofs.CommandLine.Token
import ReviewGate.Proofs.Effects
import ReviewGate.Proofs.Forge.Attempt
import ReviewGate.Proofs.Forge.Budget
import ReviewGate.Proofs.Forge.Exchange
import ReviewGate.Proofs.Forge.Host
import ReviewGate.Proofs.Forge.Limit
import ReviewGate.Proofs.Forge.Listing
import ReviewGate.Proofs.Forge.Memory
import ReviewGate.Proofs.Forge.Pages
import ReviewGate.Proofs.Forge.PullRequests
import ReviewGate.Proofs.Forge.Requests
import ReviewGate.Proofs.Forge.Retry
import ReviewGate.Proofs.Forge.Served
import ReviewGate.Proofs.Forge.Session
import ReviewGate.Proofs.Forge.Shared
import ReviewGate.Proofs.Forge.Status
import ReviewGate.Proofs.Forge.Unreliable
import ReviewGate.Proofs.Guards
import ReviewGate.Proofs.Job
import ReviewGate.Proofs.Json.Document
import ReviewGate.Proofs.Json.Encoded
import ReviewGate.Proofs.Json.Grammar
import ReviewGate.Proofs.Json.RoundTrip
import ReviewGate.Proofs.Json.Token
import ReviewGate.Proofs.LineEnds
import ReviewGate.Proofs.LineNumbers
import ReviewGate.Proofs.Log
import ReviewGate.Proofs.Logged
import ReviewGate.Proofs.Number.Integer
import ReviewGate.Proofs.Pool
import ReviewGate.Proofs.Posting.Concurrent
import ReviewGate.Proofs.Posting.Content
import ReviewGate.Proofs.Posting.Course
import ReviewGate.Proofs.Posting.Kept
import ReviewGate.Proofs.Posting.Knowledge
import ReviewGate.Proofs.Posting.Marked
import ReviewGate.Proofs.Posting.Once
import ReviewGate.Proofs.Posting.OneSummary
import ReviewGate.Proofs.Posting.Phases
import ReviewGate.Proofs.Posting.Promise
import ReviewGate.Proofs.Posting.Reliable
import ReviewGate.Proofs.Posting.Requests
import ReviewGate.Proofs.Posting.Review
import ReviewGate.Proofs.Posting.Scope
import ReviewGate.Proofs.Posting.Spared
import ReviewGate.Proofs.Posting.Summary
import ReviewGate.Proofs.Review.Agreement
import ReviewGate.Proofs.Review.Groups
import ReviewGate.Proofs.Review.Order
import ReviewGate.Proofs.Review.Payload
import ReviewGate.Proofs.Reviewer.Analysis
import ReviewGate.Proofs.Reviewer.Completion
import ReviewGate.Proofs.Reviewer.Handover
import ReviewGate.Proofs.Reviewer.Posting
import ReviewGate.Proofs.Reviewer.Reliable
import ReviewGate.Proofs.Reviewer.Tests
import ReviewGate.Proofs.Rule.Language
import ReviewGate.Proofs.Rule.Pattern
import ReviewGate.Proofs.Rule.Report
import ReviewGate.Proofs.Rule.Window
import ReviewGate.Proofs.Scan
import ReviewGate.Proofs.Scan.Edits
import ReviewGate.Proofs.Scan.Places
import ReviewGate.Proofs.Schema.Field
import ReviewGate.Proofs.Selection
import ReviewGate.Proofs.Service.Agreement
import ReviewGate.Proofs.Service.Answers
import ReviewGate.Proofs.Settings.Activate
import ReviewGate.Proofs.Settings.Conditions
import ReviewGate.Proofs.Settings.Shape
import ReviewGate.Proofs.TestGate
import ReviewGate.Proofs.Text.Ascending
import ReviewGate.Proofs.Text.Feeds
import ReviewGate.Proofs.Text.Lines
import ReviewGate.Proofs.Text.Search
import ReviewGate.Proofs.Text.ShellWords
import ReviewGate.Proofs.Text.Utf8
import ReviewGate.Proofs.Workspace.Change
import ReviewGate.Proofs.Workspace.Make
import ReviewGate.Proofs.Workspace.Walk
import ReviewGate.Review.Category
import ReviewGate.Review.Finding
import ReviewGate.Review.LineComment
import ReviewGate.Review.Payload
import ReviewGate.Review.Result
import ReviewGate.Review.Verdict
import ReviewGate.Reviewer.Basic
import ReviewGate.Reviewer.Stages
import ReviewGate.Rule.Basic
import ReviewGate.Rule.Pattern
import ReviewGate.Rule.Table
import ReviewGate.Runner
import ReviewGate.Scan
import ReviewGate.Schema.Field
import ReviewGate.Schema.Report
import ReviewGate.Service.Answer
import ReviewGate.Service.Target
import ReviewGate.Settings.Activate
import ReviewGate.Settings.Basic
import ReviewGate.Settings.Check
import ReviewGate.TestGate
import ReviewGate.Text.Base64
import ReviewGate.Text.Blank
import ReviewGate.Text.Capital
import ReviewGate.Text.DecimalDigit
import ReviewGate.Text.Lines
import ReviewGate.Text.Lowercase
import ReviewGate.Text.Printable
import ReviewGate.Text.Quoted
import ReviewGate.Text.Search
import ReviewGate.Text.ShellWords
import ReviewGate.Text.Units
import ReviewGate.Text.Utf8
import ReviewGate.Value.Basic
import ReviewGate.Value.Display
import ReviewGate.Value.Misuse
import ReviewGate.Value.Same
import ReviewGate.Workspace.Basic
import ReviewGate.Workspace.Path
import ReviewGate.Yaml.Cursor
import ReviewGate.Yaml.Document
import ReviewGate.Yaml.Lexer
import ReviewGate.Yaml.Node
import ReviewGate.Yaml.Scalar
import ReviewGate.Yaml.Token
