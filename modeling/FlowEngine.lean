import FlowEngine.Block.Basic
import FlowEngine.Block.Core
import FlowEngine.Cli.Arguments
import FlowEngine.Cli.Command
import FlowEngine.Cli.Event
import FlowEngine.Cli.Help
import FlowEngine.Cli.Lint
import FlowEngine.Cli.Output
import FlowEngine.Cli.Program
import FlowEngine.Config.Settings
import FlowEngine.Engine.Action
import FlowEngine.Engine.Activity
import FlowEngine.Engine.Branch
import FlowEngine.Engine.Fault
import FlowEngine.Engine.Halt
import FlowEngine.Engine.Job
import FlowEngine.Engine.Loop
import FlowEngine.Engine.Place
import FlowEngine.Engine.Run
import FlowEngine.Engine.Split
import FlowEngine.Engine.Walk
import FlowEngine.Expr.Constant
import FlowEngine.Expr.Eval
import FlowEngine.Expr.Fault
import FlowEngine.Expr.Filter
import FlowEngine.Expr.Operator
import FlowEngine.Expr.Order
import FlowEngine.Expr.Parser
import FlowEngine.Expr.Term
import FlowEngine.Expr.Token
import FlowEngine.Expr.Value
import FlowEngine.Flow.Basic
import FlowEngine.Flow.Decode
import FlowEngine.Flow.Encode
import FlowEngine.Flow.Validate
import FlowEngine.Json.Basic
import FlowEngine.Json.Decode
import FlowEngine.Json.Printer
import FlowEngine.Json.Reader
import FlowEngine.Main
import FlowEngine.Number.Binary64
import FlowEngine.Number.Decimal
import FlowEngine.Number.Width
import FlowEngine.Pattern.AgeTable
import FlowEngine.Pattern.Basic
import FlowEngine.Pattern.BreakTable
import FlowEngine.Pattern.CharSet
import FlowEngine.Pattern.Limit
import FlowEngine.Pattern.Meaning
import FlowEngine.Pattern.Memory
import FlowEngine.Pattern.Property
import FlowEngine.Pattern.PropertyTable
import FlowEngine.Pattern.Reader
import FlowEngine.Pattern.ScriptTable
import FlowEngine.Pattern.Tree
import FlowEngine.Proofs.Schedule.Process
import FlowEngine.Run.Context
import FlowEngine.Run.Record
import FlowEngine.Store.Files
import FlowEngine.Store.Load
import FlowEngine.Store.Memory
import FlowEngine.Store.Path
import FlowEngine.Template.Condition
import FlowEngine.Template.Error
import FlowEngine.Template.Resolve
import FlowEngine.Template.Scope
import FlowEngine.Text.Case
import FlowEngine.Text.CaseTable
import FlowEngine.Text.Category
import FlowEngine.Text.CategoryTable
import FlowEngine.Text.Search
import FlowEngine.Time.Calendar
import FlowEngine.Time.Duration
import FlowEngine.Time.Format
import FlowEngine.Time.Timestamp
import FlowEngine.Toml.Number
import FlowEngine.Toml.Reader
import FlowEngine.Toml.Table
import FlowEngine.Toml.Text
import FlowEngine.Proofs.Schedule.Yields
import FlowEngine.Proofs.Records.Lookup
import FlowEngine.Proofs.Records.Pauses
import FlowEngine.Proofs.Records.Position
import FlowEngine.Proofs.Walk.Region
import FlowEngine.Proofs.Walk.Follows
import FlowEngine.Proofs.Walk.Action
import FlowEngine.Proofs.Walk.Branch
import FlowEngine.Proofs.Walk.Verdicts
import FlowEngine.Proofs.Walk.FanOut
import FlowEngine.Proofs.Walk.Iterations
import FlowEngine.Proofs.Walk.Loop
import FlowEngine.Proofs.Walk.Merge
import FlowEngine.Proofs.Walk.Split
import FlowEngine.Proofs.Walk.Chain
import FlowEngine.Proofs.Requests.History
import FlowEngine.Proofs.Requests.Pauses
import FlowEngine.Proofs.Schedule.Scheduler
import FlowEngine.Proofs.Records.Timeless
import FlowEngine.Proofs.Records.Withdrawal
import FlowEngine.Proofs.Schedule.Ends
import FlowEngine.Proofs.Records.Partial
import FlowEngine.Proofs.Resumption.Answers
import FlowEngine.Proofs.Resumption.Simulates
import FlowEngine.Proofs.Resumption.Action
import FlowEngine.Proofs.Resumption.Branch
import FlowEngine.Proofs.Resumption.Iterations
import FlowEngine.Proofs.Resumption.Loop
import FlowEngine.Proofs.Resumption.Chain
import FlowEngine.Proofs.Resumption.Ends
import FlowEngine.Proofs.Requests.Transparency
import FlowEngine.Proofs.Schedule.InTurn
import FlowEngine.Proofs.Records.Alike
import FlowEngine.Proofs.Walk.Changes
import FlowEngine.Proofs.Walk.Limits
import FlowEngine.Proofs.Agreement.Agrees
import FlowEngine.Proofs.Agreement.Steps
import FlowEngine.Proofs.Agreement.Loop
import FlowEngine.Proofs.Agreement.Merge
import FlowEngine.Proofs.Agreement.Split
import FlowEngine.Proofs.Agreement.Chain
import FlowEngine.Proofs.Agreement.Decision
import FlowEngine.Proofs.Agreement.Scheduling
import FlowEngine.Proofs.Agreement.Parallel
import FlowEngine.Proofs.Walk.Stops
import FlowEngine.Proofs.Selection.Selected
import FlowEngine.Proofs.Selection.Sound
import FlowEngine.Proofs.Selection.Steps
import FlowEngine.Proofs.Selection.Chain
import FlowEngine.Proofs.Selection.Fulfils
import FlowEngine.Proofs.Selection.Order
import FlowEngine.Proofs.Selection.Branches
import FlowEngine.Proofs.Requests.Selection
import FlowEngine.Proofs.Selection.Sequenced
import FlowEngine.Proofs.Walk.Nesting
import FlowEngine.Proofs.Walk.Visits
import FlowEngine.Proofs.Requests.Isolation
import FlowEngine.Proofs.Requests.Again
import FlowEngine.Proofs.Walk.Failures
import FlowEngine.Proofs.Requests.Endings
import FlowEngine.Proofs.Schedule.Course
import FlowEngine.Proofs.Schedule.Pool
import FlowEngine.Proofs.Walk.Halting
import FlowEngine.Proofs.Walk.BreaksOff
import FlowEngine.Proofs.Walk.Breaking
import FlowEngine.Proofs.Documents.Numerals
import FlowEngine.Proofs.Number.Rounding
import FlowEngine.Proofs.Number.Shortest
import FlowEngine.Proofs.Number.Rereading
import FlowEngine.Proofs.Documents.Numbers
import FlowEngine.Proofs.Documents.Reading
import FlowEngine.Proofs.Documents.Canonical
import FlowEngine.Proofs.Documents.Decoding
import FlowEngine.Proofs.Time.Calendar
import FlowEngine.Proofs.Time.Timestamps
import FlowEngine.Proofs.Persistence.Records
import FlowEngine.Proofs.Persistence.Runs
import FlowEngine.Proofs.Persistence.Texts
import FlowEngine.Proofs.Persistence.Files
import FlowEngine.Proofs.Persistence.Restoring
import FlowEngine.Proofs.Walk.Aborts
import FlowEngine.Proofs.Requests.Faults
import FlowEngine.Proofs.Expr.Names
import FlowEngine.Proofs.Template.Truth
import FlowEngine.Proofs.Requests.Merging
import FlowEngine.Proofs.Number.Signs
import FlowEngine.Proofs.Config.Delays
import FlowEngine.Proofs.Time.Formats
import FlowEngine.Proofs.Expr.Reading
import FlowEngine.Proofs.Expr.Operations
import FlowEngine.Proofs.Expr.Crashes
import FlowEngine.Proofs.Template.Crashes
import FlowEngine.Proofs.Block.Core
import FlowEngine.Proofs.Requests.Crashes
import FlowEngine.Proofs.Template.Tokens
import FlowEngine.Proofs.Template.Resolution
import FlowEngine.Proofs.Template.Suggestions
import FlowEngine.Proofs.Walk.Attempts
import FlowEngine.Proofs.Expr.Accessors
import FlowEngine.Proofs.Expr.Paths
import FlowEngine.Proofs.Expr.Documents
import FlowEngine.Proofs.Template.References
import FlowEngine.Proofs.Walk.Laps
import FlowEngine.Proofs.Requests.Scoping
import FlowEngine.Proofs.Template.Conditions
import FlowEngine.Proofs.Walk.Choosing
import FlowEngine.Proofs.Template.Checks
import FlowEngine.Proofs.Walk.Absence
import FlowEngine.Proofs.Requests.Referring
import FlowEngine.Proofs.Flow.Documents
import FlowEngine.Proofs.Number.Order
import FlowEngine.Proofs.Template.Numbers
import FlowEngine.Proofs.Template.Casing
import FlowEngine.Proofs.Expr.Lookups
import FlowEngine.Proofs.Requests.Linting
import FlowEngine.Proofs.Flow.Traversal
import FlowEngine.Proofs.Flow.Validity
