import PagedQuery.Binary64.Basic
import PagedQuery.Binary64.Decimal
import PagedQuery.Calendar.Date
import PagedQuery.Calendar.Reader
import PagedQuery.Dialect.Basic
import PagedQuery.Dialect.Functions
import PagedQuery.Document
import PagedQuery.Field
import PagedQuery.Field.Reader
import PagedQuery.Histogram
import PagedQuery.Json.Basic
import PagedQuery.Json.Printer
import PagedQuery.Json.Reader
import PagedQuery.Json.Record
import PagedQuery.Query.Alias
import PagedQuery.Query.Dimension
import PagedQuery.Query.Error
import PagedQuery.Query.Literal
import PagedQuery.Query.Measure
import PagedQuery.Query.Plan
import PagedQuery.Query.Predicate
import PagedQuery.Request.Aggregate
import PagedQuery.Request.Basic
import PagedQuery.Request.Filter
import PagedQuery.Request.Printer
import PagedQuery.Request.Reader
import PagedQuery.Settings
import PagedQuery.Statement.Expr
import PagedQuery.Statement.Lexeme
import PagedQuery.Statement.Select
import PagedQuery.Statement.Text
import PagedQuery.Task.Cursor
import PagedQuery.Task.Error
import PagedQuery.Task.Holder
import PagedQuery.Task.Id
import PagedQuery.Task.Registry
import PagedQuery.Task.Simulation
import PagedQuery.Text.Blank
import PagedQuery.Text.Digits
import PagedQuery.Value
import PagedQuery.Yaml.Basic
import PagedQuery.Yaml.Reader
import PagedQuery.Yaml.Scalar
import PagedQuery.Yaml.Text
import PagedQuery.Yaml.Token
import PagedQuery.Proofs.Binary64.Rounding
import PagedQuery.Proofs.Binary64.Shortest
import PagedQuery.Proofs.Binary64.Texts
import PagedQuery.Proofs.Condition.Kinds
import PagedQuery.Proofs.Condition.Meaning
import PagedQuery.Proofs.Condition.Patterns
import PagedQuery.Proofs.Condition.ReadBack
import PagedQuery.Proofs.Condition.Reader
import PagedQuery.Proofs.Histogram.Boundaries
import PagedQuery.Proofs.Histogram.Buckets
import PagedQuery.Proofs.Histogram.Exact
import PagedQuery.Proofs.Outcome
import PagedQuery.Proofs.Query.AliasCalls
import PagedQuery.Proofs.Query.Aliases
import PagedQuery.Proofs.Query.Bindings
import PagedQuery.Proofs.Query.Columns
import PagedQuery.Proofs.Query.Groups
import PagedQuery.Proofs.Query.HelperColumns
import PagedQuery.Proofs.Query.Independence
import PagedQuery.Proofs.Query.LastValues
import PagedQuery.Proofs.Query.Lexing
import PagedQuery.Proofs.Query.Literals
import PagedQuery.Proofs.Query.Naming
import PagedQuery.Proofs.Query.Parts
import PagedQuery.Proofs.Query.Percentiles
import PagedQuery.Proofs.Query.Plain
import PagedQuery.Proofs.Query.PlainMetrics
import PagedQuery.Proofs.Query.PlanParts
import PagedQuery.Proofs.Query.Ranks
import PagedQuery.Proofs.Query.Scans
import PagedQuery.Proofs.Query.Scopes
import PagedQuery.Proofs.Query.Values
import PagedQuery.Proofs.Query.Where
import PagedQuery.Proofs.Registry.Run
import PagedQuery.Proofs.Registry.Step
import PagedQuery.Proofs.Relational.Evaluation
import PagedQuery.Proofs.Relational.Exact
import PagedQuery.Proofs.Relational.Rows
import PagedQuery.Proofs.Statement.Data
import PagedQuery.Proofs.Statement.Fill
import PagedQuery.Proofs.Statement.Identifiers
import PagedQuery.Proofs.Statement.Lexical
import PagedQuery.Proofs.Statement.Lexing
import PagedQuery.Proofs.Statement.Mentions
import PagedQuery.Proofs.Statement.Numbers
import PagedQuery.Proofs.Statement.Params
import PagedQuery.Proofs.Statement.Placeholders
import PagedQuery.Proofs.Statement.Spacing
import PagedQuery.Proofs.Statement.Tokenized
import PagedQuery.Proofs.Statement.Tokens
import PagedQuery.Proofs.Task.Calls
import PagedQuery.Proofs.Task.Connections
import PagedQuery.Proofs.Task.Custody
import PagedQuery.Proofs.Task.Delivery
import PagedQuery.Proofs.Task.Failures
import PagedQuery.Proofs.Task.Jobs
import PagedQuery.Proofs.Task.Lifecycle
import PagedQuery.Proofs.Task.Locks
import PagedQuery.Proofs.Task.NextBatch
import PagedQuery.Proofs.Task.Pipeline
import PagedQuery.Proofs.Task.Promises
import PagedQuery.Proofs.Task.Reading
import PagedQuery.Proofs.Task.Refusals
import PagedQuery.Proofs.Task.Replies
import PagedQuery.Proofs.Task.Run
import PagedQuery.Proofs.Task.Step
import PagedQuery.Proofs.Task.Stream
import PagedQuery.Proofs.Task.Succession
import PagedQuery.Proofs.Registry.Fetches
import PagedQuery.Proofs.Registry.Removal
import PagedQuery.Proofs.Task.Check
import PagedQuery.Proofs.Registry.Touches
import PagedQuery.Proofs.Registry.Sweep
import PagedQuery.Proofs.Query.Faults
import PagedQuery.Proofs.Query.RawData
import PagedQuery.Proofs.Registry.Placement
import PagedQuery.Proofs.Json.Building
import PagedQuery.Proofs.Json.Soundness
import PagedQuery.Proofs.Registry.Isolation
import PagedQuery.Proofs.Request.RoundTrip
import PagedQuery.Proofs.Query.HelperNames
import PagedQuery.Proofs.Query.KeyMatches
import PagedQuery.Proofs.Query.NullOrder
import PagedQuery.Proofs.Text.Numbers
import PagedQuery.Proofs.Calendar.Texts
import PagedQuery.Proofs.Json.Reordering
import PagedQuery.Proofs.Request.Fields
import PagedQuery.Proofs.Request.Reordering
import PagedQuery.Proofs.Binary64.Integers
import PagedQuery.Proofs.Request.Literals
import PagedQuery.Proofs.Calendar.Days
import PagedQuery.Proofs.Calendar.Starts
import PagedQuery.Proofs.Calendar.Formats
import PagedQuery.Proofs.Relational.Times
import PagedQuery.Proofs.Query.Truncation
import PagedQuery.Proofs.Query.SortTargets
import PagedQuery.Proofs.Task.Requests
