import DataAccess.Audit.Record
import DataAccess.Audit.Trail
import DataAccess.Calendar.Date
import DataAccess.Calendar.Reader
import DataAccess.Calendar.Temporal
import DataAccess.Calendar.Time
import DataAccess.Collection.Dictionary
import DataAccess.Collection.Entries
import DataAccess.Collection.NameSet
import DataAccess.Config.Basic
import DataAccess.Config.Load
import DataAccess.Decimal.Digits
import DataAccess.Decimal.FloatText
import DataAccess.Decimal.Reader
import DataAccess.Decimal.Scientific
import DataAccess.Decimal.Shortest
import DataAccess.Decision.Basic
import DataAccess.Decision.Constraint
import DataAccess.Decision.Context
import DataAccess.Decision.Evaluate
import DataAccess.Decision.Match
import DataAccess.Decision.Merge
import DataAccess.Document.Basic
import DataAccess.Document.Schema
import DataAccess.Error
import DataAccess.Explain
import DataAccess.Json.Number
import DataAccess.Json.Printer
import DataAccess.Json.Quoted
import DataAccess.Json.Reader
import DataAccess.LogLevel
import DataAccess.Logged
import DataAccess.Policy.Basic
import DataAccess.Policy.Choice
import DataAccess.Policy.Error
import DataAccess.Policy.Reach
import DataAccess.Policy.Store
import DataAccess.Proofs.Decision.Agreement
import DataAccess.Proofs.Decision.Constraints
import DataAccess.Proofs.Decision.Evaluation
import DataAccess.Proofs.Decision.Merging
import DataAccess.Proofs.Policy.Prefilter
import DataAccess.Proofs.Range.Alignment
import DataAccess.Proofs.Range.Groups
import DataAccess.Proofs.Range.Lexing
import DataAccess.Proofs.Range.Marking
import DataAccess.Proofs.Success
import DataAccess.Proofs.Text.Trim
import DataAccess.Range.Basic
import DataAccess.Range.Confinement
import DataAccess.Range.Filter
import DataAccess.Requester
import DataAccess.Resource
import DataAccess.Rule.Basic
import DataAccess.Rule.Column
import DataAccess.Rule.Compile
import DataAccess.Rule.Fault
import DataAccess.Rule.Literal
import DataAccess.Rule.Node
import DataAccess.Rule.Operand
import DataAccess.Rule.Registry
import DataAccess.Rule.Settings
import DataAccess.Sql.Bound
import DataAccess.Sql.Expr
import DataAccess.Sql.Text
import DataAccess.Template.Basic
import DataAccess.Text.Blank
import DataAccess.Text.Case
import DataAccess.Text.Case.Table
import DataAccess.Text.Hex
import DataAccess.Text.Rest
import DataAccess.Toml.Quoted
import DataAccess.Toml.Reader
import DataAccess.Toml.Scalar
import DataAccess.Toml.Statement
import DataAccess.Toml.Table
import DataAccess.Value.Basic
import DataAccess.Value.Document
import DataAccess.Proofs.Logged
import DataAccess.Proofs.Rule.Operand
import DataAccess.Proofs.Rule.Precedence
import DataAccess.Proofs.Rule.Tree
import DataAccess.Proofs.Rule.Leaf
import DataAccess.Proofs.Rule.Meaning
import DataAccess.Proofs.Rule.WellFormed
import DataAccess.Proofs.Rule.Strictness
import DataAccess.Proofs.Rule.Secrecy
import DataAccess.Proofs.Rule.Variables
import DataAccess.Proofs.Calendar.Text
import DataAccess.Proofs.Decision.Columns
import DataAccess.Proofs.Decision.Order
import DataAccess.Proofs.Audit.Isolation
import DataAccess.Proofs.Value.Storage
import DataAccess.Proofs.Decision.Binding
import DataAccess.Proofs.Audit.Eviction
import DataAccess.Proofs.Audit.Retention
import DataAccess.Proofs.Rule.Reordering
import DataAccess.Proofs.Rule.Rendering
import DataAccess.Proofs.Value.Reloading
import DataAccess.Proofs.Rule.Reloading
import DataAccess.Proofs.Sql.Grammar
import DataAccess.Proofs.Sql.Binding
import DataAccess.Proofs.Rule.Conditions
import DataAccess.Proofs.Rule.Binding
import DataAccess.Proofs.Decimal.FloatText
import DataAccess.Proofs.Sql.Text
import DataAccess.Proofs.Decimal.Interval
import DataAccess.Proofs.Rule.Unambiguity
import DataAccess.Proofs.Calendar.Reading
import DataAccess.Proofs.Rule.Patterns
import DataAccess.Proofs.Template.Scanning
import DataAccess.Proofs.Calendar.Instants
import DataAccess.Proofs.Sql.Quoting
import DataAccess.Proofs.Range.Quoting
import DataAccess.Proofs.Rule.Resolution
import DataAccess.Proofs.Range.Building
import DataAccess.Proofs.Range.Language
import DataAccess.Proofs.Audit.Idleness
import DataAccess.Proofs.Audit.Queries
import DataAccess.Proofs.Decision.Visibility
import DataAccess.Proofs.Decision.Matching
import DataAccess.Proofs.Rule.Accounting
import DataAccess.Proofs.Value.Generic
import DataAccess.Proofs.Calendar.Locals
import DataAccess.Proofs.Policy.Reloading
import DataAccess.Proofs.Text.Order
import DataAccess.Proofs.Policy.Runs
import DataAccess.Proofs.Config.Layering
import DataAccess.Proofs.Template.Tiling
