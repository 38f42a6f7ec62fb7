import Reporting.CommandLine.Arguments
import Reporting.CommandLine.Run
import Reporting.Definition.Basic
import Reporting.Definition.Operator
import Reporting.Definition.Wire
import Reporting.Digest.Sha256
import Reporting.Double.Basic
import Reporting.Double.Layout
import Reporting.Double.Reading
import Reporting.Double.Rounding
import Reporting.Double.Shortest
import Reporting.Export
import Reporting.Field
import Reporting.FieldType
import Reporting.Files.Entry
import Reporting.Files.Path
import Reporting.Files.Tree
import Reporting.Json.Basic
import Reporting.Json.Decode
import Reporting.Json.Node
import Reporting.Json.Printer
import Reporting.Json.Token
import Reporting.Main
import Reporting.Query.Condition
import Reporting.Query.Error
import Reporting.Query.Group
import Reporting.Query.Meaning
import Reporting.Query.Order
import Reporting.Query.Plan
import Reporting.Query.Reduce
import Reporting.Query.Slot
import Reporting.Query.WellFormed
import Reporting.Query.Window
import Reporting.Registry
import Reporting.Registry.File
import Reporting.Report.Basic
import Reporting.Run.Assembly
import Reporting.Run.Engine
import Reporting.Run.Stage
import Reporting.Schedule
import Reporting.Service.Api
import Reporting.Service.MediaType
import Reporting.Service.Router
import Reporting.Service.Target
import Reporting.Settings.Basic
import Reporting.Settings.Load
import Reporting.Settings.Template
import Reporting.Source.Basic
import Reporting.Source.Channel
import Reporting.Source.Feed
import Reporting.Source.File
import Reporting.Text.Alphanumeric
import Reporting.Text.Blank
import Reporting.Text.Digits
import Reporting.Text.Lines
import Reporting.Text.Percent
import Reporting.Text.Reader
import Reporting.Text.Search
import Reporting.Text.Split
import Reporting.Text.Utf8
import Reporting.Time.Calendar
import Reporting.Time.Instant
import Reporting.Time.Printer
import Reporting.Time.Reader
import Reporting.Toml.Basic
import Reporting.Toml.Document
import Reporting.Toml.Scalar
import Reporting.Value.Basic
import Reporting.Value.Cell
import Reporting.Value.Wire
import Reporting.Proofs.Order.Comparison
import Reporting.Proofs.Order.Sorting
import Reporting.Proofs.Double.Rank
import Reporting.Proofs.Value.Order
import Reporting.Proofs.Value.Extremes
import Reporting.Proofs.Query.Slots
import Reporting.Proofs.Query.Conditions
import Reporting.Proofs.Definition.Wire
import Reporting.Proofs.Json.Members
import Reporting.Proofs.Query.Checks
import Reporting.Proofs.Query.Correspondence
import Reporting.Proofs.Query.Validation
import Reporting.Proofs.Run.Assembly
import Reporting.Proofs.Run.Partitions
import Reporting.Proofs.Run.Safety
import Reporting.Proofs.Run.DrillDown
import Reporting.Proofs.Run.Interruption
import Reporting.Proofs.Json.Number
import Reporting.Proofs.Json.Text
import Reporting.Proofs.Json.Pretty
import Reporting.Proofs.Definition.RoundTrip
import Reporting.Proofs.Definition.Identity
import Reporting.Proofs.Run.WorkingSet
import Reporting.Proofs.Run.Arrival
import Reporting.Proofs.Run.Verdict
import Reporting.Proofs.Run.Paging
import Reporting.Proofs.Run.Reordering
import Reporting.Proofs.Run.Dependence
import Reporting.Proofs.Run.Shape
import Reporting.Proofs.Run.Capacity
import Reporting.Proofs.Run.SingleUse
import Reporting.Proofs.Json.Ordered
import Reporting.Proofs.Report.ReadBack
import Reporting.Proofs.Run.Export
import Reporting.Proofs.Json.Lines
import Reporting.Proofs.Run.Sources
import Reporting.Proofs.Order.Stability
import Reporting.Proofs.Query.Ranking
import Reporting.Proofs.Run.Accounting
import Reporting.Proofs.Query.Declaration
import Reporting.Proofs.Run.Precedence
import Reporting.Proofs.Double.Arithmetic
import Reporting.Proofs.Run.Totals
import Reporting.Proofs.Double.Nearest
import Reporting.Proofs.Query.Equality
import Reporting.Proofs.Query.Aggregation
import Reporting.Proofs.Value.ReadBack
import Reporting.Proofs.Run.Projection
import Reporting.Proofs.Run.Redundancy
import Reporting.Proofs.Run.Narrowing
import Reporting.Proofs.Query.Operators
import Reporting.Proofs.Value.Encodings
import Reporting.Proofs.Value.Amounts
import Reporting.Proofs.Text.Lines
import Reporting.Proofs.Json.Trailing
import Reporting.Proofs.Source.LineFile
import Reporting.Proofs.Settings.Template
import Reporting.Proofs.Registry.Catalog
