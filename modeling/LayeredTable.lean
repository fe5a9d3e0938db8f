import LayeredTable.Expr.Meaning
import LayeredTable.Expr.Print
import LayeredTable.Ingest
import LayeredTable.Json.Codec
import LayeredTable.OrderedMap.Lemmas
import LayeredTable.View
import LayeredTable.Proofs.Tree.Layers
import LayeredTable.Proofs.Tree.Shape
import LayeredTable.Proofs.Tree.Growth
import LayeredTable.Proofs.Tree.Fork
import LayeredTable.Proofs.Session.Basic
import LayeredTable.Proofs.Session.Sound
import LayeredTable.Proofs.Expr.Reading
import LayeredTable.Proofs.Session.Restore
import LayeredTable.Proofs.Tree.Exclusion
import LayeredTable.Proofs.View.Effect
import LayeredTable.Proofs.Ingest.Basic
import LayeredTable.Proofs.Session.Ingested
import LayeredTable.Proofs.CellId
import LayeredTable.Proofs.Ingest.Table
import LayeredTable.Proofs.Session.Table
import LayeredTable.Proofs.Expr.Pointwise
import LayeredTable.Proofs.Expr.Derivation
import LayeredTable.Proofs.Expr.Result
import LayeredTable.Proofs.Expr.Choice
import LayeredTable.Proofs.Text.Numeral
import LayeredTable.Proofs.Expr.Spelling
import LayeredTable.Proofs.Expr.RoundTrip
import LayeredTable.Proofs.Ingest.Row
import LayeredTable.Proofs.Ingest.Sheet
import LayeredTable.Proofs.Ingest.Faithful
import LayeredTable.Proofs.View.Clauses
import LayeredTable.Proofs.Expr.Join
import LayeredTable.Proofs.Session.Versions
import LayeredTable.Proofs.Expr.Typed
import LayeredTable.Proofs.Session.Known
import LayeredTable.Proofs.Expr.Live
import LayeredTable.Proofs.Expr.Failure
import LayeredTable.Proofs.Expr.Behaviour
import LayeredTable.Proofs.Expr.Schedule
import LayeredTable.Proofs.Expr.Ends
import LayeredTable.Proofs.Expr.Success
import LayeredTable.Proofs.View.Cancellation
import LayeredTable.Proofs.Expr.Guard
import LayeredTable.Proofs.Ingest.Keyed
import LayeredTable.Proofs.View.Stack
import LayeredTable.Proofs.Session.Exclusion
import LayeredTable.Proofs.DefectLog
import LayeredTable.Proofs.Expr.Degraded
import LayeredTable.Proofs.Time.Calendar
import LayeredTable.Proofs.Time.Reading
import LayeredTable.Proofs.Json.Reading
import LayeredTable.Proofs.Json.Codec
import LayeredTable.Proofs.Session.Fork
import LayeredTable.Proofs.Expr.Comparison
import LayeredTable.Proofs.Expr.Laws
import LayeredTable.Proofs.Expr.Partner
import LayeredTable.Proofs.Session.Unnamed
import LayeredTable.Proofs.Cast
import LayeredTable.Proofs.Expr.Occurrence
import LayeredTable.Proofs.Expr.Literal
import LayeredTable.Proofs.Expr.Bound
import LayeredTable.Proofs.Ingest.Atomic
import LayeredTable.Proofs.Value.Kind
import LayeredTable.Proofs.Time.Timestamp
import LayeredTable.Proofs.Time.Midnight
import LayeredTable.Proofs.Value.Text
import LayeredTable.Proofs.Value.Order
import LayeredTable.Proofs.Ingest.Unique
import LayeredTable.Proofs.Tree.Links
import LayeredTable.Proofs.Ingest.Thread
import LayeredTable.Proofs.Session.RowCells
import LayeredTable.Proofs.Time.Clock
