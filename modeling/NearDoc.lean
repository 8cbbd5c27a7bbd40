import NearDoc.Error
import NearDoc.Expr.Basic
import NearDoc.Expr.Bind
import NearDoc.Expr.Eval
import NearDoc.Expr.Operators
import NearDoc.Expr.Written
import NearDoc.Issue
import NearDoc.Json.Bytes
import NearDoc.Json.Reader
import NearDoc.Json.Writer
import NearDoc.Log
import NearDoc.Log.Call
import NearDoc.Near.Distance
import NearDoc.Near.Retrieval
import NearDoc.Near.Selector
import NearDoc.Number.Binary64
import NearDoc.Number.Bytes
import NearDoc.Number.Column
import NearDoc.Number.Decimal
import NearDoc.Number.Numeral
import NearDoc.Number.Rounding
import NearDoc.Proofs.Expr.Bound
import NearDoc.Proofs.Expr.Comparison
import NearDoc.Proofs.Expr.Identity
import NearDoc.Proofs.Expr.Parts
import NearDoc.Proofs.Expr.Prepared
import NearDoc.Proofs.Expr.Rewriting
import NearDoc.Proofs.Json.Paths
import NearDoc.Proofs.Json.Stored
import NearDoc.Proofs.Near.Mismatch
import NearDoc.Proofs.Near.Refused
import NearDoc.Proofs.Near.Surfaces
import NearDoc.Proofs.Near.Thresholded
import NearDoc.Proofs.Number.Exact
import NearDoc.Proofs.Number.RoundTrip
import NearDoc.Proofs.Query.Answer
import NearDoc.Proofs.Query.Assignments
import NearDoc.Proofs.Query.Bound
import NearDoc.Proofs.Query.Building
import NearDoc.Proofs.Query.ColumnNames
import NearDoc.Proofs.Query.Cut
import NearDoc.Proofs.Query.Demand
import NearDoc.Proofs.Query.Faults
import NearDoc.Proofs.Query.FirstPull
import NearDoc.Proofs.Query.Form
import NearDoc.Proofs.Query.Lifecycle
import NearDoc.Proofs.Query.Lifetime
import NearDoc.Proofs.Query.Lossless
import NearDoc.Proofs.Query.MixedKeys
import NearDoc.Proofs.Query.Pieces
import NearDoc.Proofs.Query.QueryTree
import NearDoc.Proofs.Query.Rendering
import NearDoc.Proofs.Query.Tally
import NearDoc.Proofs.Sort.Natural
import NearDoc.Proofs.Store.Addressed
import NearDoc.Proofs.Store.Redaction
import NearDoc.Proofs.Store.Refinement
import NearDoc.Proofs.Store.Snapshot
import NearDoc.Proofs.Store.Validated
import NearDoc.Proofs.Value.Equality
import NearDoc.Proofs.Value.Equivalence
import NearDoc.Proofs.Value.Trichotomy
import NearDoc.Proofs.Value.Unbound
import NearDoc.Proofs.Vector.Carrier
import NearDoc.Proofs.Vector.Registry
import NearDoc.Query.Builder
import NearDoc.Query.Cursor
import NearDoc.Query.Parser
import NearDoc.Query.Plan
import NearDoc.Query.Token
import NearDoc.Raised
import NearDoc.Search
import NearDoc.Session
import NearDoc.Settings
import NearDoc.Shape.Basic
import NearDoc.Shape.Written
import NearDoc.Signature
import NearDoc.Sort.Basic
import NearDoc.Sort.Merge
import NearDoc.Sort.Run
import NearDoc.Sort.Search
import NearDoc.Store.Basic
import NearDoc.Store.Name
import NearDoc.Text.AlphanumericTable
import NearDoc.Text.Blank
import NearDoc.Text.CaseTable
import NearDoc.Text.CharClass
import NearDoc.Text.Digit
import NearDoc.Text.Hex
import NearDoc.Text.LetterCase
import NearDoc.Text.Order
import NearDoc.Text.PrintableTable
import NearDoc.Text.Quoted
import NearDoc.Validation.Insert
import NearDoc.Validation.Near
import NearDoc.Value.Basic
import NearDoc.Value.Conversion
import NearDoc.Value.Hash
import NearDoc.Value.Operand
import NearDoc.Value.Order
import NearDoc.Value.Path
import NearDoc.Value.Plain
import NearDoc.Value.Relation
import NearDoc.Value.Typed
import NearDoc.Value.Typed.Conversion
import NearDoc.Value.Typed.Memory
import NearDoc.Value.Typed.Written
import NearDoc.Value.Written
import NearDoc.Vector.Basic
import NearDoc.Vector.Cast
import NearDoc.Vector.Metric
import NearDoc.Vector.Written
