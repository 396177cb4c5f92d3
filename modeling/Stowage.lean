import Stowage.Access.Operator
import Stowage.Access.Password
import Stowage.Access.Token
import Stowage.Binary64.Basic
import Stowage.Binary64.Shortest
import Stowage.Binary64.Text
import Stowage.Carton.Basic
import Stowage.Carton.Handling
import Stowage.Catalogue.Address
import Stowage.Catalogue.Client
import Stowage.Catalogue.Enrichment
import Stowage.Catalogue.Prepared
import Stowage.Catalogue.Product
import Stowage.Decimal.Arithmetic
import Stowage.Decimal.Basic
import Stowage.Decimal.Numeral
import Stowage.Decimal.Round
import Stowage.Decimal.Text
import Stowage.Digest.Base64
import Stowage.Digest.Keyed
import Stowage.Digest.Sha256
import Stowage.Event.Basic
import Stowage.Event.Outbox
import Stowage.Failure.Basic
import Stowage.Failure.Checked
import Stowage.Failure.Detail
import Stowage.Failure.Domain
import Stowage.Form.Basic
import Stowage.Form.Scalar
import Stowage.Item.Attribute
import Stowage.Item.Basic
import Stowage.Item.Quantity
import Stowage.Json.Basic
import Stowage.Json.Display
import Stowage.Json.Finite
import Stowage.Json.Printer
import Stowage.Json.Reader
import Stowage.Json.Whole
import Stowage.Measure.Amount
import Stowage.Measure.Dimensions
import Stowage.Measure.Unit
import Stowage.Measure.Weight
import Stowage.Package.Basic
import Stowage.Packing.Order
import Stowage.Packing.Placement
import Stowage.Packing.Policy
import Stowage.Packing.Validation
import Stowage.Proofs.Access.Token
import Stowage.Proofs.Binary64.Nearest
import Stowage.Proofs.Carton.History
import Stowage.Proofs.Catalogue.Address
import Stowage.Proofs.Catalogue.Category
import Stowage.Proofs.Catalogue.Enrichment
import Stowage.Proofs.Catalogue.Failure
import Stowage.Proofs.Catalogue.Lookup
import Stowage.Proofs.Catalogue.Repetition
import Stowage.Proofs.Decimal.Error
import Stowage.Proofs.Decimal.Nearest
import Stowage.Proofs.Decimal.Rounds
import Stowage.Proofs.Decimal.Sum
import Stowage.Proofs.Decimal.Value
import Stowage.Proofs.Digest.Base64
import Stowage.Proofs.Event.Outbox
import Stowage.Proofs.Failure.Fallible
import Stowage.Proofs.Json.Written
import Stowage.Proofs.Measure.Conversion
import Stowage.Proofs.Measure.Direction
import Stowage.Proofs.Measure.Fit
import Stowage.Proofs.Measure.Orientation
import Stowage.Proofs.Measure.Range
import Stowage.Proofs.Measure.RoundTrip
import Stowage.Proofs.Measure.Volume
import Stowage.Proofs.Package.Acceptance
import Stowage.Proofs.Package.Answers
import Stowage.Proofs.Package.Budget
import Stowage.Proofs.Package.Built
import Stowage.Proofs.Package.Ratio
import Stowage.Proofs.Package.Refusal
import Stowage.Proofs.Package.Remaining
import Stowage.Proofs.Package.Report
import Stowage.Proofs.Packing.Agreement
import Stowage.Proofs.Packing.Capacity
import Stowage.Proofs.Packing.Choice
import Stowage.Proofs.Packing.Compatibility
import Stowage.Proofs.Packing.Consolidation
import Stowage.Proofs.Packing.Descending
import Stowage.Proofs.Packing.Feasibility
import Stowage.Proofs.Packing.Lenient
import Stowage.Proofs.Packing.Order
import Stowage.Proofs.Packing.Permanence
import Stowage.Proofs.Packing.Rearrangement
import Stowage.Proofs.Packing.Rules
import Stowage.Proofs.Packing.Run
import Stowage.Proofs.Packing.Step
import Stowage.Proofs.Packing.Totality
import Stowage.Proofs.Packing.Utilization
import Stowage.Proofs.Packing.Verdict
import Stowage.Proofs.Solution.Mean
import Stowage.Proofs.Solution.View
import Stowage.Proofs.Solution.Weight
import Stowage.Proofs.Store.Cartons
import Stowage.Proofs.Store.Payload
import Stowage.Proofs.Store.Solutions
import Stowage.Proofs.Time.Calendar
import Stowage.Proofs.Time.Written
import Stowage.Proofs.Warehouse.Answer
import Stowage.Proofs.Warehouse.Calculation
import Stowage.Proofs.Warehouse.Clash
import Stowage.Proofs.Warehouse.Interleaving
import Stowage.Proofs.Warehouse.Kept
import Stowage.Proofs.Warehouse.News
import Stowage.Proofs.Warehouse.Rendering
import Stowage.Proofs.Warehouse.Revision
import Stowage.Proofs.Warehouse.Saved
import Stowage.Proofs.Warehouse.Withdrawal
import Stowage.Proofs.Web.Failure
import Stowage.Proofs.Web.Session
import Stowage.Settings
import Stowage.Solution.Basic
import Stowage.Store.Cartons
import Stowage.Store.Payload
import Stowage.Store.Solutions
import Stowage.Text.Blank
import Stowage.Text.Digit
import Stowage.Text.Printable
import Stowage.Text.Quoted
import Stowage.Text.Upper
import Stowage.Text.Utf8
import Stowage.Time.Supply
import Stowage.Time.Timestamp
import Stowage.View.Basic
import Stowage.View.Json
import Stowage.View.Reader
import Stowage.Warehouse.Basic
import Stowage.Warehouse.Calculation
import Stowage.Warehouse.Opening
import Stowage.Warehouse.Revision
import Stowage.Web.Client
import Stowage.Web.Command
import Stowage.Web.Cookie
import Stowage.Web.Message
import Stowage.Web.Query
import Stowage.Web.Resource
import Stowage.Web.Site
