import BomEngine.Bom.Explosion
import BomEngine.Bom.Node
import BomEngine.Bom.Resolution
import BomEngine.Bom.Resolving
import BomEngine.Bom.TreeView
import BomEngine.Campaign
import BomEngine.Cost.Entry
import BomEngine.Cost.Rollup
import BomEngine.Decimal.Arithmetic
import BomEngine.Decimal.Basic
import BomEngine.Decimal.Binary64
import BomEngine.Decimal.Number
import BomEngine.Decimal.Printer
import BomEngine.Decimal.Reader
import BomEngine.Entries
import BomEngine.Failure
import BomEngine.Fault.Arguments
import BomEngine.Fault.Basic
import BomEngine.Http.Application
import BomEngine.Http.Complaint
import BomEngine.Http.Cors
import BomEngine.Http.Message
import BomEngine.Http.Route
import BomEngine.Inspection
import BomEngine.Json.Basic
import BomEngine.Json.Bytes
import BomEngine.Json.Printer
import BomEngine.Json.Reader
import BomEngine.Log.Line
import BomEngine.Log.Moment
import BomEngine.Log.Record
import BomEngine.Log.Setup
import BomEngine.Log.Template
import BomEngine.Part
import BomEngine.Poll.Monitor
import BomEngine.Poll.Poller
import BomEngine.Poll.Rehearsal
import BomEngine.Poll.Timeline
import BomEngine.Proofs.Bom.Explosion
import BomEngine.Proofs.Bom.Fetching
import BomEngine.Proofs.Bom.Grammar
import BomEngine.Proofs.Bom.Occurrence
import BomEngine.Proofs.Bom.Resolving
import BomEngine.Proofs.Bom.Scaling
import BomEngine.Proofs.Bom.TreeView
import BomEngine.Proofs.Cost.Rollup
import BomEngine.Proofs.Decimal.Binary64
import BomEngine.Proofs.Decimal.Exact
import BomEngine.Proofs.Decimal.Limits
import BomEngine.Proofs.Decimal.Nearest
import BomEngine.Proofs.Decimal.Notation
import BomEngine.Proofs.Decimal.Places
import BomEngine.Proofs.Decimal.Quotients
import BomEngine.Proofs.Decimal.Rounding
import BomEngine.Proofs.Decimal.Shortest
import BomEngine.Proofs.Decimal.Value
import BomEngine.Proofs.FloatFormat
import BomEngine.Proofs.Json.Openings
import BomEngine.Proofs.Json.Texts
import BomEngine.Proofs.Poll.History
import BomEngine.Proofs.Poll.Loops
import BomEngine.Proofs.Poll.Polling
import BomEngine.Proofs.Poll.Resuming
import BomEngine.Proofs.Poll.Rules
import BomEngine.Proofs.Poll.Safety
import BomEngine.Proofs.Poll.Turns
import BomEngine.Proofs.Poll.Updates
import BomEngine.Proofs.Poll.Watches
import BomEngine.Proofs.Purchase.Clamping
import BomEngine.Proofs.Purchase.Completeness
import BomEngine.Proofs.Purchase.Dialog
import BomEngine.Proofs.Purchase.Entering
import BomEngine.Proofs.Purchase.Order
import BomEngine.Proofs.Purchase.Protocol
import BomEngine.Proofs.Purchase.Request
import BomEngine.Proofs.Purchase.Retries
import BomEngine.Proofs.Purchase.Session
import BomEngine.Proofs.Purchase.Suggestion
import BomEngine.Proofs.Purchase.Wire
import BomEngine.Proofs.Quote.Costing
import BomEngine.Proofs.Quote.Margins
import BomEngine.Proofs.Schema.Acceptance
import BomEngine.Proofs.Schema.Flaws
import BomEngine.Proofs.Schema.Quantities
import BomEngine.Proofs.Schema.Scalars
import BomEngine.Proofs.Schema.Unbroken
import BomEngine.Proofs.Service.Addresses
import BomEngine.Proofs.Service.Effects
import BomEngine.Proofs.Service.Escapes
import BomEngine.Proofs.Service.Failures
import BomEngine.Proofs.Service.Identifiers
import BomEngine.Proofs.Service.Operations
import BomEngine.Proofs.Settings.CommaTexts
import BomEngine.Proofs.Settings.Items
import BomEngine.Proofs.Settings.Lists
import BomEngine.Proofs.Shortage.Drift
import BomEngine.Proofs.Shortage.Monotone
import BomEngine.Proofs.Shortage.Netting
import BomEngine.Proofs.Shortage.Reconciliation
import BomEngine.Proofs.Text.Digits
import BomEngine.Proofs.Text.Symbols
import BomEngine.Proofs.Text.Utf8
import BomEngine.Proofs.Traversal
import BomEngine.Proofs.View.CostSection
import BomEngine.Proofs.View.Isolation
import BomEngine.Proofs.View.PartDetail
import BomEngine.Proofs.View.Receiving
import BomEngine.Proofs.View.Suggestions
import BomEngine.Proofs.View.WorkOrderShortages
import BomEngine.Purchase.Dialog
import BomEngine.Purchase.Order
import BomEngine.Purchase.Quantity
import BomEngine.Purchase.Receipt
import BomEngine.Purchase.Request
import BomEngine.Purchase.Session
import BomEngine.Purchase.Suggestion
import BomEngine.Purchase.Vendor
import BomEngine.Quote.Basic
import BomEngine.Quote.Costing
import BomEngine.Schema.Record
import BomEngine.Schema.Scalar
import BomEngine.Schema.Verdict
import BomEngine.Service.Address
import BomEngine.Service.Client
import BomEngine.Service.Exchange
import BomEngine.Service.Loading
import BomEngine.Service.Reason
import BomEngine.Service.Submission
import BomEngine.Settings
import BomEngine.Shortage.Line
import BomEngine.Shortage.Netting
import BomEngine.Shortage.Reconciliation
import BomEngine.Shortage.Summary
import BomEngine.Status
import BomEngine.Text.Blank
import BomEngine.Text.CaseTable
import BomEngine.Text.Casing
import BomEngine.Text.Digit
import BomEngine.Text.Encoding
import BomEngine.Text.PrintableTable
import BomEngine.Text.Quoted
import BomEngine.Text.Ranges
import BomEngine.Text.Utf8
import BomEngine.View.PartDetail
import BomEngine.View.QuoteCosting
import BomEngine.View.Receiving
import BomEngine.View.Section
import BomEngine.View.WorkOrderShortages
import BomEngine.WorkOrder
