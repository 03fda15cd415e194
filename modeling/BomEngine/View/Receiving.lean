import BomEngine.Purchase.Order
import BomEngine.Purchase.Vendor
import BomEngine.View.Section

/-!
# The receiving view

A purchase order with its vendor, the lines that accept a receipt, what is pending
on each, and its totals.
-/

set_option autoImplicit false

namespace BomEngine

structure ReceivingView where
  orderId : String
  state : ViewState
  message : Option String
  order : Option PurchaseOrder
  vendor : Section Vendor
  isReceivable : Bool
  lines : List OrderLine
  pending : List (Int × Decimal)
  totals : List (String × Decimal)
  deriving DecidableEq, Repr

namespace ReceivingView

instance : Record ReceivingView :=
  ⟨"ReceivingView",
    Check.record fun fs =>
      ReceivingView.mk <$> fs.required "po_id" Check.text
        <*> fs.required "state" ViewState.check
        <*> fs.optional "message" Check.text
        <*> fs.optional "order" Record.check
        <*> fs.required "vendor" Record.check
        <*> fs.withDefault "is_receivable" false Check.bool
        <*> fs.withDefault "receivable_lines" [] (Check.list Record.check)
        <*> fs.withDefault "pending" [] (Check.intMapping Check.decimal)
        <*> fs.withDefault "totals" [] (Check.mapping Check.decimal),
    fun v => .obj [("po_id", .str v.orderId), ("state", .str v.state.text),
      ("message", Json.ofOption .str v.message), ("order", Record.dumpOption v.order),
      ("vendor", Record.dump v.vendor), ("is_receivable", .bool v.isReceivable),
      ("receivable_lines", Record.dumpList v.lines),
      ("pending", .obj (v.pending.map fun p => (toString p.1, .decimal p.2))),
      ("totals", .obj (v.totals.map fun t => (t.1, .decimal t.2)))]⟩

/-- The vendor of an order, among all vendors. An order need not name one. -/
def vendorSection (order : Outcome PurchaseOrder) (vendors : Outcome (List Vendor)) :
    Section Vendor :=
  match vendors with
  | .error f => .without (Section.stateOfFault f) "Vendor list unavailable"
  | .ok vendors =>
    let id := (order.value?.bind PurchaseOrder.vendor).getD ""
    if id.isEmpty then .skipped
    else
      match vendors.find? fun v => v.id == id with
      | some v => .loaded v
      | none => .without .notFound ("Vendor " ++ id ++ " not found")

/-- What is pending by line id; of two lines with one id the later counts. -/
def pendingById (lines : List (OrderLine × Decimal)) : List (Int × Decimal) :=
  lines.foldl (fun done l => putEntry l.1.id l.2 done) []

def ofOrder (openStatuses : List String) (id : String) (vendor : Section Vendor)
    (order : PurchaseOrder) : Except Signal ReceivingView := do
  let lines ← order.receivable openStatuses
  let totals ← order.totals
  return {
    orderId := id
    state := .loaded
    message := none
    order := some order
    vendor := vendor
    isReceivable := order.isReceivable openStatuses
    lines := lines.map fun l => l.1
    pending := pendingById lines
    totals := totals.entries }

def ofOutcome (openStatuses : List String) (id : String) (vendor : Section Vendor) :
    Outcome PurchaseOrder → Except Signal ReceivingView
  | .ok order => ofOrder openStatuses id vendor order
  | .error f =>
    let missing : Outcome PurchaseOrder := .error f
    .ok ⟨id, ViewState.ofOutcome missing, missing.message?, none, vendor, false, [], [], []⟩

end ReceivingView
end BomEngine
