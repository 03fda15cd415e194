import BomEngine.Status

/-!
# Purchase orders

Orders with their lines. What is pending on a line is what was ordered less what
was received, or nothing. An order in an open state accepts receipts for the lines
with something pending.
-/

set_option autoImplicit false

namespace BomEngine

structure OrderLine where
  id : Int
  ipn : String
  mpn : Option String
  manufacturer : Option String
  ordered : Decimal
  received : Decimal
  unitPrice : Option Decimal
  notes : Option String
  deriving DecidableEq, Repr

namespace OrderLine

def ofFields (fs : Fields) : Verdict OrderLine :=
  OrderLine.mk <$> fs.required "id" Check.int
    <*> fs.required "ipn" Check.text
    <*> fs.optional "mpn" Check.text
    <*> fs.optional "manufacturer" Check.text
    <*> fs.required "qty_ordered" Check.nonnegative
    <*> fs.withDefault "qty_received" Decimal.zero Check.nonnegative
    <*> fs.optional "unit_price" Check.nonnegative
    <*> fs.optional "notes" Check.text

def shown (l : OrderLine) : Json :=
  .obj [("id", .int l.id), ("ipn", .str l.ipn), ("mpn", Json.ofOption .str l.mpn),
    ("manufacturer", Json.ofOption .str l.manufacturer), ("qty_ordered", .decimal l.ordered),
    ("qty_received", .decimal l.received), ("unit_price", Json.ofOption .decimal l.unitPrice),
    ("notes", Json.ofOption .str l.notes)]

instance : Record OrderLine := ⟨"PurchaseOrderLine", Check.record ofFields, shown⟩

def pending (l : OrderLine) : Except Signal Decimal := do
  return (← l.ordered.sub l.received).atLeastZero

/-- The price, or zero; a price that counts as nothing is zero without places. -/
def priceOrZero (l : OrderLine) : Decimal :=
  match l.unitPrice with
  | some p => if p.isZero then Decimal.zero else p
  | none => Decimal.zero

def total (l : OrderLine) : Except Signal Decimal := l.ordered.mul l.priceOrZero

end OrderLine

structure PurchaseOrder where
  id : String
  vendor : Option String
  status : String
  notes : Option String
  createdAt : Option String
  expectedDate : Option String
  receivedAt : Option String
  lines : List OrderLine
  deriving DecidableEq, Repr

namespace PurchaseOrder

/-- A status in lower case. What counts as nothing is a draft; anything else that
is no text breaks the check. -/
def statusCheck : Check String := fun j =>
  if !j.isTruthy then .accepted "draft"
  else
    match j with
    | .str s => .accepted (Text.lower s)
    | _ => .broken

def ofFields (fs : Fields) : Verdict PurchaseOrder :=
  PurchaseOrder.mk <$> fs.required "id" Check.text
    <*> fs.optional "vendor_id" Check.text
    <*> fs.withDefault "status" "draft" statusCheck
    <*> fs.optional "notes" Check.text
    <*> fs.optional "created_at" Check.text
    <*> fs.optional "expected_date" Check.text
    <*> fs.optional "received_at" Check.text
    <*> fs.withDefault "lines" [] (Check.orNull [] (Check.list Record.check))

def shown (o : PurchaseOrder) : Json :=
  .obj [("id", .str o.id), ("vendor_id", Json.ofOption .str o.vendor), ("status", .str o.status),
    ("notes", Json.ofOption .str o.notes), ("created_at", Json.ofOption .str o.createdAt),
    ("expected_date", Json.ofOption .str o.expectedDate),
    ("received_at", Json.ofOption .str o.receivedAt), ("lines", Record.dumpList o.lines)]

instance : Record PurchaseOrder := ⟨"PurchaseOrder", Check.record ofFields, shown⟩

def isReceivable (openStatuses : List String) (o : PurchaseOrder) : Bool :=
  BomEngine.isReceivable openStatuses o.status

def pendingLines : List OrderLine → Except Signal (List (OrderLine × Decimal))
  | [] => .ok []
  | l :: rest => do
    let pending ← l.pending
    let others ← pendingLines rest
    return if pending.isPositive then (l, pending) :: others else others

def receivable (openStatuses : List String) (o : PurchaseOrder) :
    Except Signal (List (OrderLine × Decimal)) :=
  if o.isReceivable openStatuses then pendingLines o.lines else .ok []

def isComplete : List OrderLine → Except Signal Bool
  | [] => .ok true
  | l :: rest => do
    if (← l.pending).isZero then isComplete rest else return false

def expectedStatus (o : PurchaseOrder) : Except Signal String := do
  if o.lines.isEmpty then return "partial"
  return if ← isComplete o.lines then "received" else "partial"

def totalOf (f : OrderLine → Except Signal Decimal) (o : PurchaseOrder) : Except Signal Decimal :=
  o.lines.foldlM (fun sum l => do sum.add (← f l)) Decimal.zero

structure Totals where
  ordered : Decimal
  received : Decimal
  pending : Decimal
  value : Decimal
  deriving DecidableEq, Repr

def totals (o : PurchaseOrder) : Except Signal Totals := do
  return {
    ordered := ← o.totalOf fun l => .ok l.ordered
    received := ← o.totalOf fun l => .ok l.received
    pending := ← o.totalOf OrderLine.pending
    value := ← o.totalOf OrderLine.total }

def Totals.entries (t : Totals) : List (String × Decimal) :=
  [("qty_ordered", t.ordered), ("qty_received", t.received), ("qty_pending", t.pending),
    ("order_value", t.value)]

end PurchaseOrder
end BomEngine
