import BomEngine.Bom.TreeView
import BomEngine.Campaign
import BomEngine.Purchase.Order
import BomEngine.Purchase.Receipt
import BomEngine.Purchase.Request
import BomEngine.View.PartDetail
import BomEngine.View.QuoteCosting
import BomEngine.View.Receiving
import BomEngine.View.WorkOrderShortages

/-!
# Inspection of records

Every kind of record by its name, to be read, shown with what follows from its
fields, and changed field by field. A change is not checked; the nodes of bills
of materials cannot be changed.
-/

set_option autoImplicit false

namespace BomEngine

structure Inspection where
  record : String
  frozen : Bool
  value : Json
  derived : List (String × Result Json)

namespace Inspection

def reserved : List String := ["model_extra", "model_fields_set"]

/-- The record after one of its fields is set to any value. Names with a low line
in front belong to no field and change nothing that is shown. -/
def set (i : Inspection) (name : String) (value : Json) : Result Json :=
  if name.startsWith "_" then .ok i.value
  else if i.frozen then .error (.flaws i.record [⟨[.field name], .frozen⟩])
  else if hasEntry name i.derived || reserved.contains name then .error .derived
  else
    match i.value with
    | .obj fields =>
      if hasEntry name fields then .ok (.obj (putEntry name value fields)) else .error .badValue
    | _ => .error .badValue

end Inspection

structure RecordKind where
  name : String
  inspect : Json → Result Inspection
  inspectSection : Json → Result Inspection

namespace RecordKind

def inspectAs (α : Type) [Record α] (frozen : Bool) (derived : α → List (String × Result Json))
    (j : Json) : Result Inspection := do
  let a : α ← Record.parse j
  return ⟨Record.name α, frozen, Record.dump a, derived a⟩

def ofRecord (α : Type) [Record α] (frozen : Bool)
    (derived : α → List (String × Result Json)) : RecordKind :=
  ⟨Record.name α, inspectAs α frozen derived,
    inspectAs (Section α) false fun s => [("loaded", .ok (.bool s.isLoaded))]⟩

def plain (α : Type) [Record α] : RecordKind := ofRecord α false fun _ => []

def flag (name : String) (b : Bool) : String × Result Json := (name, .ok (.bool b))

def amount (name : String) (d : Except Signal Decimal) : String × Result Json :=
  (name, (Result.ofArithmetic d).map .decimal)

def boms : List RecordKind :=
  [ofRecord BomNode true fun n => [flag "is_leaf" n.isLeaf],
    ofRecord ExplodedNode true fun _ => [],
    ofRecord TreeRow true fun _ => [],
    ofRecord NettedLine false fun l => [flag "partially_available" l.isPartlyAvailable],
    ofRecord BomResolution false fun r =>
      [flag "ok" r.isOk, ("components", .ok (Record.dumpList r.components)),
        ("leaves", .ok (Record.dumpList r.leaves))],
    plain WhereUsed, plain BomSection]

def orders : List RecordKind :=
  [ofRecord Vendor false fun v => [flag "is_active" v.isActive],
    ofRecord OrderLine false fun l => [amount "pending" l.pending, amount "line_total" l.total],
    ofRecord SuggestedLine false fun l => [amount "estimated_total" l.total],
    ofRecord SuggestedOrder false fun o => [amount "estimated_total" o.total],
    plain PurchaseOrder, plain RequestLine, plain PurchaseRequest, plain CreatedOrder,
    plain VendorChoice, plain PriceRecord, plain PreferredSource, plain SuggestionSet,
    plain ReceiptLine, plain ReceiptRequest, plain ReceivingView]

def others : List RecordKind :=
  [ofRecord CostSummary false fun c => [flag "has_any" c.hasAny],
    plain Part, plain CostEntry, plain WorkOrder, plain WorkOrderBom, plain ShortageSummary,
    plain ShortageSection, plain WorkOrderView, plain PartView, plain Quote, plain QuoteLine,
    plain LineCosting, plain QuoteTotals, plain CostingSection, plain QuoteView, plain Campaign]

def all : List RecordKind := boms ++ orders ++ others

def named? (name : String) : Option RecordKind := all.find? fun k => k.name == name

end RecordKind
end BomEngine
