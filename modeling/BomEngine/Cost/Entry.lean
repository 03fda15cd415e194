import BomEngine.Schema.Record

/-!
# Cost records

A cost entry is what the operations service reports for a part; a cost summary is
what is shown of it together with the cost rolled up from the bill of materials.
-/

set_option autoImplicit false

namespace BomEngine

structure CostEntry where
  ipn : String
  unitCost : Decimal
  lastUnitPrice : Option Decimal
  lastOrder : Option String
  lastOrderedDate : Option String
  bomCost : Option Decimal
  deriving DecidableEq, Repr

namespace CostEntry

def renamed (short full : String) (fs : Fields) : Fields :=
  match fs.lookup short with
  | some j => if hasEntry full fs then fs else (full, j) :: fs
  | none => fs

/-- The service may use short names, and null for no unit cost. -/
def normalized (fs : Fields) : Fields :=
  let fs := renamed "last_ordered" "last_ordered_date" (renamed "po_id" "last_po_id" fs)
  match fs.lookup "unit_cost" with
  | some .null => eraseEntry "unit_cost" fs
  | _ => fs

def ofFields (fs : Fields) : Verdict CostEntry :=
  let fs := normalized fs
  CostEntry.mk <$> fs.required "ipn" Check.text
    <*> fs.withDefault "unit_cost" Decimal.zero Check.nonnegative
    <*> fs.optional "last_unit_price" Check.nonnegative
    <*> fs.optional "last_po_id" Check.text
    <*> fs.optional "last_ordered_date" Check.text
    <*> fs.optional "bom_cost" Check.nonnegative

def shown (c : CostEntry) : Json :=
  .obj [("ipn", .str c.ipn), ("unit_cost", .decimal c.unitCost),
    ("last_unit_price", Json.ofOption .decimal c.lastUnitPrice),
    ("last_po_id", Json.ofOption .str c.lastOrder),
    ("last_ordered_date", Json.ofOption .str c.lastOrderedDate),
    ("bom_cost", Json.ofOption .decimal c.bomCost)]

instance : Record CostEntry := ⟨"CostEntry", Check.record ofFields, shown⟩

end CostEntry

structure CostSummary where
  ipn : String
  lastUnitPrice : Option Decimal
  lastOrder : Option String
  lastOrderedDate : Option String
  bomCost : Option Decimal
  bomCostSource : Option String
  showBomCost : Bool
  deriving DecidableEq, Repr

namespace CostSummary

def ofFields (fs : Fields) : Verdict CostSummary :=
  CostSummary.mk <$> fs.required "ipn" Check.text
    <*> fs.optional "last_unit_price" Check.decimal
    <*> fs.optional "last_po_id" Check.text
    <*> fs.optional "last_ordered_date" Check.text
    <*> fs.optional "bom_cost" Check.decimal
    <*> fs.optional "bom_cost_source" Check.text
    <*> fs.withDefault "show_bom_cost" false Check.bool

def shown (c : CostSummary) : Json :=
  .obj [("ipn", .str c.ipn), ("last_unit_price", Json.ofOption .decimal c.lastUnitPrice),
    ("last_po_id", Json.ofOption .str c.lastOrder),
    ("last_ordered_date", Json.ofOption .str c.lastOrderedDate),
    ("bom_cost", Json.ofOption .decimal c.bomCost),
    ("bom_cost_source", Json.ofOption .str c.bomCostSource),
    ("show_bom_cost", .bool c.showBomCost)]

instance : Record CostSummary := ⟨"CostSummary", Check.record ofFields, shown⟩

def hasAny (c : CostSummary) : Bool := c.lastUnitPrice.isSome || c.showBomCost

end CostSummary
end BomEngine
