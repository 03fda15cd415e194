import BomEngine.Purchase.Suggestion
import BomEngine.Shortage.Reconciliation
import BomEngine.View.Section

/-!
# The shortages of a work order

The view of a work order with its reconciled lines and the active vendors, and
the orders that are suggested for its shortages.
-/

set_option autoImplicit false

namespace BomEngine

structure ShortageSection where
  assemblyIpn : String
  qty : Decimal
  lines : List NettedLine
  summary : ShortageSummary
  deriving DecidableEq, Repr

instance : Record ShortageSection :=
  ⟨"ShortageSection",
    Check.record fun fs =>
      ShortageSection.mk <$> fs.required "assembly_ipn" Check.text
        <*> fs.required "qty" Check.decimal
        <*> fs.withDefault "lines" [] (Check.list Record.check)
        <*> fs.required "summary" Record.check,
    fun s => .obj [("assembly_ipn", .str s.assemblyIpn), ("qty", .decimal s.qty),
      ("lines", Record.dumpList s.lines), ("summary", Record.dump s.summary)]⟩

structure WorkOrderView where
  workOrderId : String
  state : ViewState
  message : Option String
  workOrder : Option WorkOrder
  shortages : Section ShortageSection
  vendors : Section (List Vendor)
  canGenerate : Bool
  deriving DecidableEq, Repr

instance : Record WorkOrderView :=
  ⟨"WorkOrderShortageView",
    Check.record fun fs =>
      WorkOrderView.mk <$> fs.required "wo_id" Check.text
        <*> fs.required "state" ViewState.check
        <*> fs.optional "message" Check.text
        <*> fs.optional "work_order" Record.check
        <*> fs.required "shortages" Record.check
        <*> fs.required "vendors" Record.check
        <*> fs.withDefault "can_generate_po" false Check.bool,
    fun v => .obj [("wo_id", .str v.workOrderId), ("state", .str v.state.text),
      ("message", Json.ofOption .str v.message), ("work_order", Record.dumpOption v.workOrder),
      ("shortages", Record.dump v.shortages), ("vendors", Record.dump v.vendors),
      ("can_generate_po", .bool v.canGenerate)]⟩

namespace WorkOrderView

def noBom : String := "No BOM data"

def noVendors : String := "Vendor list unavailable"

def shortageSection (trust : Bool) : Outcome WorkOrderBom → Noted (Section ShortageSection × Bool)
  | .error f => pure (Section.ofOutcome noBom (.error f), false)
  | .ok b => do
    let view ← ShortageView.ofWorkOrderBom trust false b
    return (.loaded ⟨b.assemblyIpn, b.qty, view.lines, view.summary⟩, view.hasShortage)

def ofOutcomes (trust : Bool) (id : String) (workOrder : Outcome WorkOrder)
    (bom : Outcome WorkOrderBom) (vendors : Outcome (List Vendor)) : Noted WorkOrderView := do
  let (shortages, isShort) ← shortageSection trust bom
  return {
    workOrderId := id
    state := ViewState.ofOutcome workOrder
    message := workOrder.message?
    workOrder := workOrder.value?
    shortages := shortages
    vendors := Section.ofOutcome noVendors vendors
    canGenerate := isShort }

end WorkOrderView

namespace SuggestionSet

/-- The preferred sources that price histories give. A history that could not be
fetched gives none. -/
def sourcesOf (histories : List (String × Outcome (List PriceRecord))) : Sources :=
  histories.foldl (fun sources h =>
    match PreferredSource.ofPrices h.1 (h.2.value?.getD []) with
    | some s => putEntry h.1 s sources
    | none => sources) []

end SuggestionSet
end BomEngine
