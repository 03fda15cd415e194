import BomEngine.Bom.Resolving
import BomEngine.Service.Submission
import BomEngine.View.PartDetail
import BomEngine.View.QuoteCosting
import BomEngine.View.Receiving
import BomEngine.View.WorkOrderShortages

/-!
# Loading views

Each view is loaded by fetching what it shows and handing the outcomes to the view.
The fetches do not wait for one another: one that fails for good ends the loading,
but only after all of them have been made.
-/

set_option autoImplicit false

namespace BomEngine

namespace Act

def loadingLogger : String := "app.services.detail_views"

def faultRecord (label : String) (context : List (String × Json)) (f : Fault) : LogRecord :=
  if f.isNotFound then .info loadingLogger (label ++ ": " ++ f.message) context
  else .warning loadingLogger (label ++ " failed: " ++ f.message)
    (context ++ [("error_code", .str f.kind.code)])

def labelled {α : Type} (label : String) (context : List (String × Json)) (x : Act α) :
    Act (Outcome α) := do
  match ← Act.outcome x with
  | .ok a => return .ok a
  | .error f => do
    Act.note (faultRecord label context f)
    return .error f

def held {α : Type} (label : String) (context : List (String × Json)) (x : Act α) :
    Act (Result (Outcome α)) :=
  Act.attempt (labelled label context x)

end Act

namespace Loading

def resolve (c : OpsClient) (limit : Int) (ipn : String) (buildQty : Result Decimal) :
    Act BomResolution := do
  let qty ← Act.ofResult buildQty
  let fetched ← Act.outcome (c.fetchBom ipn)
  BomResolution.ofOutcome limit ipn qty fetched

def bomAndParts (c : OpsClient) (s : Settings) (ipn : String) (buildQty : Result Decimal)
    (part : Outcome Part) : Act (Option BomResolution × Option (List Part)) :=
  if PartView.isAssemblyOf s ipn part then do
    let resolution ← Act.attempt (resolve c s.bomMaxDepth ipn buildQty)
    let parts ← Act.held "Parts catalog fetch" [("ipn", .str ipn)] c.fetchParts
    return (some (← resolution), (← parts).value?)
  else pure (none, none)

def partDetail (c : OpsClient) (s : Settings) (ipn : String) (buildQty : Result Decimal)
    (expandedDepth : Option Int) : Act PartView := do
  let context := [("ipn", Json.str ipn)]
  let part ← Act.held "Part fetch" context (c.fetchPart ipn)
  let cost ← Act.held "Cost fetch" context (c.fetchCost ipn)
  let whereUsed ← Act.held "Where-used fetch" context (c.fetchWhereUsed ipn)
  let part ← Act.ofResult part
  let bom ← Act.attempt (bomAndParts c s ipn buildQty part)
  let cost ← Act.ofResult cost
  let whereUsed ← Act.ofResult whereUsed
  let (resolution, parts) ← Act.ofResult bom
  PartView.assemble s ipn expandedDepth resolution parts part cost whereUsed

def workOrderShortages (c : OpsClient) (s : Settings) (id : String) : Act WorkOrderView := do
  let context := [("wo_id", Json.str id)]
  let workOrder ← Act.held "Work order fetch" context (c.fetchWorkOrder id)
  let bom ← Act.held "Work order BOM fetch" context (c.fetchWorkOrderBom id)
  let vendors ← Act.held "Vendor fetch" context (c.fetchVendors true)
  WorkOrderView.ofOutcomes s.trustServerStatus id (← workOrder) (← bom) (← vendors)

def shortageView (c : OpsClient) (s : Settings) (id : String) : Act ShortageView := do
  let bom ← c.fetchWorkOrderBom id
  ShortageView.ofWorkOrderBom s.trustServerStatus false bom

def generateOrder (c : OpsClient) (s : Settings) (id : String) (vendor : Option String) :
    Act CreatedOrder := do
  let view ← shortageView c s id
  let (result, _) ← ((OrderDialog.start view (some id)).choose vendor).submit c
  Act.ofResult result

def suggestions (c : OpsClient) (s : Settings) (id : String) : Act SuggestionSet := do
  let view ← shortageView c s id
  let histories ← view.shortages.mapM fun l => do
    return (l.ipn, ← Act.held "Price history fetch" [("ipn", .str l.ipn)] (c.fetchPrices l.ipn))
  let histories ← Act.ofResult (histories.mapM fun h => do return (h.1, ← h.2))
  SuggestionSet.ofLines (SuggestionSet.sourcesOf histories) view.lines

def receiving (c : OpsClient) (s : Settings) (id : String) : Act ReceivingView := do
  let context := [("po_id", Json.str id)]
  let order ← Act.held "Purchase order fetch" context (c.fetchOrder id)
  let vendors ← Act.held "Vendor fetch" context (c.fetchVendors false)
  let order ← Act.ofResult order
  let vendor := ReceivingView.vendorSection order (← vendors)
  Result.ofArithmetic (ReceivingView.ofOutcome s.openOrderStatuses id vendor order)

def receive (c : OpsClient) (s : Settings) (id : String) (entered : Entered)
    (skipInspection : Bool) : Act ReceivingView := do
  let order ← c.fetchOrder id
  let session ← (ReceivingSession.start s.openOrderStatuses none order).enterAll entered
  let (result, _) ← session.submit c skipInspection
  let order ← Act.ofResult result
  let vendors ← Act.labelled "Vendor fetch" [("po_id", .str id)] (c.fetchVendors false)
  let vendor := ReceivingView.vendorSection (.ok order) vendors
  Result.ofArithmetic (ReceivingView.ofOrder s.openOrderStatuses id vendor order)

def quoteCosting (c : OpsClient) (id : String) : Act QuoteView := do
  let context := [("quote_id", Json.str id)]
  let quote ← Act.held "Quote fetch" context (c.fetchQuote id)
  let parts ← Act.held "Parts catalog fetch" context c.fetchParts
  let quote ← Act.ofResult quote
  QuoteView.ofOutcomes id quote (← parts)

end Loading
end BomEngine
