import BomEngine.Purchase.Request
import BomEngine.Shortage.Reconciliation

/-!
# Order dialogs

A user chooses a vendor for the shortages of a work order and has an order made of
them. A rejected request leaves the dialog open with the vendor still chosen.
-/

set_option autoImplicit false

namespace BomEngine

structure OrderDialog where
  view : ShortageView
  workOrder : Option String
  vendor : Option String
  isOpen : Bool
  error : Option String
  result : Option CreatedOrder
  deriving DecidableEq, Repr

namespace OrderDialog

def logger : String := "app.services.procurement"

def start (view : ShortageView) (workOrder : Option String) : OrderDialog :=
  ⟨view, workOrder, none, true, none, none⟩

def choose (d : OrderDialog) (vendor : Option String) : OrderDialog := { d with vendor := vendor }

def isOffered (d : OrderDialog) : Bool := d.view.hasShortage

def canGenerate (d : OrderDialog) : Bool := PurchaseRequest.canGenerate d.view.lines d.vendor

def notes (d : OrderDialog) : Option String :=
  let id := d.workOrder.getD ""
  if id.isEmpty then none else some ("Generated from work order " ++ id)

def request (d : OrderDialog) : Result PurchaseRequest :=
  PurchaseRequest.ofLines d.view.lines d.vendor d.notes

def context (d : OrderDialog) : List (String × Json) :=
  [("wo_id", Json.ofOption .str d.workOrder), ("vendor_id", Json.ofOption .str d.vendor)]

def rejectedRecord (d : OrderDialog) (f : Fault) : LogRecord :=
  .warning logger ("PO generation failed: " ++ f.message) d.context

def createdRecord (d : OrderDialog) (r : PurchaseRequest) (o : CreatedOrder) : LogRecord :=
  .info logger ("Generated PO " ++ o.id ++ " with " ++ toString r.lines.length ++ " line(s)")
    (d.context ++ [("po_id", .str o.id)])

def settle (d : OrderDialog) (r : PurchaseRequest) :
    Result CreatedOrder → List LogRecord × Result CreatedOrder × OrderDialog
  | .error (.fault f) =>
    ([d.rejectedRecord f], .error (.fault f), { d with error := some f.message })
  | .error e => ([], .error e, d)
  | .ok o =>
    ([d.createdRecord r o], .ok o, { d with error := none, result := some o, isOpen := false })

end OrderDialog
end BomEngine
