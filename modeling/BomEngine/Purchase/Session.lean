import BomEngine.Log.Record
import BomEngine.Purchase.Order
import BomEngine.Purchase.Quantity
import BomEngine.Purchase.Receipt

/-!
# Receiving sessions

A user enters quantities for the lines of an order and sends a receipt. What is
entered is kept as typed and clamped only when a receipt is made of it. A rejected
receipt leaves the session as it is, apart from the error; an accepted one puts
the order of the answer in place of the old one and forgets what was entered.
-/

set_option autoImplicit false

namespace BomEngine

structure ReceivingSession where
  order : PurchaseOrder
  openStatuses : List String
  allowed : List String
  entered : Entered
  isOpen : Bool
  error : Option String
  deriving DecidableEq, Repr

namespace ReceivingSession

def logger : String := "app.services.procurement"

/-- A session for an order, where the statuses that accept receipts are given or
as configured. -/
def start (configured : List String) (given : Option (List String)) (order : PurchaseOrder) :
    ReceivingSession :=
  { order := order
    openStatuses := given.getD configured
    allowed := if (given.getD []).isEmpty then receiptStatuses configured else given.getD []
    entered := []
    isOpen := true
    error := none }

def isReceivable (s : ReceivingSession) : Bool := s.order.isReceivable s.openStatuses

def lines (s : ReceivingSession) : Except Signal (List (OrderLine × Decimal)) :=
  s.order.receivable s.openStatuses

def notReceivable (s : ReceivingSession) (what : String) : Failure :=
  .fault (.invalidState what s.order.status s.allowed)

/-- Enters a quantity for a line. Of two lines with one id the first is meant. -/
def enter (s : ReceivingSession) (id : Int) (typed : String) : Result ReceivingSession :=
  match s.order.lines.find? fun l => l.id == id with
  | none => .error (.fault (.notFound "PO line" (some (toString id))))
  | some l =>
    match l.pending with
    | .error e => .error (.signal e)
    | .ok pending =>
      if pending.isPositive && s.isReceivable then
        .ok { s with entered := putEntry id typed s.entered }
      else .error (s.notReceivable ("Line " ++ toString id ++ " is not receivable"))

def enterAll (s : ReceivingSession) (quantities : Entered) : Result ReceivingSession :=
  quantities.foldlM (fun s q => s.enter q.1 q.2) s

def clampedOn (entered : Entered) (lines : List (OrderLine × Decimal)) : List (Int × Decimal) :=
  lines.foldl (fun done l =>
    match entered.lookup l.1.id with
    | some typed => putEntry l.1.id (Quantity.clamp l.2 (Quantity.ofText typed)) done
    | none => done) []

def clamped (s : ReceivingSession) : Except Signal (List (Int × Decimal)) := do
  return clampedOn s.entered (← s.lines)

def receiptLines (s : ReceivingSession) : Except Signal (List ReceiptLine) := do
  return ((← s.clamped).filter fun q => q.2.isPositive).map fun q => ⟨q.1, q.2⟩

def canSubmit (s : ReceivingSession) : Except Signal Bool := do
  if s.isReceivable then return !(← s.receiptLines).isEmpty else return false

def request (s : ReceivingSession) : Result (List ReceiptLine) :=
  if s.isReceivable then
    match s.receiptLines with
    | .error e => .error (.signal e)
    | .ok [] =>
      .error (.fault (.validation "Enter a quantity to receive on at least one line" none))
    | .ok lines => .ok lines
  else
    .error (s.notReceivable ("Purchase order " ++ s.order.id ++ " is not open for receiving"))

def rejectedRecord (s : ReceivingSession) (f : Fault) (lines : List ReceiptLine) : LogRecord :=
  .warning logger ("Receipt for PO " ++ s.order.id ++ " rejected: " ++ f.message)
    [("po_id", .str s.order.id), ("line_count", .int lines.length)]

def statusRecord (o : PurchaseOrder) (expected : String) : LogRecord :=
  .warning logger ("PO " ++ o.id ++ " status after receipt is '" ++ o.status ++ "', expected '"
    ++ expected ++ "'") [("po_id", .str o.id)]

def receivedRecord (s : ReceivingSession) (skipInspection : Bool) (lines : List ReceiptLine) :
    LogRecord :=
  .info logger ("Received " ++ toString lines.length ++ " line(s) on PO " ++ s.order.id)
    [("po_id", .str s.order.id), ("skip_inspection", .bool skipInspection)]

def refreshed (s : ReceivingSession) (order : PurchaseOrder) : ReceivingSession :=
  { s with order := order, entered := [], error := none, isOpen := false }

def rejected (s : ReceivingSession) (message : String) : ReceivingSession :=
  { s with error := some message }

def settle (s : ReceivingSession) (skipInspection : Bool) (lines : List ReceiptLine) :
    Result PurchaseOrder → List LogRecord × Result PurchaseOrder × ReceivingSession
  | .error (.fault f) => ([s.rejectedRecord f lines], .error (.fault f), s.rejected f.message)
  | .error e => ([], .error e, s)
  | .ok order =>
    match order.expectedStatus with
    | .error e => ([], .error (.signal e), s)
    | .ok expected =>
      ((if order.status = expected then [] else [statusRecord order expected])
          ++ [s.receivedRecord skipInspection lines], .ok order, s.refreshed order)

end ReceivingSession
end BomEngine
