import BomEngine.Purchase.Dialog
import BomEngine.Purchase.Session
import BomEngine.Service.Client

/-!
# Submissions

Dialogs and sessions that talk to the service: what can be refused without it is
refused first, then one request is sent, and the answer settles the state.
-/

set_option autoImplicit false

namespace BomEngine

def Act.settled {α σ : Type} : List LogRecord × Result α × σ → Act (Result α × σ)
  | (records, result, state) => do
    records.forM Act.note
    return (result, state)

def ReceivingSession.submit (c : OpsClient) (skipInspection : Bool) (s : ReceivingSession) :
    Act (Result PurchaseOrder × ReceivingSession) :=
  match s.request with
  | .error e => pure (.error e, s)
  | .ok lines => do
    let answer ← Act.attempt (c.submitReceipt s.order.id lines skipInspection)
    Act.settled (s.settle skipInspection lines answer)

def OrderDialog.submit (c : OpsClient) (d : OrderDialog) : Act (Result CreatedOrder × OrderDialog) :=
  match d.request with
  | .error e => pure (.error e, d)
  | .ok r => do
    let answer ← Act.attempt (c.createOrder r)
    Act.settled (d.settle r answer)

end BomEngine
