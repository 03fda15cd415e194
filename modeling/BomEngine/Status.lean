import BomEngine.Settings

/-!
# Status rules

Which orders accept receipts and which campaigns are polled. Statuses are compared
in lower case.
-/

set_option autoImplicit false

namespace BomEngine

def statusOfValue (j : Json) : Result String :=
  if !j.isTruthy then .ok ""
  else
    match j with
    | .str s => .ok s
    | _ => .error .noText

def isReceivable (openStatuses : List String) (status : String) : Bool :=
  !status.isEmpty && openStatuses.contains (Text.lower status)

/-- The statuses that accept receipts, each once, in order. -/
def receiptStatuses (openStatuses : List String) : List String :=
  (openStatuses.eraseDups).mergeSort fun a b => a ≤ b

def isActiveCampaign (status : String) : Bool := Text.lower status == "running"

end BomEngine
