import BomEngine.Bom.Resolution
import BomEngine.Campaign
import BomEngine.Cost.Entry
import BomEngine.Part
import BomEngine.Purchase.Order
import BomEngine.Purchase.Receipt
import BomEngine.Purchase.Request
import BomEngine.Purchase.Vendor
import BomEngine.Quote.Basic
import BomEngine.Service.Exchange
import BomEngine.Service.Reason
import BomEngine.Settings
import BomEngine.WorkOrder

/-!
# The client of the operations service

One operation for each thing that the service is asked for. A missing resource,
any other refusal, an answer that cannot be read, and silence are each a fault of
their own. An answer may come inside an envelope.
-/

set_option autoImplicit false

namespace BomEngine

open Service

structure OpsClient where
  base : Base
  authorization : Option String
  timeout : Binary64
  deriving DecidableEq, Repr

namespace OpsClient

def accepted : String := "application/json"

/-- A client for the given values, or those of the settings. An empty address and
a timeout of zero count as not given, an empty key as no key. -/
def ofSettings (s : Settings) (address key : Option String) (timeout : Option Binary64) :
    OpsClient :=
  let address := address.getD ""
  let key := ((key.or s.opsApiKey).getD "")
  let timeout := timeout.filter fun t => !t.isZero
  ⟨Base.ofText (if address.isEmpty then s.opsApiUrl else address),
    if key.isEmpty then none else some ("Bearer " ++ key), timeout.getD s.opsApiTimeout⟩

def logger : String := "app.integrations.ops_api"

def service : String := "Operations API"

structure Resource where
  method : Method
  address : String
  name : String
  id : Option String
  query : Option String
  body : Option Json

def reading (address name : String) (id : Option String) : Resource :=
  ⟨.get, address, name, id, none, none⟩

def warn (message : String) (context : List (String × Json)) : Act Unit :=
  Act.note (.warning logger message context)

def refuse {α : Type} (message : String) (status : Option Int) : Act α :=
  throw (.fault (.integration service message status))

def envelopeNames : List String := ["data", "meta", "error"]

/-- The content of an envelope. An object with other fields is no envelope. -/
def unwrap : Json → Json
  | .obj fields =>
    match fields.lookup "data" with
    | some j => if fields.all fun f => envelopeNames.contains f.1 then j else .obj fields
    | none => .obj fields
  | j => j

mutual

def hasUnwritable : Json → Bool
  | .double x => !x.isFinite
  | .arr items => anyUnwritable items
  | .obj fields => anyFieldUnwritable fields
  | _ => false

def anyUnwritable : List Json → Bool
  | [] => false
  | j :: rest => hasUnwritable j || anyUnwritable rest

def anyFieldUnwritable : List (String × Json) → Bool
  | [] => false
  | (_, j) :: rest => hasUnwritable j || anyFieldUnwritable rest

end

/-- The request for a resource. Its address has to be valid, and its body has to
have a JSON text. -/
def requestFor (c : OpsClient) (r : Resource) : Result Request := do
  let target ← Target.below c.base.path r.address
  if r.body.any hasUnwritable then throw .badValue
  return ⟨r.method, { target with query := target.query.or (r.query.map String.toList) }, r.body⟩

/-- What a refusal says: the error in its body, or the phrase for its status. -/
def refusal (status : Int) (body : Option Json) : String :=
  let error := (body.bind fun j => j.get? "error").getD .null
  if error.isTruthy then error.shown else (reason? status).getD "request failed"

def answer (r : Resource) : Reply → Act Json
  | .timedOut => do
    warn (r.method.text ++ " " ++ r.address ++ " timed out") [("path", .str r.address)]
    throw (.fault (.unavailable service "timed out"))
  | .unreachable reason => do
    warn (r.method.text ++ " " ++ r.address ++ " failed: " ++ reason) [("path", .str r.address)]
    throw (.fault (.unavailable service "is unreachable"))
  | .response status body =>
    if status = 404 then throw (.fault (.notFound r.name r.id))
    else if 400 ≤ status ∧ status < 600 then do
      let message := refusal status body
      warn (r.method.text ++ " " ++ r.address ++ " returned " ++ toString status ++ ": " ++ message)
        [("path", .str r.address), ("upstream_status", .int status)]
      refuse message (some status)
    else
      match body with
      | some j => pure (unwrap j)
      | none => refuse ("invalid JSON from " ++ r.address) none

def fetch (c : OpsClient) (r : Resource) : Act Json := do
  answer r (← Act.exchange (← Act.ofResult (c.requestFor r)))

def read (α : Type) [Record α] (address : String) (j : Json) : Act α :=
  match Record.check (α := α) j with
  | .accepted a => pure a
  | .broken => throw .noText
  | .refused flaws => do
    warn ("Malformed response from " ++ address)
      [("path", .str address), ("errors", .arr (flaws.map Flaw.json))]
    refuse ("malformed response from " ++ address) none

/-- The records in an answer. Null stands for none. -/
def readList (α : Type) [Record α] (address : String) : Json → Act (List α)
  | .null => pure []
  | .arr items => items.mapM (read α address)
  | _ => refuse ("expected a list from " ++ address) none

def fetchRecord (α : Type) [Record α] (c : OpsClient) (address name id : String) : Act α := do
  read α address (← c.fetch (reading address name (some id)))

def fetchRecords (α : Type) [Record α] (c : OpsClient) (address name id : String) :
    Act (List α) := do
  readList α address (← c.fetch (reading address name (some id)))

def fetchPart (c : OpsClient) (ipn : String) : Act Part :=
  c.fetchRecord Part ("/parts/" ++ ipn) "Part" ipn

def fetchParts (c : OpsClient) : Act (List Part) := do
  let all := { reading "/parts" "Parts" none with query := some "limit=0" }
  readList Part "/parts" (← c.fetch all)

def fetchBom (c : OpsClient) (ipn : String) : Act BomNode :=
  c.fetchRecord BomNode ("/parts/" ++ ipn ++ "/bom") "BOM" ipn

/-- The answer for a cost need not repeat the IPN. -/
def withIpn (ipn : String) : Json → Json
  | .obj fields => if hasEntry "ipn" fields then .obj fields else .obj (("ipn", .str ipn) :: fields)
  | j => j

def fetchCost (c : OpsClient) (ipn : String) : Act CostEntry := do
  let address := "/parts/" ++ ipn ++ "/cost"
  read CostEntry address (withIpn ipn (← c.fetch (reading address "Cost" (some ipn))))

def fetchWhereUsed (c : OpsClient) (ipn : String) : Act (List WhereUsed) :=
  c.fetchRecords WhereUsed ("/parts/" ++ ipn ++ "/where-used") "Part" ipn

def fetchPrices (c : OpsClient) (ipn : String) : Act (List PriceRecord) :=
  c.fetchRecords PriceRecord ("/prices/" ++ ipn) "Price history" ipn

def fetchWorkOrder (c : OpsClient) (id : String) : Act WorkOrder :=
  c.fetchRecord WorkOrder ("/workorders/" ++ id) "Work order" id

def fetchWorkOrderBom (c : OpsClient) (id : String) : Act WorkOrderBom :=
  c.fetchRecord WorkOrderBom ("/workorders/" ++ id ++ "/bom") "Work order" id

def fetchQuote (c : OpsClient) (id : String) : Act Quote :=
  c.fetchRecord Quote ("/quotes/" ++ id) "Quote" id

def fetchCampaign (c : OpsClient) (id : String) : Act Campaign :=
  c.fetchRecord Campaign ("/firmware/" ++ id) "Firmware campaign" id

def fetchVendors (c : OpsClient) (activeOnly : Bool) : Act (List Vendor) := do
  let vendors ← readList Vendor "/vendors" (← c.fetch (reading "/vendors" "Vendors" none))
  return if activeOnly then vendors.filter Vendor.isActive else vendors

def fetchOrder (c : OpsClient) (id : String) : Act PurchaseOrder :=
  c.fetchRecord PurchaseOrder ("/pos/" ++ id) "Purchase order" id

def double (d : Decimal) : Json := .double (Binary64.ofDecimal d)

def filled (fields : List (String × Json)) : Json := .obj (fields.filter fun f => !f.2.isNull)

def RequestLine.sentForm (l : RequestLine) : Json :=
  filled [("ipn", .str l.ipn), ("qty_ordered", double l.ordered),
    ("unit_price", Json.ofOption double l.unitPrice), ("mpn", Json.ofOption .str l.mpn),
    ("manufacturer", Json.ofOption .str l.manufacturer), ("notes", Json.ofOption .str l.notes)]

/-- A request for an order as it is sent: quantities and prices as doubles, and
nothing for what is not there. -/
def sentForm (r : PurchaseRequest) : Json :=
  filled [("vendor_id", .str r.vendor), ("notes", Json.ofOption .str r.notes),
    ("lines", .arr (r.lines.map RequestLine.sentForm))]

def orElse (a b : Json) : Json := if a.isTruthy then a else b

def field (j : Json) (name : String) : Json := (j.get? name).getD .null

/-- The number of lines of a created order: counted, given, or as requested. -/
def lineCount (requested : Nat) : Json → Json
  | .arr lines => .int lines.length
  | j => orElse j (.int requested)

def createdOrder (r : PurchaseRequest) (j : Json) : Act CreatedOrder := do
  let id := orElse (field j "po_id") (field j "id")
  if !id.isTruthy then refuse "order creation returned no id" none
  Act.ofResult (Record.parse
    (.obj [("po_id", id), ("lines", lineCount r.lines.length (field j "lines"))]))

def createOrder (c : OpsClient) (r : PurchaseRequest) : Act CreatedOrder := do
  createdOrder r (← c.fetch ⟨.post, "/pos", "Purchase order", none, none, some (sentForm r)⟩)

def receiptForm (lines : List ReceiptLine) (skipInspection : Bool) : Json :=
  .obj [("lines", .arr (lines.map fun l => .obj [("id", .int l.line), ("qty", double l.qty)])),
    ("skip_inspection", .bool skipInspection)]

def submitReceipt (c : OpsClient) (id : String) (lines : List ReceiptLine)
    (skipInspection : Bool) : Act PurchaseOrder := do
  let address := "/pos/" ++ id ++ "/receive"
  let r : Resource :=
    ⟨.post, address, "Purchase order", some id, none, some (receiptForm lines skipInspection)⟩
  read PurchaseOrder address (← c.fetch r)

end OpsClient
end BomEngine
