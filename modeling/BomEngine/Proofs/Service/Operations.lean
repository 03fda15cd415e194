import BomEngine.Proofs.Service.Effects
import Mathlib

/-!
# What operations give

An operation of the client asks for one thing and reads the answer. What comes of it depends on the
reply alone: the log and the replies to come have no say in it. So an operation means a function of
the reply, and two runs with the same reply end alike.
-/

set_option autoImplicit false

namespace BomEngine
open Service

namespace Act

variable {α β : Type}

def Gives (x : Act α) (r : Result α) : Prop := ∀ w, (x w).1 = r

namespace Gives

theorem of_pure (a : α) : Gives (pure a) (.ok a) := fun _ => rfl

theorem of_throw (e : Failure) : Gives (throw e : Act α) (.error e) := fun _ => rfl

theorem of_note (record : LogRecord) : Gives (note record) (.ok ()) := fun _ => rfl

theorem of_ofResult (r : Result α) : Gives (ofResult r) r := fun _ => rfl

theorem bind {x : Act α} {f : α → Act β} {r : Result α} {g : α → Result β} (hx : Gives x r)
    (hf : ∀ a, Gives (f a) (g a)) : Gives (x >>= f) (r >>= g) := by
  intro w
  have hw := hx w
  rcases hxw : x w with ⟨r', w'⟩
  rw [hxw] at hw
  subst hw
  cases r' with
  | error e => exact congrArg Prod.fst (bind_of_error hxw f)
  | ok a => exact (congrArg Prod.fst (bind_of_ok hxw f)).trans (hf a w')

theorem mapM {f : α → Act β} {g : α → Result β} (hf : ∀ a, Gives (f a) (g a)) (as : List α) :
    Gives (as.mapM f) (as.mapM g) := by
  induction as with
  | nil => exact of_pure []
  | cons a as ih =>
    rw [List.mapM_cons, List.mapM_cons]
    exact bind (hf a) fun _ => bind ih fun _ => of_pure _

end Gives
end Act

namespace OpsClient

open Act (Gives)

variable {α : Type}

def refused (message : String) (status : Option Int) : Failure :=
  .fault (.integration service message status)

theorem gives_refuse (message : String) (status : Option Int) :
    Gives (refuse message status : Act α) (.error (refused message status)) :=
  Gives.of_throw _

theorem gives_warned {message : String} {context : List (String × Json)} {x : Act α} {r : Result α}
    (hx : Gives x r) : Gives (warn message context >>= fun _ => x) r :=
  (Gives.of_note _).bind fun _ => hx

def answered (r : Resource) : Reply → Result Json
  | .timedOut => .error (.fault (.unavailable service "timed out"))
  | .unreachable _ => .error (.fault (.unavailable service "is unreachable"))
  | .response status body =>
    if status = 404 then .error (.fault (.notFound r.name r.id))
    else if 400 ≤ status ∧ status < 600 then .error (refused (refusal status body) (some status))
    else
      match body with
      | some j => .ok (unwrap j)
      | none => .error (refused ("invalid JSON from " ++ r.address) none)

theorem gives_answer (r : Resource) (reply : Reply) :
    Gives (answer r reply) (answered r reply) := by
  cases reply with
  | timedOut => exact gives_warned (Gives.of_throw _)
  | unreachable reason => exact gives_warned (Gives.of_throw _)
  | response status body =>
    unfold answer answered
    dsimp only
    by_cases hmissing : status = 404
    · rw [if_pos hmissing, if_pos hmissing]
      exact Gives.of_throw _
    rw [if_neg hmissing, if_neg hmissing]
    by_cases hrefused : 400 ≤ status ∧ status < 600
    · rw [if_pos hrefused, if_pos hrefused]
      exact gives_warned (gives_refuse _ _)
    rw [if_neg hrefused, if_neg hrefused]
    cases body with
    | some j => exact Gives.of_pure _
    | none => exact gives_refuse _ _

theorem fetch_result {c : OpsClient} {r : Resource} {q : Request} (h : c.requestFor r = .ok q)
    (w : World) : (c.fetch r w).1 = answered r (w.script.next q).1 := by
  rw [fetch, Act.bind_of_ok (Act.ofResult_apply _ w |>.trans (by rw [h]))]
  exact gives_answer r _ _

def readAnswer (α : Type) [Record α] (address : String) (j : Json) : Result α :=
  match Record.check (α := α) j with
  | .accepted a => .ok a
  | .broken => .error .noText
  | .refused _ => .error (refused ("malformed response from " ++ address) none)

theorem gives_read [Record α] (address : String) (j : Json) :
    Gives (read α address j) (readAnswer α address j) := by
  unfold read readAnswer
  cases Record.check (α := α) j with
  | accepted a => exact Gives.of_pure a
  | refused flaws => exact gives_warned (gives_refuse _ _)
  | broken => exact Gives.of_throw _

def readAnswers (α : Type) [Record α] (address : String) : Json → Result (List α)
  | .null => .ok []
  | .arr items => items.mapM (readAnswer α address)
  | _ => .error (refused ("expected a list from " ++ address) none)

theorem gives_readList [Record α] (address : String) (j : Json) :
    Gives (readList α address j) (readAnswers α address j) := by
  cases j with
  | null => exact Gives.of_pure []
  | arr items => exact Gives.mapM (gives_read address) items
  | _ => exact gives_refuse _ _

def createdId (j : Json) : Json := orElse (field j "po_id") (field j "id")

def createdForm (r : PurchaseRequest) (j : Json) : Json :=
  .obj [("po_id", createdId j), ("lines", lineCount r.lines.length (field j "lines"))]

def createdAnswer (r : PurchaseRequest) (j : Json) : Result CreatedOrder :=
  if (createdId j).isTruthy then Record.parse (createdForm r j)
  else .error (refused "order creation returned no id" none)

theorem gives_createdOrder (r : PurchaseRequest) (j : Json) :
    Gives (createdOrder r j) (createdAnswer r j) := by
  rw [createdAnswer, createdOrder, ← createdId]
  cases (createdId j).isTruthy with
  | true => exact Gives.of_ofResult _
  | false => exact (gives_refuse _ _).bind fun _ => Gives.of_ofResult _

inductive Operation where
  | part (ipn : String)
  | parts
  | bom (ipn : String)
  | cost (ipn : String)
  | whereUsed (ipn : String)
  | prices (ipn : String)
  | workOrder (id : String)
  | workOrderBom (id : String)
  | quote (id : String)
  | campaign (id : String)
  | vendors (activeOnly : Bool)
  | order (id : String)
  | newOrder (r : PurchaseRequest)
  | receipt (id : String) (lines : List ReceiptLine) (skipInspection : Bool)

namespace Operation

def Value : Operation → Type
  | part _ => Part
  | parts => List Part
  | bom _ => BomNode
  | cost _ => CostEntry
  | whereUsed _ => List WhereUsed
  | prices _ => List PriceRecord
  | workOrder _ => WorkOrder
  | workOrderBom _ => WorkOrderBom
  | quote _ => Quote
  | campaign _ => Campaign
  | vendors _ => List Vendor
  | order _ => PurchaseOrder
  | newOrder _ => CreatedOrder
  | receipt .. => PurchaseOrder

def perform (c : OpsClient) : (o : Operation) → Act o.Value
  | part ipn => c.fetchPart ipn
  | parts => c.fetchParts
  | bom ipn => c.fetchBom ipn
  | cost ipn => c.fetchCost ipn
  | whereUsed ipn => c.fetchWhereUsed ipn
  | prices ipn => c.fetchPrices ipn
  | workOrder id => c.fetchWorkOrder id
  | workOrderBom id => c.fetchWorkOrderBom id
  | quote id => c.fetchQuote id
  | campaign id => c.fetchCampaign id
  | vendors activeOnly => c.fetchVendors activeOnly
  | order id => c.fetchOrder id
  | newOrder r => c.createOrder r
  | receipt id lines skipInspection => c.submitReceipt id lines skipInspection

def resource : Operation → Resource
  | part ipn => reading ("/parts/" ++ ipn) "Part" (some ipn)
  | parts => catalogResource
  | bom ipn => reading ("/parts/" ++ ipn ++ "/bom") "BOM" (some ipn)
  | cost ipn => reading ("/parts/" ++ ipn ++ "/cost") "Cost" (some ipn)
  | whereUsed ipn => reading ("/parts/" ++ ipn ++ "/where-used") "Part" (some ipn)
  | prices ipn => reading ("/prices/" ++ ipn) "Price history" (some ipn)
  | workOrder id => reading ("/workorders/" ++ id) "Work order" (some id)
  | workOrderBom id => reading ("/workorders/" ++ id ++ "/bom") "Work order" (some id)
  | quote id => reading ("/quotes/" ++ id) "Quote" (some id)
  | campaign id => reading ("/firmware/" ++ id) "Firmware campaign" (some id)
  | vendors _ => reading "/vendors" "Vendors" none
  | order id => reading ("/pos/" ++ id) "Purchase order" (some id)
  | newOrder r => orderResource r
  | receipt id lines skipInspection => receiptResource id lines skipInspection

def meaning : (o : Operation) → Json → Result o.Value
  | part ipn => readAnswer Part ("/parts/" ++ ipn)
  | parts => readAnswers Part "/parts"
  | bom ipn => readAnswer BomNode ("/parts/" ++ ipn ++ "/bom")
  | cost ipn => fun j => readAnswer CostEntry ("/parts/" ++ ipn ++ "/cost") (withIpn ipn j)
  | whereUsed ipn => readAnswers WhereUsed ("/parts/" ++ ipn ++ "/where-used")
  | prices ipn => readAnswers PriceRecord ("/prices/" ++ ipn)
  | workOrder id => readAnswer WorkOrder ("/workorders/" ++ id)
  | workOrderBom id => readAnswer WorkOrderBom ("/workorders/" ++ id ++ "/bom")
  | quote id => readAnswer Quote ("/quotes/" ++ id)
  | campaign id => readAnswer Campaign ("/firmware/" ++ id)
  | vendors activeOnly => fun j => do
    let vendors ← readAnswers Vendor "/vendors" j
    return if activeOnly then vendors.filter Vendor.isActive else vendors
  | order id => readAnswer PurchaseOrder ("/pos/" ++ id)
  | newOrder r => createdAnswer r
  | receipt id _ _ => readAnswer PurchaseOrder ("/pos/" ++ id ++ "/receive")

/-- An operation fetches what it asks for, and the world has no say in what it makes of it. -/
theorem perform_eq (c : OpsClient) (o : Operation) : ∃ read : Json → Act o.Value,
    o.perform c = c.fetch o.resource >>= read ∧ ∀ j, Gives (read j) (o.meaning j) := by
  cases o with
  | part ipn => exact ⟨_, rfl, gives_read (α := Part) _⟩
  | parts => exact ⟨_, rfl, gives_readList (α := Part) _⟩
  | bom ipn => exact ⟨_, rfl, gives_read (α := BomNode) _⟩
  | cost ipn => exact ⟨_, rfl, fun j => gives_read (α := CostEntry) _ (withIpn ipn j)⟩
  | whereUsed ipn => exact ⟨_, rfl, gives_readList (α := WhereUsed) _⟩
  | prices ipn => exact ⟨_, rfl, gives_readList (α := PriceRecord) _⟩
  | workOrder id => exact ⟨_, rfl, gives_read (α := WorkOrder) _⟩
  | workOrderBom id => exact ⟨_, rfl, gives_read (α := WorkOrderBom) _⟩
  | quote id => exact ⟨_, rfl, gives_read (α := Quote) _⟩
  | campaign id => exact ⟨_, rfl, gives_read (α := Campaign) _⟩
  | vendors activeOnly =>
    exact ⟨_, rfl, fun j => (gives_readList (α := Vendor) _ j).bind fun _ => Gives.of_pure _⟩
  | order id => exact ⟨_, rfl, gives_read (α := PurchaseOrder) _⟩
  | newOrder r => exact ⟨_, rfl, gives_createdOrder r⟩
  | receipt id lines skipInspection => exact ⟨_, rfl, gives_read (α := PurchaseOrder) _⟩

theorem perform_result {c : OpsClient} {o : Operation} {q : Request}
    (h : c.requestFor o.resource = .ok q) (w : World) :
    (o.perform c w).1 = answered o.resource (w.script.next q).1 >>= o.meaning := by
  obtain ⟨read, hperform, hread⟩ := perform_eq c o
  have hfetch := fetch_result h w
  rcases hw : c.fetch o.resource w with ⟨r, w'⟩
  rw [hw] at hfetch
  subst hfetch
  rw [hperform]
  cases hr : answered o.resource (w.script.next q).1 with
  | error e =>
    rw [hr] at hw
    exact congrArg Prod.fst (Act.bind_of_error hw read)
  | ok j =>
    rw [hr] at hw
    exact (congrArg Prod.fst (Act.bind_of_ok hw read)).trans (hread j w')

end Operation
end OpsClient
end BomEngine
