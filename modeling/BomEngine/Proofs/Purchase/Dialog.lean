import BomEngine.Proofs.Purchase.Request
import BomEngine.Proofs.Service.Effects
import BomEngine.Service.Submission

/-!
# Order dialogs in any run

A dialog is followed through any choices of a vendor and any answers of the service. The first
order closes it for good, and its result is the last one. But being closed is no obstacle: what a
submission sends is decided by the lines and the vendor alone, so that a closed dialog orders the
same lines once more.
-/

set_option autoImplicit false

namespace BomEngine
open Service

namespace OrderDialog

theorem settle_answered (d : OrderDialog) (r : PurchaseRequest) (answer : Result CreatedOrder) :
    (d.settle r answer).2.1 = answer := by
  cases answer with
  | error e => cases e <;> rfl
  | ok o => rfl

theorem submit_refused {d : OrderDialog} {e : Failure} (h : d.request = .error e) (c : OpsClient)
    (w : World) : d.submit c w = (.ok (.error e, d), w) := by
  rw [submit, h]
  rfl

theorem submit_sent {d : OrderDialog} {r : PurchaseRequest} (h : d.request = .ok r)
    {c : OpsClient} {w w' : World} {answer : Result CreatedOrder}
    (ha : c.createOrder r w = (answer, w')) :
    d.submit c w = (.ok (answer, (d.settle r answer).2.2), w'.noting (d.settle r answer).1) := by
  rw [submit, h]
  simp only
  rw [Act.bind_of_ok (Act.attempt_apply ha), Act.settled_apply, settle_answered]

theorem mutations_submit (c : OpsClient) (d : OrderDialog) (w : World) :
    (d.submit c w).2.mutations =
      w.mutations ++ d.request.toOption.toList.flatMap fun r =>
        c.requests (OpsClient.orderResource r) := by
  cases h : d.request with
  | error e =>
    rw [submit_refused h]
    exact (List.append_nil _).symm
  | ok r =>
    have hposting := Act.mutations_of_posting (OpsClient.sends_createOrder c r) rfl w
    rcases ha : c.createOrder r w with ⟨answer, w'⟩
    rw [ha] at hposting
    rw [submit_sent h ha, World.mutations_noting, hposting]
    simp [Except.toOption]

inductive Call where
  | choose (vendor : Option String)
  | submit (answer : Result CreatedOrder)

def Call.chosen : Call → Option (Option String)
  | .choose vendor => some vendor
  | .submit _ => none

def after (d : OrderDialog) : Call → OrderDialog
  | .choose vendor => d.choose vendor
  | .submit answer =>
    match d.request with
    | .ok r => (d.settle r answer).2.2
    | .error _ => d

def afterAll (d : OrderDialog) : List Call → OrderDialog
  | [] => d
  | call :: calls => (d.after call).afterAll calls

def ordered (d : OrderDialog) : Call → Option CreatedOrder
  | .submit answer => d.request.toOption.bind fun _ => answer.toOption
  | .choose _ => none

def orders (d : OrderDialog) : List Call → List CreatedOrder
  | [] => []
  | call :: calls => (d.ordered call).toList ++ (d.after call).orders calls

theorem orders_append (d : OrderDialog) (calls more : List Call) :
    d.orders (calls ++ more) = d.orders calls ++ (d.afterAll calls).orders more := by
  induction calls generalizing d with
  | nil => rfl
  | cons call calls ih =>
    rw [List.cons_append, orders, orders, afterAll, ih, List.append_assoc]

theorem after_cases (d : OrderDialog) (call : Call) :
    (∃ vendor, call.chosen = some vendor ∧ d.ordered call = none ∧
      d.after call = { d with vendor := vendor }) ∨
    (call.chosen = none ∧ d.ordered call = none ∧
      ∃ error, d.after call = { d with error := error }) ∨
    (call.chosen = none ∧ ∃ o, d.ordered call = some o ∧
      d.after call = { d with error := none, result := some o, isOpen := false }) := by
  cases call with
  | choose vendor => exact .inl ⟨vendor, rfl, rfl, rfl⟩
  | submit answer =>
    rw [after, ordered]
    cases d.request with
    | error e => exact .inr (.inl ⟨rfl, rfl, d.error, rfl⟩)
    | ok r =>
      cases answer with
      | ok o => exact .inr (.inr ⟨rfl, o, rfl, rfl⟩)
      | error e => cases e <;> exact .inr (.inl ⟨rfl, rfl, _, rfl⟩)

theorem request_afterAll (d : OrderDialog) (calls : List Call) :
    (d.afterAll calls).request = PurchaseRequest.ofLines d.view.lines
      ((calls.filterMap Call.chosen).getLastD d.vendor) d.notes := by
  induction calls generalizing d with
  | nil => rfl
  | cons call calls ih =>
    rw [afterAll, ih]
    rcases d.after_cases call with ⟨vendor, hc, -, ha⟩ | ⟨hc, -, error, ha⟩ | ⟨hc, o, -, ha⟩ <;>
      rw [ha]
    · rw [List.filterMap_cons_some hc, List.getLastD_cons]
      rfl
    · rw [List.filterMap_cons_none hc]
      rfl
    · rw [List.filterMap_cons_none hc]
      rfl

theorem result_afterAll (d : OrderDialog) (calls : List Call) :
    (d.afterAll calls).isOpen = (d.isOpen && (d.orders calls).isEmpty) ∧
    (d.afterAll calls).result = (d.orders calls).getLast?.or d.result := by
  induction calls generalizing d with
  | nil => simp [afterAll, orders]
  | cons call calls ih =>
    rw [afterAll, orders, (ih _).1, (ih _).2]
    rcases d.after_cases call with ⟨vendor, -, hn, ha⟩ | ⟨-, hn, error, ha⟩ | ⟨-, o, ho, ha⟩
    · simp [hn, ha]
    · simp [hn, ha]
    · rw [ho, ha]
      generalize orders _ calls = later
      cases later with
      | nil => simp
      | cons next rest => simp [List.getLast?_cons]

/-- After any choices of a vendor and any answers: a dialog is closed exactly if an order has been
made, and its result is the last order. The request follows from the lines and the vendor last
chosen, and nothing else has a say in it, neither that the dialog is closed nor that it has a
result. A submission without a request leaves world and dialog as they are; with one it asks for
one order, and the answer makes another one where there may be some already. -/
theorem afterAll_orders (view : ShortageView) (workOrder : Option String) (calls : List Call) :
    let first := start view workOrder
    let d := first.afterAll calls
    (d.isOpen = (first.orders calls).isEmpty ∧ d.result = (first.orders calls).getLast?) ∧
    d.request = PurchaseRequest.ofLines view.lines ((calls.filterMap Call.chosen).getLastD none)
      first.notes ∧
    ((∃ e, d.request = .error e ∧ ∀ (c : OpsClient) (w : World) (answer : Result CreatedOrder),
        d.submit c w = (.ok (.error e, d), w) ∧
        d.after (.submit answer) = d ∧
        first.orders (calls ++ [.submit answer]) = first.orders calls) ∨
      ∃ r, d.request = .ok r ∧ ∀ (c : OpsClient) (w : World) (answer : Result CreatedOrder),
        (d.submit c w).1 = .ok ((c.createOrder r w).1, d.after (.submit (c.createOrder r w).1)) ∧
        (d.submit c w).2.mutations = w.mutations ++ c.requests (OpsClient.orderResource r) ∧
        first.orders (calls ++ [.submit answer]) =
          first.orders calls ++ answer.toOption.toList) := by
  intro first d
  have hresult := first.result_afterAll calls
  refine ⟨⟨hresult.1.trans (Bool.true_and _), hresult.2.trans Option.or_none⟩,
    first.request_afterAll calls, ?_⟩
  have hnext (answer : Result CreatedOrder) : first.orders (calls ++ [.submit answer]) =
      first.orders calls ++ (d.ordered (.submit answer)).toList := by
    rw [orders_append, orders, orders, List.append_nil]
  cases hr : d.request with
  | error e =>
    refine .inl ⟨e, rfl, fun c w answer => ⟨submit_refused hr c w, ?_, ?_⟩⟩
    · rw [after, hr]
    · rw [hnext, ordered, hr]
      exact List.append_nil _
  | ok r =>
    refine .inr ⟨r, rfl, fun c w answer => ⟨?_, ?_, ?_⟩⟩
    · rcases ha : c.createOrder r w with ⟨given, w'⟩
      rw [submit_sent hr ha, after, hr]
    · rw [mutations_submit, hr]
      simp [Except.toOption]
    · rw [hnext, ordered, hr]
      rfl

def benchShort : ShortageView :=
  ⟨[⟨"R-1", "", ⟨false, 5, 0⟩, ⟨false, 3, 0⟩, ⟨false, 2, 0⟩, .shortage⟩],
    ⟨1, [("ok", 0), ("low", 0), ("shortage", 1)], ⟨false, 2, 0⟩, true, 1, []⟩⟩

def benchClosed : OrderDialog :=
  (start benchShort (some "WO-1")).afterAll [.choose (some "V-1"), .submit (.ok ⟨"PO-1", 1⟩)]

def benchAccepting : World :=
  .ofScript ⟨"/api", [("POST /pos",
    [.response 200 (some (.obj [("po_id", .str "PO-2"), ("lines", .int 1)]))])]⟩

/-- A dialog that is closed, with an order for its result, asks for a second order, and its result
is that one then. -/
theorem orders_twice :
    (benchClosed.isOpen = false ∧ benchClosed.result = some ⟨"PO-1", 1⟩) ∧
    (benchClosed.submit benchClient benchAccepting).2.mutations.length = 1 ∧
    ((benchClosed.submit benchClient benchAccepting).1.map fun s => (s.1, s.2.result)) =
      .ok (.ok ⟨"PO-2", 1⟩, some ⟨"PO-2", 1⟩) ∧
    (start benchShort (some "WO-1")).orders [.choose (some "V-1"), .submit (.ok ⟨"PO-1", 1⟩),
      .submit (.ok ⟨"PO-2", 1⟩)] = [⟨"PO-1", 1⟩, ⟨"PO-2", 1⟩] := by
  decide +kernel

end OrderDialog
end BomEngine
