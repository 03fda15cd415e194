import BomEngine.Proofs.Purchase.Entering

/-!
# The receiving view and the receipt

The view of an order shows what can be received on it, and quantities that a user has
entered are sent as a receipt. View and receipt are made separately from the same order;
they agree on which lines accept a quantity and on how much is pending. What cannot be
sent is refused before anything is asked of the service.
-/

set_option autoImplicit false

namespace BomEngine
open Service
open Traversal (FailsOnly)

namespace ReceivingView

theorem pendingById_of_nodup {lines : List (OrderLine × Decimal)}
    (h : (lines.map fun l => l.1.id).Nodup) :
    pendingById lines = lines.map fun l => (l.1.id, l.2) := by
  induction lines using List.reverseRecOn with
  | nil => rfl
  | append_singleton lines l ih =>
    rw [List.map_append, List.nodup_append] at h
    have hnew : l.1.id ∉ (pendingById lines).map Prod.fst := fun hm => by
      rw [ih h.1, List.map_map] at hm
      exact h.2.2 _ hm l.1.id (by simp) rfl
    have hlast : pendingById (lines ++ [l]) = putEntry l.1.id l.2 (pendingById lines) := by
      rw [pendingById, List.foldl_append]
      rfl
    rw [hlast, putEntry_of_new hnew, ih h.1]
    simp

/-- Whether quantities can be sent, as a view shows it: each is for a line with something
pending, the order accepts receipts, and one quantity is above zero. -/
def Submittable (v : ReceivingView) (entered : Entered) : Prop :=
  (∀ e ∈ entered, e.1 ∈ v.pending.map Prod.fst) ∧ v.isReceivable = true ∧
    ∃ e ∈ entered, 0 < (Quantity.ofText e.2).value

/-- The line to send for a pending quantity: what is typed, but no more than is pending, and
nothing unless it is above zero. -/
def receiptLine (p : Int × Decimal) (typed : String) : Option ReceiptLine :=
  let q := Quantity.ofText typed
  if q.isPositive then some ⟨p.1, if p.2.lt q then p.2 else q⟩ else none

/-- The lines to send for quantities entered, in the order of the view. -/
def receipt (v : ReceivingView) (entered : Entered) : List ReceiptLine :=
  v.pending.filterMap fun p => (entered.lookup p.1).bind (receiptLine p)

theorem receiptLine_isSome {p : Int × Decimal} {typed : String} :
    (receiptLine p typed).isSome = true ↔ 0 < (Quantity.ofText typed).value := by
  rw [← Decimal.isPositive_iff, receiptLine]
  cases (Quantity.ofText typed).isPositive <;> simp

theorem receiptLine_line {p : Int × Decimal} {typed : String} {q : ReceiptLine}
    (h : receiptLine p typed = some q) : q.line = p.1 := by
  unfold receiptLine at h
  dsimp only at h
  split at h
  · cases h
    rfl
  · cases h

theorem receiptLine_clamp {p : Int × Decimal} (hp : 0 < p.2.value) (typed : String) :
    receiptLine p typed = if (Quantity.clamp p.2 (Quantity.ofText typed)).isPositive then
      some ⟨p.1, Quantity.clamp p.2 (Quantity.ofText typed)⟩ else none := by
  have hiff := Quantity.clamp_pos_iff hp (Quantity.ofText typed)
  rw [← Decimal.isPositive_iff, ← Decimal.isPositive_iff] at hiff
  unfold receiptLine
  by_cases hpos : (Quantity.ofText typed).isPositive = true
  · have hn : ¬ (Quantity.ofText typed).isNegative = true := by
      rw [Decimal.isNegative_iff]
      exact not_lt.mpr ((Decimal.isPositive_iff _).mp hpos).le
    simp only [if_pos hpos, if_pos (hiff.mpr hpos)]
    rw [Quantity.clamp, if_neg hn]
  · simp only [if_neg hpos, if_neg (mt hiff.mp hpos)]

theorem receipt_ids (v : ReceivingView) (entered : Entered) :
    ((v.receipt entered).map ReceiptLine.line).Sublist (v.pending.map Prod.fst) := by
  unfold receipt
  induction v.pending with
  | nil => exact .slnil
  | cons p rest ih =>
    rw [List.filterMap_cons, List.map_cons]
    split
    · exact ih.cons _
    · next q hq =>
      obtain ⟨typed, -, hq⟩ := Option.bind_eq_some_iff.mp hq
      rw [List.map_cons, receiptLine_line hq]
      exact ih.cons_cons _

theorem receipt_ne_nil_iff {v : ReceivingView} {entered : Entered}
    (hentered : (entered.map Prod.fst).Nodup)
    (h : ∀ e ∈ entered, e.1 ∈ v.pending.map Prod.fst) :
    v.receipt entered ≠ [] ↔ ∃ e ∈ entered, 0 < (Quantity.ofText e.2).value := by
  constructor
  · intro hne
    obtain ⟨q, hq⟩ := List.exists_mem_of_ne_nil _ hne
    obtain ⟨p, -, hq⟩ := List.mem_filterMap.mp hq
    obtain ⟨typed, htyped, hq⟩ := Option.bind_eq_some_iff.mp hq
    exact ⟨_, mem_of_lookup htyped, receiptLine_isSome.mp (Option.isSome_of_mem hq)⟩
  · rintro ⟨e, he, hpos⟩
    obtain ⟨p, hp, hid⟩ := List.mem_map.mp (h e he)
    obtain ⟨q, hq⟩ := Option.isSome_iff_exists.mp ((@receiptLine_isSome p e.2).mpr hpos)
    have hmem : q ∈ v.receipt entered := by
      refine List.mem_filterMap.mpr ⟨p, hp, ?_⟩
      rw [hid, lookup_of_mem hentered he, Option.bind_some]
      exact hq
    exact List.ne_nil_of_mem hmem

theorem failsOnly_ofOrder (openStatuses : List String) (id : String) (vendor : Section Vendor)
    (o : PurchaseOrder) : FailsOnly .overflow (ofOrder openStatuses id vendor o) := by
  refine .bind ?_ fun _ => o.failsOnly_totals.bind fun _ => .of_ok _
  exact PurchaseOrder.failsOnly_receivable openStatuses o

theorem ofOrder_ok {openStatuses : List String} {id : String} {vendor : Section Vendor}
    {o : PurchaseOrder} {v : ReceivingView} (h : ofOrder openStatuses id vendor o = .ok v) :
    o.Measured ∧
      v.isReceivable = (ReceivingSession.start openStatuses none o).isReceivable ∧
      v.pending = pendingById (ReceivingSession.start openStatuses none o).dueLines := by
  unfold ofOrder at h
  cases ht : o.totals with
  | error e =>
    cases hr : o.receivable openStatuses <;> rw [hr, ht] at h <;> cases h
  | ok t =>
    -- The totals go through all lines, so they show that even hidden lines are measured.
    have hm := PurchaseOrder.measured_of_totals ht
    rw [PurchaseOrder.receivable_eq hm, ht] at h
    cases h
    exact ⟨hm, rfl, rfl⟩

/-- The receipt of a session is the one that the view of its order calls for. -/
theorem payload_eq {s : ReceivingSession} {v : ReceivingView}
    (hids : (s.order.lines.map OrderLine.id).Nodup) (hv : v.pending = pendingById s.dueLines) :
    s.payload = v.receipt s.entered := by
  have hnodup : (s.dueLines.map fun l => l.1.id).Nodup := s.dueIds_sublist.nodup hids
  rw [ReceivingSession.payload, ReceivingSession.clampedOn_of_nodup hnodup, receipt, hv,
    pendingById_of_nodup hnodup, List.filterMap_map, ← List.filterMap_eq_filter,
    ← List.filterMap_eq_map, List.filterMap_filterMap, List.filterMap_filterMap]
  refine List.filterMap_congr fun l hl => ?_
  cases htyped : s.entered.lookup l.1.id with
  | none => simp [htyped]
  | some typed =>
    have hclamp := @receiptLine_clamp (l.1.id, l.2) (s.dueLines_pos hl) typed
    cases hp : (Quantity.clamp l.2 (Quantity.ofText typed)).isPositive <;>
      simp [htyped, hclamp, Option.guard, hp]

section
variable {openStatuses : List String} {id : String} {vendor : Section Vendor}
  {order : PurchaseOrder} {view : ReceivingView} {entered : Entered}
  (hview : ofOrder openStatuses id vendor order = .ok view)
  (hids : (order.lines.map OrderLine.id).Nodup)
include hview hids

theorem keys_eq :
    view.pending.map Prod.fst = (ReceivingSession.start openStatuses none order).dueIds := by
  obtain ⟨-, -, hpending⟩ := ofOrder_ok hview
  have hsublist := (ReceivingSession.start openStatuses none order).dueIds_sublist
  rw [hpending, pendingById_of_nodup (hsublist.nodup hids), List.map_map]
  rfl

theorem receipt_sublist (entered : Entered) :
    ((view.receipt entered).map ReceiptLine.line).Sublist (order.lines.map OrderLine.id) :=
  (view.receipt_ids entered).trans
    (keys_eq hview hids ▸ (ReceivingSession.start openStatuses none order).dueIds_sublist)

theorem enterAll_shown (hentered : (entered.map Prod.fst).Nodup)
    (h : ∀ e ∈ entered, e.1 ∈ view.pending.map Prod.fst) : ∃ session,
      (ReceivingSession.start openStatuses none order).enterAll entered = .ok session ∧
      session.order = order ∧ session.payload = view.receipt entered ∧
      (session.canSubmit = .ok true ↔ view.Submittable entered) := by
  obtain ⟨hm, hopen, hpending⟩ := ofOrder_ok hview
  have hkeys := keys_eq hview hids
  let session : ReceivingSession :=
    { ReceivingSession.start openStatuses none order with entered := entered }
  have hpayload : session.payload = view.receipt entered := payload_eq hids hpending
  have hcan : session.canSubmit = .ok (view.isReceivable && !(view.receipt entered).isEmpty) := by
    rw [ReceivingSession.canSubmit_eq hm, hpayload, hopen]
    rfl
  refine ⟨session, ReceivingSession.enterAll_due hm hids (fun e he => hkeys ▸ h e he) hentered,
    rfl, hpayload, ?_⟩
  rw [hcan, Submittable, ← receipt_ne_nil_iff hentered h, and_iff_right h]
  simp

theorem enterAll_hidden (hentered : (entered.map Prod.fst).Nodup) {e : Int × String}
    (h : entered.find? (fun e => e.1 ∉ view.pending.map Prod.fst) = some e) : ∃ f,
      (ReceivingSession.start openStatuses none order).enterAll entered = .error (.fault f) ∧
      order.Refuses e.1 f := by
  obtain ⟨hm, -, -⟩ := ofOrder_ok hview
  have hkeys := keys_eq hview hids
  rw [hkeys] at h
  obtain ⟨he, before, after, rfl, hbefore⟩ := List.find?_eq_some_iff_append.mp h
  have hnew : (before.map Prod.fst).Nodup := by
    rw [List.map_append] at hentered
    exact (List.nodup_append.mp hentered).1
  obtain ⟨f, hf, hrefused⟩ := @ReceivingSession.enterAll_refused (.start openStatuses none order)
    hm hids before after e (fun x hx => by simpa using hbefore x hx) (by simpa using he) hnew
  exact ⟨f, hrefused, hf⟩

theorem request_of_submittable (hentered : (entered.map Prod.fst).Nodup)
    (h : view.Submittable entered) : ∃ session,
      (ReceivingSession.start openStatuses none order).enterAll entered = .ok session ∧
      session.order = order ∧ session.request = .ok (view.receipt entered) := by
  obtain ⟨hm, -, -⟩ := ofOrder_ok hview
  obtain ⟨session, hall, rfl, hpayload, hcan⟩ := enterAll_shown hview hids hentered h.1
  refine ⟨session, hall, rfl, ?_⟩
  rcases ReceivingSession.request_cases hm with ⟨-, hrequest⟩ | ⟨hcannot, -⟩
  · rw [hrequest, hpayload]
  · rw [hcan.mpr h] at hcannot
    cases hcannot

theorem request_of_not_submittable (hentered : (entered.map Prod.fst).Nodup)
    (h : ¬ view.Submittable entered) : ∃ f : Fault,
      ((ReceivingSession.start openStatuses none order).enterAll entered >>=
        fun session => session.request) = .error (.fault f) ∧
      (∀ e, entered.find? (fun e => e.1 ∉ view.pending.map Prod.fst) = some e →
        order.Refuses e.1 f) ∧
      ((∀ e ∈ entered, e.1 ∈ view.pending.map Prod.fst) →
        f.kind = .invalidState ∨ f.kind = .validation) := by
  obtain ⟨hm, -, -⟩ := ofOrder_ok hview
  cases hfind : entered.find? (fun e => e.1 ∉ view.pending.map Prod.fst) with
  | some e =>
    obtain ⟨f, hrefused, hf⟩ := enterAll_hidden hview hids hentered hfind
    refine ⟨f, by rw [hrefused]; rfl, fun e' he' => ?_, fun hall => ?_⟩
    · cases he'
      exact hf
    · have he := List.find?_some hfind
      exact absurd (hall e (List.mem_of_find?_eq_some hfind)) (by simpa using he)
  | none =>
    have hshown : ∀ e ∈ entered, e.1 ∈ view.pending.map Prod.fst := by
      simpa using hfind
    obtain ⟨session, hall, rfl, -, hcan⟩ := enterAll_shown hview hids hentered hshown
    rcases ReceivingSession.request_cases hm with ⟨hsubmit, -⟩ | ⟨-, f, hrequest, hf⟩
    · exact absurd (hcan.mp hsubmit) h
    · exact ⟨f, by rw [hall]; exact hrequest, fun e he => (nomatch he), fun _ => hf⟩

end
end ReceivingView

namespace Loading

variable {c : OpsClient} {s : Settings} {id : String}

def showAnswer (c : OpsClient) (s : Settings) (id : String) (answer : Result PurchaseOrder) :
    Act ReceivingView := do
  let order ← Act.ofResult answer
  let vendors ← Act.labelled "Vendor fetch" [("po_id", .str id)] (c.fetchVendors false)
  let vendor := ReceivingView.vendorSection (.ok order) vendors
  Result.ofArithmetic (ReceivingView.ofOrder s.openOrderStatuses id vendor order)

theorem showAnswer_mutations (answer : Result PurchaseOrder) (w : World) :
    (showAnswer c s id answer w).2.mutations = w.mutations := by
  cases answer with
  | error e =>
    rw [showAnswer, Act.bind_of_error (Act.ofResult_apply _ w)]
  | ok o =>
    rw [showAnswer, Act.bind_of_ok (Act.ofResult_apply _ w)]
    have hsends := Act.sends_labelled (OpsClient.sends_fetchVendors c false) "Vendor fetch"
      [("po_id", .str id)]
    exact Act.mutations_of_reading (Act.sends_bind hsends fun _ => Act.sends_ofResult _) rfl w

theorem showAnswer_ok (o : PurchaseOrder) {w : World} {vendors : Outcome (List Vendor)}
    (h : (c.fetchVendors false w).1 = vendors.mapError Failure.fault) :
    (showAnswer c s id (.ok o) w).1 = Result.ofArithmetic (ReceivingView.ofOrder
      s.openOrderStatuses id (ReceivingView.vendorSection (.ok o) vendors) o) := by
  rcases hf : c.fetchVendors false w with ⟨fetched, w'⟩
  rw [hf] at h
  rw [showAnswer, Act.bind_of_ok (Act.ofResult_apply _ w)]
  cases vendors with
  | ok vs =>
    obtain rfl : fetched = .ok vs := h
    rw [Act.bind_of_ok (Act.labelled_of_ok hf _ _)]
    rfl
  | error f =>
    obtain rfl : fetched = .error (.fault f) := h
    rw [Act.bind_of_ok (Act.labelled_of_fault hf _ _)]
    rfl

theorem of_showAnswer {answer : Result PurchaseOrder} {w : World} {v : ReceivingView}
    (h : (showAnswer c s id answer w).1 = .ok v) :
    ∃ (o : PurchaseOrder) (vendors : Outcome (List Vendor)), answer = .ok o ∧
      (c.fetchVendors false w).1 = vendors.mapError Failure.fault ∧
      ReceivingView.ofOrder s.openOrderStatuses id
        (ReceivingView.vendorSection (.ok o) vendors) o = .ok v := by
  cases answer with
  | error e =>
    rw [showAnswer, Act.bind_of_error (Act.ofResult_apply _ w)] at h
    cases h
  | ok o =>
    have hvendors : ∃ vendors : Outcome (List Vendor),
        (c.fetchVendors false w).1 = vendors.mapError Failure.fault := by
      rcases hf : c.fetchVendors false w with ⟨fetched, w'⟩
      cases fetched with
      | ok vs => exact ⟨.ok vs, rfl⟩
      | error e =>
        by_cases he : ∃ f, e = .fault f
        · obtain ⟨f, rfl⟩ := he
          exact ⟨.error f, rfl⟩
        · have hfailed := Act.labelled_of_failure hf (fun f h => he ⟨f, h⟩) "Vendor fetch"
            [("po_id", .str id)]
          rw [showAnswer, Act.bind_of_ok (Act.ofResult_apply _ w), Act.bind_of_error hfailed] at h
          cases h
    obtain ⟨vendors, hvendors⟩ := hvendors
    rw [showAnswer_ok o hvendors] at h
    exact ⟨o, vendors, rfl, hvendors, Traversal.ofArithmetic_eq_ok.mp h⟩

theorem receive_refused {entered : Entered} {order : PurchaseOrder} {w w₁ : World}
    (hfetch : c.fetchOrder id w = (.ok order, w₁)) {e : Failure}
    (h : ((ReceivingSession.start s.openOrderStatuses none order).enterAll entered >>=
      fun session => session.request) = .error e) (skipInspection : Bool) :
    receive c s id entered skipInspection w = (.error e, w₁) := by
  rw [receive, Act.bind_of_ok hfetch]
  cases hall : (ReceivingSession.start s.openOrderStatuses none order).enterAll entered with
  | error e' =>
    rw [hall] at h
    cases h
    rw [Act.bind_of_error (Act.lift_result_apply _ w₁)]
  | ok session =>
    rw [hall] at h
    rw [Act.bind_of_ok (Act.lift_result_apply _ w₁),
      Act.bind_of_ok (ReceivingSession.submit_refused h c skipInspection w₁)]
    rfl

theorem receive_sent {entered : Entered} {order : PurchaseOrder} {w w₁ w₂ : World}
    (hfetch : c.fetchOrder id w = (.ok order, w₁)) {session : ReceivingSession}
    (hall : (ReceivingSession.start s.openOrderStatuses none order).enterAll entered = .ok session)
    {sent : List ReceiptLine} (hsent : session.request = .ok sent) {skipInspection : Bool}
    {answer : Result PurchaseOrder}
    (ha : c.submitReceipt session.order.id sent skipInspection w₁ = (answer, w₂)) :
    receive c s id entered skipInspection w =
      showAnswer c s id (session.settle skipInspection sent answer).2.1
        (w₂.noting (session.settle skipInspection sent answer).1) := by
  rw [receive, Act.bind_of_ok hfetch, hall, Act.bind_of_ok (Act.lift_result_apply _ w₁),
    Act.bind_of_ok (ReceivingSession.submit_sent hsent ha)]
  rfl

/-- View and action agree. Where the view shows that the quantities can be sent, one receipt is
sent, with what the view calls for, and its answer becomes the failure or the new view. Where it
does not, the action ends with a fault that says why, and asks the service for no change. -/
theorem receive_agrees (c : OpsClient) (s : Settings) (id : String) (entered : Entered)
    (skipInspection : Bool) (vendor : Section Vendor) (order : PurchaseOrder) (w w₁ : World)
    (hfetch : c.fetchOrder id w = (.ok order, w₁))
    (hids : (order.lines.map OrderLine.id).Nodup) (hentered : (entered.map Prod.fst).Nodup)
    (hview : ReceivingView.ofOrder s.openOrderStatuses id vendor order ≠ .error .overflow) :
    ∃ view, ReceivingView.ofOrder s.openOrderStatuses id vendor order = .ok view ∧
      ((view.Submittable entered ∧
        ((view.receipt entered).map ReceiptLine.line).Sublist (order.lines.map OrderLine.id) ∧
        ∃ answer w₂,
          c.submitReceipt order.id (view.receipt entered) skipInspection w₁ = (answer, w₂) ∧
          (receive c s id entered skipInspection w).2.mutations = w.mutations ++
            c.requests (OpsClient.receiptResource order.id (view.receipt entered) skipInspection) ∧
          (∀ e, answer = .error e → (receive c s id entered skipInspection w).1 = .error e) ∧
          (∀ updated, answer = .ok updated → updated.Measured → ∃ records,
            ∀ vendors : Outcome (List Vendor),
              (c.fetchVendors false (w₂.noting records)).1 = vendors.mapError Failure.fault →
              (receive c s id entered skipInspection w).1 =
                Result.ofArithmetic (ReceivingView.ofOrder s.openOrderStatuses id
                  (ReceivingView.vendorSection (.ok updated) vendors) updated)) ∧
          ∀ v, (receive c s id entered skipInspection w).1 = .ok v →
            ∃ (updated : PurchaseOrder) (vendors : Outcome (List Vendor))
              (records : List LogRecord), answer = .ok updated ∧
              (c.fetchVendors false (w₂.noting records)).1 = vendors.mapError Failure.fault ∧
              ReceivingView.ofOrder s.openOrderStatuses id
                (ReceivingView.vendorSection (.ok updated) vendors) updated = .ok v) ∨
      (¬ view.Submittable entered ∧ ∃ f : Fault,
        receive c s id entered skipInspection w = (.error (.fault f), w₁) ∧
        w₁.mutations = w.mutations ∧
        (∀ e, entered.find? (fun e => e.1 ∉ view.pending.map Prod.fst) = some e →
          order.Refuses e.1 f) ∧
        ((∀ e ∈ entered, e.1 ∈ view.pending.map Prod.fst) →
          f.kind = .invalidState ∨ f.kind = .validation))) := by
  obtain ⟨view, hv⟩ := (ReceivingView.failsOnly_ofOrder _ _ _ _).result hview
  refine ⟨view, hv, ?_⟩
  have hmutations : w₁.mutations = w.mutations := Act.mutations_of_fetchRecord hfetch
  by_cases hsub : view.Submittable entered
  · left
    obtain ⟨session, hall, rfl, hrequest⟩ :=
      ReceivingView.request_of_submittable hv hids hentered hsub
    rcases ha : c.submitReceipt session.order.id (view.receipt entered) skipInspection w₁
      with ⟨answer, w₂⟩
    have hsent := receive_sent hfetch hall hrequest ha
    refine ⟨hsub, ReceivingView.receipt_sublist hv hids entered, answer, w₂, rfl, ?_, ?_, ?_, ?_⟩
    · have hposting := Act.mutations_of_posting
        (OpsClient.sends_submitReceipt c session.order.id (view.receipt entered) skipInspection)
        rfl w₁
      rw [ha, hmutations] at hposting
      rw [hsent, showAnswer_mutations, World.mutations_noting]
      exact hposting
    · rintro e rfl
      have hsettled : (session.settle skipInspection (view.receipt entered) (.error e)).2.1 =
          .error e := by
        cases e <;> rfl
      rw [hsent, hsettled]
      rfl
    · rintro updated rfl hm
      rw [hsent, ReceivingSession.settle_answered _ _ _ fun o ho => Except.ok.inj ho ▸ hm]
      exact ⟨_, fun vendors hvendors => showAnswer_ok updated hvendors⟩
    · intro v hv
      rw [hsent] at hv
      obtain ⟨updated, vendors, hanswer, hvendors, hv⟩ := of_showAnswer hv
      exact ⟨updated, vendors, _, ReceivingSession.answer_of_settle hanswer, hvendors, hv⟩
  · right
    obtain ⟨f, hrefused, hfirst, hnone⟩ :=
      ReceivingView.request_of_not_submittable hv hids hentered hsub
    exact ⟨hsub, f, receive_refused hfetch hrefused skipInspection, hmutations, hfirst, hnone⟩

def benchWorld : World :=
  .ofScript ⟨"/api",
    [("GET /pos/PO-1",
       [.response 200 (some (Record.dump (ReceivingSession.benchOrder "submitted" 4)))]),
     ("POST /pos/PO-1/receive",
       [.response 200 (some (Record.dump (ReceivingSession.benchOrder "partial" 10)))])]⟩

def benchEntered : Entered := [(2, " 2.5 "), (1, "8")]

theorem receive_agrees_bench :
    benchClient.fetchOrder "PO-1" benchWorld =
      (.ok (ReceivingSession.benchOrder "submitted" 4),
        (benchClient.fetchOrder "PO-1" benchWorld).2) ∧
    ((ReceivingSession.benchOrder "submitted" 4).lines.map OrderLine.id).Nodup ∧
    (benchEntered.map Prod.fst).Nodup ∧
    ReceivingView.ofOrder benchSettings.openOrderStatuses "PO-1" .skipped
      (ReceivingSession.benchOrder "submitted" 4) ≠ .error .overflow ∧
    (receive benchClient benchSettings "PO-1" benchEntered false benchWorld).2.mutations =
      benchClient.requests (OpsClient.receiptResource "PO-1"
        [⟨1, ⟨false, 6, 0⟩⟩, ⟨2, ⟨false, 25, -1⟩⟩] false) := by
  have hfetched : (benchClient.fetchOrder "PO-1" benchWorld).1 =
      .ok (ReceivingSession.benchOrder "submitted" 4) := by decide +kernel
  have hfetch := Prod.ext (x := benchClient.fetchOrder "PO-1" benchWorld)
    (y := (.ok (ReceivingSession.benchOrder "submitted" 4), _)) hfetched rfl
  have hids : ((ReceivingSession.benchOrder "submitted" 4).lines.map OrderLine.id).Nodup := by
    decide
  have hentered : (benchEntered.map Prod.fst).Nodup := by decide
  have hview : ReceivingView.ofOrder benchSettings.openOrderStatuses "PO-1" .skipped
      (ReceivingSession.benchOrder "submitted" 4) ≠ .error .overflow := by decide +kernel
  refine ⟨hfetch, hids, hentered, hview, ?_⟩
  obtain ⟨view, hv, hagrees⟩ := receive_agrees benchClient benchSettings "PO-1" benchEntered false
    .skipped (ReceivingSession.benchOrder "submitted" 4) benchWorld _ hfetch hids hentered hview
  have hreceipt : view.receipt benchEntered = [⟨1, ⟨false, 6, 0⟩⟩, ⟨2, ⟨false, 25, -1⟩⟩] := by
    have hall : ((ReceivingView.ofOrder benchSettings.openOrderStatuses "PO-1" .skipped
        (ReceivingSession.benchOrder "submitted" 4)).map fun v => v.receipt benchEntered) =
        .ok [⟨1, ⟨false, 6, 0⟩⟩, ⟨2, ⟨false, 25, -1⟩⟩] := by decide +kernel
    rw [hv] at hall
    exact Except.ok.inj hall
  have hok : (receive benchClient benchSettings "PO-1" benchEntered false
      benchWorld).1.toOption.isSome = true := by decide +kernel
  rcases hagrees with ⟨-, -, answer, w₂, -, hmutations, -⟩ | ⟨-, f, hfailed, -⟩
  · rw [hmutations, hreceipt]
    rfl
  · rw [hfailed] at hok
    cases hok

end Loading
end BomEngine
