import BomEngine.Proofs.Purchase.Dialog
import BomEngine.Proofs.Shortage.Reconciliation

/-!
# The shortages of a work order and the order for them

The view of a work order and the order that is generated for it are made from the same
bill of materials by programs of their own. The order has exactly the lines that the view
labels short, in the quantities that the view shows, and there is one exactly if the view
offers it.
-/

set_option autoImplicit false

namespace BomEngine
open Service

theorem WorkOrderView.ofOutcomes_result {trust : Bool} {b : WorkOrderBom} {shown : ShortageView}
    (h : (ShortageView.ofWorkOrderBom trust false b).result = .ok shown) (id : String)
    (workOrder : Outcome WorkOrder) (vendors : Outcome (List Vendor)) :
    (ofOutcomes trust id workOrder (.ok b) vendors).result = .ok {
      workOrderId := id
      state := ViewState.ofOutcome workOrder
      message := workOrder.message?
      workOrder := workOrder.value?
      shortages := .loaded ⟨b.assemblyIpn, b.qty, shown.lines, shown.summary⟩
      vendors := Section.ofOutcome noVendors vendors
      canGenerate := shown.summary.hasShortage } := by
  rw [ofOutcomes, Noted.result_bind, shortageSection, Noted.result_bind, h]
  rfl

namespace Loading

variable {c : OpsClient} {s : Settings} {id : String}

theorem workOrderShortages_result {w w₁ w₂ w₃ : World} {workOrder : Outcome WorkOrder}
    {bom : Outcome WorkOrderBom} {vendors : Outcome (List Vendor)}
    (hworkOrder : Act.labelled "Work order fetch" [("wo_id", .str id)] (c.fetchWorkOrder id) w =
      (.ok workOrder, w₁))
    (hbom : Act.labelled "Work order BOM fetch" [("wo_id", .str id)] (c.fetchWorkOrderBom id) w₁ =
      (.ok bom, w₂))
    (hvendors : Act.labelled "Vendor fetch" [("wo_id", .str id)] (c.fetchVendors true) w₂ =
      (.ok vendors, w₃)) :
    (workOrderShortages c s id w).1 =
      (WorkOrderView.ofOutcomes s.trustServerStatus id workOrder bom vendors).result := by
  rw [workOrderShortages, Act.bind_of_ok (Act.held_apply hworkOrder),
    Act.bind_of_ok (Act.held_apply hbom), Act.bind_of_ok (Act.held_apply hvendors)]
  rfl

theorem shortageView_apply {w w₁ : World} {b : WorkOrderBom}
    (hfetch : c.fetchWorkOrderBom id w = (.ok b, w₁)) :
    shortageView c s id w = ((ShortageView.ofWorkOrderBom s.trustServerStatus false b).result,
      w₁.noting (ShortageView.ofWorkOrderBom s.trustServerStatus false b).records) := by
  rw [shortageView, Act.bind_of_ok hfetch]
  exact Act.lift_noted_apply _ w₁

def dialog (shown : ShortageView) (id vendor : String) : OrderDialog :=
  (OrderDialog.start shown (some id)).choose (some vendor)

theorem generateOrder_refused {vendor : String} {w w₁ : World} {shown : ShortageView}
    (hshown : shortageView c s id w = (.ok shown, w₁)) {e : Failure}
    (h : (dialog shown id vendor).request = .error e) :
    generateOrder c s id (some vendor) w = (.error e, w₁) := by
  unfold dialog at h
  rw [generateOrder, Act.bind_of_ok hshown, Act.bind_of_ok (OrderDialog.submit_refused h c w₁)]
  rfl

theorem generateOrder_sent {vendor : String} {w w₁ w₂ : World} {shown : ShortageView}
    (hshown : shortageView c s id w = (.ok shown, w₁)) {r : PurchaseRequest}
    (h : (dialog shown id vendor).request = .ok r) {answer : Result CreatedOrder}
    (ha : c.createOrder r w₁ = (answer, w₂)) :
    generateOrder c s id (some vendor) w =
      (answer, w₂.noting ((dialog shown id vendor).settle r answer).1) := by
  unfold dialog at h ⊢
  rw [generateOrder, Act.bind_of_ok hshown, Act.bind_of_ok (OrderDialog.submit_sent h ha)]
  rfl

theorem generateOrder_short {vendor : String} {w w₁ : World} {shown : ShortageView}
    (hvendor : vendor ≠ "") (hshown : shortageView c s id w = (.ok shown, w₁))
    (hshort : ∃ l ∈ shown.lines, l.status = .shortage)
    (hpos : ∀ l ∈ shortLines shown.lines, 0 < l.shortage.value) :
    ∃ notes answer w₂,
      let r : PurchaseRequest := ⟨vendor, notes, (shortLines shown.lines).map RequestLine.ordering⟩
      c.createOrder r w₁ = (answer, w₂) ∧
      (generateOrder c s id (some vendor) w).1 = answer ∧
      (generateOrder c s id (some vendor) w).2.mutations =
        w₁.mutations ++ c.requests (OpsClient.orderResource r) := by
  let r : PurchaseRequest := ⟨vendor, (dialog shown id vendor).notes,
    (shortLines shown.lines).map RequestLine.ordering⟩
  have hrequest : (dialog shown id vendor).request = .ok r :=
    PurchaseRequest.ofLines_short hvendor hshort hpos _
  rcases ha : c.createOrder r w₁ with ⟨answer, w₂⟩
  have hposting := Act.mutations_of_posting (OpsClient.sends_createOrder c r) rfl w₁
  rw [ha] at hposting
  refine ⟨r.notes, answer, w₂, ha, ?_⟩
  rw [generateOrder_sent hshown hrequest ha]
  exact ⟨rfl, hposting⟩

theorem generateOrder_covered {vendor : String} {w w₁ : World} {shown : ShortageView}
    (hvendor : vendor ≠ "") (hshown : shortageView c s id w = (.ok shown, w₁))
    (hnone : ¬ ∃ l ∈ shown.lines, l.status = .shortage) :
    ∃ f : Fault, f.kind = .validation ∧
      generateOrder c s id (some vendor) w = (.error (.fault f), w₁) := by
  have hrefused : (dialog shown id vendor).request = _ :=
    PurchaseRequest.ofLines_none hvendor hnone _
  exact ⟨_, rfl, generateOrder_refused hshown hrefused⟩

/-- View and order agree. The view has the lines of the service with shortages and labels computed
from their quantities, and a summary of these; all its signs of a shortage are there together.
Exactly where the view offers an order, one is asked for, of the short lines in order and in the
quantities that are short; otherwise the program ends with a fault and asks for no change. -/
theorem generateOrder_agrees (c : OpsClient) (s : Settings) (id : String)
    (workOrder : Outcome WorkOrder) (vendors : Outcome (List Vendor)) (b : WorkOrderBom)
    (htrust : s.trustServerStatus = false)
    (hb : (ShortageView.ofWorkOrderBom false false b).result ≠ .error (.signal .overflow)) :
    ∃ view lines summary,
      ((WorkOrderView.ofOutcomes s.trustServerStatus id workOrder (.ok b) vendors).result =
          .ok view ∧
        view.shortages = .loaded ⟨b.assemblyIpn, b.qty, lines, summary⟩ ∧
        ∀ w w₁ w₂ w₃,
          Act.labelled "Work order fetch" [("wo_id", .str id)] (c.fetchWorkOrder id) w =
            (.ok workOrder, w₁) →
          Act.labelled "Work order BOM fetch" [("wo_id", .str id)] (c.fetchWorkOrderBom id) w₁ =
            (.ok (.ok b), w₂) →
          Act.labelled "Vendor fetch" [("wo_id", .str id)] (c.fetchVendors true) w₂ =
            (.ok vendors, w₃) →
          (workOrderShortages c s id w).1 = .ok view) ∧
      List.Forall₂ NettedLine.Reconciles b.lines lines ∧
      summary.Describes lines ∧
      List.TFAE [view.canGenerate = true, summary.hasShortage = true,
        0 < summary.totalShortage.value, ∃ l ∈ lines, l.status = .shortage] ∧
      (∀ l ∈ shortLines lines, 0 < l.shortage.value) ∧
      ∀ vendor w w₁, vendor ≠ "" → c.fetchWorkOrderBom id w = (.ok b, w₁) →
        (view.canGenerate = true → ∃ notes records answer w₂,
          let r : PurchaseRequest := ⟨vendor, notes, (shortLines lines).map RequestLine.ordering⟩
          c.createOrder r (w₁.noting records) = (answer, w₂) ∧
          (generateOrder c s id (some vendor) w).1 = answer ∧
          (generateOrder c s id (some vendor) w).2.mutations =
            w.mutations ++ c.requests (OpsClient.orderResource r)) ∧
        (view.canGenerate = false → ∃ (f : Fault) (records : List LogRecord),
          f.kind = .validation ∧
          generateOrder c s id (some vendor) w = (.error (.fault f), w₁.noting records) ∧
          (generateOrder c s id (some vendor) w).2.mutations = w.mutations) := by
  obtain ⟨shown, hshown⟩ := (ShortageView.failsOnly_ofWorkOrderBom b).result hb
  obtain ⟨hlines, hsummary, htfae⟩ := ShortageView.ofWorkOrderBom_reconciles hshown
  have hview := WorkOrderView.ofOutcomes_result hshown id workOrder vendors
  have hshort : shown.summary.hasShortage = true ↔ ∃ l ∈ shown.lines, l.status = .shortage :=
    htfae.out 0 2
  have hpos : ∀ l ∈ shortLines shown.lines, 0 < l.shortage.value := fun l hl => by
    obtain ⟨hl, hs⟩ := mem_shortLines.mp hl
    obtain ⟨given, hr⟩ := NettedLine.exists_reconciles hlines l hl
    exact hr.short_iff.mp hs
  refine ⟨_, shown.lines, shown.summary, ⟨htrust ▸ hview, rfl, ?_⟩, hlines, hsummary, ?_, hpos, ?_⟩
  · intro w w₁ w₂ w₃ hworkOrder hbom hvendors
    rw [workOrderShortages_result hworkOrder hbom hvendors, htrust]
    exact hview
  · tfae_have 1 ↔ 2 := Iff.rfl
    tfae_have 2 ↔ 3 := htfae.out 0 1
    tfae_have 3 ↔ 4 := htfae.out 1 2
    tfae_finish
  intro vendor w w₁ hvendor hfetch
  have hmutations : w₁.mutations = w.mutations := Act.mutations_of_fetchRecord hfetch
  have hloaded := @shortageView_apply c s id w w₁ b hfetch
  rw [htrust, hshown] at hloaded
  constructor
  · intro hgenerate
    obtain ⟨notes, answer, w₂, hsent, hresult, hposted⟩ :=
      generateOrder_short hvendor hloaded (hshort.mp hgenerate) hpos
    rw [World.mutations_noting, hmutations] at hposted
    exact ⟨notes, _, answer, w₂, hsent, hresult, hposted⟩
  · intro hgenerate
    have hnone : ¬ ∃ l ∈ shown.lines, l.status = .shortage := fun hs =>
      Bool.false_ne_true (hgenerate.symm.trans (hshort.mpr hs))
    obtain ⟨f, hf, hrefused⟩ := generateOrder_covered hvendor hloaded hnone
    rw [hrefused]
    exact ⟨f, _, hf, rfl, hmutations⟩

def benchBom : WorkOrderBom :=
  ⟨some "WO-1", "ASY-1", Decimal.one,
    [⟨"R-1", "", ⟨false, 5, 0⟩, ⟨false, 2, 0⟩, Decimal.zero, .ok⟩,
     ⟨"R-2", "", ⟨false, 1, 0⟩, ⟨false, 4, 0⟩, ⟨false, 3, 0⟩, .low⟩]⟩

def benchShortages : World :=
  .ofScript ⟨"/api", [("GET /workorders/WO-1/bom", [.response 200 (some (Record.dump benchBom))])]⟩

theorem generateOrder_agrees_bench :
    benchSettings.trustServerStatus = false ∧ "V-1" ≠ "" ∧
    benchClient.fetchWorkOrderBom "WO-1" benchShortages =
      (.ok benchBom, (benchClient.fetchWorkOrderBom "WO-1" benchShortages).2) ∧
    (ShortageView.ofWorkOrderBom false false benchBom).result ≠ .error (.signal .overflow) ∧
    ∃ notes, (generateOrder benchClient benchSettings "WO-1" (some "V-1")
        benchShortages).2.mutations =
      benchClient.requests (OpsClient.orderResource
        ⟨"V-1", notes, [⟨"R-1", ⟨false, 3, 0⟩, none, none, none, none⟩]⟩) := by
  have hfetched : (benchClient.fetchWorkOrderBom "WO-1" benchShortages).1 = .ok benchBom := by
    decide +kernel
  have hfetch := Prod.ext (x := benchClient.fetchWorkOrderBom "WO-1" benchShortages)
    (y := (.ok benchBom, _)) hfetched rfl
  have hb : (ShortageView.ofWorkOrderBom false false benchBom).result ≠
      .error (.signal .overflow) := by decide +kernel
  have hshown : ((WorkOrderView.ofOutcomes false "WO-1" (.error (.notFound "Work order" none))
      (.ok benchBom) (.ok [])).result.map fun v => (v.canGenerate, v.shortages.data.map fun d =>
        (shortLines d.lines).map RequestLine.ordering)) =
      .ok (true, some [⟨"R-1", ⟨false, 3, 0⟩, none, none, none, none⟩]) := by decide +kernel
  refine ⟨rfl, by decide, hfetch, hb, ?_⟩
  obtain ⟨view, lines, summary, ⟨hview, hsection, -⟩, -, -, -, -, horders⟩ :=
    generateOrder_agrees benchClient benchSettings "WO-1" (.error (.notFound "Work order" none))
      (.ok []) benchBom rfl hb
  rw [show benchSettings.trustServerStatus = false from rfl] at hview
  rw [hview] at hshown
  obtain ⟨hgenerate, hordered⟩ := Prod.mk.inj (Except.ok.inj hshown)
  rw [hsection] at hordered
  obtain ⟨notes, records, answer, w₂, -, -, hmutations⟩ :=
    (horders "V-1" benchShortages _ (by decide) hfetch).1 hgenerate
  have hlines : (shortLines lines).map RequestLine.ordering =
      [⟨"R-1", ⟨false, 3, 0⟩, none, none, none, none⟩] := Option.some.inj hordered
  refine ⟨notes, hmutations.trans ?_⟩
  rw [hlines]
  rfl

end Loading
end BomEngine
