import BomEngine.Proofs.View.PartDetail
import BomEngine.Proofs.View.Receiving
import BomEngine.Proofs.View.WorkOrderShortages

/-!
# Sections that fail apart

A fetch that fails, or that comes out otherwise than another time, changes only the sections
that are made from it. Two loadings of a view are compared for this: of a part, of the
shortages of a work order and of an order to receive, each by a client of its own in a world
of its own.
-/

set_option autoImplicit false

namespace BomEngine
open Service

structure WorkOrderOutcomes where
  workOrder : Outcome WorkOrder
  bom : Outcome WorkOrderBom
  vendors : Outcome (List Vendor)

namespace WorkOrderView

/-- The work order, the shortages and the vendors each change only with an outcome of their own. -/
structure Isolated (o o' : WorkOrderOutcomes) (v v' : WorkOrderView) : Prop where
  workOrder : o'.workOrder = o.workOrder →
    v'.state = v.state ∧ v'.message = v.message ∧ v'.workOrder = v.workOrder
  shortages : o'.bom = o.bom → v'.shortages = v.shortages ∧ v'.canGenerate = v.canGenerate
  vendors : o'.vendors = o.vendors → v'.vendors = v.vendors

variable {trust : Bool} {id : String} {o o' : WorkOrderOutcomes} {v v' : WorkOrderView}

theorem ofOutcomes_eq_ok
    (h : (ofOutcomes trust id o.workOrder o.bom o.vendors).result = .ok v) :
    ∃ shortages canGenerate, (shortageSection trust o.bom).result = .ok (shortages, canGenerate) ∧
      v = ⟨id, ViewState.ofOutcome o.workOrder, o.workOrder.message?, o.workOrder.value?, shortages,
        Section.ofOutcome noVendors o.vendors, canGenerate⟩ := by
  rw [ofOutcomes, Noted.result_bind] at h
  obtain ⟨⟨shortages, canGenerate⟩, hshortages, hv⟩ := Traversal.bind_eq_ok.mp h
  exact ⟨shortages, canGenerate, hshortages, (Except.ok.inj hv).symm⟩

theorem isolated (h : (ofOutcomes trust id o.workOrder o.bom o.vendors).result = .ok v)
    (h' : (ofOutcomes trust id o'.workOrder o'.bom o'.vendors).result = .ok v') :
    Isolated o o' v v' := by
  obtain ⟨shortages, canGenerate, hs, rfl⟩ := ofOutcomes_eq_ok h
  obtain ⟨shortages', canGenerate', hs', rfl⟩ := ofOutcomes_eq_ok h'
  constructor
  case workOrder =>
    intro ho
    rw [ho]
    exact ⟨rfl, rfl, rfl⟩
  case shortages =>
    intro ho
    rw [ho, hs] at hs'
    cases hs'
    exact ⟨rfl, rfl⟩
  case vendors =>
    intro ho
    rw [ho]

end WorkOrderView

theorem ReceivingView.ofOutcome_vendor (openStatuses : List String) (id : String)
    (vendor vendor' : Section Vendor) (order : Outcome PurchaseOrder) :
    ofOutcome openStatuses id vendor' order =
      (ofOutcome openStatuses id vendor order).map fun v => { v with vendor := vendor' } := by
  cases order with
  | error f => rfl
  | ok order =>
    show ofOrder _ _ _ _ = (ofOrder _ _ _ _).map _
    unfold ofOrder
    cases order.receivable openStatuses with
    | error e => rfl
    | ok lines => cases order.totals <;> rfl

namespace Loading

open OpsClient

def workOrderFetch (c : OpsClient) (id : String) : Act (Outcome WorkOrder) :=
  Act.labelled "Work order fetch" [("wo_id", .str id)] (c.fetchWorkOrder id)

def workOrderBomFetch (c : OpsClient) (id : String) : Act (Outcome WorkOrderBom) :=
  Act.labelled "Work order BOM fetch" [("wo_id", .str id)] (c.fetchWorkOrderBom id)

def vendorFetch (c : OpsClient) (context : List (String × Json)) (activeOnly : Bool) :
    Act (Outcome (List Vendor)) :=
  Act.labelled "Vendor fetch" context (c.fetchVendors activeOnly)

def orderFetch (c : OpsClient) (id : String) : Act (Outcome PurchaseOrder) :=
  Act.labelled "Purchase order fetch" [("po_id", .str id)] (c.fetchOrder id)

/-- Made one after another, the fetches for the shortages of a work order come to these outcomes. -/
structure WorkOrderFetches (c : OpsClient) (id : String) (o : WorkOrderOutcomes) (w : World) :
    Prop where
  workOrder : (workOrderFetch c id w).1 = .ok o.workOrder
  bom : (workOrderBomFetch c id (workOrderFetch c id w).2).1 = .ok o.bom
  vendors : (vendorFetch c [("wo_id", .str id)] true
    (workOrderBomFetch c id (workOrderFetch c id w).2).2).1 = .ok o.vendors

structure ReceivingFetches (c : OpsClient) (id : String) (order : Outcome PurchaseOrder)
    (vendors : Outcome (List Vendor)) (w : World) : Prop where
  order : (orderFetch c id w).1 = .ok order
  vendors : (vendorFetch c [("po_id", .str id)] false (orderFetch c id w).2).1 = .ok vendors

variable {c : OpsClient} {s : Settings} {id : String} {w : World}

theorem workOrderShortages_outcomes {o : WorkOrderOutcomes} (h : WorkOrderFetches c id o w) :
    (workOrderShortages c s id w).1 =
      (WorkOrderView.ofOutcomes s.trustServerStatus id o.workOrder o.bom o.vendors).result :=
  workOrderShortages_result (Prod.ext (y := (_, _)) h.workOrder rfl)
    (Prod.ext (y := (_, _)) h.bom rfl) (Prod.ext (y := (_, _)) h.vendors rfl)

theorem receiving_result {order : Outcome PurchaseOrder} {vendors : Outcome (List Vendor)}
    (h : ReceivingFetches c id order vendors w) :
    (receiving c s id w).1 = Result.ofArithmetic (ReceivingView.ofOutcome s.openOrderStatuses id
      (ReceivingView.vendorSection order vendors) order) := by
  have horder := Prod.ext (x := orderFetch c id w) (y := (_, _)) h.order rfl
  have hvendors := Prod.ext (x := vendorFetch c [("po_id", .str id)] false _) (y := (_, _))
    h.vendors rfl
  rw [receiving, Act.bind_of_ok (Act.held_apply horder), Act.bind_of_ok (Act.held_apply hvendors)]
  rfl

/-- Where two loadings come to views, these differ only in what is made from outcomes that differ.
For a part that holds of each of its fetches and of the depth to which rows are shown, and its bill
of materials and the catalog are asked for exactly if it is an assembly. -/
theorem views_isolated (c c' : OpsClient) (s : Settings) (w w' : World) :
    (∀ ipn qty depth depth' o o' v v',
      PartFetches c s ipn qty o w → PartFetches c' s ipn qty o' w' →
      (partDetail c s ipn qty depth w).1 = .ok v →
      (partDetail c' s ipn qty depth' w').1 = .ok v' →
      PartView.Isolated s ipn depth depth' o o' v v' ∧
      Asks c s ipn o w (partDetail c s ipn qty depth w).2 v) ∧
    (∀ id o o' v v', WorkOrderFetches c id o w → WorkOrderFetches c' id o' w' →
      (workOrderShortages c s id w).1 = .ok v → (workOrderShortages c' s id w').1 = .ok v' →
      WorkOrderView.Isolated o o' v v') ∧
    (∀ id order vendors vendors' v v',
      ReceivingFetches c id order vendors w → ReceivingFetches c' id order vendors' w' →
      (receiving c s id w).1 = .ok v → (receiving c' s id w').1 = .ok v' →
      v' = { v with vendor := v'.vendor }) := by
  refine ⟨?_, ?_, ?_⟩
  · intro ipn qty depth depth' o o' v v' h h' hv hv'
    constructor
    · exact PartView.isolated ((partDetail_result h).symm.trans hv)
        ((partDetail_result h').symm.trans hv')
    · exact asks h hv
  · intro id o o' v v' h h' hv hv'
    rw [workOrderShortages_outcomes h] at hv
    rw [workOrderShortages_outcomes h'] at hv'
    exact WorkOrderView.isolated hv hv'
  · intro id order vendors vendors' v v' h h' hv hv'
    rw [receiving_result h] at hv
    rw [receiving_result h', ReceivingView.ofOutcome_vendor _ _
      (ReceivingView.vendorSection order vendors)] at hv'
    have hok := Traversal.ofArithmetic_eq_ok.mp hv
    rw [hok] at hv'
    cases hv'
    rfl

def benchKit : Part :=
  ⟨"ASY-1", none, none, none, none, none, none, none, none, none, none, none, []⟩

def benchScrew : Part :=
  ⟨"R-1", none, none, some Decimal.one, none, none, none, some Decimal.one, none, none, none, none,
    []⟩

def benchWorkOrder : WorkOrder :=
  ⟨"WO-1", "ASY-1", Decimal.one, "open", none, none, none, none, none⟩

def benchVendor : Vendor := ⟨"V-1", "V", none, none, none, none, none, "active", 0⟩

def benchSupplied : PurchaseOrder :=
  { ReceivingSession.benchOrder "submitted" 4 with vendor := some "V-1" }

def benchRoutes : List (String × List Reply) :=
  [("GET /parts/ASY-1", [.response 200 (some (Record.dump benchKit))]),
   ("GET /parts/ASY-1/cost", [.response 503 none]),
   ("GET /parts/ASY-1/where-used", [.response 200 (some (.arr []))]),
   ("GET /parts/ASY-1/bom", [.response 200 (some (BomNode.shown
     (.mk "ASY-1" "" Decimal.one none [.mk "R-1" "" ⟨false, 2, 0⟩ none []])))]),
   ("GET /parts", [.response 200 (some (Record.dumpList [benchScrew]))]),
   ("GET /workorders/WO-1", [.response 200 (some (Record.dump benchWorkOrder))]),
   ("GET /workorders/WO-1/bom", [.response 200 (some (Record.dump benchBom))]),
   ("GET /vendors", [.response 200 (some (Record.dumpList [benchVendor]))]),
   ("GET /pos/PO-1", [.response 200 (some (Record.dump benchSupplied))])]

def benchFactory : World := .ofScript ⟨"/api", benchRoutes⟩

def benchOutage : World :=
  .ofScript (Script.replace ⟨"/api", benchRoutes⟩
    [("GET /parts/ASY-1/bom", [.response 500 none]), ("GET /vendors", [.timedOut])])

def benchFault (status : Int) (message : String) : Fault :=
  .integration "Operations API" message (some status)

def benchSilence : Fault := .unavailable "Operations API" "timed out"

def benchOutcomes (bom : Outcome BomNode) : PartOutcomes :=
  ⟨.ok benchKit, bom, .ok [benchScrew], .error (benchFault 503 "Service Unavailable"), .ok []⟩

theorem benchFactory_fetches : ∃ bom, PartFetches benchClient benchSettings "ASY-1"
    (.ok Decimal.one) (benchOutcomes bom) benchFactory := by
  have hpart : (partFetch benchClient "ASY-1" benchFactory).1 = .ok (.ok benchKit) := by
    decide +kernel
  have hcost : (costFetch benchClient "ASY-1" (partFetch benchClient "ASY-1" benchFactory).2).1 =
      .ok (.error (benchFault 503 "Service Unavailable")) := by decide +kernel
  have hwhereUsed : (whereUsedFetch benchClient "ASY-1" (costFetch benchClient "ASY-1"
      (partFetch benchClient "ASY-1" benchFactory).2).2).1 = .ok (.ok []) := by decide +kernel
  have hparts : (catalogFetch benchClient "ASY-1" (resolve benchClient benchSettings.bomMaxDepth
      "ASY-1" (.ok Decimal.one) (afterPart benchClient "ASY-1" benchFactory)).2).1 =
      .ok (.ok [benchScrew]) := by decide +kernel
  have hbom : ((Act.outcome (benchClient.fetchBom "ASY-1")
      (afterPart benchClient "ASY-1" benchFactory)).1.map fun _ => ()) = .ok () := by
    decide +kernel
  obtain ⟨bom, hbom, -⟩ := Traversal.map_eq_ok.mp hbom
  exact ⟨bom, hpart, hcost, hwhereUsed, fun _ => hbom, fun _ => hparts⟩

theorem benchOutage_fetches : PartFetches benchClient benchSettings "ASY-1" (.ok Decimal.one)
    (benchOutcomes (.error (benchFault 500 "Internal Server Error"))) benchOutage := by
  constructor
  case part => decide +kernel
  case cost => decide +kernel
  case whereUsed => decide +kernel
  case bom => exact fun _ => rfl
  case parts => exact fun _ => by decide +kernel

theorem views_isolated_bench :
    (∃ v v', (partDetail benchClient benchSettings "ASY-1" (.ok Decimal.one) none
        benchFactory).1 = .ok v ∧
      (partDetail benchClient benchSettings "ASY-1" (.ok Decimal.one) none benchOutage).1 = .ok v' ∧
      v.bom.state = .loaded ∧ v'.bom.state = .failed ∧
      v' = { v with bom := v'.bom, cost := v'.cost }) ∧
    (∃ v v', (workOrderShortages benchClient benchSettings "WO-1" benchFactory).1 = .ok v ∧
      (workOrderShortages benchClient benchSettings "WO-1" benchOutage).1 = .ok v' ∧
      v.vendors.state = .loaded ∧ v'.vendors.state = .failed ∧
      v'.shortages = v.shortages ∧ v'.canGenerate = v.canGenerate) ∧
    (∃ v v', (receiving benchClient benchSettings "PO-1" benchFactory).1 = .ok v ∧
      (receiving benchClient benchSettings "PO-1" benchOutage).1 = .ok v' ∧
      v.vendor.state = .loaded ∧ v'.vendor.state = .failed ∧
      v' = { v with vendor := v'.vendor }) := by
  obtain ⟨hpart, hworkOrder, hreceiving⟩ :=
    views_isolated benchClient benchClient benchSettings benchFactory benchOutage
  refine ⟨?_, ?_, ?_⟩
  · obtain ⟨bom, hfetches⟩ := benchFactory_fetches
    obtain ⟨v, hv, hstate⟩ := Traversal.map_eq_ok.mp (by decide +kernel :
      (partDetail benchClient benchSettings "ASY-1" (.ok Decimal.one) none benchFactory).1.map
        (fun v => v.bom.state) = .ok .loaded)
    obtain ⟨v', hv', hstate'⟩ := Traversal.map_eq_ok.mp (by decide +kernel :
      (partDetail benchClient benchSettings "ASY-1" (.ok Decimal.one) none benchOutage).1.map
        (fun v => v.bom.state) = .ok .failed)
    exact ⟨v, v', hv, hv', hstate, hstate',
      (hpart _ _ _ _ _ _ _ _ hfetches benchOutage_fetches hv hv').1.bom rfl rfl⟩
  · let o : WorkOrderOutcomes := ⟨.ok benchWorkOrder, .ok benchBom, .ok [benchVendor]⟩
    have hfetches : WorkOrderFetches benchClient "WO-1" o benchFactory :=
      ⟨by decide +kernel, by decide +kernel, by decide +kernel⟩
    have hfetches' : WorkOrderFetches benchClient "WO-1" { o with vendors := .error benchSilence }
        benchOutage := ⟨by decide +kernel, by decide +kernel, by decide +kernel⟩
    obtain ⟨v, hv, hstate⟩ := Traversal.map_eq_ok.mp (by decide +kernel :
      (workOrderShortages benchClient benchSettings "WO-1" benchFactory).1.map
        (fun v => v.vendors.state) = .ok .loaded)
    obtain ⟨v', hv', hstate'⟩ := Traversal.map_eq_ok.mp (by decide +kernel :
      (workOrderShortages benchClient benchSettings "WO-1" benchOutage).1.map
        (fun v => v.vendors.state) = .ok .failed)
    exact ⟨v, v', hv, hv', hstate, hstate',
      (hworkOrder _ _ _ _ _ hfetches hfetches' hv hv').shortages rfl⟩
  · have hfetches : ReceivingFetches benchClient "PO-1" (.ok benchSupplied) (.ok [benchVendor])
        benchFactory := ⟨by decide +kernel, by decide +kernel⟩
    have hfetches' : ReceivingFetches benchClient "PO-1" (.ok benchSupplied) (.error benchSilence)
        benchOutage := ⟨by decide +kernel, by decide +kernel⟩
    obtain ⟨v, hv, hstate⟩ := Traversal.map_eq_ok.mp (by decide +kernel :
      (receiving benchClient benchSettings "PO-1" benchFactory).1.map (fun v => v.vendor.state) =
        .ok .loaded)
    obtain ⟨v', hv', hstate'⟩ := Traversal.map_eq_ok.mp (by decide +kernel :
      (receiving benchClient benchSettings "PO-1" benchOutage).1.map (fun v => v.vendor.state) =
        .ok .failed)
    exact ⟨v, v', hv, hv', hstate, hstate', hreceiving _ _ _ _ _ _ hfetches hfetches' hv hv'⟩

end Loading
end BomEngine
