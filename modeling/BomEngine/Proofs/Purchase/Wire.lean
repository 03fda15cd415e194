import BomEngine.Proofs.Decimal.Binary64
import BomEngine.Proofs.Purchase.Session

/-!
# Receipts on the wire

A receipt asks for no more than is due, but its quantities go out as doubles, and a double is not
held to what is due any more: it is the nearest one, which may be the next one above. What is sent
stays within what is due where a double lies between the quantity and what is due. It is above zero
unless the quantity is at most half of the least double.
-/

set_option autoImplicit false

namespace BomEngine
open Service

/-- A double sent for a clamped quantity of which so much is due. -/
structure Conveys (due qty : Decimal) (x : Binary64) : Prop where
  finite : x.isFinite = true
  pos : 0 < qty.value
  le_due : qty.value ≤ due.value
  nearest : x.value = Binary64.format.round qty.value
  near : |x.value - qty.value| ≤ 2 ^ Binary64.format.place qty.value / 2
  nonneg : 0 ≤ x.value
  pos_iff : 0 < x.value ↔ 2 ^ (-1074 : ℤ) / 2 < qty.value
  within : ∀ d, Binary64.format.Holds d → qty.value ≤ d → d ≤ due.value → x.value ≤ due.value

theorem conveys_ofDecimal {due qty : Decimal} (hpos : 0 < qty.value)
    (hdue : qty.value ≤ due.value) (hfinite : (Binary64.ofDecimal qty).isFinite = true) :
    Conveys due qty (Binary64.ofDecimal qty) := by
  have hvalue := Binary64.value_ofDecimal hfinite
  constructor
  case finite => exact hfinite
  case pos => exact hpos
  case le_due => exact hdue
  case nearest => exact hvalue
  case near =>
    have hnear := Binary64.format.abs_round_sub_le qty.value
    rwa [Binary64.format_pow, ← hvalue] at hnear
  case nonneg => exact hvalue ▸ Binary64.format.round_nonneg hpos.le
  case pos_iff =>
    rw [hvalue, FloatFormat.round_pos_iff, Binary64.format_pow]
    exact Iff.rfl
  case within =>
    intro d hd hqty hle
    calc (Binary64.ofDecimal qty).value = Binary64.format.round qty.value := hvalue
      _ ≤ Binary64.format.round d := Binary64.format.round_mono hqty
      _ = d := Binary64.format.round_of_holds hd
      _ ≤ due.value := hle

namespace OpsClient

theorem finite_of_writable {lines : List ReceiptLine} {skipInspection : Bool}
    (h : hasUnwritable (receiptForm lines skipInspection) = false) :
    ∀ q ∈ lines, (Binary64.ofDecimal q.qty).isFinite = true := by
  have hlines : anyUnwritable
      (lines.map fun l => .obj [("id", .int l.line), ("qty", double l.qty)]) = false := by
    simpa [receiptForm, hasUnwritable, anyFieldUnwritable] using h
  induction lines with
  | nil => exact fun q hq => nomatch hq
  | cons l rest ih =>
    obtain ⟨hl, hrest⟩ := Bool.or_eq_false_iff.mp hlines
    intro q hq
    rcases List.mem_cons.mp hq with rfl | hq
    · simpa [double, hasUnwritable, anyFieldUnwritable] using hl
    · exact ih (by simpa [receiptForm, hasUnwritable, anyFieldUnwritable] using hrest) hrest q hq

end OpsClient

namespace ReceivingSession

/-- A submission sends one receipt, if there is one and it can be written, and nothing otherwise.
Each quantity in it is the double nearest to what was typed, clamped to what is due on a line of
the order. -/
theorem submit_conveys (s : ReceivingSession) (c : OpsClient) (skipInspection : Bool) (w : World) :
    ((∀ lines, s.request = .ok lines →
        ∃ e, c.requestFor (OpsClient.receiptResource s.order.id lines skipInspection) = .error e) ∧
      (s.submit c skipInspection w).2.sent = w.sent) ∨
    ∃ lines q, s.request = .ok lines ∧ (s.submit c skipInspection w).2.sent = w.sent ++ [q] ∧
      q.body = some (.obj
        [("lines", .arr (lines.map fun l =>
            .obj [("id", .int l.line), ("qty", .double (Binary64.ofDecimal l.qty))])),
          ("skip_inspection", .bool skipInspection)]) ∧
      ∀ l ∈ lines, ∃ ordered ∈ s.order.lines, ∃ typed due, ordered.id = l.line ∧
        (l.line, typed) ∈ s.entered ∧ ordered.pending = .ok due ∧
        l.qty = Quantity.clamp due (Quantity.ofText typed) ∧
        Conveys due l.qty (Binary64.ofDecimal l.qty) := by
  cases hs : s.request with
  | error e =>
    left
    rw [submit_refused hs]
    exact ⟨fun lines hlines => (nomatch hlines), rfl⟩
  | ok lines =>
    have hsent : (s.submit c skipInspection w).2.sent =
        w.sent ++ c.requests (OpsClient.receiptResource s.order.id lines skipInspection) := by
      rw [submit_sent hs (Prod.mk.eta.symm)]
      exact OpsClient.sends_submitReceipt c s.order.id lines skipInspection w
    cases hq : c.requestFor (OpsClient.receiptResource s.order.id lines skipInspection) with
    | error e =>
      refine .inl ⟨fun lines' hlines => ⟨e, ?_⟩, ?_⟩
      · cases hlines
        exact hq
      · rw [hsent, OpsClient.requests, hq]
        exact List.append_nil _
    | ok q =>
      right
      rw [OpsClient.requests_of_requestFor hq] at hsent
      obtain ⟨-, hbody, hwritable⟩ := OpsClient.requestFor_ok hq
      have hfinite : ∀ l ∈ lines, (Binary64.ofDecimal l.qty).isFinite = true :=
        OpsClient.finite_of_writable hwritable
      have hmeasured := measured_of_request hs
      obtain ⟨rfl, -, hne⟩ := payload_of_request hmeasured hs
      have hcovers := covers_payload hmeasured hne
      refine ⟨_, q, rfl, hsent, hbody, fun l hl => ?_⟩
      obtain ⟨typed, ordered, due, htyped, hordered, hid, hdue, hqty, hpos, hle⟩ :=
        hcovers.due l hl
      exact ⟨ordered, hordered, typed, due, hid, htyped, hdue, hqty,
        conveys_ofDecimal hpos hle (hfinite l hl)⟩

def benchDue (due : Decimal) (typed : String) : ReceivingSession :=
  (start ["submitted", "partial"] none
    { benchOrder "submitted" 0 with lines := [{ benchLine 1 0 0 with ordered := due }] }).afterAll
    [.enter 1 typed]

def SendsFor (s : ReceivingSession) (due : Decimal) (x : Binary64) : Prop :=
  s.order.lines.map OrderLine.pending = [.ok due] ∧
    ∃ q, (s.submit benchClient false (.ofScript ⟨"/api", []⟩)).2.sent = [q] ∧
      q.body = some (.obj [("lines", .arr [.obj [("id", .int 1), ("qty", .double x)]]),
        ("skip_inspection", .bool false)])

theorem sendsFor_of_request {s : ReceivingSession} {due : Decimal}
    (hdue : s.order.lines.map OrderLine.pending = [.ok due]) (hs : s.request = .ok [⟨1, due⟩])
    (hwritten : (benchClient.requestFor
      (OpsClient.receiptResource s.order.id [⟨1, due⟩] false)).isOk = true) :
    s.SendsFor due (Binary64.ofDecimal due) := by
  cases hq : benchClient.requestFor (OpsClient.receiptResource s.order.id [⟨1, due⟩] false) with
  | error e =>
    rw [hq] at hwritten
    cases hwritten
  | ok q =>
    refine ⟨hdue, q, ?_, (OpsClient.requestFor_ok hq).2.1⟩
    rw [submit_sent hs (Prod.mk.eta.symm)]
    exact (OpsClient.sends_submitReceipt _ _ _ _ _).trans
      (congrArg _ (OpsClient.requests_of_requestFor hq))

/-- A tenth that is due goes out as the double above it, and far too little for a double as zero. -/
theorem sent_beyond_due :
    (∃ x, (benchDue ⟨false, 1, -1⟩ "0.1").SendsFor ⟨false, 1, -1⟩ x ∧
      (⟨false, 1, -1⟩ : Decimal).value < x.value) ∧
    ∃ x, (benchDue ⟨false, 1, -400⟩ "1E-400").SendsFor ⟨false, 1, -400⟩ x ∧ ¬ 0 < x.value := by
  constructor
  · refine ⟨_, sendsFor_of_request (by decide +kernel) (by decide +kernel)
      (by decide +kernel), ?_⟩
    have hnegative : (Binary64.ofDecimal ⟨false, 1, -1⟩).negative = false := by decide +kernel
    have hsignificand : (Binary64.ofDecimal ⟨false, 1, -1⟩).significand = 7205759403792794 := by
      decide +kernel
    have hexponent : (Binary64.ofDecimal ⟨false, 1, -1⟩).exponent = -56 := by decide +kernel
    rw [Binary64.value, hnegative, hsignificand, hexponent]
    norm_num [Decimal.value, Decimal.signed]
  · refine ⟨_, sendsFor_of_request (by decide +kernel) (by decide +kernel)
      (by decide +kernel), ?_⟩
    have hnegative : (Binary64.ofDecimal ⟨false, 1, -400⟩).negative = false := by decide +kernel
    have hsignificand : (Binary64.ofDecimal ⟨false, 1, -400⟩).significand = 0 := by decide +kernel
    rw [Binary64.value, hnegative, hsignificand]
    norm_num [Decimal.signed]

end ReceivingSession
end BomEngine
