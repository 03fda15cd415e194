import BomEngine.Proofs.Purchase.Session

/-!
# Orders with nothing due

Whether anything is due on an order can be asked of its lines, of the lines that accept a receipt,
of the status that it should have after one, and of the total of what is pending. A line on which
more was received than ordered has nothing due, and rounding never makes a zero of a sum of
quantities without sign, so the answers agree. Only the status tells an order without lines from
one that is complete.
-/

set_option autoImplicit false

namespace BomEngine
open Decimal (Representable Plain)

namespace OrderLine

def OverReceived (l : OrderLine) : Prop := l.ordered.value < l.received.value

instance (l : OrderLine) : Decidable l.OverReceived := inferInstanceAs (Decidable (_ < _))

theorem plain_due {l : OrderLine} (h : l.Measured) : Plain l.due := by
  have hp := pending_due h
  rw [pending_eq] at hp
  obtain ⟨d, hd, heq⟩ := Traversal.map_eq_ok.mp hp
  rw [← heq]
  exact Decimal.plain_sub hd

end OrderLine

namespace PurchaseOrder

def Complete (o : PurchaseOrder) : Prop := ∀ l ∈ o.lines, l.due.value = 0

instance (o : PurchaseOrder) : Decidable o.Complete :=
  inferInstanceAs (Decidable (∀ l ∈ o.lines, l.due.value = 0))

theorem dues_eq_nil {lines : List OrderLine} (h : ∀ l ∈ lines, l.Measured) :
    dues lines = [] ↔ ∀ l ∈ lines, l.due.value = 0 := by
  constructor
  · intro hnil l hl
    by_contra hne
    have hpos : 0 < l.due.value :=
      lt_of_le_of_ne (OrderLine.plain_due (h l hl)).nonneg (Ne.symm hne)
    have hmem : (l, l.due) ∈ dues lines := mem_dues.mpr ⟨hl, rfl, hpos⟩
    rw [hnil] at hmem
    cases hmem
  · intro hzero
    apply List.eq_nil_iff_forall_not_mem.mpr
    intro l hl
    obtain ⟨hmem, hdue, hpos⟩ := mem_dues.mp hl
    rw [hdue, hzero l.1 hmem] at hpos
    exact absurd hpos (lt_irrefl 0)

theorem expectedStatus_eq {o : PurchaseOrder} (h : o.Measured) :
    o.expectedStatus = .ok (if o.lines ≠ [] ∧ o.Complete then "received" else "partial") := by
  have hall : (o.lines.all fun l => l.due.isZero) = true ↔ o.Complete := by
    simp only [List.all_eq_true, ← Decimal.value_eq_zero]
    rfl
  unfold expectedStatus
  rw [isComplete_eq h]
  by_cases hempty : o.lines = []
  · simp [hempty, pure, Except.pure]
  · by_cases hcomplete : o.Complete
    · simp [hempty, hcomplete, hall.mpr hcomplete, bind, Except.bind, pure, Except.pure]
    · have hnot : ¬ (o.lines.all fun l => l.due.isZero) = true := mt hall.mp hcomplete
      simp [hempty, hcomplete, hnot, bind, Except.bind, pure, Except.pure]

theorem totalOf_eq {o : PurchaseOrder} {f : OrderLine → Except Signal Decimal}
    {g : OrderLine → Decimal} (h : ∀ l ∈ o.lines, f l = .ok (g l)) :
    o.totalOf f = Decimal.sum (o.lines.map g) := by
  rw [Decimal.sum, List.foldlM_map]
  apply Traversal.foldlM_congr
  intro sum l hl
  rw [h l hl]
  rfl

theorem totals_sums {o : PurchaseOrder} {t : Totals} (h : o.totals = .ok t) :
    Decimal.sum (o.lines.map OrderLine.ordered) = .ok t.ordered ∧
    Decimal.sum (o.lines.map OrderLine.received) = .ok t.received ∧
    Decimal.sum (o.lines.map OrderLine.due) = .ok t.pending := by
  have hm : o.Measured := measured_of_totals h
  obtain ⟨ordered, hordered, h⟩ := Traversal.bind_eq_ok.mp h
  obtain ⟨received, hreceived, h⟩ := Traversal.bind_eq_ok.mp h
  obtain ⟨pending, hpending, h⟩ := Traversal.bind_eq_ok.mp h
  obtain ⟨value, -, h⟩ := Traversal.bind_eq_ok.mp h
  cases h
  rw [totalOf_eq fun l _ => rfl] at hordered hreceived
  rw [totalOf_eq fun l hl => OrderLine.pending_due (hm l hl)] at hpending
  exact ⟨hordered, hreceived, hpending⟩

theorem pending_eq_zero {o : PurchaseOrder} {t : Totals} (h : o.totals = .ok t) :
    t.pending.value = 0 ↔ o.Complete := by
  have hplain : ∀ x ∈ o.lines.map OrderLine.due, Plain x := by
    intro x hx
    obtain ⟨l, hl, rfl⟩ := List.mem_map.mp hx
    exact OrderLine.plain_due (measured_of_totals h l hl)
  rw [Decimal.sum_plain_eq_zero hplain (totals_sums h).2.2]
  exact List.forall_mem_map

/-- Totals in which nothing is rounded: the differences on the lines, and the sums over the first
lines, have few enough digits. -/
structure CountsExactly (o : PurchaseOrder) : Prop where
  differences : ∀ l ∈ o.lines, Representable (l.ordered.value - l.received.value)
  ordered : ∀ part, part <+: o.lines → Representable (part.map fun l => l.ordered.value).sum
  received : ∀ part, part <+: o.lines → Representable (part.map fun l => l.received.value).sum
  due : ∀ part, part <+: o.lines → Representable (part.map fun l => l.due.value).sum

theorem total_exact {o : PurchaseOrder} {g : OrderLine → Decimal} {d : Decimal}
    (hparts : ∀ part, part <+: o.lines → Representable (part.map fun l => (g l).value).sum)
    (h : Decimal.sum (o.lines.map g) = .ok d) : d.value = (o.lines.map fun l => (g l).value).sum := by
  have hexact : ∀ part, part <+: o.lines.map g → Representable (part.map Decimal.value).sum := by
    intro part hpart
    obtain ⟨first, hfirst, rfl⟩ := List.prefix_map_iff.mp hpart
    rw [List.map_map]
    exact hparts first hfirst
  obtain ⟨d', hd', hv⟩ := Decimal.sum_exact hexact
  obtain rfl : d = d' := Except.ok.inj (h.symm.trans hd')
  rw [hv, List.map_map]
  rfl

theorem ordered_le {lines : List OrderLine}
    (h : ∀ l ∈ lines, l.due.value = max 0 (l.ordered.value - l.received.value)) :
    let ordered := (lines.map fun l => l.ordered.value).sum
    let covered := (lines.map fun l => l.received.value).sum + (lines.map fun l => l.due.value).sum
    ordered ≤ covered ∧ (ordered = covered ↔ ∀ l ∈ lines, ¬ l.OverReceived) := by
  induction lines with
  | nil => simp
  | cons l rest ih =>
    obtain ⟨hle, heq⟩ := ih fun m hm => h m (List.mem_cons_of_mem l hm)
    have hdue := h l List.mem_cons_self
    simp only [List.map_cons, List.sum_cons, List.forall_mem_cons, OrderLine.OverReceived,
      not_lt] at hle heq ⊢
    rw [← heq]
    by_cases hover : l.ordered.value < l.received.value
    · rw [max_eq_left (by linarith)] at hdue
      exact ⟨by linarith, fun _ => by linarith, fun hline => by linarith [hline.1]⟩
    · rw [max_eq_right (by linarith)] at hdue
      exact ⟨by linarith, fun _ => ⟨not_lt.mp hover, by linarith⟩, fun hline => by linarith [hline.2]⟩

/-- What the totals of an order, its lines and its status say of what is due. -/
structure Completeness (openStatuses : List String) (o : PurchaseOrder) (t : Totals) : Prop where
  due : ∀ l ∈ o.lines, l.pending = .ok l.due
  pending : t.pending.value = 0 ↔ o.Complete
  receivable : o.isReceivable openStatuses = true →
    (o.receivable openStatuses = .ok [] ↔ o.Complete)
  status : o.expectedStatus =
    .ok (if o.lines ≠ [] ∧ t.pending.value = 0 then "received" else "partial")
  ordered : o.CountsExactly → t.ordered.value ≤ t.received.value + t.pending.value ∧
    (t.ordered.value = t.received.value + t.pending.value ↔ ∀ l ∈ o.lines, ¬ l.OverReceived)

/-- Unless a quantity is too large to be held, the four ways to ask whether anything is due agree. An
order in a state that is not open accepts no receipts in any case. -/
theorem completeness_agrees (openStatuses : List String) (o : PurchaseOrder) :
    (o.isReceivable openStatuses = false → o.receivable openStatuses = .ok []) ∧
    (o.totals ≠ .error .overflow → ∃ t, o.totals = .ok t ∧ o.Completeness openStatuses t) := by
  constructor
  · intro hclosed
    unfold receivable
    rw [hclosed]
    rfl
  · intro hover
    obtain ⟨t, ht⟩ := o.failsOnly_totals.result hover
    have hm : o.Measured := measured_of_totals ht
    have hpending := pending_eq_zero ht
    refine ⟨t, ht, ?_⟩
    constructor
    case due => exact fun l hl => OrderLine.pending_due (hm l hl)
    case pending => exact hpending
    case receivable =>
      intro hopen
      rw [receivable_eq hm, if_pos hopen, Except.ok.injEq]
      exact dues_eq_nil hm
    case status =>
      rw [expectedStatus_eq hm]
      simp only [hpending]
    case ordered =>
      intro hexact
      obtain ⟨hordered, hreceived, hdue⟩ := totals_sums ht
      rw [total_exact hexact.ordered hordered, total_exact hexact.received hreceived,
        total_exact hexact.due hdue]
      exact ordered_le fun l hl => (OrderLine.pending_exact (hexact.differences l hl)).2

def overfullOrder (status : String) : PurchaseOrder :=
  ⟨"PO-1", none, status, none, none, none, none,
    [ReceivingSession.benchLine 1 10 12, ReceivingSession.benchLine 2 5 5]⟩

theorem completeness_agrees_bench :
    (overfullOrder "closed").isReceivable ["submitted", "partial"] = false ∧
    (overfullOrder "closed").receivable ["submitted", "partial"] = .ok [] ∧
    (overfullOrder "partial").isReceivable ["submitted", "partial"] = true ∧
    (overfullOrder "partial").totals ≠ .error .overflow ∧ (overfullOrder "partial").CountsExactly ∧
    ∃ t, (overfullOrder "partial").totals = .ok t ∧ t.pending.value = 0 ∧
      (overfullOrder "partial").receivable ["submitted", "partial"] = .ok [] ∧
      (overfullOrder "partial").expectedStatus = .ok "received" ∧
      t.ordered.value < t.received.value + t.pending.value := by
  have hclosed : (overfullOrder "closed").isReceivable ["submitted", "partial"] = false := by
    decide +kernel
  have hopen : (overfullOrder "partial").isReceivable ["submitted", "partial"] = true := by
    decide +kernel
  have hover : (overfullOrder "partial").totals ≠ .error .overflow := by decide +kernel
  have hcomplete : (overfullOrder "partial").Complete := by decide +kernel
  have hexact : (overfullOrder "partial").CountsExactly := by
    have hwhole : ∀ z : ℤ, |z| < 100 → Representable z := fun z hz =>
      Decimal.representable_intCast (hz.trans (by norm_num [Decimal.precision]))
    have hparts : ∀ part, part <+: (overfullOrder "partial").lines → part = [] ∨
        part = [ReceivingSession.benchLine 1 10 12] ∨ part = (overfullOrder "partial").lines := by
      intro part h
      simp only [overfullOrder, List.prefix_cons_iff, List.prefix_nil] at h
      rcases h with rfl | ⟨_, rfl, rfl | ⟨_, rfl, rfl⟩⟩ <;> simp [overfullOrder]
    have hdue : ∀ part, part <+: (overfullOrder "partial").lines →
        (part.map fun l => l.due.value).sum = 0 := by
      intro part hpart
      apply List.sum_eq_zero
      exact List.forall_mem_map.mpr fun l hl => hcomplete l (hpart.subset hl)
    constructor
    case differences =>
      simp only [overfullOrder, ReceivingSession.benchLine, List.forall_mem_cons, Decimal.value,
        Decimal.signed]
      norm_num
      exact ⟨by simpa using hwhole (-2) (by decide), by simpa using hwhole 0 (by decide)⟩
    case ordered =>
      intro part hpart
      rcases hparts part hpart with rfl | rfl | rfl <;>
        norm_num [overfullOrder, ReceivingSession.benchLine, Decimal.value, Decimal.signed]
      · simpa using hwhole 0 (by decide)
      · simpa using hwhole 10 (by decide)
      · simpa using hwhole 15 (by decide)
    case received =>
      intro part hpart
      rcases hparts part hpart with rfl | rfl | rfl <;>
        norm_num [overfullOrder, ReceivingSession.benchLine, Decimal.value, Decimal.signed]
      · simpa using hwhole 0 (by decide)
      · simpa using hwhole 12 (by decide)
      · simpa using hwhole 17 (by decide)
    case due =>
      intro part hpart
      rw [hdue part hpart]
      simpa using hwhole 0 (by decide)
  obtain ⟨t, ht, hagrees⟩ := (completeness_agrees ["submitted", "partial"] _).2 hover
  have hpending : t.pending.value = 0 := hagrees.pending.mpr hcomplete
  refine ⟨hclosed, (completeness_agrees _ _).1 hclosed, hopen, hover, hexact, t, ht, hpending,
    (hagrees.receivable hopen).mpr hcomplete, ?_, ?_⟩
  · rw [hagrees.status, if_pos ⟨List.cons_ne_nil _ _, hpending⟩]
  · obtain ⟨hle, heq⟩ := hagrees.ordered hexact
    refine lt_of_le_of_ne hle fun h => ?_
    exact heq.mp h _ List.mem_cons_self (by decide +kernel)

end PurchaseOrder
end BomEngine
