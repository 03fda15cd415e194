import BomEngine.Proofs.Decimal.Rounding
import BomEngine.Purchase.Order
import BomEngine.Purchase.Quantity

/-!
# What is due on an order

The pending quantity of a line fails only where ordered and received quantities are too
large to be subtracted. On an order without such lines the lines to be received are the
ones with something due, in the order of the lines. A quantity typed for a line counts
as far as it lies between nothing and what is due.
-/

set_option autoImplicit false

namespace BomEngine
open Decimal (Representable)
open Traversal (FailsOnly)

namespace OrderLine

/-- Whether the pending quantity is small enough to be held. -/
def Measured (l : OrderLine) : Prop := l.pending ≠ .error .overflow

instance (l : OrderLine) : Decidable l.Measured := inferInstanceAs (Decidable (_ ≠ _))

def due (l : OrderLine) : Decimal :=
  match l.pending with
  | .ok p => p
  | .error _ => Decimal.zero

theorem pending_eq (l : OrderLine) :
    l.pending = (l.ordered.sub l.received).map Decimal.atLeastZero := by
  unfold pending
  cases l.ordered.sub l.received <;> rfl

theorem failsOnly_pending (l : OrderLine) : FailsOnly .overflow l.pending :=
  (Decimal.failsOnly_sub _ _).bind fun _ => .of_ok _

theorem pending_due {l : OrderLine} (h : l.Measured) : l.pending = .ok l.due := by
  obtain ⟨p, hp⟩ := l.failsOnly_pending.result h
  rw [due, hp]

theorem due_of_pending {l : OrderLine} {p : Decimal} (h : l.pending = .ok p) : l.due = p := by
  rw [due, h]

theorem pending_exact {l : OrderLine} (h : Representable (l.ordered.value - l.received.value)) :
    l.Measured ∧ l.due.value = max 0 (l.ordered.value - l.received.value) := by
  obtain ⟨d, hd, hv⟩ := l.ordered.sub_exact l.received h
  have hp : l.pending = .ok d.atLeastZero := by
    rw [pending_eq, hd]
    rfl
  refine ⟨by simp [Measured, hp], ?_⟩
  rw [due_of_pending hp, Decimal.value_atLeastZero, hv]

end OrderLine

namespace PurchaseOrder

def Measured (o : PurchaseOrder) : Prop := ∀ l ∈ o.lines, l.Measured

instance (o : PurchaseOrder) : Decidable o.Measured :=
  inferInstanceAs (Decidable (∀ l ∈ o.lines, l.Measured))

def dues (lines : List OrderLine) : List (OrderLine × Decimal) :=
  (lines.map fun l => (l, l.due)).filter fun l => l.2.isPositive

theorem mem_dues {lines : List OrderLine} {l : OrderLine × Decimal} :
    l ∈ dues lines ↔ l.1 ∈ lines ∧ l.2 = l.1.due ∧ 0 < l.2.value := by
  rw [dues, List.mem_filter, List.mem_map, Decimal.isPositive_iff]
  constructor
  · rintro ⟨⟨l, hl, rfl⟩, hp⟩
    exact ⟨hl, rfl, hp⟩
  · rintro ⟨hl, hd, hp⟩
    exact ⟨⟨l.1, hl, Prod.ext rfl hd.symm⟩, hp⟩

theorem dues_ids (lines : List OrderLine) :
    ((dues lines).map fun l => l.1.id).Sublist (lines.map OrderLine.id) := by
  have h : ((dues lines).map fun l => l.1.id).Sublist
      ((lines.map fun l => (l, l.due)).map fun l => l.1.id) := List.filter_sublist.map _
  rwa [List.map_map] at h

theorem pendingLines_eq {lines : List OrderLine} (h : ∀ l ∈ lines, l.Measured) :
    pendingLines lines = .ok (dues lines) := by
  induction lines with
  | nil => rfl
  | cons l rest ih =>
    rw [pendingLines, OrderLine.pending_due (h l (by simp)), ih fun m hm => h m (by simp [hm])]
    by_cases hp : l.due.isPositive = true <;>
      simp [bind, Except.bind, pure, Except.pure, dues, hp]

theorem measured_of_pendingLines {lines : List OrderLine} {due : List (OrderLine × Decimal)}
    (h : pendingLines lines = .ok due) : ∀ l ∈ lines, l.Measured := by
  induction lines generalizing due with
  | nil => exact fun l hl => nomatch hl
  | cons m rest ih =>
    obtain ⟨p, hp, h⟩ := Traversal.bind_eq_ok.mp h
    obtain ⟨others, hothers, -⟩ := Traversal.bind_eq_ok.mp h
    intro l hl
    rcases List.mem_cons.mp hl with rfl | hl
    · rw [OrderLine.Measured, hp]
      exact nofun
    · exact ih hothers l hl

theorem receivable_eq {o : PurchaseOrder} (h : o.Measured) (openStatuses : List String) :
    o.receivable openStatuses =
      .ok (if o.isReceivable openStatuses then dues o.lines else []) := by
  unfold receivable
  split
  · exact pendingLines_eq h
  · rfl

theorem failsOnly_pendingLines (lines : List OrderLine) :
    FailsOnly .overflow (pendingLines lines) := by
  induction lines with
  | nil => exact .of_ok []
  | cons l rest ih =>
    exact l.failsOnly_pending.bind fun p => ih.bind fun others => .of_ok _

theorem failsOnly_receivable (openStatuses : List String) (o : PurchaseOrder) :
    FailsOnly .overflow (o.receivable openStatuses) := by
  unfold receivable
  split
  · exact failsOnly_pendingLines o.lines
  · exact .of_ok []

theorem isComplete_eq {lines : List OrderLine} (h : ∀ l ∈ lines, l.Measured) :
    isComplete lines = .ok (lines.all fun l => l.due.isZero) := by
  induction lines with
  | nil => rfl
  | cons l rest ih =>
    have hrest := ih fun m hm => h m (List.mem_cons_of_mem l hm)
    rw [isComplete, OrderLine.pending_due (h l List.mem_cons_self), List.all_cons]
    by_cases hz : l.due.isZero = true
    · simpa [bind, Except.bind, hz] using hrest
    · simp [bind, Except.bind, pure, Except.pure, hz]

theorem expectedStatus_ok {o : PurchaseOrder} (h : o.Measured) :
    ∃ status, o.expectedStatus = .ok status := by
  unfold expectedStatus
  rw [isComplete_eq h]
  split
  · exact ⟨_, rfl⟩
  · exact ⟨_, rfl⟩

theorem failsOnly_totals (o : PurchaseOrder) : FailsOnly .overflow o.totals := by
  have htotal : ∀ f : OrderLine → Except Signal Decimal,
      (∀ l, FailsOnly .overflow (f l)) → FailsOnly .overflow (o.totalOf f) := fun f hf =>
    .foldlM (fun sum l => (hf l).bind fun q => Decimal.failsOnly_add sum q) _ _
  refine .bind (htotal _ fun l => .of_ok _) fun _ => ?_
  refine .bind (htotal _ fun l => .of_ok _) fun _ => ?_
  refine .bind (htotal _ OrderLine.failsOnly_pending) fun _ => ?_
  exact .bind (htotal _ fun l => Decimal.failsOnly_mul _ _) fun _ => .of_ok _

theorem measured_of_totals {o : PurchaseOrder} {t : Totals}
    (h : o.totals = .ok t) : o.Measured := by
  intro l hl hover
  obtain ⟨ordered, -, h⟩ := Traversal.bind_eq_ok.mp h
  obtain ⟨received, -, h⟩ := Traversal.bind_eq_ok.mp h
  obtain ⟨pending, hpending, -⟩ := Traversal.bind_eq_ok.mp h
  obtain ⟨sum, next, hl⟩ := Traversal.foldlM_ok_mem hpending l hl
  rw [hover] at hl
  cases hl

end PurchaseOrder

namespace Quantity

theorem clamp_value {pending : Decimal} (h : 0 ≤ pending.value) (entered : Decimal) :
    (clamp pending entered).value = max 0 (min pending.value entered.value) := by
  unfold clamp
  by_cases hn : entered.value < 0
  · rw [if_pos ((Decimal.isNegative_iff _).mpr hn), Decimal.value_zero,
      min_eq_right (hn.le.trans h), max_eq_left hn.le]
  rw [if_neg (mt (Decimal.isNegative_iff _).mp hn)]
  have hentered : 0 ≤ entered.value := not_lt.mp hn
  by_cases hl : pending.value < entered.value
  · rw [if_pos ((Decimal.lt_iff _ _).mpr hl), min_eq_left hl.le, max_eq_right h]
  · rw [if_neg (mt (Decimal.lt_iff _ _).mp hl), min_eq_right (not_lt.mp hl),
      max_eq_right hentered]

theorem clamp_le {pending : Decimal} (h : 0 ≤ pending.value) (entered : Decimal) :
    (clamp pending entered).value ≤ pending.value := by
  rw [clamp_value h]
  exact max_le h (min_le_left _ _)

theorem clamp_pos_iff {pending : Decimal} (h : 0 < pending.value) (entered : Decimal) :
    0 < (clamp pending entered).value ↔ 0 < entered.value := by
  rw [clamp_value h.le, lt_max_iff, lt_min_iff]
  simp [h]

end Quantity
end BomEngine
