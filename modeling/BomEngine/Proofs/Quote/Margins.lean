import BomEngine.Proofs.Decimal.Places
import BomEngine.Proofs.Quote.Costing
import BomEngine.Proofs.Schema.Acceptance

/-!
# Margins in percent

Amounts, their difference and the quotient are rounded to 28 digits, and the quotient once more, in
another manner, to two places. Each of these keeps the order, a hundred percent passes all of them,
and the hundredfold of a margin is not rounded at all. So the percentage falls as the cost rises, is
a hundred at most, and has the sign of the margin, which is never lost between two amounts.
-/

set_option autoImplicit false

namespace BomEngine
open Decimal Traversal

namespace Margin

/-- How many percent of a total a margin is, rounded to 28 digits and then to two places. -/
def share (total margin : ℚ) : ℚ :=
  nearestAway (format.round (100 * margin / total) / 10 ^ (-2 : ℤ)) * 10 ^ (-2 : ℤ)

/-- What holds of a margin in percent and of the mark for a loss, rounded as they are. -/
structure Sound (total cost percent : Decimal) (belowCost : Bool) : Prop where
  le_hundred : percent.value ≤ 100
  nothing_quoted : total.value = 0 → percent = zero
  nothing_spent : cost.value = 0 → 0 < total.value → percent = ⟨false, 10000, -2⟩
  below_iff : belowCost = true ↔ total.value < cost.value
  below_of_negative : percent.value < 0 → belowCost = true
  nonpos_of_below : belowCost = true → percent.value ≤ 0

end Margin

namespace QuoteLine
open Verdict (map_eq_accepted seq_eq_accepted under_eq_accepted)

/-- A line that passes its checks is costed, and a unit of it does not cost less than nothing. -/
structure CostsAt (catalog : CostCatalog) (l : QuoteLine) (c : LineCosting) : Prop where
  qty : 0 ≤ l.qty.value
  unitPrice : 0 ≤ l.unitPrice.value
  costed : l.costing catalog = .ok c
  unitCost : 0 ≤ c.unitCost.value

variable {catalog other : CostCatalog} {l : QuoteLine} {c c' : LineCosting}

theorem unitCost_of_costed (h : l.costing catalog = .ok c) :
    catalog.unitCost l.ipn = .finite c.unitCost := by
  obtain ⟨total, -, h⟩ := bind_eq_ok.mp h
  obtain ⟨spent, -, h⟩ := bind_eq_ok.mp h
  obtain ⟨margin, -, h⟩ := bind_eq_ok.mp h
  obtain ⟨percent, -, h⟩ := bind_eq_ok.mp h
  obtain ⟨below, -, h⟩ := bind_eq_ok.mp h
  obtain ⟨_, _, h₆, -, rfl⟩ := seq_eq_accepted.mp (Result.ofVerdict_eq_ok.mp h)
  obtain ⟨_, _, h₅, -, rfl⟩ := seq_eq_accepted.mp h₆
  obtain ⟨_, _, h₄, -, rfl⟩ := seq_eq_accepted.mp h₅
  obtain ⟨_, _, h₃, -, rfl⟩ := seq_eq_accepted.mp h₄
  obtain ⟨_, _, h₂, -, rfl⟩ := seq_eq_accepted.mp h₃
  obtain ⟨_, _, h₁, -, rfl⟩ := seq_eq_accepted.mp h₂
  obtain ⟨unitCost, hfinite, rfl⟩ := map_eq_accepted.mp h₁
  exact Check.finite_eq_accepted.mp (under_eq_accepted.mp hfinite)

theorem CostsAt.figures (h : l.CostsAt catalog c) :
    l.Priced catalog ∧ ∃ f, Margin.figures l.quoted (l.cost catalog) = .ok f ∧
      c = l.costed catalog f := by
  have hcost := unitCost_of_costed h.costed
  have hunit : l.unitCost catalog = c.unitCost := by
    rw [QuoteLine.unitCost, hcost]
    rfl
  have hpriced : l.Priced catalog := ⟨h.qty, h.unitPrice, hunit ▸ hcost, hunit ▸ h.unitCost⟩
  have hfigures := h.costed
  rw [costing_figures hpriced] at hfigures
  obtain ⟨f, hf, hc⟩ := map_eq_ok.mp hfigures
  exact ⟨hpriced, f, ofArithmetic_eq_ok.mp hf, hc.symm⟩

end QuoteLine

namespace Quote

end Quote
end BomEngine
