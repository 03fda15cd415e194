import BomEngine.Proofs.Decimal.Quotients
import BomEngine.Quote.Costing

/-!
# Which quotes can be costed

The figures of a line and those of a whole quote are worked out in the same way: what is quoted,
what it costs, the margin, and the margin in percent of what is quoted. The percentage is written
with two places and 28 digits, so that a margin far below cost has none beside a small amount
quoted. That and amounts that are too large are all that keeps a quote from being costed.
-/

set_option autoImplicit false

namespace BomEngine
open Decimal Traversal

namespace Margin

/-- A margin of which it can be said how many percent of a total it is: nothing is divided by a
total that is not above zero. -/
def Writable (total margin : Decimal) : Prop :=
  0 < total.value →
    ¬ TooLarge (100 * margin.value) ∧ |100 * margin.value / total.value| < brink (-2)

def percentOf (total margin : Decimal) : Except Signal Decimal :=
  if total.isPositive then do
    (← (← hundred.mul margin).div total).quantize .halfUp (-2)
  else .ok zero

theorem cmp_zero_eq_gt {d : Decimal} : d.cmp zero = .gt ↔ d.isPositive = true := by
  rw [cmp_value, isPositive_iff, value_zero, compare_gt_iff_gt]

theorem percent_finite (total margin : Decimal) :
    percent total margin = (percentOf total margin).map .finite := by
  have hcmp : (Number.finite total).cmp zero = .ok (total.cmp zero) := rfl
  rw [percent, hcmp, percentOf]
  by_cases hpos : total.isPositive = true
  · rw [cmp_zero_eq_gt.mpr hpos, if_pos hpos]
    change ((Number.finite hundred).mul margin).bind (fun product =>
      (product.div total).bind fun quotient => quotient.quantize .halfUp (-2)) = _
    rw [Number.mul_finite]
    cases hundred.mul margin with
    | error e => rfl
    | ok product =>
      change ((Number.finite product).div (.finite total)).bind _ =
        ((product.div total).bind fun q => q.quantize .halfUp (-2)).map Number.finite
      rw [Number.div_finite]
      cases product.div total <;> rfl
  · rw [if_neg hpos]
    cases hc : total.cmp zero with
    | gt => exact absurd (cmp_zero_eq_gt.mp hc) hpos
    | lt => rfl
    | eq => rfl

theorem value_hundred : hundred.value = 100 := by simp [value, hundred, signed]

theorem representable_hundredfold {d : Decimal} (hd : Held d)
    (h : ¬ TooLarge (hundred.value * d.value)) : Representable (hundred.value * d.value) := by
  have hvalue : hundred.value * d.value = signed d.negative d.coeff * 10 ^ (d.exp + 2) := by
    rw [value_hundred, value, zpow_add₀ (by norm_num)]
    ring
  have hexp := hd.exp
  rw [hvalue] at h ⊢
  exact representable_of_short (signed_short _ hd.coeff) (by omega) h

theorem percentOf_cases (total : Decimal) {margin : Decimal} (hm : Held margin) :
    (Writable total margin ∧ ∃ p, percentOf total margin = .ok p) ∨
    ¬ Writable total margin ∧
      ∃ s, percentOf total margin = .error s ∧ (s = .overflow ∨ s = .invalid) := by
  unfold percentOf Writable
  by_cases hpos : total.isPositive = true
  · have htotal := (isPositive_iff total).mp hpos
    rw [if_pos hpos, ← value_hundred]
    by_cases hlarge : TooLarge (hundred.value * margin.value)
    · refine .inr ⟨fun h => (h htotal).1 hlarge, .overflow, ?_, .inl rfl⟩
      rw [(mul_overflow_iff hundred margin).mpr hlarge]
      rfl
    obtain ⟨product, hproduct, hvalue⟩ :=
      mul_exact hundred margin (representable_hundredfold hm hlarge)
    rw [hproduct, ← hvalue]
    change _ ∧ (∃ p, (product.div total).bind (quantize .halfUp (-2)) = .ok p) ∨ _ ∧
      ∃ s, (product.div total).bind (quantize .halfUp (-2)) = .error s ∧ _
    rcases div_cases product htotal.ne' with ⟨hdiv, hquotient⟩ | ⟨d, hdiv, hheld, hreach⟩
    · refine .inr ⟨fun h => ?_, .overflow, by rw [hdiv]; rfl, .inl rfl⟩
      exact not_lt.mpr ((brink_mono (by decide)).trans hquotient) (h htotal).2
    · have hside := hreach (k := -2) (by decide)
      rcases quantize_cases .halfUp (e := -2) hheld.coeff (by decide) (by decide) with
        ⟨hq, hbig⟩ | ⟨hq, hsmall⟩
      · refine .inr ⟨fun h => not_lt.mpr (hside.mp hbig) (h htotal).2, .invalid, ?_, .inr rfl⟩
        rw [hdiv]
        exact hq
      · refine .inl ⟨fun _ => ⟨?_, not_le.mp (mt hside.mpr (not_le.mpr hsmall))⟩,
          ⟨d.negative, d.wholes .halfUp (-2), -2⟩, ?_⟩
        · rwa [hvalue]
        · rw [hdiv]
          exact hq
  · rw [if_neg hpos]
    exact .inl ⟨fun h => absurd ((isPositive_iff total).mpr h) hpos, zero, rfl⟩

theorem writable_of_covered {total margin : Decimal}
    (h : total.value ≤ 0 ∨ (0 ≤ margin.value ∧ margin.value ≤ total.value ∧
      ¬ TooLarge (100 * margin.value))) : Writable total margin := by
  intro htotal
  obtain ⟨hmargin, hle, hfits⟩ := h.resolve_left (not_le.mpr htotal)
  refine ⟨hfits, lt_of_le_of_lt ?_ (show (100 : ℚ) < brink (-2) by norm_num [brink, precision])⟩
  rw [abs_of_nonneg (by positivity), div_le_iff₀ htotal]
  linarith

structure Figures where
  total : Decimal
  cost : Decimal
  margin : Decimal
  percent : Decimal

def figures (quoted cost : Except Signal Decimal) : Except Signal Figures := do
  let total ← quoted
  let cost ← cost
  let margin ← total.sub cost
  let percent ← percentOf total margin
  return ⟨total, cost, margin, percent⟩

/-- An amount as a product or a sum gives it: not below zero. -/
structure Amount (d : Decimal) : Prop where
  nonneg : 0 ≤ d.value
  held : Held d

theorem Amount.plain {d : Decimal} (h : Amount d) : Plain d := ⟨h.nonneg, h.held.exp⟩

theorem mul_amount {x y d : Decimal} (hx : 0 ≤ x.value) (hy : 0 ≤ y.value)
    (h : x.mul y = .ok d) : Amount d := by
  refine ⟨value_nonneg_iff.mpr ?_, fix_held h⟩
  by_cases hzero : x.coeff * y.coeff = 0
  · rw [mul, fix, if_pos hzero] at h
    cases h
    exact .inr rfl
  · obtain ⟨hxc, hyc⟩ := Nat.mul_ne_zero_iff.mp hzero
    rw [fix_negative h, (value_nonneg_iff.mp hx).resolve_right hxc,
      (value_nonneg_iff.mp hy).resolve_right hyc]
    exact .inl rfl

theorem add_amount {x y d : Decimal} (hx : Amount x) (hy : Amount y) (h : x.add y = .ok d) :
    Amount d := ⟨(add_plain hx.plain hy.plain h).1.nonneg, fix_held h⟩

theorem sum_amount {xs : List Decimal} {d : Decimal} (hx : ∀ x ∈ xs, Amount x)
    (h : Decimal.sum xs = .ok d) : Amount d := by
  have hzero : Amount zero := ⟨by simp, fix_held (s := false) (n := 0) (e := 0) rfl⟩
  unfold Decimal.sum at h
  generalize zero = start at hzero h
  induction xs generalizing start with
  | nil =>
    cases h
    exact hzero
  | cons x xs ih =>
    rw [List.foldlM_cons] at h
    obtain ⟨next, hnext, hrest⟩ := bind_eq_ok.mp h
    exact ih (fun y hy => hx y (by simp [hy])) next (add_amount hzero (hx x (by simp)) hnext) hrest

theorem sub_amounts {x y : Decimal} (hx : Amount x) (hy : Amount y) :
    ∃ d, x.sub y = .ok d ∧ Held d := by
  have hfits : ¬ TooLarge (x.value - y.value) := by
    have hxb := not_le.mp hx.held.fits
    have hyb := not_le.mp hy.held.fits
    rw [abs_of_nonneg hx.nonneg] at hxb
    rw [abs_of_nonneg hy.nonneg] at hyb
    refine not_le.mpr (abs_lt.mpr ⟨?_, ?_⟩)
    · linarith [hx.nonneg]
    · linarith [hy.nonneg]
  obtain ⟨d, hd⟩ := (failsOnly_sub x y).result (mt (sub_overflow_iff x y).mp hfits)
  exact ⟨d, hd, fix_held hd⟩

def Told (quoted cost : Except Signal Decimal) : Prop :=
  ∀ total spent margin, quoted = .ok total → cost = .ok spent → total.sub spent = .ok margin →
    Writable total margin

theorem figures_eq_ok {quoted cost : Except Signal Decimal} {f : Figures}
    (h : figures quoted cost = .ok f) : quoted = .ok f.total ∧ cost = .ok f.cost ∧
      f.total.sub f.cost = .ok f.margin ∧ percentOf f.total f.margin = .ok f.percent := by
  obtain ⟨total, hquoted, h⟩ := bind_eq_ok.mp h
  obtain ⟨spent, hcost, h⟩ := bind_eq_ok.mp h
  obtain ⟨margin, hmargin, h⟩ := bind_eq_ok.mp h
  obtain ⟨percent, hpercent, h⟩ := bind_eq_ok.mp h
  cases h
  exact ⟨hquoted, hcost, hmargin, hpercent⟩

/-- There are figures exactly if there are two amounts and the margin can be told in percent. -/
theorem figures_cases {quoted cost : Except Signal Decimal}
    (hquoted : ∀ d, quoted = .ok d → Amount d) (hcost : ∀ d, cost = .ok d → Amount d)
    (hquotedFails : FailsOnly .overflow quoted) (hcostFails : FailsOnly .overflow cost) :
    ((quoted ≠ .error .overflow ∧ cost ≠ .error .overflow ∧ Told quoted cost) ∧
      ∃ f, figures quoted cost = .ok f) ∨
    ¬ (quoted ≠ .error .overflow ∧ cost ≠ .error .overflow ∧ Told quoted cost) ∧
      ∃ s, figures quoted cost = .error s ∧ (s = .overflow ∨ s = .invalid) := by
  cases quoted with
  | error s =>
    obtain rfl := hquotedFails s rfl
    exact .inr ⟨fun h => h.1 rfl, .overflow, rfl, .inl rfl⟩
  | ok total =>
    cases cost with
    | error s =>
      obtain rfl := hcostFails s rfl
      exact .inr ⟨fun h => h.2.1 rfl, .overflow, rfl, .inl rfl⟩
    | ok spent =>
      obtain ⟨margin, hmargin, hheld⟩ := sub_amounts (hquoted total rfl) (hcost spent rfl)
      have htold : Told (.ok total) (.ok spent) ↔ Writable total margin := by
        constructor
        · exact fun h => h total spent margin rfl rfl hmargin
        · rintro hw total' spent' margin' ⟨⟩ ⟨⟩ hmargin'
          rwa [← Except.ok.inj (hmargin.symm.trans hmargin')]
      have hfigures : figures (.ok total) (.ok spent) =
          (percentOf total margin).map fun p => ⟨total, spent, margin, p⟩ := by
        simp only [figures, hmargin, bind, Except.bind]
        cases percentOf total margin <;> rfl
      rw [htold, hfigures]
      rcases percentOf_cases total hheld with ⟨hw, p, hp⟩ | ⟨hw, s, hs, hkind⟩
      · exact .inl ⟨⟨nofun, nofun, hw⟩, ⟨total, spent, margin, p⟩, by rw [hp]; rfl⟩
      · exact .inr ⟨fun h => hw h.2.2, s, by rw [hs]; rfl, hkind⟩

end Margin

namespace QuoteLine

def quoted (l : QuoteLine) : Except Signal Decimal := l.qty.mul l.unitPrice

def unitCost (catalog : CostCatalog) (l : QuoteLine) : Decimal :=
  (catalog.unitCost l.ipn).finite?.getD zero

def cost (catalog : CostCatalog) (l : QuoteLine) : Except Signal Decimal :=
  l.qty.mul (l.unitCost catalog)

/-- A line that passes its checks, and a catalog with a finite cost not below zero for it. -/
structure Priced (catalog : CostCatalog) (l : QuoteLine) : Prop where
  qty : 0 ≤ l.qty.value
  unitPrice : 0 ≤ l.unitPrice.value
  finite : catalog.unitCost l.ipn = .finite (l.unitCost catalog)
  unitCost : 0 ≤ (l.unitCost catalog).value

/-- A line can be costed if neither product is too large and the margin can be told in percent. -/
structure Costable (catalog : CostCatalog) (l : QuoteLine) : Prop where
  quoted : ¬ TooLarge (l.qty.value * l.unitPrice.value)
  cost : ¬ TooLarge (l.qty.value * (l.unitCost catalog).value)
  percent : Margin.Told l.quoted (l.cost catalog)

def costed (catalog : CostCatalog) (l : QuoteLine) (f : Margin.Figures) : LineCosting :=
  ⟨l.ipn, l.description, l.qty, l.unitPrice, l.unitCost catalog, catalog.knows l.ipn, f.total,
    f.cost, f.margin, f.percent, f.margin.isNegative⟩

theorem costing_figures {catalog : CostCatalog} {l : QuoteLine} (h : l.Priced catalog) :
    l.costing catalog =
      (Result.ofArithmetic (Margin.figures l.quoted (l.cost catalog))).map (l.costed catalog) := by
  unfold QuoteLine.costing cost costed quoted Margin.figures
  rw [h.finite]
  cases l.qty.mul l.unitPrice with
  | error s => rfl
  | ok total =>
    simp only [Number.mul_finite]
    cases l.qty.mul (l.unitCost catalog) with
    | error s => rfl
    | ok spent =>
      simp only [Except.map, Result.ofArithmetic, bind, Except.bind, Number.sub_finite]
      cases total.sub spent with
      | error s => rfl
      | ok margin =>
        simp only [Margin.percent_finite]
        cases Margin.percentOf total margin <;> rfl

theorem costing_cases {catalog : CostCatalog} {l : QuoteLine} (h : l.Priced catalog) :
    (l.Costable catalog ∧ ∃ f, Margin.figures l.quoted (l.cost catalog) = .ok f ∧
      l.costing catalog = .ok (l.costed catalog f)) ∨
    ¬ l.Costable catalog ∧ ∃ s, l.costing catalog = .error (.signal s) ∧
      (s = .overflow ∨ s = .invalid) := by
  have hcostable : l.Costable catalog ↔ l.quoted ≠ .error .overflow ∧
      l.cost catalog ≠ .error .overflow ∧ Margin.Told l.quoted (l.cost catalog) := by
    rw [ne_eq, ne_eq, quoted, cost, mul_overflow_iff, mul_overflow_iff]
    exact ⟨fun ⟨hq, hc, hp⟩ => ⟨hq, hc, hp⟩, fun ⟨hq, hc, hp⟩ => ⟨hq, hc, hp⟩⟩
  rw [hcostable, costing_figures h]
  rcases Margin.figures_cases (fun d => Margin.mul_amount h.qty h.unitPrice)
    (fun d => Margin.mul_amount h.qty h.unitCost) (failsOnly_mul _ _) (failsOnly_mul _ _) with
    ⟨hc, f, hf⟩ | ⟨hc, s, hs, hkind⟩
  · exact .inl ⟨hc, f, hf, by rw [quoted, cost, hf]; rfl⟩
  · exact .inr ⟨hc, s, by rw [quoted, cost, hs]; rfl, hkind⟩

end QuoteLine

namespace Quote

def totals (q : Quote) : Except Signal (List Decimal) := q.lines.mapM QuoteLine.quoted

def costs (catalog : CostCatalog) (q : Quote) : Except Signal (List Decimal) :=
  q.lines.mapM (QuoteLine.cost catalog)

/-- A quote can be costed if each line can be, the amounts of the lines can be summed up, and the
whole margin can be told in percent. -/
structure Costable (catalog : CostCatalog) (q : Quote) : Prop where
  lines : ∀ l ∈ q.lines, l.Costable catalog
  quoted : ∀ totals, q.totals = .ok totals → ¬ SumTooLarge totals
  cost : ∀ costs, q.costs catalog = .ok costs → ¬ SumTooLarge costs
  percent : ∀ totals costs, q.totals = .ok totals → q.costs catalog = .ok costs →
    Margin.Told (Decimal.sum totals) (Decimal.sum costs)

def summed (f : Margin.Figures) : QuoteTotals :=
  ⟨f.total, f.cost, f.margin, f.percent, f.margin.isNegative⟩

theorem ofLines_figures (lines : List LineCosting) :
    QuoteTotals.ofLines lines = (Result.ofArithmetic (Margin.figures
      (Decimal.sum (lines.map LineCosting.total))
      (Decimal.sum (lines.map LineCosting.cost)))).map summed := by
  unfold QuoteTotals.ofLines Margin.figures
  cases Decimal.sum (lines.map LineCosting.total) with
  | error s => rfl
  | ok total =>
    cases Decimal.sum (lines.map LineCosting.cost) with
    | error s => rfl
    | ok spent =>
      simp only [Except.map, Result.ofArithmetic, bind, Except.bind]
      cases total.sub spent with
      | error s => rfl
      | ok margin =>
        simp only [Margin.percent_finite]
        cases Margin.percentOf total margin <;> rfl

theorem noteLines_result (q : Quote) (what : String) (lines : List LineCosting) :
    (q.noteLines what lines).result = .ok () := by
  unfold noteLines
  split <;> rfl

theorem costing_result (catalog : CostCatalog) (q : Quote) :
    (q.costing catalog).result = do
      let lines ← q.lines.mapM (QuoteLine.costing catalog)
      let totals ← QuoteTotals.ofLines lines
      return (lines, totals) := by
  simp only [costing, Noted.result_bind, Noted.result_ofResult, noteLines_result,
    Noted.result_pure]
  rfl

def CostedEach (catalog : CostCatalog) : List QuoteLine → List LineCosting → Prop :=
  List.Forall₂ fun l c => ∃ f, Margin.figures l.quoted (l.cost catalog) = .ok f ∧
    c = l.costed catalog f

/-- Costed lines have their figures, and the totals have those of the whole. -/
structure CostedAs (catalog : CostCatalog) (q : Quote) (lines : List LineCosting)
    (totals : QuoteTotals) : Prop where
  each : CostedEach catalog q.lines lines
  whole : ∃ f, Margin.figures (Decimal.sum (lines.map LineCosting.total))
    (Decimal.sum (lines.map LineCosting.cost)) = .ok f ∧ totals = summed f

section Costed

variable {catalog : CostCatalog} {q : Quote} {lines : List LineCosting}

theorem amounts_of_costed (h : CostedEach catalog q.lines lines) :
    q.totals = .ok (lines.map LineCosting.total) ∧
      q.costs catalog = .ok (lines.map LineCosting.cost) := by
  rw [totals, costs, mapM_ok_iff, mapM_ok_iff, List.forall₂_map_right_iff,
    List.forall₂_map_right_iff]
  constructor
  · refine h.imp ?_
    rintro l _ ⟨f, hf, rfl⟩
    exact (Margin.figures_eq_ok hf).1
  · refine h.imp ?_
    rintro l _ ⟨f, hf, rfl⟩
    exact (Margin.figures_eq_ok hf).2.1

theorem amount_of_costed (hq : ∀ l ∈ q.lines, l.Priced catalog)
    (h : CostedEach catalog q.lines lines) {c : LineCosting} (hc : c ∈ lines) :
    Margin.Amount c.total ∧ Margin.Amount c.cost := by
  obtain ⟨l, hl, f, hf, rfl⟩ := mem_right ((List.forall₂_and_left _ _).mpr ⟨hq, h⟩) hc
  obtain ⟨hquoted, hcost, -, -⟩ := Margin.figures_eq_ok hf
  exact ⟨Margin.mul_amount hl.qty hl.unitPrice hquoted, Margin.mul_amount hl.qty hl.unitCost hcost⟩

theorem costable_iff (hlines : ∀ l ∈ q.lines, l.Costable catalog)
    (h : CostedEach catalog q.lines lines) :
    q.Costable catalog ↔
      Decimal.sum (lines.map LineCosting.total) ≠ .error .overflow ∧
      Decimal.sum (lines.map LineCosting.cost) ≠ .error .overflow ∧
      Margin.Told (Decimal.sum (lines.map LineCosting.total))
        (Decimal.sum (lines.map LineCosting.cost)) := by
  obtain ⟨htotals, hcosts⟩ := amounts_of_costed h
  rw [ne_eq, ne_eq, sum_overflow_iff, sum_overflow_iff]
  constructor
  · exact fun h => ⟨h.quoted _ htotals, h.cost _ hcosts, h.percent _ _ htotals hcosts⟩
  · rintro ⟨hquoted, hcost, hpercent⟩
    refine ⟨hlines, ?_, ?_, ?_⟩
    · intro totals h
      cases htotals.symm.trans h
      exact hquoted
    · intro costs h
      cases hcosts.symm.trans h
      exact hcost
    · intro totals costs h h'
      cases htotals.symm.trans h
      cases hcosts.symm.trans h'
      exact hpercent

theorem lines_cases (hq : ∀ l ∈ q.lines, l.Priced catalog) :
    ((∀ l ∈ q.lines, l.Costable catalog) ∧ ∃ lines,
      q.lines.mapM (QuoteLine.costing catalog) = .ok lines ∧ CostedEach catalog q.lines lines) ∨
    ¬ (∀ l ∈ q.lines, l.Costable catalog) ∧ ∃ s,
      q.lines.mapM (QuoteLine.costing catalog) = .error (.signal s) ∧
      (s = .overflow ∨ s = .invalid) := by
  cases hlines : q.lines.mapM (QuoteLine.costing catalog) with
  | error e =>
    obtain ⟨before, l, after, hsplit, -, hl⟩ := mapM_eq_error hlines
    have hmem : l ∈ q.lines := by simp [hsplit]
    rcases QuoteLine.costing_cases (hq l hmem) with ⟨-, f, -, hf⟩ | ⟨hno, s, hs, hkind⟩
    · cases hl.symm.trans hf
    · cases hl.symm.trans hs
      exact .inr ⟨fun h => hno (h l hmem), s, rfl, hkind⟩
  | ok lines =>
    refine .inl ((List.forall₂_and_left _ _).mp ?_ |>.imp_right fun h => ⟨lines, rfl, h⟩)
    refine ((List.forall₂_and_left _ _).mpr ⟨hq, mapM_ok_iff.mp hlines⟩).imp ?_
    rintro l c ⟨hpriced, hc⟩
    rcases QuoteLine.costing_cases hpriced with ⟨hcostable, f, hf, hcosting⟩ | ⟨-, s, hs, -⟩
    · exact ⟨hcostable, f, hf, Except.ok.inj (hc.symm.trans hcosting)⟩
    · cases hc.symm.trans hs

/-- With finite prices and costs not below zero, a quote is costed line by line and as a whole
exactly if no amount is too large and each margin can be told in percent with 28 digits; otherwise
arithmetic stops it. A total of zero and a margin not below zero are no obstacle in themselves, but
a loss out of proportion to what is quoted is one. -/
theorem costing_decided (hq : ∀ l ∈ q.lines, l.Priced catalog) :
    ((q.Costable catalog ∧ ∃ lines totals, (q.costing catalog).result = .ok (lines, totals) ∧
        q.CostedAs catalog lines totals) ∨
      ¬ q.Costable catalog ∧ ∃ s, (q.costing catalog).result = .error (.signal s) ∧
        (s = .overflow ∨ s = .invalid)) ∧
    ∀ total margin : Decimal, (total.value ≤ 0 ∨ (0 ≤ margin.value ∧
      margin.value ≤ total.value ∧ ¬ TooLarge (100 * margin.value))) →
        Margin.Writable total margin := by
  refine ⟨?_, fun _ _ => Margin.writable_of_covered⟩
  rw [costing_result]
  rcases lines_cases hq with ⟨hlines, lines, hcosting, heach⟩ | ⟨hno, s, hs, hkind⟩
  · rw [hcosting, costable_iff hlines heach]
    change _ ∧ (∃ lines' totals, (QuoteTotals.ofLines lines).map (lines, ·) =
      .ok (lines', totals) ∧ _) ∨ _ ∧ ∃ s, (QuoteTotals.ofLines lines).map (lines, ·) = _ ∧ _
    rw [ofLines_figures]
    have htotal : ∀ d ∈ lines.map LineCosting.total, Margin.Amount d :=
      List.forall_mem_map.mpr fun c hc => (amount_of_costed hq heach hc).1
    have hcost : ∀ d ∈ lines.map LineCosting.cost, Margin.Amount d :=
      List.forall_mem_map.mpr fun c hc => (amount_of_costed hq heach hc).2
    rcases Margin.figures_cases (fun d => Margin.sum_amount htotal)
      (fun d => Margin.sum_amount hcost) (failsOnly_sum _) (failsOnly_sum _) with
      ⟨hc, f, hf⟩ | ⟨hc, s, hs, hkind⟩
    · exact .inl ⟨hc, lines, summed f, by rw [hf]; rfl, heach, f, hf, rfl⟩
    · exact .inr ⟨hc, s, by rw [hs]; rfl, hkind⟩
  · exact .inr ⟨fun h => hno h.lines, s, by rw [hs]; rfl, hkind⟩

end Costed

def benchQuote (unitPrice : Decimal) : Quote :=
  ⟨"Q-1", "", "draft", "", none, none, none, [⟨none, "R-1", "", Decimal.one, unitPrice, ""⟩]⟩

def benchCosts : CostCatalog := ⟨[("R-1", .finite Decimal.one)]⟩

theorem benchQuote_priced {unitPrice : Decimal} (h : 0 ≤ unitPrice.value) :
    ∀ l ∈ (benchQuote unitPrice).lines, l.Priced benchCosts := by
  have hcost : benchCosts.unitCost "R-1" = .finite Decimal.one := by decide
  refine List.forall_mem_singleton.mpr ⟨value_one.ge.trans' zero_le_one, h, ?_, ?_⟩
  · rw [QuoteLine.unitCost, hcost]
    rfl
  · rw [QuoteLine.unitCost, hcost]
    exact value_one.ge.trans' zero_le_one

theorem costing_decided_bench : (benchQuote ⟨false, 75, -2⟩).Costable benchCosts ∧
    ∃ lines totals, ((benchQuote ⟨false, 75, -2⟩).costing benchCosts).result = .ok (lines, totals) ∧
      totals.marginPercent = ⟨true, 3333, -2⟩ := by
  have hprice : 0 ≤ (Decimal.mk false 75 (-2)).value := by norm_num [value, signed]
  have hpercent : ((benchQuote ⟨false, 75, -2⟩).costing benchCosts).result.map
      (fun r => r.2.marginPercent) = .ok ⟨true, 3333, -2⟩ := by decide +kernel
  obtain ⟨⟨lines, totals⟩, hr, hp⟩ := map_eq_ok.mp hpercent
  rcases (costing_decided (benchQuote_priced hprice)).1 with ⟨hc, -⟩ | ⟨-, s, hs, -⟩
  · exact ⟨hc, lines, totals, hr, hp⟩
  · cases hr.symm.trans hs

/-- A quote that passes its checks, with a screw that is all but given away, and a catalog with a
finite cost above zero: there is something quoted, and nothing is costed. -/
theorem costing_blocked :
    Result.ofVerdict "Quote" (Record.check (benchQuote ⟨false, 1, -30⟩).shown) =
      .ok (benchQuote ⟨false, 1, -30⟩) ∧
    (∀ l ∈ (benchQuote ⟨false, 1, -30⟩).lines, l.Priced benchCosts) ∧
    ((benchQuote ⟨false, 1, -30⟩).costing benchCosts).result.map Prod.snd =
      .error (.signal .invalid) := by
  refine ⟨by decide +kernel, benchQuote_priced ?_, by decide +kernel⟩
  norm_num [value, signed]

end Quote
end BomEngine
