import BomEngine.Cost.Rollup
import BomEngine.Proofs.Bom.Explosion
import BomEngine.Proofs.Decimal.Exact

/-!
# The rolled up cost of a tree

A rollup adds up the purchased components of a flat list, with quantities already
multiplied. In exact arithmetic it comes to the unit cost of the tree, computed
from the leaves upwards, times the quantity of the root and the number built; the
division by that number takes the last factor off again.
-/

set_option autoImplicit false

namespace BomEngine
open Decimal (Representable)

namespace CostCatalog

def price (catalog : CostCatalog) (ipn : String) : ℚ := (catalog.unitCost ipn).value

def costOf (catalog : CostCatalog) (n : ExplodedNode) : ℚ :=
  n.qtyRequired.value * catalog.price n.ipn

/-- A rollup in which nothing is rounded: all costs that are asked for are finite, and
the products and partial sums have few enough digits. -/
structure RollsUpExactly (catalog : CostCatalog) (nodes : List ExplodedNode) : Prop where
  finite : ∀ n ∈ nodes.filter ExplodedNode.isPurchased, ∃ d, catalog.unitCost n.ipn = .finite d
  products : ∀ n ∈ nodes.filter ExplodedNode.isPurchased, Representable (catalog.costOf n)
  sums : ∀ before, before <+: nodes.filter ExplodedNode.isPurchased →
    Representable (before.map catalog.costOf).sum

end CostCatalog

theorem rollUp_from (catalog : CostCatalog) : ∀ (before rest : List ExplodedNode)
    (total : Decimal), total.value = (before.map catalog.costOf).sum →
    (∀ n ∈ rest, ∃ d, catalog.unitCost n.ipn = .finite d) →
    (∀ n ∈ rest, Representable (catalog.costOf n)) →
    (∀ part, part <+: rest → Representable ((before ++ part).map catalog.costOf).sum) →
    ∃ d, rest.foldlM (fun total n => do
        total.add (← (Number.finite n.qtyRequired).mul (catalog.unitCost n.ipn)))
      (Number.finite total) = .ok (.finite d) ∧
      d.value = ((before ++ rest).map catalog.costOf).sum
  | before, [], total, ht, _, _, _ => ⟨total, rfl, by simpa using ht⟩
  | before, n :: rest, total, ht, hfin, hprod, hsum => by
    obtain ⟨cost, hcost⟩ := hfin n (by simp)
    have hc : catalog.costOf n = n.qtyRequired.value * cost.value := by
      rw [CostCatalog.costOf, CostCatalog.price, hcost]
      rfl
    obtain ⟨product, hp, hpv⟩ := n.qtyRequired.mul_exact cost (hc ▸ hprod n (by simp))
    have hnext : total.value + product.value = ((before ++ [n]).map catalog.costOf).sum := by
      rw [ht, hpv, ← hc]
      simp
    obtain ⟨next, hn, hnv⟩ := total.add_exact product
      (hnext ▸ hsum [n] (List.prefix_append [n] rest))
    have hrest := rollUp_from catalog (before ++ [n]) rest next (hnv.trans hnext)
      (fun m hm => hfin m (by simp [hm])) (fun m hm => hprod m (by simp [hm]))
      (fun part hpart => by
        have := hsum (n :: part) ((List.prefix_cons_inj n).mpr hpart)
        simpa using this)
    obtain ⟨d, hd, hdv⟩ := hrest
    refine ⟨d, ?_, by simpa using hdv⟩
    rw [List.foldlM_cons, hcost, Number.mul_finite, hp, ← hd]
    simp only [Except.map, bind, Except.bind, Number.add_finite, hn]

theorem rollUp_exact {catalog : CostCatalog} {nodes : List ExplodedNode}
    (h : catalog.RollsUpExactly nodes) :
    ∃ d, rollUp catalog nodes = .ok (.finite d) ∧
      d.value = ((nodes.filter ExplodedNode.isPurchased).map catalog.costOf).sum := by
  have := rollUp_from catalog [] (nodes.filter ExplodedNode.isPurchased) Decimal.zero
    (by simp) h.finite h.products (fun part hp => by simpa using h.sums part hp)
  simpa [rollUp] using this

namespace BomNode

mutual

/-- The cost of one unit: the price of a leaf, or the sum over the children of their quantities
times their unit costs. -/
def unitCost (price : String → ℚ) : BomNode → ℚ
  | mk ipn _ _ _ children => if children.isEmpty then price ipn else costEach price children

def costEach (price : String → ℚ) : List BomNode → ℚ
  | [] => 0
  | c :: rest => c.qty.value * unitCost price c + costEach price rest

end

def share (route : List BomNode) : ℚ := (route.map fun n => n.qty.value).prod

end BomNode

namespace Explosion
open BomNode

theorem requirement_exact {place : Place} {needed qty required : Decimal}
    (hp : place.needed = .finite needed) (h : requirement place qty = .ok required)
    (hr : Representable (needed.value * qty.value)) : required.value = needed.value * qty.value := by
  obtain ⟨position, path, _⟩ := place
  obtain rfl := hp
  obtain ⟨d, hd, hv⟩ := needed.mul_exact qty hr
  rw [requirement_finite, hd] at h
  cases h
  exact hv

mutual

theorem walk_leafCost (limit : ℤ) (catalog : CostCatalog) : ∀ (n : BomNode) (place : Place)
    (needed : Decimal) (nodes : List ExplodedNode), place.needed = .finite needed →
    (∀ o ∈ n.occurrences, Representable (needed.value * share o.route)) →
    walk limit place n = .ok nodes →
    ((nodes.filter ExplodedNode.isLeaf).map catalog.costOf).sum =
      needed.value * (n.qty.value * n.unitCost catalog.price)
  | .mk ipn description qty ref children, place, needed, nodes, hp, hexact, h => by
    obtain ⟨required, below, hreq, hbelow, rfl⟩ := walk_ok h
    have hself : Representable (needed.value * qty.value) := by
      have := hexact ⟨[], [], .mk ipn description qty ref children⟩ (by simp [occurrences])
      simpa [Occurrence.route, share, BomNode.qty] using this
    have hv := requirement_exact hp hreq hself
    have hcost := walkEach_leafCost limit catalog children
      (.mk ipn description qty ref children) _ needed required 0 below (fun _ => rfl)
      hv (fun o ho => hexact o (by rw [occurrences]; exact List.mem_cons_of_mem _ ho)) hbelow
    rw [unitCost]
    cases children with
    | nil =>
      obtain rfl : [] = below := by simpa [BomNode.children, walkEach] using hbelow
      have hleaf : (entry place (.mk ipn description qty ref []) required).isLeaf = true := rfl
      rw [List.filter_cons_of_pos hleaf]
      simp [CostCatalog.costOf, entry, BomNode.ipn, BomNode.qty, hv, mul_assoc]
    | cons c rest =>
      have hleaf : ¬ (entry place (.mk ipn description qty ref (c :: rest)) required).isLeaf =
          true := by simp [entry, BomNode.isLeaf, BomNode.children]
      rw [List.filter_cons_of_neg hleaf, hcost]
      simp [hv, BomNode.qty, mul_assoc]

theorem walkEach_leafCost (limit : ℤ) (catalog : CostCatalog) : ∀ (ns : List BomNode)
    (parent : BomNode) (place : ℕ → Place) (needed required : Decimal) (i : ℕ)
    (nodes : List ExplodedNode), (∀ j, (place j).needed = .finite required) →
    required.value = needed.value * parent.qty.value →
    (∀ o ∈ occurrencesEach parent i ns, Representable (needed.value * share o.route)) →
    walkEach limit place i ns = .ok nodes →
    ((nodes.filter ExplodedNode.isLeaf).map catalog.costOf).sum =
      required.value * costEach catalog.price ns
  | [], parent, place, needed, required, i, nodes, _, _, _, h => by
    obtain rfl : [] = nodes := by simpa [walkEach] using h
    simp [costEach]
  | n :: rest, parent, place, needed, required, i, nodes, hp, hv, hexact, h => by
    obtain ⟨first, others, hf, ho, rfl⟩ := walkEach_cons_ok h
    have hfirst := walk_leafCost limit catalog n (place i) required first (hp i)
      (fun o hm => by
        have := hexact (o.under parent i)
          (by rw [occurrencesEach]; exact List.mem_append_left _ (List.mem_map_of_mem hm))
        rw [Occurrence.route_under, share, List.map_cons, List.prod_cons] at this
        rw [hv, mul_assoc]
        exact this) hf
    have hothers := walkEach_leafCost limit catalog rest parent place needed required (i + 1)
      others hp hv
      (fun o hm => hexact o (by rw [occurrencesEach]; exact List.mem_append_right _ hm)) ho
    rw [List.filter_append, List.map_append, List.sum_append, hfirst, hothers, costEach]
    ring

end

/-- The components of an accepted tree cost what its children cost, for the quantity of the
root and the number built. -/
theorem explode_componentCost {limit : ℤ} {buildQty : Decimal} {root : BomNode}
    {nodes : List ExplodedNode} (h : explode limit (.finite buildQty) root = .ok nodes)
    (hexact : ∀ o ∈ root.occurrences, Representable (buildQty.value * share o.route))
    (catalog : CostCatalog) :
    ((nodes.filter ExplodedNode.isPurchased).map catalog.costOf).sum =
      buildQty.value * root.qty.value * costEach catalog.price root.children := by
  obtain ⟨required, below, hreq, hbelow, rfl⟩ := walk_ok h
  have hself := hexact ⟨[], [], root⟩ (by rw [occurrences_cons]; exact List.mem_cons_self)
  have hv := requirement_exact rfl hreq (by simpa [Occurrence.route, share] using hself)
  have hroot : ¬ (entry ⟨[], [], .finite buildQty⟩ root required).isPurchased = true := by
    simp [ExplodedNode.isPurchased, entry]
  have hleaf : below.filter ExplodedNode.isPurchased = below.filter ExplodedNode.isLeaf := by
    apply List.filter_congr
    intro m hm
    obtain ⟨j, -, hj, hd⟩ := walkEach_below limit root.children _ 0 below hbelow m hm
    have hlen := hj.length_le
    have hdepth : m.depth ≠ 0 := by
      simp [Place.child] at hlen
      omega
    simp [ExplodedNode.isPurchased, hdepth]
  have hcost := walkEach_leafCost limit catalog root.children root _ buildQty required 0 below
    (fun _ => rfl) hv
    (fun o ho => hexact o (by rw [occurrences_cons]; exact List.mem_cons_of_mem _ ho)) hbelow
  rw [List.filter_cons_of_neg hroot, hleaf, hcost, hv]

end Explosion

namespace BomNode

theorem unitCost_of_children {n : BomNode} (h : n.children ≠ []) (price : String → ℚ) :
    n.unitCost price = costEach price n.children := by
  obtain ⟨ipn, description, qty, ref, children⟩ := n
  have hc : children.isEmpty = false := by simpa [BomNode.children] using h
  rw [unitCost, hc]
  rfl

end BomNode

theorem rollUp_congr {catalog other : CostCatalog} {nodes : List ExplodedNode}
    (h : ∀ n ∈ nodes, n.isPurchased = true → other.unitCost n.ipn = catalog.unitCost n.ipn) :
    rollUp other nodes = rollUp catalog nodes := by
  unfold rollUp
  apply Traversal.foldlM_congr
  intro total n hn
  obtain ⟨hmem, hp⟩ := List.mem_filter.mp hn
  rw [h n hmem hp]

namespace CostSummary

theorem rolledUp_resolved {resolution : BomResolution} {catalog : CostCatalog}
    (hok : resolution.isOk = true) (hsize : catalog.size ≠ 0) :
    rolledUp (some resolution) (some catalog) = do
      return some (← perUnit (← rollUp catalog resolution.nodes) resolution.buildQty) := by
  have hc : (resolution.isOk && catalog.size != 0) = true := by simp [hok, hsize]
  rw [rolledUp, if_pos hc]

theorem summarize_rolledUp {resolution : Option BomResolution} {catalog : Option CostCatalog}
    {d : Decimal} (h : rolledUp resolution catalog = .ok (some (.finite d))) (ipn : String)
    (entry : Option CostEntry) :
    (summarize ipn entry resolution catalog).result = .ok (some {
      ipn := ipn
      lastUnitPrice := entry.bind CostEntry.lastUnitPrice
      lastOrder := entry.bind CostEntry.lastOrder
      lastOrderedDate := entry.bind CostEntry.lastOrderedDate
      bomCost := some d
      bomCostSource := some "rollup"
      showBomCost := d.isPositive }) := by
  unfold summarize
  rw [Noted.result_bind, Noted.result_ofResult, h]
  simp only [Result.ofArithmetic, bind, Except.bind]
  cases differenceRecord? ipn (some (.finite d)) entry <;> cases entry <;> rfl

theorem perUnit_exact {total buildQty : Decimal} (hq : 0 < buildQty.value)
    (h : Representable (total.value / buildQty.value)) :
    ∃ d, perUnit (.finite total) buildQty = .ok (.finite d) ∧
      d.value = total.value / buildQty.value := by
  obtain ⟨d, hd, hv⟩ := total.div_exact buildQty hq.ne' h
  refine ⟨d, ?_, hv⟩
  rw [perUnit, if_pos ((Decimal.isPositive_iff buildQty).mpr hq), Number.div_finite, hd]
  rfl

end CostSummary

namespace Explosion
open BomNode

/-- Costing a tree for a number of units without rounding anything. -/
structure CostsExactly (catalog : CostCatalog) (buildQty : Decimal) (root : BomNode)
    (nodes : List ExplodedNode) : Prop where
  quantities : ∀ o ∈ root.occurrences, Representable (buildQty.value * share o.route)
  rollup : catalog.RollsUpExactly nodes
  perUnit : Representable
    (((nodes.filter ExplodedNode.isPurchased).map catalog.costOf).sum / buildQty.value)

/-- The rolled up cost of an accepted tree is its unit cost from the leaves upwards, times the
quantity of its root and the number built, and the cost reported for one does not depend on that
number. Only prices of purchased components count. -/
theorem rollUp_unitCost (limit : ℤ) (buildQty : Decimal) (root : BomNode)
    (nodes : List ExplodedNode) (catalog : CostCatalog)
    (h : explode limit (.finite buildQty) root = .ok nodes) :
    (root.children ≠ [] → 0 < buildQty.value → CostsExactly catalog buildQty root nodes →
      (∃ total, rollUp catalog nodes = .ok (.finite total) ∧
        total.value = buildQty.value * root.qty.value * root.unitCost catalog.price) ∧
      (catalog.size ≠ 0 → ∀ (rootIpn ipn : String) (entry : Option CostEntry),
        ∃ s cost, (CostSummary.summarize ipn entry
            (some ⟨rootIpn, buildQty, some root, nodes, none⟩) (some catalog)).result =
              .ok (some s) ∧
          s.bomCost = some cost ∧ s.bomCostSource = some "rollup" ∧
          cost.value = root.qty.value * root.unitCost catalog.price)) ∧
    (∀ other : CostCatalog,
      (∀ n ∈ nodes, n.isPurchased = true → other.unitCost n.ipn = catalog.unitCost n.ipn) →
      rollUp other nodes = rollUp catalog nodes ∧
      (catalog.size ≠ 0 → other.size ≠ 0 → ∀ (rootIpn ipn : String) (entry : Option CostEntry),
        CostSummary.summarize ipn entry
            (some ⟨rootIpn, buildQty, some root, nodes, none⟩) (some other) =
          CostSummary.summarize ipn entry
            (some ⟨rootIpn, buildQty, some root, nodes, none⟩) (some catalog))) ∧
    (root.children = [] → rollUp catalog nodes = .ok (.finite Decimal.zero)) := by
  refine ⟨fun hchildren hq hexact => ?_, fun other hother => ?_, fun hleaf => ?_⟩
  · have hsum := explode_componentCost h hexact.quantities catalog
    rw [← unitCost_of_children hchildren] at hsum
    obtain ⟨total, htotal, hv⟩ := rollUp_exact hexact.rollup
    refine ⟨⟨total, htotal, hv.trans hsum⟩, fun hsize rootIpn ipn entry => ?_⟩
    obtain ⟨cost, hcost, hcv⟩ := CostSummary.perUnit_exact hq (hv ▸ hexact.perUnit)
    have hrolled : CostSummary.rolledUp (some ⟨rootIpn, buildQty, some root, nodes, none⟩)
        (some catalog) = .ok (some (.finite cost)) := by
      rw [CostSummary.rolledUp_resolved rfl hsize, htotal]
      simp only [bind, Except.bind, hcost]
      rfl
    refine ⟨_, cost, CostSummary.summarize_rolledUp hrolled ipn entry, rfl, rfl, ?_⟩
    rw [hcv, hv, hsum]
    field_simp
  · have hroll := rollUp_congr hother
    refine ⟨hroll, fun hsize hsize' rootIpn ipn entry => ?_⟩
    rw [CostSummary.summarize, CostSummary.summarize, CostSummary.rolledUp_resolved rfl hsize,
      CostSummary.rolledUp_resolved rfl hsize', hroll]
  · obtain ⟨required, below, -, hbelow, rfl⟩ := walk_ok h
    obtain rfl : [] = below := by simpa [hleaf, walkEach] using hbelow
    rfl

def fixturePrices : CostCatalog :=
  ⟨[("PCA-1", .finite ⟨false, 99, 0⟩), ("R-1", .finite ⟨false, 25, -2⟩),
    ("SCR-1", .finite ⟨false, 2, 0⟩)]⟩

theorem fixture_price_resistor : fixturePrices.price "R-1" = 1 / 4 := by
  have h : fixturePrices.unitCost "R-1" = .finite ⟨false, 25, -2⟩ := by decide
  rw [CostCatalog.price, h]
  norm_num [Number.value, Decimal.value, Decimal.signed]

theorem fixture_price_screw : fixturePrices.price "SCR-1" = 2 := by
  have h : fixturePrices.unitCost "SCR-1" = .finite ⟨false, 2, 0⟩ := by decide
  rw [CostCatalog.price, h]
  norm_num [Number.value, Decimal.value, Decimal.signed]

theorem fixture_purchased : fixtureNodes.filter ExplodedNode.isPurchased =
    [⟨["ASY-1", "PCA-1", "R-1"], [0, 0], "R-1", "", none, 2, ⟨false, 4, 0⟩, ⟨false, 120, 0⟩, true⟩,
      ⟨["ASY-1", "SCR-1"], [1], "SCR-1", "", none, 1, ⟨false, 5, -1⟩, ⟨false, 50, -1⟩, true⟩] := by
  decide

theorem fixture_costs :
    (fixtureNodes.filter ExplodedNode.isPurchased).map fixturePrices.costOf = [30, 10] := by
  rw [fixture_purchased]
  norm_num [CostCatalog.costOf, fixture_price_resistor, fixture_price_screw, Decimal.value,
    Decimal.signed]

theorem fixture_quantities :
    fixture.occurrences.map (fun o => (Decimal.mk false 5 0).value * share o.route) =
      [10, 30, 120, 5] := by
  simp only [fixture, occurrences, occurrencesEach]
  norm_num [Occurrence.route, Occurrence.under, share, BomNode.qty, Decimal.value, Decimal.signed]

theorem fixture_costsExactly : CostsExactly fixturePrices ⟨false, 5, 0⟩ fixture fixtureNodes := by
  have h (n : ℕ) (hn : n < 10 ^ Decimal.precision) : Representable (n : ℚ) :=
    Decimal.representable_natCast hn
  have hquantities : ∀ q ∈ ([10, 30, 120, 5] : List ℚ), Representable q := by
    simp only [List.mem_cons, List.not_mem_nil, or_false, forall_eq_or_imp, forall_eq]
    exact ⟨h 10 (by decide), h 30 (by decide), h 120 (by decide), h 5 (by decide)⟩
  have hcosts : ∀ q ∈ ([30, 10] : List ℚ), Representable q := by
    simp only [List.mem_cons, List.not_mem_nil, or_false, forall_eq_or_imp, forall_eq]
    exact ⟨h 30 (by decide), h 10 (by decide)⟩
  refine ⟨fun o ho => ?_, ⟨?_, fun n hn => ?_, fun before hb => ?_⟩, ?_⟩
  · exact hquantities _ (fixture_quantities ▸ List.mem_map_of_mem ho)
  · rw [fixture_purchased]
    simp only [List.mem_cons, List.not_mem_nil, or_false, forall_eq_or_imp, forall_eq]
    exact ⟨⟨⟨false, 25, -2⟩, by decide⟩, ⟨⟨false, 2, 0⟩, by decide⟩⟩
  · exact hcosts _ (fixture_costs ▸ List.mem_map_of_mem hn)
  · have hp : before.map fixturePrices.costOf ∈ ([30, 10] : List ℚ).inits := by
      rw [List.mem_inits, ← fixture_costs]
      exact hb.map _
    have hsum : ([30, 10] : List ℚ).sum = (40 : ℕ) := by norm_num
    simp only [List.inits, List.map_cons, List.map_nil, List.mem_cons, List.not_mem_nil,
      or_false] at hp
    rcases hp with hp | hp | hp <;> rw [hp]
    · exact h 0 (by decide)
    · simpa using h 30 (by decide)
    · rw [hsum]
      exact h 40 (by decide)
  · have hone : ([30, 10] : List ℚ).sum / (Decimal.mk false 5 0).value = (8 : ℕ) := by
      norm_num [Decimal.value, Decimal.signed]
    rw [fixture_costs, hone]
    exact h 8 (by decide)

theorem rollUp_unitCost_fixture :
    explode 20 (.finite ⟨false, 5, 0⟩) fixture = .ok fixtureNodes ∧
    ∃ total, rollUp fixturePrices fixtureNodes = .ok (.finite total) ∧ total.value = 40 := by
  have h := explode_fixture
  have hunit : fixture.unitCost fixturePrices.price = 4 := by
    norm_num [fixture, unitCost, costEach, fixture_price_resistor, fixture_price_screw,
      BomNode.qty, Decimal.value, Decimal.signed]
  obtain ⟨⟨total, htotal, hv⟩, -⟩ := (rollUp_unitCost 20 _ fixture _ fixturePrices h).1 (by decide)
    (by norm_num [Decimal.value, Decimal.signed]) fixture_costsExactly
  refine ⟨h, total, htotal, ?_⟩
  rw [hv, hunit]
  norm_num [fixture, BomNode.qty, Decimal.value, Decimal.signed]

end Explosion
end BomEngine
