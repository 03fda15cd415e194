import BomEngine.Proofs.Bom.Scaling
import BomEngine.Proofs.Shortage.Netting

/-!
# More units, less stock, no smaller shortages

A tree is exploded and netted twice, the second time for no fewer units and against no more stock.
Line by line the second run is at least as short as the first. Rounding is part of it: products
along the routes, sums over the nodes of one part and the difference to the stock are each rounded
to 28 digits, and rounding to the nearest keeps the order.
-/

set_option autoImplicit false

namespace BomEngine

/-- At most as large; what is no number is not compared. -/
def Number.AtMost (x y : Number) : Prop := ∃ o, x.cmp y = .ok o ∧ o ≠ .gt

theorem Number.atMost_finite {x y : Decimal} :
    (Number.finite x).AtMost (.finite y) ↔ x.value ≤ y.value := by
  have hcmp : (Number.finite x).cmp (.finite y) = .ok (compare x.value y.value) :=
    congrArg Except.ok (Decimal.cmp_value x y)
  rw [Number.AtMost, hcmp]
  refine ⟨fun ⟨o, ho, hne⟩ => ?_, fun h => ⟨_, rfl, ?_⟩⟩
  · cases ho
    rwa [ne_eq, compare_gt_iff_gt, not_lt] at hne
  · rwa [ne_eq, compare_gt_iff_gt, not_lt]

theorem Number.finite_of_atMost {x : Number} {y : Decimal} (hpos : x.isPositive = .ok true)
    (hle : x.AtMost (.finite y)) : ∃ d, x = .finite d := by
  cases x with
  | finite d => exact ⟨d, rfl⟩
  | infinite negative =>
    cases negative with
    | true => cases hpos
    | false =>
      obtain ⟨o, ho, hne⟩ := hle
      cases ho
      exact absurd rfl hne
  | nan negative signaling payload => cases hpos

/-- One stock is nowhere larger than another; what is missing counts as zero. -/
def Stock.AtMost (stock stock' : Stock) : Prop :=
  ∀ ipn n n', stock.onHand ipn = .ok n → stock'.onHand ipn = .ok n' → n.AtMost n'

structure Requirement.Scaled (r r' : Requirement) : Prop where
  ipn : r'.ipn = r.ipn
  description : r'.description = r.description
  nonneg : 0 ≤ r.qty.value
  le : r.qty.value ≤ r'.qty.value

namespace Requirement

theorem collect_scaled {n n' : ExplodedNode} (hn : n.Scaled n') {rs rs' ts ts' : List Requirement}
    (hrs : List.Forall₂ Scaled rs rs') (h : collect n rs = .ok ts) (h' : collect n' rs' = .ok ts') :
    List.Forall₂ Scaled ts ts' := by
  have hipn : n'.ipn = n.ipn := by rw [hn.same]
  have hdescription : n'.description = n.description := by rw [hn.same]
  induction hrs generalizing ts ts' with
  | nil =>
    obtain ⟨d, hd, ht⟩ := Traversal.bind_eq_ok.mp h
    obtain ⟨d', hd', ht'⟩ := Traversal.bind_eq_ok.mp h'
    cases ht
    cases ht'
    refine .cons ⟨hipn, hdescription, ?_, ?_⟩ .nil
    · exact Decimal.value_add_nonneg (by simp) hn.nonneg hd
    · exact Decimal.value_add_mono le_rfl hn.le hd hd'
  | @cons r r' rs rs' hr hrest ih =>
    rw [collect] at h h'
    rw [hr.ipn, hipn] at h'
    by_cases hfound : r.ipn = n.ipn
    · rw [if_pos hfound] at h h'
      obtain ⟨d, hd, ht⟩ := Traversal.bind_eq_ok.mp h
      obtain ⟨d', hd', ht'⟩ := Traversal.bind_eq_ok.mp h'
      cases ht
      cases ht'
      refine .cons ⟨rfl, hr.description, ?_, ?_⟩ hrest
      · exact Decimal.value_add_nonneg hr.nonneg hn.nonneg hd
      · exact Decimal.value_add_mono hr.le hn.le hd hd'
    · rw [if_neg hfound] at h h'
      obtain ⟨us, hus, ht⟩ := Traversal.bind_eq_ok.mp h
      obtain ⟨us', hus', ht'⟩ := Traversal.bind_eq_ok.mp h'
      cases ht
      cases ht'
      exact .cons hr (ih hus hus')

theorem collectAll_scaled {ns ns' : List ExplodedNode}
    (hns : List.Forall₂ ExplodedNode.Scaled ns ns')
    {rs rs' ts ts' : List Requirement} (hrs : List.Forall₂ Scaled rs rs')
    (h : ns.foldlM (fun rs n => collect n rs) rs = .ok ts)
    (h' : ns'.foldlM (fun rs n => collect n rs) rs' = .ok ts') : List.Forall₂ Scaled ts ts' := by
  induction hns generalizing rs rs' with
  | nil =>
    cases h
    cases h'
    exact hrs
  | cons hn _ ih =>
    rw [List.foldlM_cons] at h h'
    obtain ⟨us, hus, h⟩ := Traversal.bind_eq_ok.mp h
    obtain ⟨us', hus', h'⟩ := Traversal.bind_eq_ok.mp h'
    exact ih (collect_scaled hn hrs hus hus') h h'

theorem ofNodes_scaled {nodes nodes' : List ExplodedNode}
    (hnodes : List.Forall₂ ExplodedNode.Scaled nodes nodes') {rs rs' : List Requirement}
    (h : ofNodes nodes = .ok rs) (h' : ofNodes nodes' = .ok rs') : List.Forall₂ Scaled rs rs' := by
  refine collectAll_scaled (List.rel_filter ?_ hnodes) .nil h h'
  intro n n' hn
  rw [hn.same]
  rfl

end Requirement

structure NettedLine.Shorter (l l' : NettedLine) : Prop where
  ipn : l'.ipn = l.ipn
  description : l'.description = l.description
  required : l.required.value ≤ l'.required.value
  shortage : l.shortage.value ≤ l'.shortage.value
  short : l.status = .shortage → l'.status = .shortage

namespace NettedLine

theorem ofRequirement_finite {stock : Stock} {r : Requirement} (hr : 0 ≤ r.qty.value)
    {onHand : Decimal} (hs : stock.onHand r.ipn = .ok (.finite onHand)) :
    ofRequirement stock r = (Result.ofArithmetic (r.qty.sub onHand)).map fun d =>
      ⟨r.ipn, r.description, r.qty, onHand, d.atLeastZero,
        if d.atLeastZero.isPositive = true then .shortage else .ok⟩ := by
  rw [ofRequirement, hs]
  cases hd : r.qty.sub onHand with
  | error e =>
    have hshort : shortageOf (.finite r.qty) (.finite onHand) = .error e := by
      rw [shortageOf, Number.sub_finite, hd]
      rfl
    simp only [bind, Except.bind, hshort]
    rfl
  | ok d =>
    have hnonneg : 0 ≤ d.atLeastZero.value := by
      rw [Decimal.value_atLeastZero]
      exact le_max_left _ _
    simp only [bind, Except.bind, shortageOf_finite hd, statusOf_finite hd, Result.ofArithmetic]
    exact ofNumbers_finite hr hnonneg _ _ _ _

theorem ofRequirement_infinite {stock : Stock} {r : Requirement} (hr : 0 ≤ r.qty.value)
    {negative : Bool} (hs : stock.onHand r.ipn = .ok (.infinite negative)) :
    ofRequirement stock r = .error (.flaws "ResolvedBOMLine"
      (⟨[.field "qty_on_hand"], .notFinite⟩ ::
        if negative then [⟨[.field "shortage"], .notFinite⟩] else [])) := by
  have hrn : r.qty.isNegative = false := by
    rw [← Bool.not_eq_true, Decimal.isNegative_iff]
    exact not_lt.mpr hr
  rw [ofRequirement, hs]
  cases negative with
  | true =>
    show ofNumbers r.ipn r.description (.finite r.qty) (.infinite true) (.infinite false)
      .shortage = _
    simp only [ofNumbers, Check.finite, Verdict.demand, hrn]
    rfl
  | false =>
    show ofNumbers r.ipn r.description (.finite r.qty) (.infinite false) (.finite Decimal.zero)
      .ok = _
    simp only [ofNumbers, Check.finite, Verdict.demand, hrn]
    rfl

theorem ofRequirement_nan {stock : Stock} {r : Requirement} {negative signaling : Bool}
    {payload : ℕ} (hs : stock.onHand r.ipn = .ok (.nan negative signaling payload)) :
    ofRequirement stock r = .error (.signal .invalid) := by
  rw [ofRequirement, hs]
  cases signaling <;> rfl

theorem ofRequirement_eq_ok {stock : Stock} {r : Requirement} (hr : 0 ≤ r.qty.value)
    {l : NettedLine} (h : ofRequirement stock r = .ok l) :
    ∃ onHand d, stock.onHand r.ipn = .ok (.finite onHand) ∧ r.qty.sub onHand = .ok d ∧
      ⟨r.ipn, r.description, r.qty, onHand, d.atLeastZero,
        if d.atLeastZero.isPositive = true then .shortage else .ok⟩ = l := by
  obtain ⟨n, hn, -⟩ := Traversal.bind_eq_ok.mp h
  cases n with
  | finite onHand =>
    rw [ofRequirement_finite hr hn] at h
    obtain ⟨d, hd, hl⟩ := Traversal.map_eq_ok.mp h
    exact ⟨onHand, d, hn, Traversal.ofArithmetic_eq_ok.mp hd, hl⟩
  | infinite negative =>
    rw [ofRequirement_infinite hr hn] at h
    cases h
  | nan negative signaling payload =>
    rw [ofRequirement_nan hn] at h
    cases h

theorem ofRequirement_shorter {stock stock' : Stock} (hstock : stock'.AtMost stock)
    {r r' : Requirement} (hr : r.Scaled r') {l l' : NettedLine}
    (h : ofRequirement stock r = .ok l) (h' : ofRequirement stock' r' = .ok l') : l.Shorter l' := by
  obtain ⟨onHand, d, hon, hd, rfl⟩ := ofRequirement_eq_ok hr.nonneg h
  obtain ⟨onHand', d', hon', hd', rfl⟩ := ofRequirement_eq_ok (hr.nonneg.trans hr.le) h'
  rw [hr.ipn] at hon'
  have hless := Number.atMost_finite.mp (hstock _ _ _ hon' hon)
  have hshort : d.atLeastZero.value ≤ d'.atLeastZero.value := by
    rw [Decimal.value_atLeastZero, Decimal.value_atLeastZero]
    exact max_le_max le_rfl (Decimal.value_sub_mono hr.le hless hd hd')
  refine ⟨hr.ipn, hr.description, hr.le, hshort, fun hstatus => ?_⟩
  dsimp only at hstatus ⊢
  split at hstatus
  · next hpos =>
    rw [Decimal.isPositive_iff] at hpos
    exact if_pos ((Decimal.isPositive_iff _).mpr (hpos.trans_le hshort))
  · cases hstatus

end NettedLine

theorem netRequirements_shorter {nodes nodes' : List ExplodedNode}
    (hnodes : List.Forall₂ ExplodedNode.Scaled nodes nodes') {stock stock' : Stock}
    (hstock : stock'.AtMost stock) {lines lines' : List NettedLine}
    (h : netRequirements nodes stock = .ok lines)
    (h' : netRequirements nodes' stock' = .ok lines') :
    List.Forall₂ NettedLine.Shorter lines lines' := by
  obtain ⟨rs, hrs, hlines⟩ := Traversal.bind_eq_ok.mp h
  obtain ⟨rs', hrs', hlines'⟩ := Traversal.bind_eq_ok.mp h'
  rw [Traversal.ofArithmetic_eq_ok] at hrs hrs'
  rw [Traversal.mapM_ok_iff] at hlines hlines'
  have hscaled := Requirement.ofNodes_scaled hnodes hrs hrs'
  have hmixed : List.Forall₂
      (fun r' l => ∃ r, r.Scaled r' ∧ NettedLine.ofRequirement stock r = .ok l) rs' lines :=
    Traversal.forall₂_join hscaled hlines fun r _ _ hr hl => ⟨r, hr, hl⟩
  refine Traversal.forall₂_join hmixed hlines' ?_
  rintro r' l l' ⟨r, hr, hl⟩ hl'
  exact NettedLine.ofRequirement_shorter hstock hr hl hl'

/-- Whatever is wrong with a line of a netting, it is not that a quantity is below its least. -/
def KeepsBounds (nodes : List ExplodedNode) : Prop :=
  ∀ stock : Stock, (∀ ipn, ∃ n, stock.onHand ipn = .ok n) → ∀ record flaws,
    netRequirements nodes stock = .error (.flaws record flaws) → ∀ f ∈ flaws, f.kind ≠ .belowLeast

theorem NettedLine.ofRequirement_flaws {stock : Stock} {r : Requirement} (hr : 0 ≤ r.qty.value)
    {n : Number} (hs : stock.onHand r.ipn = .ok n) {record : String} {flaws : List Flaw}
    (h : ofRequirement stock r = .error (.flaws record flaws)) :
    ∀ f ∈ flaws, f.kind = .notFinite := by
  cases n with
  | finite onHand =>
    rw [ofRequirement_finite hr hs] at h
    cases hd : r.qty.sub onHand with
    | ok d =>
      rw [hd] at h
      cases h
    | error e =>
      rw [hd] at h
      cases h
  | infinite negative =>
    rw [ofRequirement_infinite hr hs] at h
    cases h
    cases negative <;> simp
  | nan negative signaling payload =>
    rw [ofRequirement_nan hs] at h
    cases h

theorem keepsBounds {nodes : List ExplodedNode} (hn : ∀ n ∈ nodes, 0 ≤ n.qtyRequired.value) :
    KeepsBounds nodes := by
  intro stock hstock record flaws h f hf
  cases hrs : Requirement.ofNodes nodes with
  | error e =>
    rw [netRequirements, hrs] at h
    cases h
  | ok rs =>
    have hsame : List.Forall₂ ExplodedNode.Scaled nodes nodes :=
      List.forall₂_same.mpr fun n hmem => ⟨rfl, hn n hmem, le_rfl⟩
    rw [netRequirements, hrs] at h
    obtain ⟨before, r, after, hsplit, -, hr⟩ := Traversal.mapM_eq_error h
    obtain ⟨_, hscaled⟩ := Traversal.mem_left (Requirement.ofNodes_scaled hsame hrs hrs)
      (show r ∈ rs by simp [hsplit])
    obtain ⟨n, hn⟩ := hstock r.ipn
    rw [NettedLine.ofRequirement_flaws hscaled.nonneg hn hr f hf]
    decide

/-- A tree is exploded for a quantity and for another that is no smaller, and each time netted. It
is rejected both times or neither, for the same reason, if both quantities are finite and nothing
becomes too large. Where both runs come to lines, the nodes differ in the quantities only, which are
no smaller the second time, and against no more stock the lines are at least as short. No line is
refused for a quantity below zero. -/
theorem shortages_monotone (limit : ℤ) {root : BomNode} (hroot : root.Used) {q q' : Number}
    (hpos : q.isPositive = .ok true) (hle : q.AtMost q') :
    (∀ needed', q' = .finite needed' → explode limit q root ≠ .error (.signal .overflow) →
      explode limit q' root ≠ .error (.signal .overflow) →
      ∀ f, explode limit q root = .error (.fault f) ↔ explode limit q' root = .error (.fault f)) ∧
    ∀ nodes nodes', explode limit q root = .ok nodes → explode limit q' root = .ok nodes' →
      List.Forall₂ ExplodedNode.Scaled nodes nodes' ∧
      (∀ stock stock' : Stock, stock'.AtMost stock → ∀ lines lines',
        netRequirements nodes stock = .ok lines → netRequirements nodes' stock' = .ok lines' →
        List.Forall₂ NettedLine.Shorter lines lines') ∧
      KeepsBounds nodes ∧ KeepsBounds nodes' := by
  have hpositive {needed : Decimal} (h : q = .finite needed) : 0 ≤ needed.value := by
    rw [h, Number.isPositive_finite] at hpos
    exact ((Decimal.isPositive_iff needed).mp (Except.ok.inj hpos)).le
  constructor
  · rintro needed' rfl hfits hfits' f
    obtain ⟨needed, rfl⟩ := Number.finite_of_atMost hpos hle
    rw [Explosion.explode_fault_iff hfits, Explosion.explode_fault_iff hfits']
  · intro nodes nodes' h h'
    obtain ⟨needed, rfl⟩ := Explosion.explode_finite h
    obtain ⟨needed', rfl⟩ := Explosion.explode_finite h'
    have hneeded := hpositive rfl
    have hle' := Number.atMost_finite.mp hle
    have hscaled := Explosion.explode_scaled hroot hneeded hle' h h'
    refine ⟨hscaled, fun stock stock' hstock lines lines' hl hl' => ?_, ?_, ?_⟩
    · exact netRequirements_shorter hscaled hstock hl hl'
    · refine keepsBounds fun n hn => ?_
      obtain ⟨n', hn'⟩ := Traversal.mem_left hscaled hn
      exact hn'.nonneg
    · have hsame := Explosion.explode_scaled hroot (hneeded.trans hle') le_rfl h' h'
      refine keepsBounds fun n hn => ?_
      obtain ⟨n', hn'⟩ := Traversal.mem_left hsame hn
      exact hn'.nonneg

def loopedKit : BomNode :=
  .mk "KIT-1" "" Decimal.one none [.mk "KIT-1" "" Decimal.one none []]

/-- For one unit the tree is rejected for its loop. An infinite number of units is refused before
the loop is found, since no node can be needed in a quantity that is not finite. -/
theorem explode_infinite : (Number.finite Decimal.one).AtMost (.infinite false) ∧
    explode 20 (.finite Decimal.one) loopedKit = .error (.fault (.circularBom ["KIT-1", "KIT-1"])) ∧
    explode 20 (.infinite false) loopedKit =
      .error (.flaws "ExplodedBOMNode" [⟨[.field "qty_required"], .notFinite⟩]) := by
  refine ⟨⟨.lt, rfl, nofun⟩, by decide +kernel, by decide +kernel⟩

theorem fixture_used : Explosion.fixture.Used := by
  have hpos {d : Decimal} (h : d.isPositive = true) : 0 < d.value := (Decimal.isPositive_iff d).mp h
  refine BomNode.used_mk (hpos (by decide)) ?_
  simp only [List.mem_cons, List.not_mem_nil, or_false, forall_eq_or_imp, forall_eq]
  refine ⟨BomNode.used_mk (hpos (by decide)) ?_, BomNode.used_mk (hpos (by decide)) (by simp)⟩
  simp only [List.mem_singleton, forall_eq]
  exact BomNode.used_mk (hpos (by decide)) (by simp)

def resistors (n : ℕ) : Stock := [("R-1", .ok (.finite ⟨false, n, 0⟩))]

theorem resistors_atMost {m n : ℕ} (h : m ≤ n) : (resistors m).AtMost (resistors n) := by
  have hvalue (k : ℕ) : (Decimal.mk false k 0).value = k := by
    simp [Decimal.value, Decimal.signed]
  intro ipn x y hx hy
  by_cases hipn : ipn = "R-1"
  · subst hipn
    cases hx
    cases hy
    rw [Number.atMost_finite, hvalue, hvalue]
    exact_mod_cast h
  · have hother (k : ℕ) : (resistors k).onHand ipn = .ok (.finite Decimal.zero) := by
      simp [Stock.onHand, resistors, List.lookup, beq_false_of_ne hipn]
    rw [hother] at hx hy
    cases hx
    cases hy
    exact Number.atMost_finite.mpr le_rfl

theorem shortages_monotone_fixture : ∃ nodes nodes' lines lines',
    explode 20 (.finite ⟨false, 5, 0⟩) Explosion.fixture = .ok nodes ∧
    explode 20 (.finite ⟨false, 10, 0⟩) Explosion.fixture = .ok nodes' ∧
    netRequirements nodes (resistors 100) = .ok lines ∧
    netRequirements nodes' (resistors 10) = .ok lines' ∧
    List.Forall₂ ExplodedNode.Scaled nodes nodes' ∧
    List.Forall₂ NettedLine.Shorter lines lines' := by
  have hrun : ((explode 20 (.finite ⟨false, 5, 0⟩) Explosion.fixture >>= fun nodes =>
      netRequirements nodes (resistors 100)).map List.length) = .ok 2 := by decide +kernel
  have hrun' : ((explode 20 (.finite ⟨false, 10, 0⟩) Explosion.fixture >>= fun nodes =>
      netRequirements nodes (resistors 10)).map List.length) = .ok 2 := by decide +kernel
  obtain ⟨lines, hlines, -⟩ := Traversal.map_eq_ok.mp hrun
  obtain ⟨lines', hlines', -⟩ := Traversal.map_eq_ok.mp hrun'
  obtain ⟨nodes, hnodes, hlines⟩ := Traversal.bind_eq_ok.mp hlines
  obtain ⟨nodes', hnodes', hlines'⟩ := Traversal.bind_eq_ok.mp hlines'
  have hle : (Number.finite ⟨false, 5, 0⟩).AtMost (.finite ⟨false, 10, 0⟩) :=
    Number.atMost_finite.mpr ((Decimal.le_iff _ _).mp (by decide +kernel))
  obtain ⟨hscaled, hshorter, -, -⟩ :=
    (shortages_monotone 20 fixture_used (by decide +kernel) hle).2 nodes nodes' hnodes hnodes'
  exact ⟨nodes, nodes', lines, lines', hnodes, hnodes', hlines, hlines', hscaled,
    hshorter _ _ (resistors_atMost (by decide)) lines lines' hlines hlines'⟩

end BomEngine
