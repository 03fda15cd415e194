import BomEngine.Shortage.Netting
import BomEngine.Proofs.Cost.Rollup

/-!
# Netting conserves requirements

The requirements for one IPN end in one line, in the place of its first occurrence.
While the nodes are gone through, the requirements collected so far are a tally of
the nodes so far: each is the sum for its IPN, and at any prices they are worth what
those nodes are worth. So a netted list costs what the rollup of the nodes comes to.
-/

set_option autoImplicit false

namespace BomEngine
open Decimal (Representable)

def demand (ns : List ExplodedNode) (ipn : String) : ℚ :=
  ((ns.filter fun n => n.ipn == ipn).map fun n => n.qtyRequired.value).sum

theorem demand_append (ns : List ExplodedNode) (n : ExplodedNode) (ipn : String) :
    demand (ns ++ [n]) ipn = demand ns ipn + if n.ipn = ipn then n.qtyRequired.value else 0 := by
  by_cases h : n.ipn = ipn <;> simp [demand, List.filter_append, h]

theorem demand_of_not_mem {ns : List ExplodedNode} {ipn : String}
    (h : ipn ∉ ns.map ExplodedNode.ipn) : demand ns ipn = 0 := by
  have hf : ns.filter (fun n => n.ipn == ipn) = [] := by
    apply List.filter_eq_nil_iff.mpr
    intro n hn he
    exact h (List.mem_map.mpr ⟨n, hn, by simpa using he⟩)
  rw [demand, hf]
  rfl

theorem demand_nonneg {ns : List ExplodedNode} (h : ∀ n ∈ ns, 0 ≤ n.qtyRequired.value)
    (ipn : String) : 0 ≤ demand ns ipn := by
  apply List.sum_nonneg
  intro x hx
  obtain ⟨n, hn, rfl⟩ := List.mem_map.mp hx
  exact h n (List.mem_filter.mp hn).1

namespace Requirement

theorem collect_known {n : ExplodedNode} {before after : List Requirement} {r : Requirement}
    {d : Decimal} (hb : ∀ b ∈ before, b.ipn ≠ n.ipn) (hr : r.ipn = n.ipn)
    (hd : r.qty.add n.qtyRequired = .ok d) :
    collect n (before ++ r :: after) = .ok (before ++ { r with qty := d } :: after) := by
  induction before with
  | nil =>
    rw [List.nil_append, collect, if_pos hr, hd]
    rfl
  | cons b before ih =>
    rw [List.cons_append, collect, if_neg (hb b (by simp)), ih fun x hx => hb x (by simp [hx])]
    rfl

theorem collect_new {n : ExplodedNode} {rs : List Requirement} {d : Decimal}
    (hn : ∀ r ∈ rs, r.ipn ≠ n.ipn) (hd : Decimal.zero.add n.qtyRequired = .ok d) :
    collect n rs = .ok (rs ++ [⟨n.ipn, n.description, d⟩]) := by
  induction rs with
  | nil =>
    rw [collect, hd]
    rfl
  | cons r rs ih =>
    rw [collect, if_neg (hn r (by simp)), ih fun x hx => hn x (by simp [hx])]
    rfl

/-- The requirements are those of the nodes: one for each IPN, in the order of first
occurrence, and worth as much at any prices. -/
structure Tally (ns : List ExplodedNode) (rs : List Requirement) : Prop where
  ipns : rs.map Requirement.ipn = (ns.map ExplodedNode.ipn).eraseDups
  nodup : (rs.map Requirement.ipn).Nodup
  qty : ∀ r ∈ rs, r.qty.value = demand ns r.ipn
  description : ∀ r ∈ rs,
    (ns.find? fun n => n.ipn == r.ipn).map ExplodedNode.description = some r.description
  worth : ∀ price : String → ℚ, (rs.map fun r => r.qty.value * price r.ipn).sum =
    (ns.map fun n => n.qtyRequired.value * price n.ipn).sum

theorem tally_nil : Tally [] [] := ⟨rfl, List.nodup_nil, by simp, by simp, by simp⟩

theorem ipns_append (ns : List ExplodedNode) (n : ExplodedNode) :
    ((ns ++ [n]).map ExplodedNode.ipn).eraseDups =
      if n.ipn ∈ ns.map ExplodedNode.ipn then (ns.map ExplodedNode.ipn).eraseDups
      else (ns.map ExplodedNode.ipn).eraseDups ++ [n.ipn] := by
  rw [List.map_append, List.map_singleton, List.eraseDups_append]
  by_cases h : n.ipn ∈ ns.map ExplodedNode.ipn
  · have hdup : [n.ipn].removeAll (ns.map ExplodedNode.ipn) = [] := by
      simpa [List.removeAll] using h
    rw [if_pos h, hdup]
    simp
  · have hdup : [n.ipn].removeAll (ns.map ExplodedNode.ipn) = [n.ipn] := by
      simpa [List.removeAll] using h
    rw [if_neg h, hdup]
    simp [List.eraseDups_cons]

theorem find_append {ns : List ExplodedNode} {p : ExplodedNode → Bool} {s : String}
    (h : (ns.find? p).map ExplodedNode.description = some s) (n : ExplodedNode) :
    ((ns ++ [n]).find? p).map ExplodedNode.description = some s := by
  obtain ⟨m, hm, hs⟩ := Option.map_eq_some_iff.mp h
  rw [List.find?_append, hm]
  simpa using hs

theorem tally_known {ns : List ExplodedNode} {n : ExplodedNode} {before after : List Requirement}
    {r : Requirement} {d : Decimal} (h : Tally ns (before ++ r :: after)) (hr : r.ipn = n.ipn)
    (hd : d.value = r.qty.value + n.qtyRequired.value) :
    Tally (ns ++ [n]) (before ++ { r with qty := d } :: after) := by
  have hmem : n.ipn ∈ ns.map ExplodedNode.ipn := by
    rw [← List.mem_eraseDups, ← h.ipns]
    simp [hr]
  have hne : ∀ x ∈ before ++ after, n.ipn ≠ x.ipn := by
    have hperm : ((before ++ r :: after).map Requirement.ipn).Perm
        (r.ipn :: (before ++ after).map Requirement.ipn) := by
      simp
    have hnot := (List.nodup_cons.mp (hperm.nodup_iff.mp h.nodup)).1
    intro x hx he
    exact hnot (List.mem_map.mpr ⟨x, hx, he.symm.trans hr.symm⟩)
  refine ⟨?_, ?_, ?_, ?_, ?_⟩
  · rw [ipns_append, if_pos hmem, ← h.ipns]
    simp
  · simpa using h.nodup
  · intro x hx
    rw [demand_append]
    rcases List.mem_append.mp hx with hx | hx
    · rw [if_neg (hne x (by simp [hx])), add_zero]
      exact h.qty x (by simp [hx])
    rcases List.mem_cons.mp hx with rfl | hx
    · rw [if_pos hr.symm]
      exact hd.trans (congrArg (· + _) (h.qty r (by simp)))
    · rw [if_neg (hne x (by simp [hx])), add_zero]
      exact h.qty x (by simp [hx])
  · intro x hx
    rcases List.mem_append.mp hx with hx | hx
    · exact find_append (h.description x (by simp [hx])) n
    rcases List.mem_cons.mp hx with rfl | hx
    · exact find_append (h.description r (by simp)) n
    · exact find_append (h.description x (by simp [hx])) n
  · intro price
    have hw := h.worth price
    simp only [List.map_append, List.map_cons, List.sum_append, List.sum_cons, List.map_nil,
      List.sum_nil] at hw ⊢
    rw [hd, ← hw, hr]
    ring

theorem tally_new {ns : List ExplodedNode} {n : ExplodedNode} {rs : List Requirement} {d : Decimal}
    (h : Tally ns rs) (hn : ∀ r ∈ rs, r.ipn ≠ n.ipn) (hd : d.value = n.qtyRequired.value) :
    Tally (ns ++ [n]) (rs ++ [⟨n.ipn, n.description, d⟩]) := by
  have hnot : n.ipn ∉ ns.map ExplodedNode.ipn := by
    rw [← List.mem_eraseDups, ← h.ipns]
    intro hm
    obtain ⟨r, hr, he⟩ := List.mem_map.mp hm
    exact hn r hr he
  refine ⟨?_, ?_, ?_, ?_, ?_⟩
  · rw [ipns_append, if_neg hnot, ← h.ipns]
    simp
  · rw [List.map_append, List.map_singleton, List.nodup_append]
    refine ⟨h.nodup, List.nodup_singleton _, ?_⟩
    intro a ha b hb he
    obtain ⟨r, hr, rfl⟩ := List.mem_map.mp ha
    exact hn r hr (he.trans (List.mem_singleton.mp hb))
  · intro x hx
    rw [demand_append]
    rcases List.mem_append.mp hx with hx | hx
    · rw [if_neg (hn x hx).symm, add_zero]
      exact h.qty x hx
    · obtain rfl := List.mem_singleton.mp hx
      rw [if_pos rfl, demand_of_not_mem hnot, zero_add]
      exact hd
  · intro x hx
    rcases List.mem_append.mp hx with hx | hx
    · exact find_append (h.description x hx) n
    · obtain rfl := List.mem_singleton.mp hx
      have hnone : ns.find? (fun m => m.ipn == n.ipn) = none := by
        apply List.find?_eq_none.mpr
        intro m hm he
        exact hnot (List.mem_map.mpr ⟨m, hm, by simpa using he⟩)
      simp [List.find?_append, hnone]
  · intro price
    simp [h.worth price, hd]

/-- Collecting one more node keeps the tally. -/
theorem collect_tally {ns : List ExplodedNode} {n : ExplodedNode} {rs : List Requirement}
    (h : Tally ns rs) (hr : Representable (demand (ns ++ [n]) n.ipn)) :
    ∃ rs', collect n rs = .ok rs' ∧ Tally (ns ++ [n]) rs' := by
  rw [demand_append, if_pos rfl] at hr
  by_cases hmem : ∃ r ∈ rs, r.ipn = n.ipn
  · obtain ⟨r, hrs, he⟩ := hmem
    obtain ⟨before, after, rfl⟩ := List.append_of_mem hrs
    rw [← he, ← h.qty r (by simp)] at hr
    obtain ⟨d, hd, hv⟩ := r.qty.add_exact n.qtyRequired hr
    have hb : ∀ b ∈ before, b.ipn ≠ n.ipn := by
      intro b hb hbn
      have hnodup := h.nodup
      rw [List.map_append, List.nodup_append] at hnodup
      exact hnodup.2.2 b.ipn (List.mem_map_of_mem hb) r.ipn (by simp) (hbn.trans he.symm)
    exact ⟨_, collect_known hb he hd, tally_known h he hv⟩
  · have hn : ∀ r ∈ rs, r.ipn ≠ n.ipn := fun r hrs he => hmem ⟨r, hrs, he⟩
    have hnot : n.ipn ∉ ns.map ExplodedNode.ipn := by
      rw [← List.mem_eraseDups, ← h.ipns]
      exact fun hm => hmem (by simpa using hm)
    rw [demand_of_not_mem hnot] at hr
    obtain ⟨d, hd, hv⟩ := Decimal.zero.add_exact n.qtyRequired (by rwa [Decimal.value_zero])
    rw [Decimal.value_zero, zero_add] at hv
    exact ⟨_, collect_new hn hd, tally_new h hn hv⟩

theorem collect_all {before rest : List ExplodedNode} {rs : List Requirement} (h : Tally before rs)
    (hr : ∀ part, part <+: before ++ rest → ∀ ipn, Representable (demand part ipn)) :
    ∃ rs', rest.foldlM (fun rs n => collect n rs) rs = .ok rs' ∧ Tally (before ++ rest) rs' := by
  induction rest generalizing before rs with
  | nil => exact ⟨rs, rfl, by simpa using h⟩
  | cons n rest ih =>
    have hsplit : before ++ n :: rest = (before ++ [n]) ++ rest := by simp
    obtain ⟨next, hn, ht⟩ := collect_tally h
      (hr (before ++ [n]) (hsplit ▸ List.prefix_append _ _) n.ipn)
    obtain ⟨rs', hrs, ht'⟩ := ih ht (hsplit ▸ hr)
    refine ⟨rs', ?_, hsplit ▸ ht'⟩
    rw [List.foldlM_cons, hn]
    exact hrs

theorem ofNodes_tally {nodes : List ExplodedNode}
    (hr : ∀ part, part <+: nodes.filter ExplodedNode.isPurchased → ∀ ipn,
      Representable (demand part ipn)) :
    ∃ rs, ofNodes nodes = .ok rs ∧ Tally (nodes.filter ExplodedNode.isPurchased) rs :=
  collect_all tally_nil hr

end Requirement

namespace Stock

/-- The stock of an IPN is what its entry says, and zero where it has none. -/
def Holds (stock : Stock) (ipn : String) (onHand : Decimal) : Prop :=
  stock.lookup ipn = some (.ok (.finite onHand)) ∨
    stock.lookup ipn = none ∧ onHand = Decimal.zero

theorem Holds.onHand {stock : Stock} {ipn : String} {onHand : Decimal}
    (h : stock.Holds ipn onHand) : stock.onHand ipn = .ok (.finite onHand) := by
  unfold Stock.onHand
  rcases h with hsome | ⟨hnone, rfl⟩
  · rw [hsome]
    rfl
  · rw [hnone]
    rfl

end Stock

theorem shortageOf_finite {required onHand d : Decimal} (h : required.sub onHand = .ok d) :
    shortageOf (.finite required) (.finite onHand) = .ok (.finite d.atLeastZero) := by
  rw [shortageOf, Number.sub_finite, h]
  exact Number.atLeastZero_finite d

theorem statusOf_finite {required onHand d : Decimal} (h : required.sub onHand = .ok d) :
    statusOf (.finite required) (.finite onHand) =
      .ok (if d.atLeastZero.isPositive = true then .shortage else .ok) := by
  rw [statusOf, shortageOf_finite h]
  rfl

namespace NettedLine

theorem ofNumbers_finite {required shortage : Decimal} (hr : 0 ≤ required.value)
    (hs : 0 ≤ shortage.value) (ipn description : String) (onHand : Decimal)
    (status : ShortageStatus) :
    ofNumbers ipn description (.finite required) (.finite onHand) (.finite shortage) status =
      .ok ⟨ipn, description, required, onHand, shortage, status⟩ := by
  have hrn : required.isNegative = false := by
    rw [← Bool.not_eq_true, Decimal.isNegative_iff]
    exact not_lt.mpr hr
  have hsn : shortage.isNegative = false := by
    rw [← Bool.not_eq_true, Decimal.isNegative_iff]
    exact not_lt.mpr hs
  simp only [ofNumbers, Check.finite, Verdict.demand, hrn, hsn]
  rfl

structure Nets (stock : Stock) (r : Requirement) (l : NettedLine) : Prop where
  ipn : l.ipn = r.ipn
  description : l.description = r.description
  required : l.required = r.qty
  onHand : stock.Holds r.ipn l.onHand
  shortage : l.shortage.value = max 0 (l.required.value - l.onHand.value)
  status : l.status = if 0 < l.shortage.value then .shortage else .ok

theorem ofRequirement_nets {stock : Stock} {r : Requirement} {onHand : Decimal}
    (hr : 0 ≤ r.qty.value) (hs : stock.Holds r.ipn onHand)
    (hd : Representable (r.qty.value - onHand.value)) :
    ∃ l, ofRequirement stock r = .ok l ∧ Nets stock r l := by
  obtain ⟨d, hsub, hv⟩ := r.qty.sub_exact onHand hd
  have hnonneg : 0 ≤ d.atLeastZero.value := by
    rw [Decimal.value_atLeastZero]
    exact le_max_left _ _
  refine ⟨⟨r.ipn, r.description, r.qty, onHand, d.atLeastZero,
    if d.atLeastZero.isPositive = true then .shortage else .ok⟩, ?_,
    rfl, rfl, rfl, hs, ?_, ?_⟩
  · rw [ofRequirement, hs.onHand]
    simp only [bind, Except.bind, shortageOf_finite hsub, statusOf_finite hsub,
      Result.ofArithmetic]
    exact ofNumbers_finite hr hnonneg _ _ _ _
  · rw [Decimal.value_atLeastZero, hv]
  · simp only [Decimal.isPositive_iff]

theorem ofRequirements_nets {stock : Stock} {rs : List Requirement}
    (h : ∀ r ∈ rs, 0 ≤ r.qty.value ∧ ∃ onHand : Decimal,
      stock.Holds r.ipn onHand ∧ Representable (r.qty.value - onHand.value)) :
    ∃ lines, rs.mapM (ofRequirement stock) = .ok lines ∧
      List.Forall₂ (fun r l => r ∈ rs ∧ Nets stock r l) rs lines := by
  have hline : ∀ r ∈ rs, ∃ l, ofRequirement stock r = .ok l ∧ Nets stock r l := by
    intro r hr
    obtain ⟨hq, onHand, hs, hd⟩ := h r hr
    exact ofRequirement_nets hq hs hd
  obtain ⟨lines, hmap⟩ := Traversal.mapM_total fun r hr => (hline r hr).imp fun _ h => h.1
  refine ⟨lines, hmap, ?_⟩
  refine ((List.forall₂_and_left _ _).mpr ⟨fun r hr => hr, Traversal.mapM_ok_iff.mp hmap⟩).imp ?_
  rintro r l ⟨hr, hl⟩
  obtain ⟨l', hl', hn⟩ := hline r hr
  rw [hl] at hl'
  cases hl'
  exact ⟨hr, hn⟩

end NettedLine

/-- Netting in which nothing is rounded: the sums for each IPN and what the stock leaves of
them have few enough digits, and the stock that is asked for is a finite number. -/
structure NetsExactly (nodes : List ExplodedNode) (stock : Stock) : Prop where
  sums : ∀ part, part <+: nodes.filter ExplodedNode.isPurchased → ∀ ipn,
    Representable (demand part ipn)
  stocked : ∀ n ∈ nodes.filter ExplodedNode.isPurchased, ∃ onHand : Decimal,
    stock.Holds n.ipn onHand ∧
    Representable (demand (nodes.filter ExplodedNode.isPurchased) n.ipn - onHand.value)

theorem demand_whole {ns : List ExplodedNode}
    (h : ∀ n ∈ ns, n.qtyRequired.negative = false ∧ n.qtyRequired.exp = 0) (ipn : String) :
    ∃ k : ℕ, demand ns ipn = k ∧ k ≤ (ns.map fun n => n.qtyRequired.coeff).sum := by
  refine ⟨((ns.filter fun n => n.ipn == ipn).map fun n => n.qtyRequired.coeff).sum, ?_, ?_⟩
  · rw [demand, Nat.cast_list_sum, List.map_map]
    congr 1
    apply List.map_congr_left
    intro n hn
    obtain ⟨hs, he⟩ := h n (List.mem_filter.mp hn).1
    simp [Decimal.value, Decimal.signed, hs, he]
  · exact (List.filter_sublist.map _).sum_le_sum fun _ _ => Nat.zero_le _

theorem netsExactly_of_whole {nodes : List ExplodedNode} {stock : Stock}
    (hwhole : ∀ n ∈ nodes.filter ExplodedNode.isPurchased,
      n.qtyRequired.negative = false ∧ n.qtyRequired.exp = 0)
    (htotal : ((nodes.filter ExplodedNode.isPurchased).map fun n => n.qtyRequired.coeff).sum <
      10 ^ Decimal.precision)
    (hstock : ∀ n ∈ nodes.filter ExplodedNode.isPurchased, ∃ k < 10 ^ Decimal.precision,
      stock.Holds n.ipn ⟨false, k, 0⟩) : NetsExactly nodes stock := by
  refine ⟨fun part hp ipn => ?_, fun n hn => ?_⟩
  · obtain ⟨k, hk, hle⟩ := demand_whole (fun n hn => hwhole n (hp.subset hn)) ipn
    have hsum := (hp.sublist.map fun n => n.qtyRequired.coeff).sum_le_sum fun _ _ => Nat.zero_le _
    rw [hk]
    exact Decimal.representable_natCast (by omega)
  · obtain ⟨k, hk, hle⟩ := demand_whole hwhole n.ipn
    obtain ⟨j, hj, hs⟩ := hstock n hn
    refine ⟨_, hs, ?_⟩
    have hv : demand (nodes.filter ExplodedNode.isPurchased) n.ipn -
        (Decimal.mk false j 0).value = ((k : ℤ) - j : ℤ) := by
      rw [hk]
      simp [Decimal.value, Decimal.signed]
    rw [hv]
    apply Decimal.representable_intCast
    have hlimit : ((10 ^ Decimal.precision : ℕ) : ℤ) = 10 ^ Decimal.precision := by push_cast; rfl
    rw [abs_lt, ← hlimit]
    constructor <;> omega

/-- Netting gives one line for each IPN among the purchased components, in the order of first
occurrence, with all that is required of it beside the stock; at any prices the lines together
are worth what the rollup of the nodes comes to. -/
theorem netRequirements_conserves (nodes : List ExplodedNode) (stock : Stock)
    (hnonneg : ∀ n ∈ nodes, 0 ≤ n.qtyRequired.value) (hexact : NetsExactly nodes stock) :
    ∃ lines, netRequirements nodes stock = .ok lines ∧
      lines.map NettedLine.ipn =
        ((nodes.filter ExplodedNode.isPurchased).map ExplodedNode.ipn).eraseDups ∧
      (∀ l ∈ lines,
        ((nodes.filter ExplodedNode.isPurchased).find? fun n => n.ipn == l.ipn).map
          ExplodedNode.description = some l.description ∧
        l.required.value = demand (nodes.filter ExplodedNode.isPurchased) l.ipn ∧
        stock.Holds l.ipn l.onHand ∧
        l.shortage.value = max 0 (l.required.value - l.onHand.value) ∧
        l.status = if 0 < l.shortage.value then .shortage else .ok) ∧
      ∀ catalog : CostCatalog, catalog.RollsUpExactly nodes →
        ∃ total, rollUp catalog nodes = .ok (.finite total) ∧
          (lines.map fun l => l.required.value * catalog.price l.ipn).sum = total.value := by
  obtain ⟨rs, hrs, htally⟩ := Requirement.ofNodes_tally hexact.sums
  have hstocked : ∀ r ∈ rs, 0 ≤ r.qty.value ∧ ∃ onHand : Decimal,
      stock.Holds r.ipn onHand ∧ Representable (r.qty.value - onHand.value) := by
    intro r hr
    have hipn : r.ipn ∈ (nodes.filter ExplodedNode.isPurchased).map ExplodedNode.ipn := by
      rw [← List.mem_eraseDups, ← htally.ipns]
      exact List.mem_map_of_mem hr
    obtain ⟨n, hn, he⟩ := List.mem_map.mp hipn
    rw [htally.qty r hr]
    exact ⟨demand_nonneg (fun m hm => hnonneg m (List.mem_filter.mp hm).1) r.ipn,
      he ▸ hexact.stocked n hn⟩
  obtain ⟨lines, hmap, hnets⟩ := NettedLine.ofRequirements_nets hstocked
  refine ⟨lines, ?_, ?_, fun l hl => ?_, fun catalog hcatalog => ?_⟩
  · rw [netRequirements, hrs]
    exact hmap
  · rw [Traversal.map_eq_of_forall₂ hnets fun r l h => h.2.ipn, htally.ipns]
  · obtain ⟨r, hr, hn⟩ := Traversal.mem_right hnets hl
    refine ⟨?_, ?_, ?_, hn.shortage, hn.status⟩
    · rw [hn.ipn, hn.description]
      exact htally.description r hr
    · rw [hn.ipn, hn.required]
      exact htally.qty r hr
    · rw [hn.ipn]
      exact hn.onHand
  · obtain ⟨total, htotal, hv⟩ := rollUp_exact hcatalog
    refine ⟨total, htotal, ?_⟩
    rw [hv, Traversal.map_eq_of_forall₂ hnets (f := fun r => r.qty.value * catalog.price r.ipn)
      fun r l h => by rw [h.2.ipn, h.2.required]]
    exact htally.worth catalog.price

def kitNodes : List ExplodedNode :=
  [⟨["KIT-1"], [], "KIT-1", "", none, 0, Decimal.one, Decimal.one, false⟩,
    ⟨["KIT-1", "R-1"], [0], "R-1", "top", none, 1, ⟨false, 2, 0⟩, ⟨false, 2, 0⟩, true⟩,
    ⟨["KIT-1", "SCR-1"], [1], "SCR-1", "", none, 1, ⟨false, 6, 0⟩, ⟨false, 6, 0⟩, true⟩,
    ⟨["KIT-1", "R-1"], [2], "R-1", "side", none, 1, ⟨false, 3, 0⟩, ⟨false, 3, 0⟩, true⟩]

def kitStock : Stock := [("R-1", .ok (.finite ⟨false, 4, 0⟩))]

theorem kit_purchased : kitNodes.filter ExplodedNode.isPurchased = kitNodes.drop 1 := by decide

theorem demand_kit :
    demand (kitNodes.drop 1) "R-1" = 5 ∧ demand (kitNodes.drop 1) "SCR-1" = 6 := by
  have hr : (kitNodes.drop 1).filter (fun n => n.ipn == "R-1") = [kitNodes[1], kitNodes[3]] := by
    decide
  have hs : (kitNodes.drop 1).filter (fun n => n.ipn == "SCR-1") = [kitNodes[2]] := by decide
  rw [demand, demand, hr, hs]
  norm_num [kitNodes, Decimal.value, Decimal.signed]

theorem kitNodes_exact : NetsExactly kitNodes kitStock := by
  apply netsExactly_of_whole (by decide) (by decide)
  rw [kit_purchased]
  simp only [kitNodes, List.drop_succ_cons, List.drop_zero, List.mem_cons, List.not_mem_nil,
    or_false, forall_eq_or_imp, forall_eq]
  exact ⟨⟨4, by decide, .inl rfl⟩, ⟨0, by decide, .inr ⟨rfl, rfl⟩⟩, ⟨4, by decide, .inl rfl⟩⟩

theorem netRequirements_kit :
    (∀ n ∈ kitNodes, 0 ≤ n.qtyRequired.value) ∧ NetsExactly kitNodes kitStock ∧
    ∃ r s, netRequirements kitNodes kitStock = .ok [r, s] ∧
      (r.ipn = "R-1" ∧ r.description = "top" ∧ r.required.value = 5 ∧ r.onHand = ⟨false, 4, 0⟩ ∧
        r.shortage.value = 1 ∧ r.status = .shortage) ∧
      (s.ipn = "SCR-1" ∧ s.description = "" ∧ s.required.value = 6 ∧ s.onHand = Decimal.zero ∧
        s.shortage.value = 6 ∧ s.status = .shortage) := by
  have hnonneg : ∀ n ∈ kitNodes, 0 ≤ n.qtyRequired.value := by
    simp [kitNodes, Decimal.one, Decimal.value, Decimal.signed]
  obtain ⟨lines, hlines, hipns, hline, -⟩ :=
    netRequirements_conserves kitNodes kitStock hnonneg kitNodes_exact
  have hkit : lines.map NettedLine.ipn = ["R-1", "SCR-1"] := hipns.trans (by decide)
  obtain ⟨r, rest, rfl, hr, hrest⟩ := List.map_eq_cons_iff.mp hkit
  obtain ⟨s, none, rfl, hs, hnone⟩ := List.map_eq_cons_iff.mp hrest
  obtain rfl := List.map_eq_nil_iff.mp hnone
  refine ⟨hnonneg, kitNodes_exact, r, s, hlines, ?_, ?_⟩
  · obtain ⟨hdescription, hrequired, hhand, hshortage, hstatus⟩ := hline r (by simp)
    rw [hr, kit_purchased] at hdescription hrequired
    have hfive : r.required.value = 5 := hrequired.trans demand_kit.1
    have hfour : r.onHand = ⟨false, 4, 0⟩ := by
      rw [hr] at hhand
      rcases hhand with h | ⟨h, -⟩
      · exact (Number.finite.inj (Except.ok.inj (Option.some.inj h))).symm
      · cases h
    have hone : r.shortage.value = 1 := by
      rw [hshortage, hfive, hfour]
      norm_num [Decimal.value, Decimal.signed]
    refine ⟨hr, (Option.some.inj hdescription).symm, hfive, hfour, hone, ?_⟩
    rw [hstatus, hone, if_pos one_pos]
  · obtain ⟨hdescription, hrequired, hhand, hshortage, hstatus⟩ := hline s (by simp)
    rw [hs, kit_purchased] at hdescription hrequired
    have hsix : s.required.value = 6 := hrequired.trans demand_kit.2
    have hzero : s.onHand = Decimal.zero := by
      rw [hs] at hhand
      rcases hhand with h | ⟨-, h⟩
      · cases h
      · exact h
    have hshort : s.shortage.value = 6 := by
      rw [hshortage, hsix, hzero, Decimal.value_zero]
      norm_num
    refine ⟨hs, (Option.some.inj hdescription).symm, hsix, hzero, hshort, ?_⟩
    rw [hstatus, hshort, if_pos (by norm_num)]

end BomEngine
