import BomEngine.Proofs.Bom.Explosion
import BomEngine.Proofs.Decimal.Nearest
import BomEngine.Proofs.Schema.Quantities

/-!
# Exploding a tree for more units

Which tree is rejected, and for what, does not depend on the number of units, as long as no
quantity is too large. For more units the same nodes come out, and at least as much is needed of
each: the quantities along a route are products that are rounded at every step, and rounding keeps
their order.
-/

set_option autoImplicit false

namespace BomEngine
open BomNode

theorem BomNode.quantityAlong_mono {route : List BomNode} (hroute : ∀ n ∈ route, 0 ≤ n.qty.value)
    {q q' d d' : Decimal} (hq : 0 ≤ q.value) (hle : q.value ≤ q'.value)
    (h : quantityAlong q route = .ok d) (h' : quantityAlong q' route = .ok d') :
    0 ≤ d.value ∧ d.value ≤ d'.value := by
  induction route generalizing q q' with
  | nil =>
    cases h
    cases h'
    exact ⟨hq, hle⟩
  | cons n rest ih =>
    rw [quantityAlong, List.foldlM_cons] at h h'
    obtain ⟨next, hnext, h⟩ := Traversal.bind_eq_ok.mp h
    obtain ⟨next', hnext', h'⟩ := Traversal.bind_eq_ok.mp h'
    have hn : 0 ≤ n.qty.value := hroute n (by simp)
    exact ih (fun m hm => hroute m (by simp [hm])) (Decimal.value_mul_nonneg hq hn hnext)
      (Decimal.value_mul_mono hn hle hnext hnext') h h'

/-- The same node for more units: only the quantity that is needed differs, and it is no smaller. -/
structure ExplodedNode.Scaled (n n' : ExplodedNode) : Prop where
  same : n' = { n with qtyRequired := n'.qtyRequired }
  nonneg : 0 ≤ n.qtyRequired.value
  le : n.qtyRequired.value ≤ n'.qtyRequired.value

namespace Explosion

variable {limit : ℤ} {root : BomNode} {needed needed' : Decimal}

theorem explode_rejects {e : Failure} (h : explode limit (.finite needed) root = .error e) :
    e = .signal .overflow ∨ ∃ o, root.occurrences.find? (fun o => decide (o.Bad limit)) = some o ∧
      e = .fault (o.fault limit) := by
  obtain ⟨before, o, after, hsplit, hgood, ⟨hbad, he⟩ | ⟨-, he, -⟩⟩ := explode_stops h
  · refine .inr ⟨o, List.find?_eq_some_iff_append.mpr ⟨decide_eq_true hbad, before, after, hsplit,
      fun b hb => ?_⟩, he⟩
    simpa using hgood b hb
  · exact .inl he

theorem explode_fault_iff (hfits : explode limit (.finite needed) root ≠ .error (.signal .overflow))
    {f : Fault} : explode limit (.finite needed) root = .error (.fault f) ↔
      ∃ o, root.occurrences.find? (fun o => decide (o.Bad limit)) = some o ∧
        f = o.fault limit := by
  constructor
  · intro h
    obtain he | ⟨o, ho, he⟩ := explode_rejects h
    · cases he
    · exact ⟨o, ho, Failure.fault.inj he⟩
  · rintro ⟨o, ho, rfl⟩
    cases h : explode limit (.finite needed) root with
    | ok nodes =>
      obtain ⟨hbad, -⟩ := List.find?_eq_some_iff_append.mp ho
      obtain ⟨n, -, -, hgood⟩ :=
        Traversal.mem_left (explode_describes h) (List.mem_of_find?_eq_some ho)
      exact absurd (of_decide_eq_true hbad) hgood
    | error e =>
      obtain rfl | ⟨o', ho', rfl⟩ := explode_rejects h
      · exact absurd h hfits
      · cases ho.symm.trans ho'
        rfl

theorem scaled_of_describes {o : Occurrence} {n n' : ExplodedNode}
    (hroute : ∀ m ∈ o.route, 0 ≤ m.qty.value) (hneeded : 0 ≤ needed.value)
    (hle : needed.value ≤ needed'.value) (hn : Describes needed o n)
    (hn' : Describes needed' o n') : n.Scaled n' := by
  have hquantity := quantityAlong_mono hroute hneeded hle hn.quantity hn'.quantity
  have hposition := hn'.position.trans hn.position.symm
  have hleaf : n'.isLeaf = n.isLeaf := by
    rw [Bool.eq_iff_iff, hn.leaf, hn'.leaf]
  have hdepth : n'.depth = n.depth := by rw [hn.depth, hn'.depth, hposition]
  refine ⟨?_, hquantity.1, hquantity.2⟩
  obtain ⟨path, position, ipn, description, ref, depth, qtyPer, qtyRequired, isLeaf⟩ := n'
  simp only [ExplodedNode.mk.injEq]
  exact ⟨hn'.path.trans hn.path.symm, hposition, hn'.ipn.trans hn.ipn.symm,
    hn'.description.trans hn.description.symm, hn'.ref.trans hn.ref.symm, hdepth,
    hn'.qtyPer.trans hn.qtyPer.symm, trivial, hleaf⟩

theorem explode_scaled (hroot : root.Used) (hneeded : 0 ≤ needed.value)
    (hle : needed.value ≤ needed'.value) {nodes nodes' : List ExplodedNode}
    (h : explode limit (.finite needed) root = .ok nodes)
    (h' : explode limit (.finite needed') root = .ok nodes') :
    List.Forall₂ ExplodedNode.Scaled nodes nodes' := by
  refine Traversal.forall₂_join (explode_describes h) (explode_describes h') ?_
  rintro o n n' ⟨ho, hn, -⟩ ⟨-, hn', -⟩
  exact scaled_of_describes (fun m hm => (hroot o ho m hm).le) hneeded hle hn hn'

end Explosion
end BomEngine
