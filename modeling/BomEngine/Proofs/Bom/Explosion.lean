import BomEngine.Bom.Explosion
import BomEngine.Proofs.Bom.Occurrence
import BomEngine.Proofs.Decimal.Rounding

/-!
# What explosion gives

The walk goes through the occurrences of a tree one by one. It stops at the first
one that repeats an IPN above it or lies too deep; if there is none, it describes
each of them: where it is, what leads to it, and how much of it is needed.
-/

set_option autoImplicit false

namespace BomEngine
namespace BomNode

/-- The quantity needed at the end of a route, multiplied up from the left and
rounded at each step. -/
def quantityAlong (needed : Decimal) (route : List BomNode) : Except Signal Decimal :=
  route.foldlM (fun q n => q.mul n.qty) needed

theorem failsOnly_quantityAlong (needed : Decimal) (route : List BomNode) :
    Traversal.FailsOnly .overflow (quantityAlong needed route) := by
  unfold quantityAlong
  exact .foldlM (fun q n => Decimal.failsOnly_mul q n.qty) route needed

theorem quantityAlong_ok {needed : Decimal} {route : List BomNode}
    (h : quantityAlong needed route ≠ .error .overflow) :
    ∃ d, quantityAlong needed route = .ok d :=
  (failsOnly_quantityAlong needed route).result h

namespace Occurrence

/-- An occurrence that no explosion can pass. -/
def Bad (limit : ℤ) (o : Occurrence) : Prop :=
  o.node.ipn ∈ o.above.map BomNode.ipn ∨ limit < o.above.length

instance (limit : ℤ) : DecidablePred (Bad limit) := fun _ =>
  inferInstanceAs (Decidable (_ ∨ _))

def fault (limit : ℤ) (o : Occurrence) : Fault :=
  if o.node.ipn ∈ o.above.map BomNode.ipn then .circularBom (o.route.map BomNode.ipn)
  else .bomTooDeep o.node.ipn limit

end Occurrence
end BomNode

namespace Explosion
open BomNode

theorem walk_ok {limit : ℤ} {place : Place} {n : BomNode} {nodes : List ExplodedNode}
    (h : walk limit place n = .ok nodes) :
    ∃ required below, requirement place n.qty = .ok required ∧
      walkEach limit (place.child n.ipn required) 0 n.children = .ok below ∧
      nodes = entry place n required :: below := by
  obtain ⟨ipn, description, qty, ref, children⟩ := n
  rw [walk] at h
  cases hf : obstacle? limit place ipn with
  | some f => simp [hf] at h
  | none =>
    cases hr : requirement place qty with
    | error e => simp [hf, hr] at h
    | ok required =>
      cases hb : walkEach limit (place.child ipn required) 0 children with
      | error e => simp [hf, hr, hb] at h
      | ok below =>
        simp only [hf, hr, hb, Except.ok.injEq] at h
        exact ⟨required, below, hr, hb, h.symm⟩

theorem walkEach_cons_ok {limit : ℤ} {place : ℕ → Place} {i : ℕ} {n : BomNode}
    {rest : List BomNode} {nodes : List ExplodedNode}
    (h : walkEach limit place i (n :: rest) = .ok nodes) :
    ∃ first others, walk limit (place i) n = .ok first ∧
      walkEach limit place (i + 1) rest = .ok others ∧ nodes = first ++ others := by
  rw [walkEach] at h
  cases hf : walk limit (place i) n with
  | error e => simp [hf] at h
  | ok first =>
    cases ho : walkEach limit place (i + 1) rest with
    | error e => simp [hf, ho] at h
    | ok others =>
      simp only [hf, ho, Except.ok.injEq] at h
      exact ⟨first, others, rfl, rfl, h.symm⟩

mutual

theorem walk_below (limit : ℤ) : ∀ (n : BomNode) (place : Place) (nodes : List ExplodedNode),
    walk limit place n = .ok nodes →
      ∀ m ∈ nodes, place.position <+: m.position ∧ m.depth = m.position.length
  | .mk ipn description qty ref children, place, nodes, h => by
    obtain ⟨required, below, -, hb, rfl⟩ := walk_ok h
    intro m hm
    rcases List.mem_cons.mp hm with rfl | hm
    · exact ⟨List.prefix_rfl, rfl⟩
    · obtain ⟨j, -, hj, hd⟩ := walkEach_below limit children _ 0 below hb m hm
      exact ⟨(List.prefix_append _ _).trans hj, hd⟩

theorem walkEach_below (limit : ℤ) : ∀ (ns : List BomNode) (place : ℕ → Place) (i : ℕ)
    (nodes : List ExplodedNode), walkEach limit place i ns = .ok nodes →
      ∀ m ∈ nodes, ∃ j, i ≤ j ∧ (place j).position <+: m.position ∧
        m.depth = m.position.length
  | [], place, i, nodes, h => by
    obtain rfl : [] = nodes := by simpa [walkEach] using h
    simp
  | n :: rest, place, i, nodes, h => by
    obtain ⟨first, others, hf, ho, rfl⟩ := walkEach_cons_ok h
    intro m hm
    rcases List.mem_append.mp hm with hm | hm
    · exact ⟨i, le_rfl, walk_below limit n (place i) first hf m hm⟩
    · obtain ⟨j, hj, hm⟩ := walkEach_below limit rest place (i + 1) others ho m hm
      exact ⟨j, by omega, hm⟩

end

theorem requirement_finite (position : List ℤ) (path : List String) (needed qty : Decimal) :
    requirement ⟨position, path, .finite needed⟩ qty = Result.ofArithmetic (needed.mul qty) := by
  unfold requirement Number.mul
  simp only [Number.undefined?]
  cases needed.mul qty <;> rfl

theorem requirement_needed {place : Place} {qty d : Decimal}
    (h : requirement place qty = .ok d) : ∃ needed, place.needed = .finite needed := by
  obtain ⟨position, path, needed⟩ := place
  cases needed with
  | finite needed => exact ⟨needed, rfl⟩
  | infinite negative =>
    have hm : (Number.infinite negative).mul (.finite qty) =
        if qty.isZero then .error .invalid
        else .ok (.infinite (negative != qty.negative)) := rfl
    rw [requirement, hm] at h
    cases hz : qty.isZero <;> rw [hz] at h <;> cases h
  | nan negative signaling payload => cases signaling <;> cases h

theorem explode_finite {limit : ℤ} {buildQty : Number} {root : BomNode}
    {nodes : List ExplodedNode} (h : explode limit buildQty root = .ok nodes) :
    ∃ needed, buildQty = .finite needed := by
  obtain ⟨required, below, hr, -, -⟩ := walk_ok h
  exact requirement_needed hr

def visit (limit : ℤ) (position : List ℤ) (path : List String) (needed : Decimal)
    (o : Occurrence) : Result ExplodedNode :=
  let place : Place :=
    ⟨position ++ o.position.map (↑), path ++ o.above.map BomNode.ipn, .finite needed⟩
  match obstacle? limit place o.node.ipn with
  | some f => .error (.fault f)
  | none => (Result.ofArithmetic (quantityAlong needed o.route)).map (entry place o.node)

theorem visit_under (limit : ℤ) (position : List ℤ) (path : List String)
    (needed required : Decimal) (parent : BomNode) (h : needed.mul parent.qty = .ok required)
    (i : ℕ) (o : Occurrence) :
    visit limit position path needed (o.under parent i) =
      visit limit (position ++ [(i : ℤ)]) (path ++ [parent.ipn]) required o := by
  have hq : quantityAlong needed (parent :: o.route) = quantityAlong required o.route := by
    rw [quantityAlong, List.foldlM_cons, h]
    rfl
  unfold visit
  rw [Occurrence.route_under, hq]
  simp [Occurrence.under, obstacle?]
  rfl

mutual

/-- The walk visits the occurrences one by one, in order, until one of them fails. -/
theorem walk_visits (limit : ℤ) : ∀ (n : BomNode) (position : List ℤ) (path : List String)
    (needed : Decimal), walk limit ⟨position, path, .finite needed⟩ n =
      n.occurrences.mapM (visit limit position path needed)
  | .mk ipn description qty ref children, position, path, needed => by
    rw [walk, occurrences, List.mapM_cons, requirement_finite]
    have hv : visit limit position path needed
        ⟨[], [], .mk ipn description qty ref children⟩ =
        match obstacle? limit ⟨position, path, .finite needed⟩ ipn with
        | some f => .error (.fault f)
        | none => (Result.ofArithmetic (needed.mul qty)).map
            (entry ⟨position, path, .finite needed⟩ (.mk ipn description qty ref children)) := by
      simp [visit, Occurrence.route, quantityAlong, BomNode.ipn, BomNode.qty]
    rw [hv]
    cases obstacle? limit ⟨position, path, .finite needed⟩ ipn with
    | some f => rfl
    | none =>
      cases hq : needed.mul qty with
      | error s => rfl
      | ok required =>
        have hbelow := walkEach_visits limit (.mk ipn description qty ref children) position path
          needed required hq 0 children
        rw [BomNode.ipn] at hbelow
        simp only [Result.ofArithmetic, Except.map, hbelow]
        cases (occurrencesEach (.mk ipn description qty ref children) 0 children).mapM
          (visit limit position path needed) <;> rfl

theorem walkEach_visits (limit : ℤ) (parent : BomNode) (position : List ℤ) (path : List String)
    (needed required : Decimal) (h : needed.mul parent.qty = .ok required) :
    ∀ (i : ℕ) (ns : List BomNode),
      walkEach limit (Place.child ⟨position, path, .finite needed⟩ parent.ipn required) i ns =
        (occurrencesEach parent i ns).mapM (visit limit position path needed)
  | i, [] => by
    rw [walkEach, occurrencesEach]
    rfl
  | i, n :: rest => by
    rw [walkEach, occurrencesEach, List.mapM_append, List.mapM_map, Place.child,
      walk_visits limit n, walkEach_visits limit parent position path needed required h (i + 1) rest]
    have hf : visit limit position path needed ∘ Occurrence.under parent i =
        visit limit (position ++ [(i : ℤ)]) (path ++ [parent.ipn]) required := by
      funext o
      exact visit_under limit position path needed required parent h i o
    rw [hf]
    cases n.occurrences.mapM
      (visit limit (position ++ [(i : ℤ)]) (path ++ [parent.ipn]) required) with
    | error e => rfl
    | ok first =>
      cases (occurrencesEach parent (i + 1) rest).mapM (visit limit position path needed) <;> rfl

end

theorem obstacle_at_root {limit : ℤ} {root : BomNode} {o : Occurrence}
    (ho : o ∈ root.occurrences) (needed : Number) :
    obstacle? limit ⟨[] ++ o.position.map (↑), [] ++ o.above.map BomNode.ipn, needed⟩ o.node.ipn =
      if o.Bad limit then some (o.fault limit) else none := by
  have hlen := above_length ho
  by_cases hrep : o.node.ipn ∈ o.above.map BomNode.ipn
  · have hc : ([] ++ o.above.map BomNode.ipn).contains o.node.ipn = true := by simpa using hrep
    have hb : o.Bad limit := Or.inl hrep
    rw [if_pos hb, obstacle?, if_pos hc, Occurrence.fault, if_pos hrep]
    simp [Occurrence.route]
  · have hc : ¬ ([] ++ o.above.map BomNode.ipn).contains o.node.ipn = true := by simpa using hrep
    rw [obstacle?, if_neg hc, Occurrence.fault, if_neg hrep]
    by_cases hdeep : limit < o.above.length
    · have hb : o.Bad limit := Or.inr hdeep
      rw [if_pos hb, if_pos (by simpa [← hlen] using hdeep)]
    · have hb : ¬ o.Bad limit := fun h => h.elim hrep hdeep
      rw [if_neg hb, if_neg (by simpa [← hlen] using hdeep)]

theorem visit_bad {limit : ℤ} {root : BomNode} {o : Occurrence} (ho : o ∈ root.occurrences)
    (hb : o.Bad limit) (buildQty : Decimal) :
    visit limit [] [] buildQty o = .error (.fault (o.fault limit)) := by
  simp only [visit]
  rw [obstacle_at_root ho, if_pos hb]

theorem visit_good {limit : ℤ} {root : BomNode} {o : Occurrence} (ho : o ∈ root.occurrences)
    (hb : ¬ o.Bad limit) (buildQty : Decimal) :
    visit limit [] [] buildQty o = (Result.ofArithmetic (quantityAlong buildQty o.route)).map
      (entry ⟨o.position.map (↑), o.above.map BomNode.ipn, .finite buildQty⟩ o.node) := by
  simp only [visit]
  rw [obstacle_at_root ho, if_neg hb]
  rfl

/-- What an exploded node says of the occurrence that it stands for. -/
structure Describes (buildQty : Decimal) (o : Occurrence) (n : ExplodedNode) : Prop where
  position : n.position = o.position.map (↑)
  path : n.path = o.route.map BomNode.ipn
  depth : n.depth = n.position.length
  depth_path : n.depth = n.path.length - 1
  leaf : n.isLeaf = true ↔ o.node.children = []
  quantity : quantityAlong buildQty o.route = .ok n.qtyRequired
  ipn : n.ipn = o.node.ipn
  description : n.description = o.node.description
  ref : n.ref = o.node.ref
  qtyPer : n.qtyPer = o.node.qty

theorem describes_of_visit {limit : ℤ} {root : BomNode} {o : Occurrence} {buildQty : Decimal}
    {n : ExplodedNode} (ho : o ∈ root.occurrences) (h : visit limit [] [] buildQty o = .ok n) :
    Describes buildQty o n ∧ ¬ o.Bad limit := by
  by_cases hb : o.Bad limit
  · rw [visit_bad ho hb] at h
    cases h
  rw [visit_good ho hb] at h
  cases hq : quantityAlong buildQty o.route with
  | error s =>
    rw [hq] at h
    cases h
  | ok d =>
    rw [hq] at h
    cases h
    have hlen := above_length ho
    refine ⟨⟨rfl, ?_, rfl, ?_, ?_, hq, rfl, rfl, rfl, rfl⟩, hb⟩
    · simp [entry, Occurrence.route]
    · simp [entry, hlen]
    · simp [entry, BomNode.isLeaf]

theorem explode_visits (limit : ℤ) (buildQty : Decimal) (root : BomNode) :
    explode limit (.finite buildQty) root =
      root.occurrences.mapM (visit limit [] [] buildQty) :=
  walk_visits limit root [] [] buildQty

/-- An accepted tree is described occurrence by occurrence, and none of them is bad. -/
theorem explode_describes {limit : ℤ} {buildQty : Decimal} {root : BomNode}
    {nodes : List ExplodedNode} (h : explode limit (.finite buildQty) root = .ok nodes) :
    List.Forall₂ (fun o n => o ∈ root.occurrences ∧ Describes buildQty o n ∧ ¬ o.Bad limit)
      root.occurrences nodes := by
  rw [explode_visits, Traversal.mapM_ok_iff] at h
  exact ((List.forall₂_and_left _ _).mpr ⟨fun o ho => ho, h⟩).imp
    fun o n hn => ⟨hn.1, describes_of_visit hn.1 hn.2⟩

/-- A tree that is not exploded has a first occurrence that stands in the way: it is bad, or the
quantity that is needed of it is too large. -/
theorem explode_stops {limit : ℤ} {buildQty : Decimal} {root : BomNode} {e : Failure}
    (h : explode limit (.finite buildQty) root = .error e) :
    ∃ before o after, root.occurrences = before ++ o :: after ∧ (∀ b ∈ before, ¬ b.Bad limit) ∧
      (o.Bad limit ∧ e = .fault (o.fault limit) ∨
        ¬ o.Bad limit ∧ e = .signal .overflow ∧
          quantityAlong buildQty o.route = .error .overflow) := by
  rw [explode_visits] at h
  obtain ⟨before, o, after, hsplit, hbefore, ho⟩ := Traversal.mapM_eq_error h
  have hmem : ∀ b ∈ before ++ [o], b ∈ root.occurrences := fun b hb => by
    rw [hsplit, List.append_cons]
    exact List.mem_append_left _ hb
  have hgood : ∀ b ∈ before, ¬ b.Bad limit := fun b hb => by
    obtain ⟨n, hn⟩ := hbefore b hb
    exact (describes_of_visit (hmem b (by simp [hb])) hn).2
  refine ⟨before, o, after, hsplit, hgood, ?_⟩
  by_cases hbad : o.Bad limit
  · rw [visit_bad (hmem o (by simp)) hbad] at ho
    exact .inl ⟨hbad, (Except.error.inj ho).symm⟩
  · rw [visit_good (hmem o (by simp)) hbad] at ho
    cases hq : quantityAlong buildQty o.route with
    | ok d =>
      rw [hq] at ho
      cases ho
    | error s =>
      obtain rfl := failsOnly_quantityAlong buildQty o.route s hq
      rw [hq] at ho
      exact .inr ⟨hbad, (Except.error.inj ho).symm, rfl⟩

theorem cast_lt_cast {p q : List ℕ} (h : p < q) :
    p.map ((↑) : ℕ → ℤ) < q.map ((↑) : ℕ → ℤ) := by
  induction p generalizing q with
  | nil =>
    cases q with
    | nil => exact absurd h (lt_irrefl _)
    | cons b q => exact List.nil_lt_cons _ _
  | cons a p ih =>
    cases q with
    | nil => exact absurd h (List.not_lt_nil _)
    | cons b q =>
      rcases List.cons_lt_cons_iff.mp h with hab | ⟨rfl, hpq⟩
      · exact List.cons_lt_cons_iff.mpr (Or.inl (by exact_mod_cast hab))
      · exact List.cons_lt_cons_iff.mpr (Or.inr ⟨rfl, ih hpq⟩)

theorem explode_positions {limit : ℤ} {buildQty : Decimal} {root : BomNode}
    {nodes : List ExplodedNode} (h : explode limit (.finite buildQty) root = .ok nodes) :
    nodes.map ExplodedNode.position =
      root.occurrences.map fun o => o.position.map ((↑) : ℕ → ℤ) :=
  Traversal.map_eq_of_forall₂ (explode_describes h) fun _ _ hd => hd.2.1.position

theorem explode_sorted {limit : ℤ} {buildQty : Decimal} {root : BomNode}
    {nodes : List ExplodedNode} (h : explode limit (.finite buildQty) root = .ok nodes) :
    (nodes.map ExplodedNode.position).Pairwise (· < ·) := by
  rw [explode_positions h, List.pairwise_map]
  exact (occurrences_sorted root).imp cast_lt_cast

theorem explode_nodup {limit : ℤ} {buildQty : Number} {root : BomNode}
    {nodes : List ExplodedNode} (h : explode limit buildQty root = .ok nodes) :
    (nodes.map ExplodedNode.position).Nodup := by
  obtain ⟨needed, rfl⟩ := explode_finite h
  exact (explode_sorted h).imp ne_of_lt

/-- An explosion is decided by the first bad occurrence in pre-order. Without one, the nodes are
those of the tree in pre-order, each once, under the position that leads to it; with one, its
fault is what is left. -/
theorem explode_decided (limit : ℤ) (buildQty : Decimal) (root : BomNode)
    (hq : ∀ o ∈ root.occurrences.takeWhile (fun o => !decide (o.Bad limit)),
      quantityAlong buildQty o.route ≠ .error .overflow) :
    ((∀ o ∈ root.occurrences, ¬ o.Bad limit) →
      ∃ nodes, explode limit (.finite buildQty) root = .ok nodes ∧
        List.Forall₂ (fun o n => root.route? o.position = some o.route ∧ Describes buildQty o n)
          root.occurrences nodes ∧
        (nodes.map ExplodedNode.position).Pairwise (· < ·) ∧
        (nodes.map ExplodedNode.position).Nodup ∧
        ∀ p : List ℕ, p.map (↑) ∈ nodes.map ExplodedNode.position ↔
          (root.route? p).isSome = true) ∧
    ∀ o, root.occurrences.find? (fun o => decide (o.Bad limit)) = some o →
      root.route? o.position = some o.route ∧
      explode limit (.finite buildQty) root = .error (.fault
        (if o.node.ipn ∈ o.above.map BomNode.ipn then .circularBom (o.route.map BomNode.ipn)
        else .bomTooDeep o.node.ipn limit)) := by
  constructor
  · intro hgood
    have hall : root.occurrences.takeWhile (fun o => !decide (o.Bad limit)) = root.occurrences :=
      List.takeWhile_eq_self_iff.mpr fun o ho => by simpa using hgood o ho
    rw [hall] at hq
    obtain ⟨nodes, hnodes⟩ : ∃ nodes, explode limit (.finite buildQty) root = .ok nodes := by
      rw [explode_visits]
      apply Traversal.mapM_total
      intro o ho
      obtain ⟨d, hd⟩ := quantityAlong_ok (hq o ho)
      exact ⟨_, by rw [visit_good ho (hgood o ho), hd]; rfl⟩
    have hsorted := explode_sorted hnodes
    refine ⟨nodes, hnodes, ?_, hsorted, hsorted.imp ne_of_lt, fun p => ?_⟩
    · exact (explode_describes hnodes).imp
        fun o n h => ⟨(mem_occurrences root o).mp h.1, h.2.1⟩
    · rw [explode_positions hnodes, List.mem_map, route_isSome]
      constructor
      · rintro ⟨o, ho, hp⟩
        exact ⟨o, ho, List.map_injective_iff.mpr Nat.cast_injective hp⟩
      · rintro ⟨o, ho, rfl⟩
        exact ⟨o, ho, rfl⟩
  · intro o ho
    obtain ⟨hbad, before, after, hsplit, hbefore⟩ := List.find?_eq_some_iff_append.mp ho
    have hmem : o ∈ root.occurrences := by simp [hsplit]
    have htake : before <+: root.occurrences.takeWhile (fun o => !decide (o.Bad limit)) := by
      rw [hsplit, List.takeWhile_append_of_pos hbefore]
      exact List.prefix_append _ _
    refine ⟨(mem_occurrences root o).mp hmem, ?_⟩
    rw [explode_visits, hsplit]
    apply Traversal.mapM_first_error
    · intro b hb
      obtain ⟨d, hd⟩ := quantityAlong_ok (hq b (htake.subset hb))
      have hbm : b ∈ root.occurrences := by simp [hsplit, hb]
      exact ⟨_, by rw [visit_good hbm (by simpa using hbefore b hb), hd]; rfl⟩
    · exact visit_bad hmem (by simpa using hbad) buildQty

def loopedTree : BomNode :=
  .mk "ASY-1" "" ⟨false, 2, 0⟩ none
    [.mk "PCA-1" "" ⟨false, 15, -1⟩ none [.mk "R-1" "" ⟨false, 4, 0⟩ none []],
      .mk "PCA-2" "" Decimal.one none [.mk "ASY-1" "" Decimal.one none []]]

theorem explode_loopedTree :
    (∀ o ∈ loopedTree.occurrences.takeWhile (fun o => !decide (o.Bad 20)),
      quantityAlong Decimal.hundred o.route ≠ .error .overflow) ∧
    explode 20 (.finite Decimal.hundred) loopedTree =
      .error (.fault (.circularBom ["ASY-1", "PCA-2", "ASY-1"])) := by
  have hq : ∀ o ∈ loopedTree.occurrences.takeWhile (fun o => !decide (o.Bad 20)),
      quantityAlong Decimal.hundred o.route ≠ .error .overflow := by decide +kernel
  refine ⟨hq, ?_⟩
  have hfirst : loopedTree.occurrences.find? (fun o => decide (o.Bad 20)) =
      loopedTree.occurrences[4]? := by cbv
  exact ((explode_decided 20 Decimal.hundred loopedTree hq).2 _ hfirst).2

def fixture : BomNode :=
  .mk "ASY-1" "" ⟨false, 2, 0⟩ none
    [.mk "PCA-1" "" ⟨false, 3, 0⟩ none [.mk "R-1" "" ⟨false, 4, 0⟩ none []],
      .mk "SCR-1" "" ⟨false, 5, -1⟩ none []]

def fixtureNodes : List ExplodedNode :=
  [⟨["ASY-1"], [], "ASY-1", "", none, 0, ⟨false, 2, 0⟩, ⟨false, 10, 0⟩, false⟩,
    ⟨["ASY-1", "PCA-1"], [0], "PCA-1", "", none, 1, ⟨false, 3, 0⟩, ⟨false, 30, 0⟩, false⟩,
    ⟨["ASY-1", "PCA-1", "R-1"], [0, 0], "R-1", "", none, 2, ⟨false, 4, 0⟩, ⟨false, 120, 0⟩, true⟩,
    ⟨["ASY-1", "SCR-1"], [1], "SCR-1", "", none, 1, ⟨false, 5, -1⟩, ⟨false, 50, -1⟩, true⟩]

theorem explode_fixture :
    explode 20 (.finite ⟨false, 5, 0⟩) fixture = .ok fixtureNodes := by decide +kernel

end Explosion
end BomEngine
