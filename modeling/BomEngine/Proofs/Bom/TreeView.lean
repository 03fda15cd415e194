import BomEngine.Bom.TreeView
import BomEngine.Proofs.Bom.Explosion

/-!
# What is to be seen of a tree

Each toggle turns the state of its own position over and leaves all others. The rows
come from one scan with a depth below which nodes are hidden. It gives the nodes all
of whose ancestors are open, because in pre-order what lies below a node is all that
follows it until the depth is back at its own.
-/

set_option autoImplicit false

namespace BomEngine
namespace TreeView

def afterToggle (v : TreeView) (p : List ℤ) : TreeView :=
  match v.toggle p with
  | .ok (_, next) => next
  | .error _ => v

def afterToggles (v : TreeView) (ps : List (List ℤ)) : TreeView := ps.foldl afterToggle v

theorem toggle_eq (v : TreeView) (p : List ℤ) :
    v.toggle p = (v.isExpanded p).map fun state => (!state, v.afterToggle p) := by
  unfold afterToggle
  cases h : v.isExpanded p <;> simp [toggle, h, Except.map]

@[simp] theorem afterToggle_nodes (v : TreeView) (p : List ℤ) :
    (v.afterToggle p).nodes = v.nodes := by
  unfold afterToggle
  cases h : v.isExpanded p <;> simp [toggle, h]

@[simp] theorem afterToggles_nodes (v : TreeView) (ps : List (List ℤ)) :
    (v.afterToggles ps).nodes = v.nodes := by
  induction ps generalizing v with
  | nil => rfl
  | cons p ps ih => exact (ih _).trans (v.afterToggle_nodes p)

theorem node_position {v : TreeView} {p : List ℤ} {n : ExplodedNode} (h : v.node? p = some n) :
    n.position = p := by
  simpa using List.find?_some h

theorem isExpanded_unknown {v : TreeView} {p : List ℤ}
    (h : p ∉ v.nodes.map ExplodedNode.position) : v.isExpanded p = .error (unknown p) := by
  have hn : v.node? p = none := by
    apply List.find?_eq_none.mpr
    intro n hn he
    exact h (List.mem_map.mpr ⟨n, hn, by simpa using he⟩)
  rw [isExpanded, hn]

theorem isExpanded_of_mem {v : TreeView} {n : ExplodedNode}
    (hp : (v.nodes.map ExplodedNode.position).Nodup) (h : n ∈ v.nodes) :
    v.isExpanded n.position = .ok (v.stateOf n) := by
  have hn : v.node? n.position = some n := by
    cases hf : v.node? n.position with
    | none => simpa using List.find?_eq_none.mp hf n h
    | some m =>
      have hm := List.mem_of_find?_eq_some hf
      exact congrArg some (List.inj_on_of_nodup_map hp hm h (node_position hf))
  rw [isExpanded, hn]

def choose (v : TreeView) (p : List ℤ) (state : Bool) : TreeView :=
  { v with chosen := (p, state) :: v.chosen }

@[simp] theorem choose_node? (v : TreeView) (p q : List ℤ) (state : Bool) :
    (v.choose p state).node? q = v.node? q := rfl

theorem choose_stateOf (v : TreeView) (p : List ℤ) (state : Bool) (n : ExplodedNode) :
    (v.choose p state).stateOf n = if n.position = p then state else v.stateOf n := by
  by_cases h : n.position = p
  · simp [stateOf, choose, h]
  · have hne : (n.position == p) = false := by simpa using h
    rw [if_neg h, stateOf, stateOf, choose, List.lookup_cons, hne]

theorem isExpanded_afterToggle (v : TreeView) (p q : List ℤ) :
    (v.afterToggle p).isExpanded q =
      if p = q then (v.isExpanded q).map not else v.isExpanded q := by
  cases hp : v.node? p with
  | none =>
    have hv : v.afterToggle p = v := by simp [afterToggle, toggle, isExpanded, hp]
    rw [hv]
    split
    · next h => simp [isExpanded, ← h, hp, Except.map]
    · rfl
  | some n =>
    have hv : v.afterToggle p = v.choose p !v.stateOf n := by
      simp [afterToggle, toggle, isExpanded, hp, choose]
    rw [hv, isExpanded, isExpanded, choose_node?]
    by_cases h : p = q
    · rw [if_pos h, ← h, hp]
      simp [choose_stateOf, node_position hp, Except.map]
    · rw [if_neg h]
      cases hq : v.node? q with
      | none => rfl
      | some m =>
        have hm : m.position ≠ p := node_position hq ▸ Ne.symm h
        simp [choose_stateOf, hm]

theorem isExpanded_afterToggles (v : TreeView) (ps : List (List ℤ)) (q : List ℤ) :
    (v.afterToggles ps).isExpanded q = (v.isExpanded q).map not^[ps.count q] := by
  induction ps generalizing v with
  | nil => cases h : v.isExpanded q <;> simp [afterToggles, h, Except.map]
  | cons p ps ih =>
    have hstep := ih (v.afterToggle p)
    rw [isExpanded_afterToggle] at hstep
    rw [afterToggles, List.foldl_cons]
    apply hstep.trans
    by_cases h : p = q
    · rw [if_pos h, h, List.count_cons_self, Function.iterate_succ]
      cases v.isExpanded q <;> rfl
    · rw [if_neg h, List.count_cons_of_ne h]

/-- All nodes above a position are there and open. -/
def Revealed (v : TreeView) (p : List ℤ) : Prop :=
  ∀ q, q <+: p → q ≠ p → v.isExpanded q = .ok true

theorem revealed_iff (v : TreeView) (p : List ℤ) :
    (∀ q ∈ p.inits, q ≠ p → v.isExpanded q = .ok true) ↔ v.Revealed p := by
  simp only [List.mem_inits, Revealed]

instance (v : TreeView) : DecidablePred v.Revealed := fun p =>
  decidable_of_iff _ (v.revealed_iff p)

theorem revealed_nil (v : TreeView) : v.Revealed [] := fun _ h hne =>
  absurd (List.prefix_nil.mp h) hne

theorem revealed_child {v : TreeView} {p : List ℤ} (h : v.Revealed p)
    (hp : v.isExpanded p = .ok true) (i : ℤ) : v.Revealed (p ++ [i]) := by
  intro q hq hne
  rcases List.prefix_concat_iff.mp hq with rfl | hq
  · exact absurd rfl hne
  · by_cases he : q = p
    · rw [he, hp]
    · exact h q hq he

theorem rowsFrom_hidden {v : TreeView} {depth : ℤ} {ns : List ExplodedNode}
    (h : ∀ n ∈ ns, depth < n.depth) (rest : List ExplodedNode) :
    v.rowsFrom (some depth) (ns ++ rest) = v.rowsFrom (some depth) rest := by
  induction ns with
  | nil => rfl
  | cons n ns ih =>
    have hn : depth < n.depth := h n (by simp)
    rw [List.cons_append, rowsFrom, if_pos (by simpa using hn)]
    exact ih fun m hm => h m (by simp [hm])

theorem rowsFrom_resumed {v : TreeView} {depth : ℤ} {rest : List ExplodedNode}
    (h : ∀ n ∈ rest.head?, n.depth ≤ depth) :
    v.rowsFrom (some depth) rest = v.rowsFrom none rest := by
  cases rest with
  | nil => rfl
  | cons n rest =>
    have hn : ¬ depth < n.depth := not_lt.mpr (h n rfl)
    rw [rowsFrom, rowsFrom, if_neg (by simpa using hn), if_neg (by simp)]

def revealedRows (v : TreeView) (ns : List ExplodedNode) : List TreeRow :=
  (ns.filter fun n => v.Revealed n.position).map fun n => ⟨n, v.stateOf n⟩

theorem revealedRows_append (v : TreeView) (ns ms : List ExplodedNode) :
    v.revealedRows (ns ++ ms) = v.revealedRows ns ++ v.revealedRows ms := by
  simp [revealedRows]

theorem revealedRows_cons {v : TreeView} {n : ExplodedNode} (h : v.Revealed n.position)
    (ns : List ExplodedNode) : v.revealedRows (n :: ns) = ⟨n, v.stateOf n⟩ :: v.revealedRows ns := by
  simp [revealedRows, h]

theorem revealedRows_below {v : TreeView} {p : List ℤ} {ns : List ExplodedNode}
    (hp : v.isExpanded p = .ok false) (h : ∀ n ∈ ns, p <+: n.position ∧ p ≠ n.position) :
    v.revealedRows ns = [] := by
  have hf : ns.filter (fun n => v.Revealed n.position) = [] := by
    apply List.filter_eq_nil_iff.mpr
    intro n hn hr
    have hopen := of_decide_eq_true hr p (h n hn).1 (h n hn).2
    rw [hp] at hopen
    cases hopen
  rw [revealedRows, hf]
  rfl

end TreeView

namespace Explosion
open BomNode

theorem walkEach_head {limit : ℤ} {place : ℕ → Place} {depth : ℤ} {i : ℕ} {ns : List BomNode}
    {nodes rest : List ExplodedNode} (hp : ∀ j, (place j).position.length = depth)
    (h : walkEach limit place i ns = .ok nodes) (hr : ∀ m ∈ rest.head?, m.depth ≤ depth) :
    ∀ m ∈ (nodes ++ rest).head?, m.depth ≤ depth := by
  cases ns with
  | nil =>
    obtain rfl : [] = nodes := by simpa [walkEach] using h
    exact hr
  | cons n ns =>
    obtain ⟨first, others, hf, -, rfl⟩ := walkEach_cons_ok h
    obtain ⟨required, below, -, -, rfl⟩ := walk_ok hf
    intro m hm
    obtain rfl : entry (place i) n required = m := by simpa using hm
    exact (hp i).le

theorem walkEach_child_below {limit : ℤ} {place : Place} {ipn : String} {required : Decimal}
    {i : ℕ} {ns : List BomNode} {below : List ExplodedNode}
    (h : walkEach limit (place.child ipn required) i ns = .ok below) :
    ∀ m ∈ below, (place.position <+: m.position ∧ place.position ≠ m.position) ∧
      (place.position.length : ℤ) < m.depth := by
  intro m hm
  obtain ⟨j, -, hj, hd⟩ := walkEach_below limit ns _ i below h m hm
  have hlen : place.position.length < m.position.length := by
    simpa [Place.child] using hj.length_le
  refine ⟨⟨(List.prefix_append _ _).trans hj, fun he => ?_⟩, ?_⟩
  · rw [he] at hlen
    exact lt_irrefl _ hlen
  · rw [hd]
    exact_mod_cast hlen

mutual

/-- Below a place that is to be seen, the scan gives the nodes that are, and goes on with
what follows as if it began there. -/
theorem walk_rows (v : TreeView) (limit : ℤ) : ∀ (n : BomNode) (place : Place)
    (nodes rest : List ExplodedNode), walk limit place n = .ok nodes →
    (∀ m ∈ nodes, v.isExpanded m.position = .ok (v.stateOf m)) → v.Revealed place.position →
    (∀ m ∈ rest.head?, m.depth ≤ place.position.length) →
    v.rowsFrom none (nodes ++ rest) = v.revealedRows nodes ++ v.rowsFrom none rest
  | .mk ipn description qty ref children, place, nodes, rest, h, hs, hseen, hrest => by
    obtain ⟨required, below, -, hb, rfl⟩ := walk_ok h
    have hstate := hs (entry place (.mk ipn description qty ref children) required) (by simp)
    rw [TreeView.revealedRows_cons hseen, List.cons_append, List.cons_append,
      TreeView.rowsFrom, if_neg (by simp)]
    apply congrArg (List.cons _)
    cases hopen : v.stateOf (entry place (.mk ipn description qty ref children) required) with
    | true =>
      rw [Bool.true_or, if_pos rfl]
      rw [hopen] at hstate
      exact walkEach_rows v limit children (place.child ipn required) place.position.length 0
        below rest (fun j => by simp [Place.child]) hb (fun m hm => hs m (by simp [hm]))
        (fun j => TreeView.revealed_child hseen hstate j) hrest
    | false =>
      have hbelow := walkEach_child_below hb
      rw [hopen] at hstate
      rw [TreeView.revealedRows_below hstate fun m hm => (hbelow m hm).1, List.nil_append]
      cases children with
      | nil =>
        obtain rfl : [] = below := by simpa [BomNode.children, walkEach] using hb
        rfl
      | cons c cs =>
        have hinner : (entry place (.mk ipn description qty ref (c :: cs)) required).isLeaf =
            false := rfl
        rw [hinner]
        exact (TreeView.rowsFrom_hidden (fun m hm => (hbelow m hm).2) rest).trans
          (TreeView.rowsFrom_resumed hrest)

theorem walkEach_rows (v : TreeView) (limit : ℤ) : ∀ (ns : List BomNode) (place : ℕ → Place)
    (depth : ℤ) (i : ℕ) (nodes rest : List ExplodedNode),
    (∀ j, ((place j).position.length : ℤ) = depth + 1) →
    walkEach limit place i ns = .ok nodes →
    (∀ m ∈ nodes, v.isExpanded m.position = .ok (v.stateOf m)) →
    (∀ j, v.Revealed (place j).position) →
    (∀ m ∈ rest.head?, m.depth ≤ depth) →
    v.rowsFrom none (nodes ++ rest) = v.revealedRows nodes ++ v.rowsFrom none rest
  | [], place, depth, i, nodes, rest, _, h, _, _, _ => by
    obtain rfl : [] = nodes := by simpa [walkEach] using h
    rfl
  | n :: ns, place, depth, i, nodes, rest, hp, h, hs, hseen, hrest => by
    obtain ⟨first, others, hf, ho, rfl⟩ := walkEach_cons_ok h
    have hnext : ∀ m ∈ (others ++ rest).head?, m.depth ≤ (place i).position.length := by
      rw [hp i]
      exact walkEach_head hp ho fun m hm => (hrest m hm).trans (by omega)
    have hfirst := walk_rows v limit n (place i) first (others ++ rest) hf
      (fun m hm => hs m (by simp [hm])) (hseen i) hnext
    have hothers := walkEach_rows v limit ns place depth (i + 1) others rest hp ho
      (fun m hm => hs m (by simp [hm])) hseen hrest
    rw [List.append_assoc, hfirst, hothers, TreeView.revealedRows_append, List.append_assoc]

end

end Explosion

namespace TreeView
open Explosion

theorem visibleRows_eq {limit : ℤ} {buildQty : Number} {root : BomNode} {v : TreeView}
    (h : explode limit buildQty root = .ok v.nodes) :
    v.visibleRows = v.revealedRows v.nodes := by
  have hs : ∀ m ∈ v.nodes, v.isExpanded m.position = .ok (v.stateOf m) := fun m hm =>
    isExpanded_of_mem (explode_nodup h) hm
  have hrows := walk_rows v limit root _ v.nodes [] h hs v.revealed_nil (by simp)
  simpa [visibleRows, rowsFrom] using hrows

theorem visibleRows_congr {limit : ℤ} {buildQty : Number} {root : BomNode} {v w : TreeView}
    (h : explode limit buildQty root = .ok v.nodes) (hn : w.nodes = v.nodes)
    (hs : ∀ p, w.isExpanded p = v.isExpanded p) : w.visibleRows = v.visibleRows := by
  have hw : explode limit buildQty root = .ok w.nodes := hn ▸ h
  rw [visibleRows_eq h, visibleRows_eq hw, hn, revealedRows, revealedRows]
  have hr : ∀ p, w.Revealed p ↔ v.Revealed p := fun p => by simp only [Revealed, hs]
  rw [List.filter_congr fun n _ => decide_eq_decide.mpr (hr n.position)]
  apply List.map_congr_left
  intro n hm
  have hmem := (List.mem_filter.mp hm).1
  have hstate := hs n.position
  rw [isExpanded_of_mem (explode_nodup h) hmem,
    isExpanded_of_mem (explode_nodup hw) (hn ▸ hmem)] at hstate
  rw [Except.ok.inj hstate]

theorem isExpanded_ofNodes {limit : ℤ} {buildQty : Number} {root : BomNode}
    {nodes : List ExplodedNode} (h : explode limit buildQty root = .ok nodes) (expandedDepth : ℤ)
    {p : List ℤ} (hp : p ∈ nodes.map ExplodedNode.position) :
    (ofNodes nodes expandedDepth).isExpanded p =
      .ok (decide ((p.length : ℤ) < expandedDepth)) := by
  obtain ⟨n, hn, rfl⟩ := List.mem_map.mp hp
  have hd := (walk_below limit root _ nodes h n hn).2
  rw [isExpanded_of_mem (v := ofNodes nodes expandedDepth) (explode_nodup h) hn, ← hd]
  rfl

theorem isExpanded_reopened (v : TreeView) (p q : List ℤ) (between : List (List ℤ)) :
    (v.afterToggles (p :: between ++ [p])).isExpanded q =
      (v.afterToggles between).isExpanded q := by
  rw [isExpanded_afterToggles, isExpanded_afterToggles]
  by_cases h : p = q
  · rw [h, List.count_append, List.count_cons_self, List.count_singleton_self]
    cases v.isExpanded q with
    | error f => rfl
    | ok state => simp [Except.map, Function.iterate_succ_apply']
  · rw [List.count_append, List.count_cons_of_ne h, List.count_singleton,
      if_neg (by simpa using h), Nat.add_zero]

/-- After any toggles of an accepted tree, a node is open if it began so, turned over once for
each toggle of its position; the rows are the nodes, in order, that have only open nodes above
them. A toggle of no node fails and changes nothing, one of a node changes no other, and a second
one brings back what was to be seen. -/
theorem afterToggles_view (limit : ℤ) (buildQty : Number) (root : BomNode)
    (nodes : List ExplodedNode) (expandedDepth : ℤ) (toggles : List (List ℤ))
    (h : explode limit buildQty root = .ok nodes) :
    let v := (ofNodes nodes expandedDepth).afterToggles toggles
    (∀ p ∈ nodes.map ExplodedNode.position, v.isExpanded p =
      .ok (not^[toggles.count p] (decide ((p.length : ℤ) < expandedDepth)))) ∧
    (v.visibleRows.map TreeRow.node = nodes.filter (fun n => v.Revealed n.position) ∧
      ∀ r ∈ v.visibleRows, v.isExpanded r.node.position = .ok r.expanded) ∧
    (∀ p, p ∉ nodes.map ExplodedNode.position →
      v.toggle p = .error (unknown p) ∧ (unknown p).isNotFound = true ∧ v.afterToggle p = v) ∧
    (∀ p ∈ nodes.map ExplodedNode.position, ∃ state next,
      v.isExpanded p = .ok state ∧ v.toggle p = .ok (!state, next) ∧ v.afterToggle p = next ∧
      next.isExpanded p = .ok (!state) ∧ ∀ q, q ≠ p → next.isExpanded q = v.isExpanded q) ∧
    ∀ (p : List ℤ) (between : List (List ℤ)),
      (∀ q, (v.afterToggles (p :: between ++ [p])).isExpanded q =
        (v.afterToggles between).isExpanded q) ∧
      (v.afterToggles (p :: between ++ [p])).visibleRows =
        (v.afterToggles between).visibleRows := by
  intro v
  have hv : v.nodes = nodes := afterToggles_nodes _ _
  have hnodes : explode limit buildQty root = .ok v.nodes := hv ▸ h
  have hstate : ∀ p ∈ nodes.map ExplodedNode.position, v.isExpanded p =
      .ok (not^[toggles.count p] (decide ((p.length : ℤ) < expandedDepth))) := fun p hp => by
    rw [isExpanded_afterToggles, isExpanded_ofNodes h expandedDepth hp]
    rfl
  refine ⟨hstate, ⟨?_, fun r hr => ?_⟩, fun p hp => ?_, fun p hp => ?_, fun p between => ?_⟩
  · rw [visibleRows_eq hnodes, revealedRows, List.map_map, hv]
    exact List.map_id _
  · rw [visibleRows_eq hnodes, revealedRows] at hr
    obtain ⟨n, hn, rfl⟩ := List.mem_map.mp hr
    exact isExpanded_of_mem (explode_nodup hnodes) (List.mem_filter.mp hn).1
  · have ht : v.toggle p = .error (unknown p) := by
      rw [toggle_eq, isExpanded_unknown (hv ▸ hp)]
      rfl
    refine ⟨ht, rfl, ?_⟩
    rw [afterToggle, ht]
  · have hp' := hstate p hp
    generalize not^[toggles.count p] (decide ((p.length : ℤ) < expandedDepth)) = state at hp'
    refine ⟨state, v.afterToggle p, hp', ?_, rfl, ?_, fun q hq => ?_⟩
    · rw [toggle_eq, hp']
      rfl
    · rw [isExpanded_afterToggle, if_pos rfl, hp']
      rfl
    · rw [isExpanded_afterToggle, if_neg hq.symm]
  · have hsame := fun q => v.isExpanded_reopened p q between
    have hbetween : explode limit buildQty root = .ok (v.afterToggles between).nodes := by
      rw [afterToggles_nodes, hnodes]
    exact ⟨hsame, visibleRows_congr hbetween
      ((afterToggles_nodes v _).trans (afterToggles_nodes v between).symm) hsame⟩

theorem afterToggles_view_fixture :
    explode 20 (.finite ⟨false, 5, 0⟩) fixture = .ok fixtureNodes ∧
    ((ofNodes fixtureNodes 2).afterToggles [[0], [9, 9], [], [0], [0]]).isExpanded [0] =
      .ok false := by
  refine ⟨explode_fixture, ?_⟩
  exact (afterToggles_view 20 _ fixture fixtureNodes 2 [[0], [9, 9], [], [0], [0]]
    explode_fixture).1 [0] (by decide)

end TreeView
end BomEngine
