import BomEngine.Bom.Node
import Mathlib

/-!
# Occurrences

The nodes of a tree in pre-order, each with the child indexes that lead to it and
the nodes above it. Every position that leads to a node is listed once, and the
positions come in lexicographic order, which is what pre-order means for them.
-/

set_option autoImplicit false

namespace BomEngine.BomNode

structure Occurrence where
  position : List ℕ
  above : List BomNode
  node : BomNode

namespace Occurrence

def route (o : Occurrence) : List BomNode := o.above ++ [o.node]

def under (parent : BomNode) (i : ℕ) (o : Occurrence) : Occurrence :=
  ⟨i :: o.position, parent :: o.above, o.node⟩

@[simp] theorem route_under (parent : BomNode) (i : ℕ) (o : Occurrence) :
    (o.under parent i).route = parent :: o.route := rfl

end Occurrence

mutual

def occurrences : BomNode → List Occurrence
  | mk ipn description qty ref children =>
    ⟨[], [], mk ipn description qty ref children⟩ ::
      occurrencesEach (mk ipn description qty ref children) 0 children

def occurrencesEach (parent : BomNode) (i : ℕ) : List BomNode → List Occurrence
  | [] => []
  | n :: rest => (occurrences n).map (Occurrence.under parent i) ++
      occurrencesEach parent (i + 1) rest

end

def route? : BomNode → List ℕ → Option (List BomNode)
  | n, [] => some [n]
  | n, i :: rest => n.children[i]?.bind fun c => (route? c rest).map (n :: ·)

theorem occurrences_cons (n : BomNode) :
    n.occurrences = ⟨[], [], n⟩ :: occurrencesEach n 0 n.children := by
  cases n
  rw [occurrences, children]

theorem mem_occurrencesEach {parent : BomNode} {i : ℕ} {ns : List BomNode} {o : Occurrence} :
    o ∈ occurrencesEach parent i ns ↔
      ∃ (j : ℕ) (c : BomNode) (o' : Occurrence),
        ns[j]? = some c ∧ o' ∈ c.occurrences ∧ o = o'.under parent (i + j) := by
  induction ns generalizing i with
  | nil => simp [occurrencesEach]
  | cons n rest ih =>
    rw [occurrencesEach, List.mem_append, List.mem_map, ih]
    constructor
    · rintro (⟨o', ho, rfl⟩ | ⟨j, c, o', hc, ho, rfl⟩)
      · exact ⟨0, n, o', rfl, ho, rfl⟩
      · exact ⟨j + 1, c, o', hc, ho, by rw [Nat.add_right_comm, Nat.add_assoc]⟩
    · rintro ⟨j, c, o', hc, ho, rfl⟩
      cases j with
      | zero =>
        obtain rfl : n = c := by simpa using hc
        exact Or.inl ⟨o', ho, rfl⟩
      | succ j => exact Or.inr ⟨j, c, o', hc, ho, by rw [Nat.add_right_comm, Nat.add_assoc]⟩

theorem mem_occurrences (n : BomNode) (o : Occurrence) :
    o ∈ n.occurrences ↔ n.route? o.position = some o.route := by
  obtain ⟨position, above, node⟩ := o
  induction position generalizing n above with
  | nil =>
    rw [occurrences_cons, List.mem_cons, mem_occurrencesEach, route?]
    constructor
    · rintro (h | ⟨j, c, o', -, -, h⟩)
      · obtain ⟨rfl, rfl⟩ : above = [] ∧ node = n := by simpa using h
        rfl
      · simp [Occurrence.under] at h
    · intro h
      cases above with
      | nil => simp_all [Occurrence.route]
      | cons a as => simp [Occurrence.route] at h
  | cons i rest ih =>
    rw [occurrences_cons, List.mem_cons, mem_occurrencesEach, route?]
    simp only [Option.bind_eq_some_iff, Option.map_eq_some_iff]
    constructor
    · rintro (h | ⟨j, c, o', hc, ho, h⟩)
      · simp at h
      · obtain ⟨⟨hij, rfl⟩, rfl, rfl⟩ : (i = j ∧ rest = o'.position) ∧
            above = n :: o'.above ∧ node = o'.node := by simpa [Occurrence.under] using h
        exact ⟨c, hij ▸ hc, o'.route, (ih c o'.above).mp ho, rfl⟩
    · rintro ⟨c, hc, r, hr, h⟩
      cases above with
      | nil =>
        exfalso
        cases rest with
        | nil => simp_all [Occurrence.route, route?]
        | cons j rest =>
          simp only [route?, Option.bind_eq_some_iff, Option.map_eq_some_iff] at hr
          obtain ⟨-, -, r', -, rfl⟩ := hr
          simp [Occurrence.route] at h
      | cons a as =>
        obtain ⟨rfl, rfl⟩ : n = a ∧ r = as ++ [node] := by simpa [Occurrence.route] using h
        exact Or.inr ⟨i, c, ⟨rest, as, node⟩, hc, (ih c as).mpr hr, by simp [Occurrence.under]⟩

theorem route_length {n : BomNode} {p : List ℕ} {r : List BomNode} (h : n.route? p = some r) :
    r.length = p.length + 1 := by
  induction p generalizing n r with
  | nil =>
    obtain rfl : [n] = r := by simpa [route?] using h
    rfl
  | cons i p ih =>
    simp only [route?, Option.bind_eq_some_iff, Option.map_eq_some_iff] at h
    obtain ⟨c, -, r', hr, rfl⟩ := h
    simp [ih hr]

theorem above_length {n : BomNode} {o : Occurrence} (h : o ∈ n.occurrences) :
    o.above.length = o.position.length := by
  have := route_length ((mem_occurrences n o).mp h)
  simpa [Occurrence.route] using this

theorem route_isSome (n : BomNode) (p : List ℕ) :
    (n.route? p).isSome = true ↔ ∃ o ∈ n.occurrences, o.position = p := by
  constructor
  · intro h
    obtain ⟨r, hr⟩ := Option.isSome_iff_exists.mp h
    have hr0 : r ≠ [] := by
      rintro rfl
      simpa using route_length hr
    refine ⟨⟨p, r.dropLast, r.getLast hr0⟩, (mem_occurrences n _).mpr ?_, rfl⟩
    rw [Occurrence.route, List.dropLast_append_getLast hr0]
    exact hr
  · rintro ⟨o, ho, rfl⟩
    rw [(mem_occurrences n o).mp ho]
    rfl

theorem occurrencesEach_head {parent : BomNode} {i : ℕ} {ns : List BomNode} {o : Occurrence}
    (h : o ∈ occurrencesEach parent i ns) : ∃ j p, i ≤ j ∧ o.position = j :: p := by
  obtain ⟨j, c, o', -, -, rfl⟩ := mem_occurrencesEach.mp h
  exact ⟨i + j, o'.position, by omega, rfl⟩

mutual

theorem occurrences_sorted : ∀ n : BomNode,
    n.occurrences.Pairwise fun o o' => o.position < o'.position
  | mk ipn description qty ref children => by
    rw [occurrences, List.pairwise_cons]
    refine ⟨fun o ho => ?_, occurrencesEach_sorted _ 0 children⟩
    obtain ⟨j, p, -, hp⟩ := occurrencesEach_head ho
    rw [hp]
    exact List.nil_lt_cons j p

theorem occurrencesEach_sorted (parent : BomNode) : ∀ (i : ℕ) (ns : List BomNode),
    (occurrencesEach parent i ns).Pairwise fun o o' => o.position < o'.position
  | _, [] => by simp [occurrencesEach]
  | i, n :: rest => by
    rw [occurrencesEach, List.pairwise_append, List.pairwise_map]
    refine ⟨?_, occurrencesEach_sorted parent (i + 1) rest, ?_⟩
    · apply (occurrences_sorted n).imp
      intro o o' h
      exact List.cons_lt_cons_iff.mpr (Or.inr ⟨rfl, h⟩)
    · intro a ha b hb
      obtain ⟨o, -, rfl⟩ := List.mem_map.mp ha
      obtain ⟨j, p, hj, hp⟩ := occurrencesEach_head hb
      rw [hp]
      exact List.cons_lt_cons_iff.mpr (Or.inl (by omega))

end

end BomEngine.BomNode
