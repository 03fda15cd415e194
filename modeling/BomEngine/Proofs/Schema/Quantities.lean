import BomEngine.Proofs.Bom.Occurrence
import BomEngine.Proofs.Decimal.Value
import BomEngine.Proofs.Schema.Acceptance

/-!
# Quantities of accepted trees

A bill of materials that passes its check has a quantity above zero at every node, for the children
of a node are checked as the node is.
-/

set_option autoImplicit false

namespace BomEngine

open Verdict

theorem Check.positive_accepted {j : Json} {d : Decimal} (h : Check.positive j = .accepted d) :
    0 < d.value := by
  obtain ⟨-, hp⟩ := demand_eq_accepted.mp h
  split at hp
  · next hpos => exact (Decimal.isPositive_iff d).mp hpos
  · cases hp

theorem Fields.quantity_accepted {fs : Fields} {d : Decimal}
    (h : fs.withDefault "qty" Decimal.one (Check.orNull Decimal.one Check.positive) =
      .accepted d) : 0 < d.value := by
  have hone : 0 < Decimal.one.value := by rw [Decimal.value_one]; exact one_pos
  unfold Fields.withDefault at h
  split at h
  · next j _ =>
    rw [under_eq_accepted] at h
    cases j with
    | null =>
      cases h
      exact hone
    | _ =>
      rw [Check.orNull] at h
      · exact Check.positive_accepted h
      · exact nofun
  · cases h
    exact hone

namespace BomNode

def Used (root : BomNode) : Prop := ∀ o ∈ root.occurrences, ∀ n ∈ o.route, 0 < n.qty.value

theorem used_mk {ipn description : String} {qty : Decimal} {ref : Option String}
    {children : List BomNode} (hqty : 0 < qty.value) (h : ∀ c ∈ children, c.Used) :
    (mk ipn description qty ref children).Used := by
  intro o ho n hn
  rw [occurrences_cons] at ho
  rcases List.mem_cons.mp ho with rfl | ho
  · obtain rfl : n = mk ipn description qty ref children := by simpa [Occurrence.route] using hn
    exact hqty
  · obtain ⟨j, c, o', hc, ho', rfl⟩ := mem_occurrencesEach.mp ho
    rw [Occurrence.route_under] at hn
    rcases List.mem_cons.mp hn with rfl | hn
    · exact hqty
    · exact h c (List.mem_of_getElem? hc) o' ho' n hn

mutual

theorem check_used : ∀ (j : Json) (root : BomNode), check j = .accepted root → root.Used
  | .obj fields, root, h => by
    rw [check] at h
    obtain ⟨_, children, h₄, hchildren, rfl⟩ := seq_eq_accepted.mp h
    obtain ⟨_, ref, h₃, -, rfl⟩ := seq_eq_accepted.mp h₄
    obtain ⟨_, qty, h₂, hqty, rfl⟩ := seq_eq_accepted.mp h₃
    obtain ⟨_, description, h₁, -, rfl⟩ := seq_eq_accepted.mp h₂
    obtain ⟨ipn, -, rfl⟩ := map_eq_accepted.mp h₁
    exact used_mk (Fields.quantity_accepted hqty) (checkIn_used fields children hchildren)
  | .null, _, h => nomatch h
  | .bool _, _, h => nomatch h
  | .int _, _, h => nomatch h
  | .double _, _, h => nomatch h
  | .str _, _, h => nomatch h
  | .arr _, _, h => nomatch h

theorem checkIn_used : ∀ (fields : List (String × Json)) (ns : List BomNode),
    checkIn fields = .accepted ns → ∀ n ∈ ns, n.Used
  | [], ns, h => by
    rw [checkIn] at h
    cases h
    exact nofun
  | (k, j) :: rest, ns, h => by
    rw [checkIn] at h
    split at h
    · exact checkChildren_used j ns (under_eq_accepted.mp h)
    · exact checkIn_used rest ns h

theorem checkChildren_used : ∀ (j : Json) (ns : List BomNode),
    checkChildren j = .accepted ns → ∀ n ∈ ns, n.Used
  | .null, ns, h => by
    rw [checkChildren] at h
    cases h
    exact nofun
  | .arr items, ns, h => by
    rw [checkChildren] at h
    exact checkEach_used items 0 ns h
  | .bool _, _, h => nomatch h
  | .int _, _, h => nomatch h
  | .double _, _, h => nomatch h
  | .str _, _, h => nomatch h
  | .obj _, _, h => nomatch h

theorem checkEach_used : ∀ (items : List Json) (i : ℕ) (ns : List BomNode),
    checkEach i items = .accepted ns → ∀ n ∈ ns, n.Used
  | [], i, ns, h => by
    rw [checkEach] at h
    cases h
    exact nofun
  | j :: rest, i, ns, h => by
    rw [checkEach] at h
    obtain ⟨_, others, hcons, hothers, rfl⟩ := seq_eq_accepted.mp h
    obtain ⟨first, hfirst, rfl⟩ := map_eq_accepted.mp hcons
    intro n hn
    rcases List.mem_cons.mp hn with rfl | hn
    · exact check_used j n (under_eq_accepted.mp hfirst)
    · exact checkEach_used rest (i + 1) others hothers n hn

end

end BomNode
end BomEngine
