import BomEngine.Failure
import BomEngine.Schema.Scalar
import Mathlib

/-!
# Accepted records

A verdict on a record accepts it only if the verdicts on all of its fields do. So what was accepted
can be taken apart into what was accepted for each field.
-/

set_option autoImplicit false

namespace BomEngine

namespace Verdict

variable {α β : Type}

theorem map_eq_accepted {f : α → β} {v : Verdict α} {b : β} :
    f <$> v = .accepted b ↔ ∃ a, v = .accepted a ∧ f a = b := by
  show v.map f = .accepted b ↔ _
  cases v <;> simp [map]

theorem seq_eq_accepted {f : Verdict (α → β)} {v : Verdict α} {b : β} :
    f <*> v = .accepted b ↔ ∃ g a, f = .accepted g ∧ v = .accepted a ∧ g a = b := by
  show f.both v = .accepted b ↔ _
  cases f <;> cases v <;> simp [both]

/-! The verdict on a record taken apart from its first field to its last. -/

theorem exists_map {f : α → β} {v : Verdict α} {P : β → Prop} :
    (∃ b, f <$> v = .accepted b ∧ P b) ↔ ∃ a, v = .accepted a ∧ P (f a) := by
  simp [map_eq_accepted]

theorem exists_seq {f : Verdict (α → β)} {v : Verdict α} {P : β → Prop} :
    (∃ b, f <*> v = .accepted b ∧ P b) ↔
      ∃ g, f = .accepted g ∧ ∃ a, v = .accepted a ∧ P (g a) := by
  simp [seq_eq_accepted]

theorem under_eq_accepted {step : Step} {v : Verdict α} {a : α} :
    v.under step = .accepted a ↔ v = .accepted a := by
  cases v <;> simp [under]

theorem demand_eq_accepted {v : Verdict α} {p : α → Option FlawKind} {a : α} :
    v.demand p = .accepted a ↔ v = .accepted a ∧ p a = none := by
  cases v with
  | accepted b =>
    cases h : p b with
    | none =>
      simp only [demand, h, accepted.injEq]
      exact ⟨fun hab => ⟨hab, hab ▸ h⟩, And.left⟩
    | some kind =>
      simp only [demand, h, flaw, accepted.injEq]
      refine iff_of_false nofun ?_
      rintro ⟨rfl, hnone⟩
      rw [h] at hnone
      cases hnone
  | refused flaws => simp [demand]
  | broken => simp [demand]

end Verdict

theorem Check.finite_eq_accepted {n : Number} {d : Decimal} :
    Check.finite n = .accepted d ↔ n = .finite d := by
  cases n <;> simp [Check.finite, Verdict.flaw]

theorem Result.ofVerdict_eq_ok {α : Type} {record : String} {v : Verdict α} {a : α} :
    ofVerdict record v = .ok a ↔ v = .accepted a := by
  cases v <;> simp [ofVerdict]

end BomEngine
