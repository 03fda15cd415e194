import BomEngine.Proofs.Decimal.Rounding
import BomEngine.Proofs.Decimal.Shortest
import BomEngine.Proofs.Schema.Acceptance

/-!
# Accepted values

A text is accepted as it stands. A quantity above zero is accepted as a number or as a text that
denotes one: an integer for itself, a double for what it is written as.
-/

set_option autoImplicit false

namespace BomEngine

def Json.IsPositive : Json → Prop
  | .int n => 0 < n
  | .double x => x.isFinite = true ∧ 0 < x.value
  | .str s => ∃ d, Number.Denotes s d ∧ 0 < d.value
  | _ => False

/-- The quantity above zero that a value stands for. Of a double it is what its text denotes. -/
inductive Json.IsQuantity : Json → Decimal → Prop
  | int {n : ℤ} : 0 < n → IsQuantity (.int n) (.ofInt n)
  | double {x : Binary64} {d : Decimal} : x.isFinite = true → 0 < x.value →
      Number.Denotes x.text d → IsQuantity (.double x) d
  | text {s : String} {d : Decimal} : Number.Denotes s d → 0 < d.value → IsQuantity (.str s) d

theorem Json.IsQuantity.ne_null {j : Json} {d : Decimal} (h : j.IsQuantity d) : j ≠ .null := by
  rintro rfl
  cases h

theorem Json.isPositive_iff {j : Json} : j.IsPositive ↔ ∃ d, j.IsQuantity d := by
  constructor
  · intro h
    cases j with
    | int n => exact ⟨_, .int h⟩
    | double x =>
      obtain ⟨d, hd, -⟩ := x.denotes_text h.1
      exact ⟨d, .double h.1 h.2 hd⟩
    | str s =>
      obtain ⟨d, hd, hpos⟩ := h
      exact ⟨d, .text hd hpos⟩
    | _ => exact h.elim
  · rintro ⟨d, h⟩
    cases h with
    | int h => exact h
    | double hx hpos _ => exact ⟨hx, hpos⟩
    | text hd hpos => exact ⟨d, hd, hpos⟩

namespace Check

open Verdict

theorem finiteOf_eq_accepted {s : String} {d : Decimal} :
    finiteOf (numberOfText s) = .accepted d ↔ Number.Denotes s d := by
  rw [← Number.ofText?_eq_finite, numberOfText]
  cases Number.ofText? s with
  | none => exact iff_of_false nofun nofun
  | some n =>
    show finite n = .accepted d ↔ some n = some (.finite d)
    rw [finite_eq_accepted, Option.some.injEq]

theorem denotes_double_pos {x : Binary64} {d : Decimal} :
    Number.Denotes x.text d ∧ 0 < d.value ↔
      x.isFinite = true ∧ 0 < x.value ∧ Number.Denotes x.text d := by
  have hsame : Number.Denotes x.text d → x.isFinite = true ∧ (0 < d.value ↔ 0 < x.value) := by
    intro hd
    have hx : x.isFinite = true := by
      by_contra hx
      exact x.not_denotes_text (Bool.eq_false_of_not_eq_true hx) d hd
    obtain ⟨d', hd', hnegative, -, hzero⟩ := x.denotes_text hx
    obtain rfl := Number.denotes_unique hd hd'
    rw [Decimal.value_pos_iff, x.value_pos_iff, hnegative, Ne, hzero]
    exact ⟨hx, Iff.rfl⟩
  constructor
  · rintro ⟨hd, hpos⟩
    exact ⟨(hsame hd).1, (hsame hd).2.mp hpos, hd⟩
  · rintro ⟨-, hpos, hd⟩
    exact ⟨hd, (hsame hd).2.mpr hpos⟩

theorem positive_eq_accepted {j : Json} {d : Decimal} :
    positive j = .accepted d ↔ j.IsQuantity d := by
  have hdemand : positive j = .accepted d ↔ decimal j = .accepted d ∧ 0 < d.value := by
    rw [positive, Check.demand, demand_eq_accepted, ← Decimal.isPositive_iff]
    cases d.isPositive <;> simp
  rw [hdemand]
  cases j with
  | int n =>
    rw [decimal, accepted.injEq]
    constructor
    · rintro ⟨rfl, hpos⟩
      rw [Decimal.value_ofInt] at hpos
      exact .int (by exact_mod_cast hpos)
    · rintro ⟨hpos⟩
      rw [Decimal.value_ofInt]
      exact ⟨rfl, by exact_mod_cast hpos⟩
  | double x =>
    rw [decimal, finiteOf_eq_accepted, denotes_double_pos]
    constructor
    · rintro ⟨hx, hpos, hd⟩
      exact .double hx hpos hd
    · rintro (_ | ⟨hx, hpos, hd⟩)
      exact ⟨hx, hpos, hd⟩
  | str s =>
    rw [decimal, finiteOf_eq_accepted]
    constructor
    · rintro ⟨hd, hpos⟩
      exact .text hd hpos
    · rintro (_ | _ | ⟨hd, hpos⟩)
      exact ⟨hd, hpos⟩
  | _ => exact iff_of_false (fun h => nomatch h.1) nofun

theorem text_eq_accepted {j : Json} {s : String} : text j = .accepted s ↔ j = .str s := by
  cases j <;> simp [text, flaw]

theorem nonempty_eq_accepted {j : Json} {s : String} :
    nonempty j = .accepted s ↔ j = .str s ∧ s ≠ "" := by
  rw [nonempty, Check.demand, demand_eq_accepted, text_eq_accepted]
  simp

end Check

end BomEngine
