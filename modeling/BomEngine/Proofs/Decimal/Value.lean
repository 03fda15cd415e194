import BomEngine.Decimal.Number
import Mathlib

/-!
# The value of a decimal

A decimal denotes a rational number. Comparison looks at the places of the leading
digits before it looks at the digits, and orders decimals as their values are
ordered; signs of zero and trailing zeros do not count.
-/

set_option autoImplicit false

namespace BomEngine

theorem digitCount_log (n : ℕ) : digitCount n = Nat.log 10 n + 1 := by
  induction n using Nat.strong_induction_on with
  | _ n ih =>
    rw [digitCount]
    split
    · next h => rw [Nat.log_of_lt h]
    · next h =>
      have hl : Nat.log 10 n = Nat.log 10 (n / 10) + 1 :=
        Nat.log_of_one_lt_of_le (by decide) (by omega)
      rw [ih (n / 10) (by omega), hl]

theorem digitCount_pos (n : ℕ) : 0 < digitCount n := by
  rw [digitCount_log]
  omega

theorem lt_pow_digitCount (n : ℕ) : n < 10 ^ digitCount n := by
  rw [digitCount_log]
  exact Nat.lt_pow_succ_log_self (by decide) n

theorem pow_digitCount_le {n : ℕ} (h : n ≠ 0) : 10 ^ (digitCount n - 1) ≤ n := by
  rw [digitCount_log, Nat.add_sub_cancel]
  exact Nat.pow_log_le_self 10 h

theorem digitCount_le {n k : ℕ} (hk : 0 < k) : digitCount n ≤ k ↔ n < 10 ^ k := by
  rw [digitCount_log, Nat.add_one_le_iff]
  exact ⟨Nat.lt_pow_of_log_lt (by decide), Nat.log_lt_of_lt_pow' (by omega)⟩

theorem digitCount_mul_le (m n : ℕ) : digitCount (m * n) ≤ digitCount m + digitCount n := by
  have hpos := digitCount_pos m
  rw [digitCount_le (by omega), Nat.pow_add]
  exact Nat.mul_lt_mul'' (lt_pow_digitCount m) (lt_pow_digitCount n)

theorem scale_mul (n k : ℕ) : scale n k = n * 10 ^ k := by
  unfold scale
  split
  · next h => simp [h]
  · rfl

theorem magnitude_lt (n : ℕ) (e : ℤ) : (n : ℚ) * 10 ^ e < 10 ^ (e + digitCount n) := by
  have h : (n : ℚ) < 10 ^ digitCount n := by exact_mod_cast lt_pow_digitCount n
  rw [zpow_add₀ (by norm_num), zpow_natCast, mul_comm]
  exact mul_lt_mul_of_pos_left h (by positivity)

theorem le_magnitude {n : ℕ} (hn : n ≠ 0) (e : ℤ) :
    (10 : ℚ) ^ (e + digitCount n - 1) ≤ n * 10 ^ e := by
  have h : ((10 : ℚ) ^ (digitCount n - 1)) ≤ n := by exact_mod_cast pow_digitCount_le hn
  have hp := digitCount_pos n
  have hd : e + digitCount n - 1 = e + ((digitCount n - 1 : ℕ) : ℤ) := by omega
  rw [hd, zpow_add₀ (by norm_num), zpow_natCast, mul_comm]
  exact mul_le_mul_of_nonneg_right h (by positivity)

theorem place_lt {m n : ℕ} {e f : ℤ} (hm : m ≠ 0) (h : (m : ℚ) * 10 ^ e ≤ n * 10 ^ f) :
    e + digitCount m ≤ f + digitCount n := by
  have hl : (10 : ℚ) ^ (e + digitCount m - 1) < 10 ^ (f + digitCount n) :=
    (le_magnitude hm e).trans_lt (h.trans_lt (magnitude_lt n f))
  have := (zpow_lt_zpow_iff_right₀ (by norm_num : (1 : ℚ) < 10)).mp hl
  omega

theorem place_eq {m n : ℕ} {e f : ℤ} (hm : m ≠ 0) (hn : n ≠ 0)
    (h : (m : ℚ) * 10 ^ e = n * 10 ^ f) : e + digitCount m = f + digitCount n :=
  le_antisymm (place_lt hm h.le) (place_lt hn h.ge)

theorem magnitude_scale (n : ℕ) {low e : ℤ} (h : low ≤ e) :
    (scale n (e - low).toNat : ℚ) * 10 ^ low = n * 10 ^ e := by
  rw [scale_mul]
  push_cast
  rw [mul_assoc, ← zpow_natCast, Int.toNat_of_nonneg (by omega),
    ← zpow_add₀ (by norm_num : (10 : ℚ) ≠ 0), sub_add_cancel]

namespace Decimal

def value (d : Decimal) : ℚ := signed d.negative d.coeff * 10 ^ d.exp

@[simp] theorem value_zero : zero.value = 0 := by simp [value, zero, signed]

@[simp] theorem value_one : one.value = 1 := by simp [value, one, signed]

theorem signed_neg (negative : Bool) (n : ℕ) : signed (!negative) n = -signed negative n := by
  cases negative <;> simp [signed]

theorem signed_mul (s t : Bool) (m n : ℕ) :
    signed (s != t) (m * n) = signed s m * signed t n := by
  cases s <;> cases t <;> simp [signed]

theorem signed_natAbs (z : ℤ) : signed (z < 0) z.natAbs = z := by
  by_cases h : z < 0
  · simp [signed, h, abs_of_neg h]
  · simp [signed, h, abs_of_nonneg (not_lt.mp h)]

theorem abs_signed (negative : Bool) (n : ℕ) : |((signed negative n : ℤ) : ℚ)| = n := by
  cases negative <;> simp [signed]

@[simp] theorem value_neg (d : Decimal) : d.neg.value = -d.value := by
  simp [value, neg, signed_neg]

theorem abs_value (d : Decimal) : |d.value| = d.coeff * 10 ^ d.exp := by
  rw [value, abs_mul, abs_signed, abs_of_pos (by positivity : (0 : ℚ) < 10 ^ d.exp)]

theorem value_eq_zero {d : Decimal} : d.value = 0 ↔ d.isZero = true := by
  rw [← abs_eq_zero, abs_value, mul_eq_zero]
  have h : (10 : ℚ) ^ d.exp ≠ 0 := by positivity
  simp [h, isZero]

theorem compareMagnitude_eq (a : ℕ) (e : ℤ) (b : ℕ) (f : ℤ) :
    compareMagnitude a e b f = compare ((a : ℚ) * 10 ^ e) (b * 10 ^ f) := by
  have hpe : (0 : ℚ) < 10 ^ e := by positivity
  have hpf : (0 : ℚ) < 10 ^ f := by positivity
  unfold compareMagnitude
  by_cases ha : a = 0
  · by_cases hb : b = 0
    · simp [ha, hb]
    · have : (0 : ℚ) < b * 10 ^ f := mul_pos (by positivity) hpf
      simp [ha, hb, compare_lt_iff_lt.mpr this]
  · by_cases hb : b = 0
    · have : (0 : ℚ) < a * 10 ^ e := mul_pos (by positivity) hpe
      simp [ha, hb, compare_gt_iff_gt.mpr this]
    · simp only [ha, hb, if_false]
      cases hc : compare (e + (digitCount a : ℤ)) (f + digitCount b) with
      | lt =>
        have h := compare_lt_iff_lt.mp hc
        refine (compare_lt_iff_lt.mpr (lt_of_not_ge fun hn => ?_)).symm
        have := place_lt hb hn
        omega
      | gt =>
        have h := compare_gt_iff_gt.mp hc
        refine (compare_gt_iff_gt.mpr (lt_of_not_ge fun hn => ?_)).symm
        have := place_lt ha hn
        omega
      | eq =>
        -- the same leading place: both sides are read in units of the lower exponent
        have hl : (0 : ℚ) < 10 ^ min e f := by positivity
        rw [← magnitude_scale a (min_le_left e f), ← magnitude_scale b (min_le_right e f)]
        generalize scale a (e - min e f).toNat = m
        generalize scale b (f - min e f).toNat = n
        rcases lt_trichotomy m n with h | h | h
        · rw [compare_lt_iff_lt.mpr h, eq_comm, compare_lt_iff_lt]
          exact mul_lt_mul_of_pos_right (by exact_mod_cast h) hl
        · simp [h]
        · rw [compare_gt_iff_gt.mpr h, eq_comm, compare_gt_iff_gt]
          exact mul_lt_mul_of_pos_right (by exact_mod_cast h) hl

theorem value_of_negative {d : Decimal} (h : d.negative = true) :
    d.value = -(d.coeff * 10 ^ d.exp) := by
  simp [value, signed, h]

theorem value_of_not_negative {d : Decimal} (h : d.negative = false) :
    d.value = d.coeff * 10 ^ d.exp := by
  simp [value, signed, h]

theorem value_neg_of_sign {d : Decimal} (h : (d.negative && !d.isZero) = true) : d.value < 0 := by
  obtain ⟨hn, hz⟩ := (Bool.and_eq_true _ _).mp h
  have hc : d.coeff ≠ 0 := by simpa [isZero] using hz
  rw [value_of_negative hn]
  exact neg_lt_zero.mpr (by positivity)

theorem value_eq_magnitude {d : Decimal} (h : (d.negative && !d.isZero) = false) :
    d.value = d.coeff * 10 ^ d.exp := by
  cases hn : d.negative with
  | false => exact value_of_not_negative hn
  | true =>
    have hc : d.coeff = 0 := by simpa [hn, isZero] using h
    simp [value, signed, hc]

theorem cmp_value (x y : Decimal) : x.cmp y = compare x.value y.value := by
  unfold cmp
  cases hx : x.negative && !x.isZero <;> cases hy : y.negative && !y.isZero <;> dsimp only
  · rw [value_eq_magnitude hx, value_eq_magnitude hy, compareMagnitude_eq]
  · have h : 0 ≤ x.value := by rw [value_eq_magnitude hx]; positivity
    exact (compare_gt_iff_gt.mpr ((value_neg_of_sign hy).trans_le h)).symm
  · have h : 0 ≤ y.value := by rw [value_eq_magnitude hy]; positivity
    exact (compare_lt_iff_lt.mpr ((value_neg_of_sign hx).trans_le h)).symm
  · rw [compareMagnitude_eq]
    rw [value_of_negative ((Bool.and_eq_true _ _).mp hx).1,
      value_of_negative ((Bool.and_eq_true _ _).mp hy).1]
    rcases lt_trichotomy ((y.coeff : ℚ) * 10 ^ y.exp) (x.coeff * 10 ^ x.exp) with h | h | h
    · rw [compare_lt_iff_lt.mpr h, eq_comm, compare_lt_iff_lt]
      exact neg_lt_neg h
    · rw [compare_eq_iff_eq.mpr h, eq_comm, compare_eq_iff_eq, h]
    · rw [compare_gt_iff_gt.mpr h, eq_comm, compare_gt_iff_gt]
      exact neg_lt_neg h

theorem lt_iff (x y : Decimal) : x.lt y = true ↔ x.value < y.value := by
  rw [lt, cmp_value, beq_iff_eq, compare_lt_iff_lt]

theorem le_iff (x y : Decimal) : x.le y = true ↔ x.value ≤ y.value := by
  rw [le, cmp_value, bne_iff_ne, ne_eq, compare_gt_iff_gt, not_lt]

theorem sameValue_iff (x y : Decimal) : x.sameValue y = true ↔ x.value = y.value := by
  rw [sameValue, cmp_value, beq_iff_eq, compare_eq_iff_eq]

theorem isPositive_iff (d : Decimal) : d.isPositive = true ↔ 0 < d.value := by
  rw [isPositive, lt_iff, value_zero]

theorem isNegative_iff (d : Decimal) : d.isNegative = true ↔ d.value < 0 := by
  rw [isNegative, lt_iff, value_zero]

theorem value_atLeastZero (d : Decimal) : d.atLeastZero.value = max 0 d.value := by
  unfold atLeastZero
  by_cases h : 0 < d.value
  · rw [if_pos ((isPositive_iff d).mpr h), max_eq_right h.le]
  · rw [if_neg (fun hp => h ((isPositive_iff d).mp hp)), value_zero,
      max_eq_left (not_lt.mp h)]

end Decimal

namespace Number

/-- A number that is not finite counts as zero here; statements name the finite ones. -/
def value : Number → ℚ
  | .finite d => d.value
  | _ => 0

@[simp] theorem add_finite (a b : Decimal) :
    (Number.finite a).add (.finite b) = (a.add b).map .finite := rfl

@[simp] theorem sub_finite (a b : Decimal) :
    (Number.finite a).sub (.finite b) = (a.sub b).map .finite := rfl

@[simp] theorem mul_finite (a b : Decimal) :
    (Number.finite a).mul (.finite b) = (a.mul b).map .finite := rfl

@[simp] theorem div_finite (a b : Decimal) :
    (Number.finite a).div (.finite b) = (a.div b).map .finite := rfl

@[simp] theorem isPositive_finite (d : Decimal) :
    (Number.finite d).isPositive = .ok d.isPositive := rfl

@[simp] theorem atLeastZero_finite (d : Decimal) :
    (Number.finite d).atLeastZero = .ok (.finite d.atLeastZero) := by
  unfold atLeastZero Decimal.atLeastZero
  rw [isPositive_finite]
  cases d.isPositive <;> rfl

end Number
end BomEngine
