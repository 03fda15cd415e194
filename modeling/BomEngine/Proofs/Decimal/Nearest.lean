import BomEngine.Proofs.Decimal.Limits
import BomEngine.Proofs.FloatFormat

/-!
# Results are nearest

Sums, differences and products are the exact ones rounded to the nearest number of 28 digits, as
far as there is a result. What an operation gives is therefore a function of the value of the
exact result, and one that keeps the order; the digits in which operands are written do not count,
nor does it that an addend out of sight is replaced by a unit at the horizon.
-/

set_option autoImplicit false

namespace BomEngine.Decimal

def format : FloatFormat := ⟨10, precision, leastExponent, by decide, by decide⟩

theorem format_pow (k : ℤ) : (format.base : ℚ) ^ k = 10 ^ k := by
  norm_num [format]

theorem log_magnitude {n : ℕ} (hn : n ≠ 0) (e : ℤ) :
    Int.log 10 ((n : ℚ) * 10 ^ e) = e + digitCount n - 1 := by
  have hpos : (0 : ℚ) < n * 10 ^ e := by positivity
  apply le_antisymm
  · have hlt := magnitude_lt n e
    have := (Int.lt_zpow_iff_log_lt (b := 10) (by decide) hpos).mp (by exact_mod_cast hlt)
    omega
  · exact (Int.zpow_le_iff_le_log (b := 10) (by decide) hpos).mp
      (by exact_mod_cast le_magnitude hn e)

theorem place_magnitude {n : ℕ} (hn : n ≠ 0) (e : ℤ) :
    format.place (n * 10 ^ e) = lastPlace n e := by
  have hpos : (0 : ℚ) < n * 10 ^ e := by positivity
  show max (Int.log 10 |(n : ℚ) * 10 ^ e| + 1 - precision) leastExponent = _
  rw [abs_of_pos hpos, log_magnitude hn, sub_add_cancel, lastPlace]

theorem dropDigits_nearest (n k : ℕ) :
    (dropDigits .halfEven n k : ℤ) = nearest ((n : ℚ) / 10 ^ k) := by
  have hcast : ((n : ℚ) / 10 ^ k) = n / (10 ^ k : ℕ) := by push_cast; rfl
  rw [dropDigits_eq, hcast, nearest_ratio n (by positivity)]

theorem rounded_nearest {n : ℕ} (hn : n ≠ 0) (e : ℤ) : rounded n e = format.round (n * 10 ^ e) := by
  rw [rounded]
  split
  · next hexact =>
    refine (format.round_of_holds
      ⟨scale n (e - lastPlace n e).toNat, lastPlace n e, ?_, ?_, ?_⟩).symm
    · rw [format_pow, Int.cast_natCast, magnitude_scale n hexact]
    · rw [format_pow, abs_of_nonneg (by positivity)]
      refine (magnitude_lt n e).trans_le (ten_zpow_le ?_)
      exact digitCount_le_lastPlace n e
    · exact le_max_right _ _
  · next hlong =>
    have hdrop := dropDigits_nearest n (lastPlace n e - e).toNat
    have hshift : (n : ℚ) / 10 ^ (lastPlace n e - e).toNat = n * 10 ^ e / 10 ^ lastPlace n e := by
      rw [← zpow_natCast, Int.toNat_of_nonneg (by omega), zpow_sub₀ (by norm_num)]
      field_simp
    rw [hshift] at hdrop
    rw [FloatFormat.round, place_magnitude hn, format_pow, ← hdrop, Int.cast_natCast]

/-- What there is of a result is the exact one rounded. -/
theorem fix_nearest {s : Bool} {n : ℕ} {e : ℤ} {d : Decimal} (h : fix s n e = .ok d) :
    d.value = format.round (signed s n * 10 ^ e) := by
  by_cases hn : n = 0
  · have hz : d.isZero = true := by
      rw [fix, if_pos hn] at h
      cases h
      rfl
    rw [value_eq_zero.mpr hz, hn]
    cases s <;> simp [signed]
  obtain ⟨herror, -⟩ | ⟨d', hd', -, habs, -⟩ := fix_cases s hn e
  · rw [h] at herror
    cases herror
  cases h.symm.trans hd'
  rw [abs_value, rounded_nearest hn] at habs
  have hsign := fix_negative h
  cases s with
  | false =>
    rw [value_of_not_negative hsign, habs, signed, if_neg Bool.false_ne_true, Int.cast_natCast]
  | true =>
    rw [value_of_negative hsign, habs, signed, if_pos rfl, Int.cast_neg, Int.cast_natCast,
      neg_mul, FloatFormat.round_neg]

theorem mul_nearest {x y d : Decimal} (h : x.mul y = .ok d) :
    d.value = format.round (x.value * y.value) := by
  rw [fix_nearest h, signed_mul, zpow_add₀ (by norm_num)]
  congr 1
  rw [value, value]
  push_cast
  ring

theorem sumOf_nearest {x y d : Decimal} (h : sumOf x y = .ok d) :
    d.value = format.round (x.value + y.value) := by
  rw [fix_nearest h, ← value_scaled x (min_le_left x.exp y.exp),
    ← value_scaled y (min_le_right x.exp y.exp), ← add_mul]
  generalize signed x.negative (scale x.coeff (x.exp - min x.exp y.exp).toNat) = a
  generalize signed y.negative (scale y.coeff (y.exp - min x.exp y.exp).toNat) = b
  congr 2
  split
  · next hzero => simp [signed, hzero, ← Int.cast_add]
  · next hzero => rw [signed_natAbs, Int.cast_add]

theorem round_add_congr {n : ℕ} {low : ℤ} {z w : ℚ}
    (hlong : (10 : ℚ) ^ (low + 29) ≤ n * 10 ^ (low + 1)) (h : Alike (10 ^ low) z w) :
    format.round (n * 10 ^ (low + 1) + z) = format.round (n * 10 ^ (low + 1) + w) := by
  have hunit : (0 : ℚ) < 10 ^ low := by positivity
  have hten : (10 : ℚ) ^ (low + 1) = 10 * 10 ^ low := by rw [zpow_add_one₀ (by norm_num), mul_comm]
  -- the sums stay between one multiple of five units and the next
  have hbetween {v : ℚ} (hv : v ≠ 0) (hvδ : |v| ≤ 10 ^ low) (hsign : 0 < z ↔ 0 < v) :
      FloatFormat.Between (5 * 10 ^ low) (if 0 < z then 2 * n else 2 * n - 1)
        (n * 10 ^ (low + 1) + v) := by
    obtain ⟨hneg, hpos⟩ := abs_le.mp hvδ
    rw [hten]
    split
    · next hz =>
      have hv' := hsign.mp hz
      constructor <;> push_cast <;> nlinarith
    · next hz =>
      have hv' : v < 0 := lt_of_le_of_ne (not_lt.mp (mt hsign.mpr hz)) hv
      constructor <;> push_cast <;> nlinarith
  have hbelow : (10 : ℚ) ^ (low + 28) ≤ n * 10 ^ (low + 1) + z := by
    have h28 : (10 : ℚ) ^ (low + 28) = 10 ^ 28 * 10 ^ low := by
      rw [zpow_add₀ (by norm_num), mul_comm]
      rfl
    have h29 : (10 : ℚ) ^ (low + 29) = 10 ^ 29 * 10 ^ low := by
      rw [zpow_add₀ (by norm_num), mul_comm]
      rfl
    rw [h29] at hlong
    rw [h28]
    have := (abs_le.mp h.left_le).1
    nlinarith
  have hpos : (0 : ℚ) < n * 10 ^ (low + 1) + z := lt_of_lt_of_le (by positivity) hbelow
  refine format.round_congr (m := 1) (j := low + 1) (by positivity)
    (hbetween h.left h.left_le Iff.rfl) (hbetween h.right h.right_le h.sign) ?_ ?_ ?_
  · rw [format_pow, hten]
    push_cast
    ring
  · show low + 1 ≤ max (Int.log 10 |(n : ℚ) * 10 ^ (low + 1) + z| + 1 - precision) leastExponent
    have hlog := (Int.zpow_le_iff_le_log (b := 10) (by decide) hpos).mp (by exact_mod_cast hbelow)
    rw [abs_of_pos hpos]
    unfold precision
    omega
  · rw [format_pow]
    exact (ten_zpow_le (by omega)).trans hbelow

theorem round_beside {x y : Decimal} (h : Hidden x y) :
    format.round (x.value + (beside x y).value) = format.round (x.value + y.value) := by
  have halike := alike_beside h
  have hpx := digitCount_pos x.coeff
  have hhe : x.horizon + 1 ≤ x.exp := by unfold horizon; omega
  have hlong : (10 : ℚ) ^ (x.horizon + 29) ≤ x.coeff * 10 ^ x.exp := by
    refine (ten_zpow_le ?_).trans (le_magnitude h.1 x.exp)
    unfold horizon precision
    omega
  have hmag := magnitude_scale x.coeff hhe
  rw [← hmag] at hlong
  cases hn : x.negative with
  | false =>
    rw [value_of_not_negative hn, ← hmag]
    exact round_add_congr hlong halike
  | true =>
    have hneg := congrArg Neg.neg (round_add_congr hlong halike.neg)
    rw [← FloatFormat.round_neg, ← FloatFormat.round_neg, neg_add, neg_add, neg_neg,
      neg_neg] at hneg
    rwa [value_of_negative hn, ← hmag]

theorem add_nearest {x y d : Decimal} (h : x.add y = .ok d) :
    d.value = format.round (x.value + y.value) := by
  rw [sumOf_nearest h]
  by_cases hxy : Hidden x y
  · have hyx : ¬ Hidden y x := fun hyx => lt_asymm hxy.2.2.1 hyx.2.2.1
    rw [beside_value hyx, round_beside hxy]
  · rw [beside_value hxy]
    by_cases hyx : Hidden y x
    · rw [add_comm, round_beside hyx, add_comm]
    · rw [beside_value hyx]

theorem sub_nearest {x y d : Decimal} (h : x.sub y = .ok d) :
    d.value = format.round (x.value - y.value) := by
  rw [add_nearest h, value_neg, sub_eq_add_neg]

theorem value_mul_mono {x x' y d d' : Decimal} (hy : 0 ≤ y.value) (hx : x.value ≤ x'.value)
    (h : x.mul y = .ok d) (h' : x'.mul y = .ok d') : d.value ≤ d'.value := by
  rw [mul_nearest h, mul_nearest h']
  exact format.round_mono (mul_le_mul_of_nonneg_right hx hy)

theorem value_mul_nonneg {x y d : Decimal} (hx : 0 ≤ x.value) (hy : 0 ≤ y.value)
    (h : x.mul y = .ok d) : 0 ≤ d.value := by
  rw [mul_nearest h]
  exact format.round_nonneg (mul_nonneg hx hy)

theorem value_add_mono {x x' y y' d d' : Decimal} (hx : x.value ≤ x'.value)
    (hy : y.value ≤ y'.value) (h : x.add y = .ok d) (h' : x'.add y' = .ok d') :
    d.value ≤ d'.value := by
  rw [add_nearest h, add_nearest h']
  exact format.round_mono (add_le_add hx hy)

theorem value_add_nonneg {x y d : Decimal} (hx : 0 ≤ x.value) (hy : 0 ≤ y.value)
    (h : x.add y = .ok d) : 0 ≤ d.value := by
  rw [add_nearest h]
  exact format.round_nonneg (add_nonneg hx hy)

theorem value_sub_mono {x x' y y' d d' : Decimal} (hx : x.value ≤ x'.value)
    (hy : y'.value ≤ y.value) (h : x.sub y = .ok d) (h' : x'.sub y' = .ok d') :
    d.value ≤ d'.value := by
  rw [sub_nearest h, sub_nearest h']
  exact format.round_mono (sub_le_sub hx hy)

theorem Held.round {d : Decimal} (h : Held d) : format.round d.value = d.value := by
  refine format.round_of_holds ⟨signed d.negative d.coeff, d.exp, ?_, ?_, h.exp⟩
  · rw [format_pow, value]
  · rw [format_pow, abs_value]
    show (d.coeff : ℚ) * 10 ^ d.exp < 10 ^ (precision + d.exp)
    rw [ten_zpow_add]
    exact mul_lt_mul_of_pos_right (by exact_mod_cast h.coeff) (by positivity)

end BomEngine.Decimal
