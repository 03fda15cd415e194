import BomEngine.Proofs.Decimal.Limits

/-!
# Quotients and how many places they have

Of a quotient one digit more is computed than is kept, and a digit that is neither 0 nor 5 stands
for all that come after it. So the quotient is rounded as the exact one would be, and it is too
large for 28 digits, or for 28 digits with a given last place, exactly if the exact one is.
-/

set_option autoImplicit false

namespace BomEngine.Decimal

theorem long_quotient {a b : ℕ} (ha : a ≠ 0) (hb : b ≠ 0)
    (hlen : digitCount b + 29 = digitCount a) : 10 ^ precision ≤ a / b := by
  rw [Nat.le_div_iff_mul_le (Nat.pos_of_ne_zero hb)]
  calc 10 ^ precision * b ≤ 10 ^ precision * 10 ^ digitCount b :=
        Nat.mul_le_mul_left _ (lt_pow_digitCount b).le
    _ = 10 ^ (precision + digitCount b) := (Nat.pow_add ..).symm
    _ ≤ 10 ^ (digitCount a - 1) :=
        Nat.pow_le_pow_right (by decide) (by unfold precision; omega)
    _ ≤ a := pow_digitCount_le ha

/-- The digit that stands for the rest of a quotient does not take it across a brink, since a brink
is a multiple of five in units of that digit. -/
theorem brink_le_quotient {a b : ℕ} (hb : b ≠ 0) (hlong : 10 ^ precision ≤ a / b) (e k : ℤ) :
    brink k ≤ (if a / b % 5 = 0 then a / b + 1 else a / b : ℕ) * 10 ^ e ↔
      brink k ≤ a / b * 10 ^ e := by
  rcases le_or_gt k e with hk | hk
  · have hlongq : (10 : ℚ) ^ precision ≤ (a / b : ℕ) := by exact_mod_cast hlong
    have hreach : brink k ≤ (a / b : ℕ) * 10 ^ e := by
      calc brink k ≤ 10 ^ (precision + k) := (brink_lt k).le
        _ ≤ 10 ^ (precision + e) := ten_zpow_le (by omega)
        _ = 10 ^ precision * 10 ^ e := ten_zpow_add precision e
        _ ≤ _ := mul_le_mul_of_nonneg_right hlongq (by positivity)
    refine iff_of_true (hreach.trans ?_) (hreach.trans ?_)
    · refine mul_le_mul_of_nonneg_right ?_ (by positivity)
      split <;> simp
    · exact mul_le_mul_of_nonneg_right Nat.cast_div_le (by positivity)
  · have hunit : (0 : ℚ) < 10 ^ e := by positivity
    have hbq : (0 : ℚ) < b := by positivity
    rw [brink_eq hk, mul_le_mul_iff_left₀ hunit, mul_le_mul_iff_left₀ hunit, Nat.cast_le,
      le_div_iff₀ hbq]
    generalize (2 * 10 ^ precision - 1) * 10 ^ (k - 1 - e).toNat = m
    have hfloor : 5 * m ≤ a / b ↔ ((5 * m : ℕ) : ℚ) * b ≤ a := by
      rw [Nat.le_div_iff_mul_le (Nat.pos_of_ne_zero hb)]
      exact_mod_cast Iff.rfl
    rw [← hfloor]
    split <;> omega

theorem div_rounds (x : Decimal) {y : Decimal} (hy : y.value ≠ 0) :
    ∃ s n e, x.div y = fix s n e ∧
      ∀ k, brink k ≤ n * 10 ^ e ↔ brink k ≤ |x.value / y.value| := by
  have hyz : ¬ y.isZero = true := mt value_eq_zero.mpr hy
  by_cases hx : x.isZero = true
  · refine ⟨_, 0, _, by rw [div, if_neg hyz]; exact if_pos hx, fun k => ?_⟩
    rw [value_eq_zero.mpr hx, zero_div, abs_zero, Nat.cast_zero, zero_mul]
  obtain ⟨a, b, e, ha, hb, hlen, hquot, hdiv⟩ := div_digits (x := x) (y := y)
    (by simpa [isZero] using hx) (by simpa [isZero] using hyz)
  rw [hdiv, ← hquot]
  by_cases heven : a % b = 0
  · refine ⟨_, _, _, if_pos heven, fun k => ?_⟩
    rw [stripZeros_value, Nat.cast_div (Nat.dvd_of_mod_eq_zero heven) (by exact_mod_cast hb)]
  · exact ⟨_, _, _, if_neg heven, brink_le_quotient hb (long_quotient ha hb hlen) e⟩

theorem div_cases (x : Decimal) {y : Decimal} (hy : y.value ≠ 0) :
    (x.div y = .error .overflow ∧ TooLarge (x.value / y.value)) ∨
    ∃ d, x.div y = .ok d ∧ Held d ∧ ∀ {k}, leastExponent ≤ k →
      ((10 : ℚ) ^ (precision + k) ≤ |d.value| ↔ brink k ≤ |x.value / y.value|) := by
  obtain ⟨s, n, e, hfix, hside⟩ := div_rounds x hy
  rw [hfix]
  cases h : fix s n e with
  | error signal =>
    obtain rfl := failsOnly_fix s n e signal h
    have hlarge := (fix_overflow_iff s n e).mp h
    rw [TooLarge, abs_of_nonneg (by positivity), hside] at hlarge
    exact .inl ⟨rfl, hlarge⟩
  | ok d => exact .inr ⟨d, rfl, fix_held h, fun hk => (fix_reaches_iff h hk).trans (hside _)⟩

theorem fix_in_place (s : Bool) {n : ℕ} {e : ℤ} (hn : digitCount n ≤ precision)
    (he : leastExponent ≤ e) (htop : e ≤ topExponent) : fix s n e = .ok ⟨s, n, e⟩ := by
  by_cases hzero : n = 0
  · have hexp : max leastExponent (min e maxExponent) = e := by
      unfold topExponent at htop
      omega
    rw [fix, if_pos hzero, hexp, hzero]
  · rw [fix_of_ne_zero s hzero, if_neg (by omega), if_pos (by unfold lastPlace; omega)]

def wholes (mode : Rounding) (e : ℤ) (d : Decimal) : ℕ :=
  if e ≤ d.exp then scale d.coeff (d.exp - e).toNat
  else dropDigits mode d.coeff (e - d.exp).toNat

theorem wholes_of_zero (mode : Rounding) (e : ℤ) {d : Decimal} (hd : d.coeff = 0) :
    d.wholes mode e = 0 := by
  have hdrop : ∀ k, dropDigits mode 0 k = 0 := fun k => by
    simpa using dropDigits_exact mode 0 k
  rw [wholes, hd, hdrop, scale_mul, Nat.zero_mul, ite_self]

theorem quantize_cases (mode : Rounding) {e : ℤ} {d : Decimal} (hd : d.coeff < 10 ^ precision)
    (he : leastExponent ≤ e) (htop : e ≤ topExponent) :
    (d.quantize mode e = .error .invalid ∧ (10 : ℚ) ^ (precision + e) ≤ |d.value|) ∨
    d.quantize mode e = .ok ⟨d.negative, d.wholes mode e, e⟩ ∧
      |d.value| < 10 ^ (precision + e) := by
  by_cases hz : d.isZero = true
  · have hnone : digitCount 0 ≤ precision := (digitCount_le (by decide)).mpr (by decide)
    have hc : d.coeff = 0 := by simpa [isZero] using hz
    rw [quantize, if_pos hz, fix_in_place _ hnone he htop, wholes_of_zero mode e hc,
      value_eq_zero.mpr hz, abs_zero]
    exact .inr ⟨rfl, by positivity⟩
  have hc : d.coeff ≠ 0 := by simpa [isZero] using hz
  rw [abs_value, quantize, if_neg hz]
  by_cases hlong : d.adjusted > maxExponent ∨ d.adjusted - e + 1 > precision
  · refine .inl ⟨if_pos hlong, (ten_zpow_le ?_).trans (le_magnitude hc d.exp)⟩
    unfold adjusted at hlong
    unfold topExponent at htop
    unfold precision at *
    omega
  rw [if_neg hlong]
  unfold adjusted at hlong
  have hfit : digitCount (d.wholes mode e) ≤ precision := by
    unfold wholes
    split
    · rw [digitCount_scale hc]
      omega
    · have hdrop := dropDigits_le mode (m := 27) (n := d.coeff) (k := (e - d.exp).toNat)
        (hd.trans_le (Nat.pow_le_pow_right (by decide) (by unfold precision; omega)))
      exact (digitCount_le (by decide)).mpr (hdrop.trans_lt (by decide))
  refine .inr ⟨?_, (magnitude_lt d.coeff d.exp).trans_le (ten_zpow_le (by omega))⟩
  exact (if_neg (not_lt.mpr hfit)).trans (fix_in_place d.negative hfit he htop)

end BomEngine.Decimal
