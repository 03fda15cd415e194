import BomEngine.Proofs.Decimal.Value
import BomEngine.Decimal.Arithmetic

/-!
# Exact arithmetic

An operation whose exact result has at most 28 digits within the exponent range
gives just that result: nothing is rounded, and nothing is signalled. For a sum
this includes that no addend was too small to be seen beside the other one, for a
quotient that the division comes out even.
-/

set_option autoImplicit false

namespace BomEngine.Decimal

/-- A value of at most 28 digits within the exponent range. -/
def Representable (q : ℚ) : Prop :=
  ∃ m e : ℤ, q = m * 10 ^ e ∧ |m| < 10 ^ precision ∧ leastExponent ≤ e ∧ e ≤ topExponent

theorem representable_intCast {z : ℤ} (h : |z| < 10 ^ precision) : Representable z :=
  ⟨z, 0, by simp, h, by decide, by decide⟩

theorem representable_natCast {n : ℕ} (h : n < 10 ^ precision) : Representable n := by
  have hz : |(n : ℤ)| < 10 ^ precision := by
    rw [Nat.abs_cast]
    exact_mod_cast h
  exact_mod_cast representable_intCast hz

theorem representable_magnitude {q : ℚ} (h : Representable q) :
    ∃ (m : ℕ) (k : ℤ), |q| = m * 10 ^ k ∧ digitCount m ≤ precision ∧
      leastExponent ≤ k ∧ k ≤ topExponent := by
  obtain ⟨m, k, rfl, hm, hl, ht⟩ := h
  have hd : m.natAbs < 10 ^ precision := by
    zify
    exact hm
  refine ⟨m.natAbs, k, ?_, (digitCount_le (by decide)).mpr hd, hl, ht⟩
  rw [abs_mul, abs_of_pos (by positivity : (0 : ℚ) < 10 ^ k), Nat.cast_natAbs, Int.cast_abs]

theorem dropDigits_eq (mode : Rounding) (n k : ℕ) :
    dropDigits mode n k =
      if mode.up (n / 10 ^ k) (n % 10 ^ k) (10 ^ k) then n / 10 ^ k + 1 else n / 10 ^ k := by
  by_cases hlen : digitCount n < k
  · have hn : 2 * n < 10 ^ k := by
      have hlt := lt_pow_digitCount n
      have hle : 10 * 10 ^ digitCount n ≤ 10 ^ k := by
        rw [← Nat.pow_succ']
        exact Nat.pow_le_pow_right (by decide) hlen
      omega
    have hup : mode.up 0 n (10 ^ k) = false := by
      simp [Rounding.up, compare_lt_iff_lt.mpr hn]
    rw [dropDigits, if_pos hlen, Nat.div_eq_of_lt (by omega), Nat.mod_eq_of_lt (by omega), hup]
    rfl
  · rw [dropDigits, if_neg hlen]
    rfl

theorem dropDigits_exact (mode : Rounding) (r k : ℕ) : dropDigits mode (r * 10 ^ k) k = r := by
  have hp : 0 < 10 ^ k := by positivity
  have hup : mode.up r 0 (10 ^ k) = false := by
    simp [Rounding.up, compare_lt_iff_lt.mpr hp]
  rw [dropDigits_eq, Nat.mul_div_cancel _ hp, Nat.mul_mod_left, hup]
  rfl

theorem value_of_magnitude {s : Bool} {m n : ℕ} {e f : ℤ}
    (h : (m : ℚ) * 10 ^ f = n * 10 ^ e) :
    (Decimal.mk s m f).value = signed s n * 10 ^ e := by
  cases s <;> simp [value, signed, h]

theorem fix_exact (s : Bool) (n : ℕ) (e : ℤ) (h : Representable (signed s n * 10 ^ e)) :
    ∃ d, fix s n e = .ok d ∧ d.value = signed s n * 10 ^ e := by
  by_cases hn : n = 0
  · subst hn
    exact ⟨_, by rw [fix, if_pos rfl], by cases s <;> simp [value, signed]⟩
  obtain ⟨m, k, hmag, hm, hl, ht⟩ := representable_magnitude h
  rw [abs_mul, abs_signed, abs_of_pos (by positivity : (0 : ℚ) < 10 ^ e)] at hmag
  have hm0 : m ≠ 0 := by
    rintro rfl
    have hpos : (0 : ℚ) < n * 10 ^ e := by positivity
    simp [hmag] at hpos
  have hplace := place_eq hn hm0 hmag
  have htop : ¬ (e + digitCount n - precision > topExponent) := by omega
  rw [fix, if_neg hn]
  simp only [if_neg htop]
  by_cases hlow : max (e + digitCount n - precision) leastExponent ≤ e
  · rw [if_pos hlow]
    exact ⟨_, rfl, rfl⟩
  rw [if_neg hlow]
  have hk : max (e + digitCount n - precision) leastExponent ≤ k := by omega
  have hfull : e + digitCount n - precision ≤ max (e + digitCount n - precision) leastExponent :=
    le_max_left _ _
  generalize max (e + digitCount n - precision) leastExponent = low at *
  have hr : (scale m (k - low).toNat : ℚ) * 10 ^ low = n * 10 ^ e := by
    rw [magnitude_scale m hk, hmag]
  generalize scale m (k - low).toNat = r at hr
  have hr0 : r ≠ 0 := by
    rintro rfl
    have hpos : (0 : ℚ) < n * 10 ^ e := by positivity
    simp [← hr] at hpos
  have hnr : n = r * 10 ^ (low - e).toNat := by
    have hs := magnitude_scale r (le_of_lt (not_le.mp hlow))
    rw [hr, scale_mul] at hs
    have hc := mul_right_cancel₀ (by positivity : (10 : ℚ) ^ e ≠ 0) hs
    exact_mod_cast hc.symm
  have hrd : digitCount r ≤ precision := by
    have := place_eq hr0 hn hr
    omega
  have hdrop : dropDigits .halfEven n (low - e).toNat = r := by
    rw [hnr]
    exact dropDigits_exact .halfEven r _
  simp only [hdrop, if_pos hrd]
  exact ⟨_, rfl, value_of_magnitude hr⟩

theorem mul_exact (x y : Decimal) (h : Representable (x.value * y.value)) :
    ∃ d, x.mul y = .ok d ∧ d.value = x.value * y.value := by
  have hv : x.value * y.value =
      signed (x.negative != y.negative) (x.coeff * y.coeff) * 10 ^ (x.exp + y.exp) := by
    rw [signed_mul, zpow_add₀ (by norm_num : (10 : ℚ) ≠ 0), value, value]
    push_cast
    ring
  rw [hv] at h ⊢
  exact fix_exact _ _ _ h

theorem value_scaled (x : Decimal) {low : ℤ} (h : low ≤ x.exp) :
    (signed x.negative (scale x.coeff (x.exp - low).toNat) : ℚ) * 10 ^ low = x.value := by
  have hs := magnitude_scale x.coeff h
  cases hn : x.negative <;> simp [value, signed, hn, hs]

theorem sumOf_exact (x y : Decimal) (h : Representable (x.value + y.value)) :
    ∃ d, sumOf x y = .ok d ∧ d.value = x.value + y.value := by
  rw [sumOf]
  rw [← value_scaled x (min_le_left x.exp y.exp), ← value_scaled y (min_le_right x.exp y.exp),
    ← add_mul] at h ⊢
  generalize signed x.negative (scale x.coeff (x.exp - min x.exp y.exp).toNat) = a at h ⊢
  generalize signed y.negative (scale y.coeff (y.exp - min x.exp y.exp).toNat) = b at h ⊢
  have hs : signed (if a + b = 0 then x.negative && y.negative else a + b < 0) (a + b).natAbs =
      a + b := by
    by_cases hz : a + b = 0
    · simp [hz, signed]
    · rw [if_neg hz, signed_natAbs]
  have hc : (a : ℚ) + b = ((a + b : ℤ) : ℚ) := by push_cast; rfl
  rw [hc, ← hs] at h ⊢
  simpa only [hs] using fix_exact _ _ _ h

def Hidden (x y : Decimal) : Prop :=
  x.coeff ≠ 0 ∧ y.coeff ≠ 0 ∧ y.exp < x.exp ∧ y.adjusted < x.horizon

theorem beside_value {x y : Decimal} (h : ¬ Hidden x y) : (beside x y).value = y.value := by
  unfold beside
  by_cases hx : x.coeff = 0
  · simp [isZero, hx]
  by_cases hy : y.coeff = 0
  · simp [isZero, hx, hy, value, signed]
  have hn : ¬ (y.exp < x.exp ∧ y.adjusted < x.horizon) := fun hh => h ⟨hx, hy, hh⟩
  simp [isZero, hx, hy, hn]

theorem eq_zero_of_lt_unit {z low : ℤ} (h : |(z : ℚ) * 10 ^ low| < 10 ^ low) : z = 0 := by
  have hlow : (0 : ℚ) < 10 ^ low := by positivity
  rw [abs_mul, abs_of_pos hlow] at h
  have hz : |(z : ℚ)| < 1 := (mul_lt_iff_lt_one_left hlow).mp h
  exact Int.abs_lt_one_iff.mp (by exact_mod_cast hz)

theorem digits_below_lt {m k low : ℤ} (hm : |m| < 10 ^ precision) (hk : k < low) :
    |(m : ℚ) * 10 ^ k| < 10 ^ (low + 27) := by
  have hmq : |(m : ℚ)| < 10 ^ (28 : ℤ) := by
    have : |(m : ℚ)| < 10 ^ precision := by exact_mod_cast hm
    simpa [precision] using this
  rw [abs_mul, abs_of_pos (by positivity : (0 : ℚ) < 10 ^ k)]
  calc |(m : ℚ)| * 10 ^ k < 10 ^ (28 : ℤ) * 10 ^ k :=
        mul_lt_mul_of_pos_right hmq (by positivity)
    _ = 10 ^ (28 + k) := (zpow_add₀ (by norm_num) _ _).symm
    _ ≤ 10 ^ (low + 27) := zpow_le_zpow_right₀ (by norm_num) (by omega)

/-- Beside a number with more digits than are kept above its place, a hidden addend
leaves a sum that 28 digits cannot hold. -/
theorem hidden_not_representable {x y : Decimal} (h : Hidden x y) :
    ¬ Representable (x.value + y.value) := by
  obtain ⟨hx, hy, hexp, hadj⟩ := h
  intro hr
  obtain ⟨m, k, hq, hm, -, -⟩ := hr
  have hpx := digitCount_pos x.coeff
  have hhe : x.horizon ≤ x.exp - 1 := by unfold horizon; omega
  have hhl : x.horizon + 29 ≤ x.exp + digitCount x.coeff - 1 := by
    unfold horizon precision; omega
  generalize x.horizon = low at *
  have hlow : (0 : ℚ) < 10 ^ low := by positivity
  have hylt : |y.value| < 10 ^ low := by
    rw [abs_value]
    refine (magnitude_lt _ _).trans_le (zpow_le_zpow_right₀ (by norm_num) ?_)
    unfold adjusted at hadj
    omega
  have hy0 : y.value ≠ 0 := by
    rw [ne_eq, value_eq_zero]
    simpa [isZero] using hy
  rcases le_or_gt low k with hk | hk
  · -- all but `y` are whole multiples of the unit at `low`, so `y` is one as well
    have hxm := value_scaled x (show low ≤ x.exp by omega)
    generalize signed x.negative (scale x.coeff (x.exp - low).toNat) = a at hxm
    have hkm : (m : ℚ) * 10 ^ k = (m * 10 ^ (k - low).toNat : ℤ) * 10 ^ low := by
      push_cast
      rw [mul_assoc, ← zpow_natCast, Int.toNat_of_nonneg (by omega),
        ← zpow_add₀ (by norm_num : (10 : ℚ) ≠ 0), sub_add_cancel]
    have hym : y.value = (m * 10 ^ (k - low).toNat - a : ℤ) * 10 ^ low := by
      rw [Int.cast_sub, sub_mul, ← hkm, ← hq, hxm]
      ring
    generalize m * 10 ^ (k - low).toNat - a = z at hym
    have hz0 : z = 0 := eq_zero_of_lt_unit (hym ▸ hylt)
    simp [hym, hz0] at hy0
  · have hsum : |x.value + y.value| < 10 ^ (low + 27) := hq ▸ digits_below_lt hm hk
    have hxge : (10 : ℚ) ^ (low + 29) ≤ |x.value| := by
      rw [abs_value]
      exact (zpow_le_zpow_right₀ (by norm_num) hhl).trans (le_magnitude hx _)
    have htri : |x.value| ≤ |x.value + y.value| + |y.value| := by
      simpa using abs_sub (x.value + y.value) y.value
    have h27 : (10 : ℚ) ^ (low + 27) = 10 ^ 27 * 10 ^ low := by
      rw [zpow_add₀ (by norm_num), mul_comm]
      rfl
    have h29 : (10 : ℚ) ^ (low + 29) = 10 ^ 29 * 10 ^ low := by
      rw [zpow_add₀ (by norm_num), mul_comm]
      rfl
    rw [h27] at hsum
    rw [h29] at hxge
    nlinarith

theorem add_exact (x y : Decimal) (h : Representable (x.value + y.value)) :
    ∃ d, x.add y = .ok d ∧ d.value = x.value + y.value := by
  have hxy : ¬ Hidden x y := fun hh => hidden_not_representable hh h
  have hyx : ¬ Hidden y x := fun hh => hidden_not_representable hh (by rwa [add_comm])
  have hs := sumOf_exact (beside y x) (beside x y)
    (by rwa [beside_value hxy, beside_value hyx])
  rwa [beside_value hxy, beside_value hyx] at hs

theorem sub_exact (x y : Decimal) (h : Representable (x.value - y.value)) :
    ∃ d, x.sub y = .ok d ∧ d.value = x.value - y.value := by
  rw [sub_eq_add_neg, ← value_neg] at h ⊢
  exact add_exact x y.neg h

theorem stripZeros_value (ideal : ℤ) (n : ℕ) (e : ℤ) :
    ((stripZeros ideal n e).1 : ℚ) * 10 ^ (stripZeros ideal n e).2 = n * 10 ^ e := by
  induction n, e using stripZeros.induct ideal with
  | case1 n e h ih =>
    have hn : (n : ℚ) = ((n / 10 : ℕ) : ℚ) * 10 := by
      exact_mod_cast (Nat.div_mul_cancel (Nat.dvd_of_mod_eq_zero h.2.2)).symm
    rw [stripZeros, dif_pos h, ih, zpow_add_one₀ (by norm_num), hn]
    ring
  | case2 n e h => rw [stripZeros, dif_neg h]

theorem digitCount_scale {n : ℕ} (hn : n ≠ 0) (k : ℕ) :
    digitCount (scale n k) = digitCount n + k := by
  have hs : scale n k ≠ 0 := by
    rw [scale_mul]
    positivity
  have h := place_eq (m := scale n k) (n := n) (e := 0) (f := k) hs hn
    (by rw [scale_mul]; push_cast; simp)
  omega

theorem even_division {a b m : ℕ} {k e : ℤ} (hb : b ≠ 0) (ha : a ≠ 0)
    (hd : digitCount b + 29 = digitCount a) (hm : digitCount m ≤ 28)
    (h : (a : ℚ) * 10 ^ e = m * 10 ^ k * b) : a % b = 0 := by
  have hprod : ((m * b : ℕ) : ℚ) * 10 ^ k = a * 10 ^ e := by
    rw [h, Nat.cast_mul]
    ring
  have hm0 : m ≠ 0 := by
    rintro rfl
    have hpos : (0 : ℚ) < a * 10 ^ e := by positivity
    simp [← hprod] at hpos
  have hke : e ≤ k := by
    have hplace := place_eq (Nat.mul_ne_zero hm0 hb) ha hprod
    have hlen := digitCount_mul_le m b
    omega
  have hs := magnitude_scale m hke
  rw [← hs] at h
  have hc : (a : ℚ) = scale m (k - e).toNat * b :=
    mul_right_cancel₀ (by positivity : (10 : ℚ) ^ e ≠ 0) (by rw [h]; ring)
  have hn : a = scale m (k - e).toNat * b := by exact_mod_cast hc
  rw [hn, Nat.mul_mod_left]

theorem scaled_quotient (a : ℕ) {b : ℕ} (hb : b ≠ 0) (e f shift : ℤ) :
    (scale a shift.toNat : ℚ) / scale b (-shift).toNat * 10 ^ (e - f - shift) =
      a * 10 ^ e / (b * 10 ^ f) := by
  have hbq : (b : ℚ) ≠ 0 := by exact_mod_cast hb
  have hsplit : (shift.toNat : ℤ) = shift + (-shift).toNat := by omega
  have hav : (scale a shift.toNat : ℚ) = a * 10 ^ (shift.toNat : ℤ) := by
    rw [scale_mul]
    push_cast
    rfl
  have hbv : (scale b (-shift).toNat : ℚ) = b * 10 ^ ((-shift).toNat : ℤ) := by
    rw [scale_mul]
    push_cast
    rfl
  rw [hav, hbv, hsplit, zpow_sub₀ (by norm_num), zpow_sub₀ (by norm_num), zpow_add₀ (by norm_num)]
  field_simp

theorem signed_mul_ten (s : Bool) (n : ℕ) (e : ℤ) :
    (signed s n : ℚ) * 10 ^ e = if s then -((n : ℚ) * 10 ^ e) else n * 10 ^ e := by
  cases s <;> simp [signed]

theorem signed_quotient (x y : Decimal) :
    x.value / y.value =
      if x.negative != y.negative then -|x.value / y.value| else |x.value / y.value| := by
  rw [abs_div, abs_value, abs_value]
  cases hx : x.negative <;> cases hy : y.negative <;>
    simp [value, signed, hx, hy, neg_div, div_neg]

theorem div_digits {x y : Decimal} (hx : x.coeff ≠ 0) (hy : y.coeff ≠ 0) :
    ∃ (a b : ℕ) (e : ℤ), a ≠ 0 ∧ b ≠ 0 ∧ digitCount b + 29 = digitCount a ∧
      (a : ℚ) / b * 10 ^ e = |x.value / y.value| ∧
      x.div y =
        if a % b = 0 then
          fix (x.negative != y.negative) (stripZeros (x.exp - y.exp) (a / b) e).1
            (stripZeros (x.exp - y.exp) (a / b) e).2
        else fix (x.negative != y.negative) (if a / b % 5 = 0 then a / b + 1 else a / b) e := by
  have hxz : ¬ x.isZero = true := by simpa [isZero] using hx
  have hyz : ¬ y.isZero = true := by simpa [isZero] using hy
  rw [div, if_neg hyz]
  simp only [if_neg hxz]
  generalize hshift : ((digitCount y.coeff : ℤ) - digitCount x.coeff + precision + 1) = shift
  have ha := digitCount_scale hx shift.toNat
  have hb := digitCount_scale hy (-shift).toNat
  refine ⟨_, _, _, ?_, ?_, ?_, ?_, rfl⟩
  · rw [scale_mul]
    positivity
  · rw [scale_mul]
    positivity
  · unfold precision at hshift
    omega
  · rw [scaled_quotient x.coeff hy, abs_div, abs_value, abs_value]

theorem div_exact (x y : Decimal) (hy : y.value ≠ 0) (h : Representable (x.value / y.value)) :
    ∃ d, x.div y = .ok d ∧ d.value = x.value / y.value := by
  have hyz : ¬ y.isZero = true := mt value_eq_zero.mpr hy
  by_cases hx : x.isZero = true
  · obtain ⟨d, hd, hv⟩ := fix_exact (x.negative != y.negative) 0 (x.exp - y.exp)
      (by simpa [signed] using representable_natCast (n := 0) (by decide))
    refine ⟨d, by rw [div, if_neg hyz, ← hd]; exact if_pos hx, ?_⟩
    rw [value_eq_zero.mpr hx, zero_div]
    simpa [signed] using hv
  obtain ⟨a, b, e, ha, hb, hlen, hquot, hdiv⟩ := div_digits (x := x) (y := y)
    (by simpa [isZero] using hx) (by simpa [isZero] using hyz)
  obtain ⟨m, k, hmag, hm, -, -⟩ := representable_magnitude h
  have hbq : (b : ℚ) ≠ 0 := by exact_mod_cast hb
  have heven : a % b = 0 := by
    refine even_division hb ha hlen hm (k := k) (e := e) ?_
    rw [← hmag, ← hquot]
    field_simp
  have hq : ((a / b : ℕ) : ℚ) = (a : ℚ) / b :=
    Nat.cast_div (Nat.dvd_of_mod_eq_zero heven) hbq
  have hstrip := stripZeros_value (x.exp - y.exp) (a / b) e
  rw [hdiv, if_pos heven]
  generalize stripZeros (x.exp - y.exp) (a / b) e = r at hstrip ⊢
  have hv : x.value / y.value = signed (x.negative != y.negative) r.1 * 10 ^ r.2 := by
    rw [signed_quotient, signed_mul_ten, hstrip, hq, hquot]
  rw [hv] at h ⊢
  exact fix_exact _ _ _ h

theorem sum_from_exact {xs : List Decimal} {total : Decimal}
    (h : ∀ part, part <+: xs → Representable (total.value + (part.map value).sum)) :
    ∃ d, xs.foldlM add total = .ok d ∧ d.value = total.value + (xs.map value).sum := by
  induction xs generalizing total with
  | nil => exact ⟨total, rfl, by simp⟩
  | cons x xs ih =>
    have hfirst := h [x] (List.prefix_append [x] xs)
    rw [List.map_singleton, List.sum_singleton] at hfirst
    obtain ⟨next, hnext, hv⟩ := total.add_exact x hfirst
    have hrest : ∀ part, part <+: xs → Representable (next.value + (part.map value).sum) := by
      intro part hpart
      have hlonger := h (x :: part) ((List.prefix_cons_inj x).mpr hpart)
      rwa [List.map_cons, List.sum_cons, ← add_assoc, ← hv] at hlonger
    obtain ⟨d, hd, hdv⟩ := ih hrest
    refine ⟨d, ?_, ?_⟩
    · rw [List.foldlM_cons, hnext]
      exact hd
    · rw [hdv, hv, List.map_cons, List.sum_cons, add_assoc]

theorem sum_exact {xs : List Decimal}
    (h : ∀ part, part <+: xs → Representable (part.map value).sum) :
    ∃ d, Decimal.sum xs = .ok d ∧ d.value = (xs.map value).sum := by
  have hzero : ∀ part, part <+: xs → Representable (zero.value + (part.map value).sum) := by
    simpa using h
  obtain ⟨d, hd, hv⟩ := sum_from_exact hzero
  exact ⟨d, hd, by simpa using hv⟩

end BomEngine.Decimal
