import BomEngine.Decimal.Binary64
import BomEngine.Proofs.Decimal.Value
import BomEngine.Proofs.FloatFormat

/-!
# The nearest double

A decimal is turned into the double nearest to it, a tie into the one with an even last bit. The
place of the last bit is found from the lengths of numerator and denominator, the bits from one
division, and both agree with rounding the value of the decimal. Far outside the range nothing is
computed, and nothing else would come out.
-/

set_option autoImplicit false

namespace BomEngine.Binary64

def format : FloatFormat := ⟨2, 53, -1074, by decide, by decide⟩

def value (x : Binary64) : ℚ := Decimal.signed x.negative x.significand * 2 ^ x.exponent

theorem format_pow (k : ℤ) : (format.base : ℚ) ^ k = 2 ^ k := by
  norm_num [format]

theorem toNat_ofFields (s : Bool) {m : ℕ} (h : m < 2 ^ 63) :
    (ofFields s m).bits.toNat = (if s then 2 ^ 63 else 0) + m := by
  show (UInt64.ofNat _).toNat = _
  rw [UInt64.toNat_ofNat']
  apply Nat.mod_eq_of_lt
  show (if s = true then 2 ^ 63 else 0) + m < 2 ^ 64
  split <;> omega

theorem negative_ofFields (s : Bool) {m : ℕ} (h : m < 2 ^ 63) : (ofFields s m).negative = s := by
  show decide (2 ^ 63 ≤ (ofFields s m).bits.toNat) = s
  rw [toNat_ofFields s h]
  cases s
  · simpa using h
  · simp

theorem exponentField_ofFields (s : Bool) {m : ℕ} (h : m < 2 ^ 63) :
    (ofFields s m).exponentField = m / 2 ^ 52 := by
  show (ofFields s m).bits.toNat / 2 ^ 52 % 2048 = _
  rw [toNat_ofFields s h]
  split <;> omega

theorem fraction_ofFields (s : Bool) {m : ℕ} (h : m < 2 ^ 63) :
    (ofFields s m).fraction = m % 2 ^ 52 := by
  show (ofFields s m).bits.toNat % 2 ^ 52 = _
  rw [toNat_ofFields s h]
  split <;> omega

theorem value_of_zero_field {x : Binary64} (h : x.exponentField = 0) :
    x.value = Decimal.signed x.negative x.fraction * 2 ^ (-1074 : ℤ) := by
  rw [value, significand, if_pos h, exponent, if_pos h]

theorem value_of_field {x : Binary64} (h : x.exponentField ≠ 0) :
    x.value =
      Decimal.signed x.negative (x.fraction + 2 ^ 52) * 2 ^ ((x.exponentField : ℤ) - 1075) := by
  rw [value, significand, if_neg h, exponent, if_neg h, Nat.pow_eq]

theorem value_ofFields_zero (s : Bool) : (ofFields s 0).value = 0 := by
  have hfield : (ofFields s 0).exponentField = 0 := exponentField_ofFields s (by decide)
  have hfraction : (ofFields s 0).fraction = 0 := fraction_ofFields s (by decide)
  rw [value_of_zero_field hfield, hfraction]
  cases s <;> simp [Decimal.signed]

theorem infinity_not_finite (s : Bool) : (infinity s).isFinite = false := by
  cases s <;> decide +kernel

theorem value_assemble {s : Bool} {m : ℕ} {q : ℤ} (hm : m ≤ 2 ^ 53) (hq : -1074 ≤ q)
    (hsmall : m < 2 ^ 52 → q = -1074) (hfinite : (assemble s m q).isFinite = true) :
    (assemble s m q).value = Decimal.signed s m * 2 ^ q := by
  unfold assemble at hfinite ⊢
  simp only [Nat.pow_eq] at hfinite ⊢
  by_cases hlow : m < 2 ^ 52
  · rw [if_pos hlow]
    have hfield : (ofFields s m).exponentField = 0 := by
      rw [exponentField_ofFields s (by omega), Nat.div_eq_of_lt hlow]
    rw [value_of_zero_field hfield, negative_ofFields s (by omega),
      fraction_ofFields s (by omega), Nat.mod_eq_of_lt hlow, hsmall hlow]
  rw [if_neg hlow] at hfinite ⊢
  by_cases hover : 2047 * 2 ^ 52 ≤ (q + 1075).toNat * 2 ^ 52 + (m - 2 ^ 52)
  · rw [if_pos hover, infinity_not_finite] at hfinite
    cases hfinite
  rw [if_neg hover]
  have hbound : (q + 1075).toNat * 2 ^ 52 + (m - 2 ^ 52) < 2 ^ 63 := by omega
  have hfield := exponentField_ofFields s hbound
  have hfraction := fraction_ofFields s hbound
  have hne : (ofFields s ((q + 1075).toNat * 2 ^ 52 + (m - 2 ^ 52))).exponentField ≠ 0 := by omega
  rw [value_of_field hne, negative_ofFields s hbound, hfield, hfraction]
  rcases hm.eq_or_lt with rfl | hm
  · have hplace :
        (((q + 1075).toNat * 2 ^ 52 + (2 ^ 53 - 2 ^ 52)) / 2 ^ 52 : ℕ) - 1075 = q + 1 := by
      omega
    have hrest : ((q + 1075).toNat * 2 ^ 52 + (2 ^ 53 - 2 ^ 52)) % 2 ^ 52 + 2 ^ 52 = 2 ^ 52 := by
      omega
    rw [hplace, hrest, zpow_add_one₀ (by norm_num)]
    cases s <;> norm_num [Decimal.signed] <;> ring
  · have hplace : (((q + 1075).toNat * 2 ^ 52 + (m - 2 ^ 52)) / 2 ^ 52 : ℕ) - 1075 = q := by omega
    have hrest : ((q + 1075).toNat * 2 ^ 52 + (m - 2 ^ 52)) % 2 ^ 52 + 2 ^ 52 = m := by omega
    rw [hplace, hrest]

theorem log2_bounds {n : ℕ} (hn : n ≠ 0) :
    (2 : ℚ) ^ (Nat.log2 n : ℤ) ≤ n ∧ (n : ℚ) < 2 ^ ((Nat.log2 n : ℤ) + 1) := by
  rw [zpow_add_one₀ (by norm_num), zpow_natCast]
  constructor
  · exact_mod_cast Nat.log2_self_le hn
  · have h := Nat.lt_log2_self (n := n)
    rw [Nat.pow_succ] at h
    exact_mod_cast h

theorem log_ratio {a b : ℕ} (ha : a ≠ 0) (hb : b ≠ 0) :
    (Nat.log2 a : ℤ) - Nat.log2 b - 1 ≤ Int.log 2 ((a : ℚ) / b) ∧
      Int.log 2 ((a : ℚ) / b) ≤ (Nat.log2 a : ℤ) - Nat.log2 b := by
  have hbq : (0 : ℚ) < b := by positivity
  have hpos : (0 : ℚ) < a / b := by positivity
  obtain ⟨halow, hahigh⟩ := log2_bounds ha
  obtain ⟨hblow, hbhigh⟩ := log2_bounds hb
  constructor
  · refine (Int.zpow_le_iff_le_log (b := 2) (by decide) hpos).mp ?_
    rw [Nat.cast_ofNat, le_div_iff₀ hbq]
    calc (2 : ℚ) ^ ((Nat.log2 a : ℤ) - Nat.log2 b - 1) * b
        ≤ 2 ^ ((Nat.log2 a : ℤ) - Nat.log2 b - 1) * 2 ^ ((Nat.log2 b : ℤ) + 1) :=
          mul_le_mul_of_nonneg_left hbhigh.le (by positivity)
      _ = 2 ^ (Nat.log2 a : ℤ) := by
          rw [← zpow_add₀ (by norm_num)]
          congr 1
          ring
      _ ≤ a := halow
  · refine Int.lt_add_one_iff.mp ((Int.lt_zpow_iff_log_lt (b := 2) (by decide) hpos).mp ?_)
    rw [Nat.cast_ofNat, div_lt_iff₀ hbq]
    calc (a : ℚ) < 2 ^ ((Nat.log2 a : ℤ) + 1) := hahigh
      _ = 2 ^ ((Nat.log2 a : ℤ) - Nat.log2 b + 1) * 2 ^ (Nat.log2 b : ℤ) := by
          rw [← zpow_add₀ (by norm_num)]
          congr 1
          ring
      _ ≤ 2 ^ ((Nat.log2 a : ℤ) - Nat.log2 b + 1) * b :=
          mul_le_mul_of_nonneg_left hblow (by positivity)

theorem zpow_split {b : ℚ} (hb : b ≠ 0) (k : ℤ) : b ^ k = b ^ k.toNat / b ^ (-k).toNat := by
  rw [← zpow_natCast, ← zpow_natCast, ← zpow_sub₀ hb, Int.toNat_sub_toNat_neg]

theorem scaled_ratio (a : ℕ) {b : ℕ} (hb : b ≠ 0) (q : ℤ) :
    ((a * 2 ^ (-q).toNat : ℕ) : ℚ) / (b * 2 ^ q.toNat : ℕ) = a / b / 2 ^ q := by
  have hbq : (b : ℚ) ≠ 0 := by exact_mod_cast hb
  rw [zpow_split two_ne_zero q]
  push_cast
  field_simp

theorem lastPlace_eq {a b : ℕ} (ha : a ≠ 0) (hb : b ≠ 0) :
    lastPlace a b = format.place ((a : ℚ) / b) := by
  have hpos : (0 : ℚ) < a / b := by positivity
  obtain ⟨hlow, hhigh⟩ := log_ratio ha hb
  show _ = max (Int.log 2 |(a : ℚ) / b| + 1 - (53 : ℕ)) (-1074)
  rw [abs_of_pos hpos, lastPlace]
  simp only [Nat.pow_eq]
  generalize hq : max ((Nat.log2 a : ℤ) - Nat.log2 b - 53) (-1074) = q
  have hreach : 2 ^ 53 ≤ a * 2 ^ (-q).toNat / (b * 2 ^ q.toNat) ↔
      53 + q ≤ Int.log 2 ((a : ℚ) / b) := by
    have hbelow : (0 : ℚ) < (b * 2 ^ q.toNat : ℕ) := by positivity
    rw [← Int.zpow_le_iff_le_log (b := 2) (by decide) hpos, Nat.cast_ofNat,
      zpow_add₀ (by norm_num), ← le_div_iff₀ (by positivity), ← scaled_ratio a hb q,
      le_div_iff₀ hbelow, Nat.le_div_iff_mul_le (by positivity)]
    exact_mod_cast Iff.rfl
  by_cases hlong : 53 + q ≤ Int.log 2 ((a : ℚ) / b)
  · rw [if_pos (hreach.mpr hlong)]
    push_cast
    omega
  · rw [if_neg (mt hreach.mp hlong)]
    push_cast
    omega

theorem roundQuotient_eq (a : ℕ) {b : ℕ} (hb : b ≠ 0) (q : ℤ) :
    (roundQuotient (a * 2 ^ (-q).toNat) (b * 2 ^ q.toNat) : ℤ) = nearest ((a : ℚ) / b / 2 ^ q) := by
  rw [← scaled_ratio a hb q, nearest_ratio _ (by positivity), roundQuotient]

def bitsOf (a b : ℕ) : ℕ :=
  roundQuotient (a * 2 ^ (-lastPlace a b).toNat) (b * 2 ^ (lastPlace a b).toNat)

theorem round_ratio {a b : ℕ} (ha : a ≠ 0) (hb : b ≠ 0) :
    format.round ((a : ℚ) / b) = bitsOf a b * 2 ^ lastPlace a b := by
  have hnearest := roundQuotient_eq a hb (lastPlace a b)
  rw [FloatFormat.round, ← lastPlace_eq ha hb, format_pow, ← hnearest, bitsOf, Int.cast_natCast]

theorem bitsOf_le {a b : ℕ} (ha : a ≠ 0) (hb : b ≠ 0) : bitsOf a b ≤ 2 ^ 53 := by
  have hpos : (0 : ℚ) < a / b := by positivity
  have hlt := (format.ratio_lt hpos).le
  rw [← lastPlace_eq ha hb, format_pow] at hlt
  have hle := nearest_mono (hlt.trans_eq (show _ = (((2 ^ 53 : ℕ) : ℤ) : ℚ) by norm_num [format]))
  rw [nearest_intCast, ← roundQuotient_eq a hb] at hle
  exact_mod_cast hle

theorem lastPlace_of_bitsOf_lt {a b : ℕ} (ha : a ≠ 0) (hb : b ≠ 0) (h : bitsOf a b < 2 ^ 52) :
    lastPlace a b = -1074 := by
  have hpos : (0 : ℚ) < a / b := by positivity
  have hplace := lastPlace_eq ha hb
  have hleast : -1074 ≤ lastPlace a b := hplace ▸ le_max_right _ _
  by_contra hne
  have hle := format.le_ratio hpos (hplace ▸ lt_of_le_of_ne hleast (Ne.symm hne))
  rw [← hplace, format_pow] at hle
  have hge := nearest_mono ((show (((2 ^ 52 : ℕ) : ℤ) : ℚ) = _ by norm_num [format]).trans_le hle)
  rw [nearest_intCast, ← roundQuotient_eq a hb] at hge
  exact absurd h (not_lt.mpr (by exact_mod_cast hge))

theorem value_ofRatio (s : Bool) (a : ℕ) {b : ℕ} (hb : b ≠ 0)
    (hfinite : (ofRatio s a b).isFinite = true) :
    (ofRatio s a b).value = Decimal.signed s 1 * format.round ((a : ℚ) / b) := by
  by_cases ha : a = 0
  · rw [ofRatio, if_pos ha, value_ofFields_zero, ha]
    simp
  have hmade : ofRatio s a b = assemble s (bitsOf a b) (lastPlace a b) := if_neg ha
  have hleast : -1074 ≤ lastPlace a b := lastPlace_eq ha hb ▸ le_max_right _ _
  rw [hmade] at hfinite ⊢
  rw [value_assemble (bitsOf_le ha hb) hleast (lastPlace_of_bitsOf_lt ha hb) hfinite,
    round_ratio ha hb]
  cases s <;> simp [Decimal.signed]

theorem scale_ratio (d : Decimal) :
    (scale d.coeff d.exp.toNat : ℚ) / (10 ^ (-d.exp).toNat : ℕ) = |d.value| := by
  rw [scale_mul, Decimal.abs_value, zpow_split (by norm_num) d.exp]
  push_cast
  ring

theorem round_signed (d : Decimal) :
    format.round d.value = Decimal.signed d.negative 1 * format.round |d.value| := by
  rw [Decimal.abs_value]
  cases hn : d.negative with
  | false => simp [Decimal.value_of_not_negative hn, Decimal.signed]
  | true => simp [Decimal.value_of_negative hn, Decimal.signed, FloatFormat.round_neg]

theorem round_tiny {d : Decimal} (h : d.adjusted < -330) : format.round |d.value| = 0 := by
  have hlt : |d.value| < 10 ^ (-330 : ℤ) := by
    rw [Decimal.abs_value]
    refine (magnitude_lt _ _).trans_le (zpow_le_zpow_right₀ (by norm_num) ?_)
    unfold Decimal.adjusted at h
    omega
  have hsmall : (10 : ℚ) ^ (-330 : ℤ) ≤ 2 ^ (-1074 : ℤ) / 2 := by
    have hpow : (2 : ℚ) ^ 1075 ≤ 10 ^ 330 :=
      calc (2 : ℚ) ^ 1075 = (2 ^ 43) ^ 25 := (pow_mul 2 43 25)
        _ ≤ (10 ^ 13) ^ 25 := pow_le_pow_left₀ (by norm_num) (by norm_num) 25
        _ = 10 ^ 325 := (pow_mul 10 13 25).symm
        _ ≤ 10 ^ 330 := pow_le_pow_right₀ (by norm_num) (by norm_num)
    calc (10 : ℚ) ^ (-330 : ℤ) = (10 ^ 330)⁻¹ := by rw [zpow_neg, zpow_ofNat]
      _ ≤ (2 ^ 1075)⁻¹ := inv_anti₀ (by positivity) hpow
      _ = 2 ^ (-1074 : ℤ) / 2 := by
        rw [zpow_neg, zpow_ofNat, pow_succ _ 1074, mul_inv, div_eq_mul_inv]
  refine le_antisymm (not_lt.mp fun hpos => ?_) (format.round_nonneg (abs_nonneg _))
  rw [FloatFormat.round_pos_iff, format_pow] at hpos
  exact absurd (hlt.trans_le hsmall) (not_lt.mpr hpos.le)

/-- A decimal becomes the double nearest to it, if that is finite. -/
theorem value_ofDecimal {d : Decimal} (hfinite : (ofDecimal d).isFinite = true) :
    (ofDecimal d).value = format.round d.value := by
  unfold ofDecimal at hfinite ⊢
  split at hfinite
  · next hz =>
    rw [if_pos hz, value_ofFields_zero, Decimal.value_eq_zero.mpr hz, FloatFormat.round_zero]
  next hz =>
  rw [if_neg hz]
  split at hfinite
  · rw [infinity_not_finite] at hfinite
    cases hfinite
  next hlarge =>
  rw [if_neg hlarge]
  split at hfinite
  · next hsmall =>
    rw [if_pos hsmall, value_ofFields_zero, round_signed, round_tiny hsmall, mul_zero]
  next hsmall =>
  rw [if_neg hsmall]
  simp only [Nat.pow_eq] at hfinite ⊢
  rw [value_ofRatio _ _ (by positivity) hfinite, scale_ratio, ← round_signed]

end BomEngine.Binary64
