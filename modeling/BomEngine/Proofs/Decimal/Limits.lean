import BomEngine.Proofs.Decimal.Rounding

/-!
# Results too large

A result has no place if it is so large that rounding takes it past the last number of 28
digits. Where that begins is known exactly: half a unit of the last digit below the first number
that cannot be held. Every operation is compared here with that brink by the value of its exact
result, which it does not write out.
-/

set_option autoImplicit false

namespace BomEngine.Decimal

/-- From here on a number of 28 digits down to the place `k` is rounded up to one digit more. The
digit before a tie is odd here, so that the tie goes up as well. -/
def brink (k : ℤ) : ℚ := (10 ^ precision - 1 / 2) * 10 ^ k

/-- Too large to be held in 28 digits. -/
def TooLarge (q : ℚ) : Prop := brink topExponent ≤ |q|

theorem ten_zpow_le {i j : ℤ} (h : i ≤ j) : (10 : ℚ) ^ i ≤ 10 ^ j :=
  zpow_le_zpow_right₀ (by norm_num) h

theorem ten_zpow_add (m : ℕ) (k : ℤ) : (10 : ℚ) ^ (m + k) = 10 ^ m * 10 ^ k := by
  rw [zpow_add₀ (by norm_num), zpow_natCast]

theorem brink_lt (k : ℤ) : brink k < 10 ^ (precision + k) := by
  rw [brink, ten_zpow_add]
  exact mul_lt_mul_of_pos_right (by norm_num) (by positivity)

theorem le_brink (k : ℤ) : (10 : ℚ) ^ ((27 : ℕ) + k) ≤ brink k := by
  rw [brink, ten_zpow_add, precision]
  exact mul_le_mul_of_nonneg_right (by norm_num) (by positivity)

theorem brink_pos (k : ℤ) : 0 < brink k := lt_of_lt_of_le (by positivity) (le_brink k)

theorem brink_mono {j k : ℤ} (h : j ≤ k) : brink j ≤ brink k :=
  mul_le_mul_of_nonneg_left (ten_zpow_le h) (by norm_num [precision])

theorem brink_eq {k e : ℤ} (h : e < k) :
    brink k = (5 * ((2 * 10 ^ precision - 1) * 10 ^ (k - 1 - e).toNat) : ℕ) * 10 ^ e := by
  have hk : k = 1 + ((k - 1 - e).toNat : ℤ) + e := by omega
  rw [brink, hk, zpow_add₀ (by norm_num), zpow_add₀ (by norm_num), zpow_natCast, precision]
  push_cast
  rw [show (1 + ((k - 1 - e).toNat : ℤ) + e - 1 - e).toNat = (k - 1 - e).toNat by omega]
  norm_num
  ring

def lastPlace (n : ℕ) (e : ℤ) : ℤ := max (e + digitCount n - precision) leastExponent

def rounded (n : ℕ) (e : ℤ) : ℚ :=
  if lastPlace n e ≤ e then n * 10 ^ e
  else dropDigits .halfEven n (lastPlace n e - e).toNat * 10 ^ lastPlace n e

theorem dropDigits_le (mode : Rounding) {n k m : ℕ} (h : n < 10 ^ (m + k)) :
    dropDigits mode n k ≤ 10 ^ m := by
  have hq : n / 10 ^ k < 10 ^ m := Nat.div_lt_of_lt_mul (by rwa [mul_comm, ← Nat.pow_add])
  rw [dropDigits_eq]
  split <;> omega

theorem carry_iff {n k : ℕ} (h : n < 10 ^ (precision + k)) :
    10 ^ precision ≤ dropDigits .halfEven n k ↔ (2 * 10 ^ precision - 1) * 10 ^ k ≤ 2 * n := by
  have hu : 0 < 10 ^ k := by positivity
  have hq : n / 10 ^ k < 10 ^ precision :=
    Nat.div_lt_of_lt_mul (by rwa [mul_comm, ← Nat.pow_add])
  have hsplit := Nat.div_add_mod n (10 ^ k)
  have hr := Nat.mod_lt n hu
  rw [dropDigits_eq]
  generalize n / 10 ^ k = q at hq hsplit ⊢
  generalize n % 10 ^ k = r at hr hsplit ⊢
  generalize 10 ^ k = u at hu hsplit hr ⊢
  by_cases hlast : q = 10 ^ precision - 1
  · have hup : Rounding.halfEven.up q r u = true ↔ u ≤ 2 * r := by
      have hodd : q % 2 = 1 := by rw [hlast]; decide
      unfold Rounding.up
      rcases lt_trichotomy (2 * r) u with hc | hc | hc
      · rw [compare_lt_iff_lt.mpr hc]
        exact iff_of_false Bool.false_ne_true (by omega)
      · rw [compare_eq_iff_eq.mpr hc]
        exact iff_of_true (decide_eq_true hodd) (by omega)
      · rw [compare_gt_iff_gt.mpr hc]
        exact iff_of_true rfl (by omega)
    have hlarge : (2 * 10 ^ precision - 1) * u ≤ 2 * n ↔ u ≤ 2 * r := by
      rw [← hsplit, hlast, precision]
      omega
    rw [hlarge, ← hup]
    split
    · next hc => exact iff_of_true (by omega) hc
    · next hc => exact iff_of_false (by omega) hc
  · have hlow : q + 2 ≤ 10 ^ precision := by omega
    refine iff_of_false ?_ ?_
    · split <;> omega
    · have hmul : u * q + u * 2 ≤ u * 10 ^ precision :=
        (Nat.mul_add u q 2).symm.trans_le (Nat.mul_le_mul_left u hlow)
      rw [← hsplit]
      rw [precision] at *
      omega

theorem digitCount_le_lastPlace (n : ℕ) (e : ℤ) : e + digitCount n ≤ precision + lastPlace n e := by
  unfold lastPlace
  omega

theorem rounded_of_short {n : ℕ} {e : ℤ} (hn : digitCount n ≤ precision)
    (he : leastExponent ≤ e) : rounded n e = n * 10 ^ e := by
  rw [rounded, if_pos]
  unfold lastPlace
  omega

theorem lt_pow_of_lastPlace {n : ℕ} {e : ℤ} (h : e < lastPlace n e) :
    n < 10 ^ (precision + (lastPlace n e - e).toNat) := by
  have := digitCount_le_lastPlace n e
  exact (digitCount_le (by unfold precision; omega)).mp (by omega)

theorem rounded_iff_exact {n : ℕ} {e k : ℤ} (h : lastPlace n e ≤ e) :
    (10 : ℚ) ^ (precision + k) ≤ rounded n e ↔ brink k ≤ n * 10 ^ e := by
  rw [rounded, if_pos h]
  refine ⟨(brink_lt k).le.trans, fun hbrink => ?_⟩
  rcases le_or_gt k e with hke | hke
  · rw [← magnitude_scale n hke, brink] at hbrink
    rw [← magnitude_scale n hke, ten_zpow_add]
    have hunit : (0 : ℚ) < 10 ^ k := by positivity
    refine mul_le_mul_of_nonneg_right ?_ hunit.le
    have hhalf := le_of_mul_le_mul_right hbrink hunit
    have hnat : 10 ^ precision < scale n (e - k).toNat + 1 := by
      have : (10 ^ precision : ℚ) < scale n (e - k).toNat + 1 := by linarith
      exact_mod_cast this
    exact_mod_cast Nat.lt_succ_iff.mp hnat
  · have htop := digitCount_le_lastPlace n e
    have hshort : e + digitCount n ≤ (27 : ℕ) + k := by
      unfold precision at htop
      omega
    have hlt := (magnitude_lt n e).trans_le ((ten_zpow_le hshort).trans (le_brink k))
    exact absurd hbrink (not_le.mpr hlt)

theorem rounded_below {n : ℕ} {e k : ℤ} (h : e < lastPlace n e) (hlow : lastPlace n e < k) :
    rounded n e < 10 ^ (precision + k) ∧ n * 10 ^ e < brink k := by
  have htop := digitCount_le_lastPlace n e
  have hkept : (dropDigits .halfEven n (lastPlace n e - e).toNat : ℚ) ≤ 10 ^ precision := by
    exact_mod_cast dropDigits_le .halfEven (lt_pow_of_lastPlace h)
  rw [rounded, if_neg (not_le.mpr h)]
  constructor
  · calc (dropDigits .halfEven n (lastPlace n e - e).toNat : ℚ) * 10 ^ lastPlace n e
        ≤ 10 ^ precision * 10 ^ lastPlace n e :=
          mul_le_mul_of_nonneg_right hkept (by positivity)
      _ = 10 ^ (precision + lastPlace n e) := (ten_zpow_add _ _).symm
      _ < 10 ^ (precision + k) := zpow_lt_zpow_right₀ (by norm_num) (by omega)
  · have hshort : e + digitCount n ≤ (27 : ℕ) + k := by
      unfold precision at htop
      omega
    exact (magnitude_lt n e).trans_le ((ten_zpow_le hshort).trans (le_brink k))

theorem rounded_iff_last {n : ℕ} {e : ℤ} (h : e < lastPlace n e) :
    (10 : ℚ) ^ (precision + lastPlace n e) ≤ rounded n e ↔
      brink (lastPlace n e) ≤ n * 10 ^ e := by
  have hcarry := carry_iff (lt_pow_of_lastPlace h)
  have hunit : (0 : ℚ) < 10 ^ e := by positivity
  rw [rounded, if_neg (not_le.mpr h), ten_zpow_add,
    mul_le_mul_iff_left₀ (by positivity : (0 : ℚ) < 10 ^ lastPlace n e), brink_eq h,
    mul_le_mul_iff_left₀ hunit, Nat.cast_le]
  have hdigits : 10 ^ (lastPlace n e - e).toNat = 10 * 10 ^ (lastPlace n e - 1 - e).toNat := by
    rw [← Nat.pow_succ', show (lastPlace n e - 1 - e).toNat.succ = (lastPlace n e - e).toNat by
      omega]
  rw [hdigits] at hcarry
  rw [show (10 ^ precision : ℚ) = (10 ^ precision : ℕ) by push_cast; rfl, Nat.cast_le, hcarry]
  generalize 10 ^ (lastPlace n e - 1 - e).toNat = u
  unfold precision
  omega

theorem rounded_above {n : ℕ} (hn : n ≠ 0) {e k : ℤ} (hk : leastExponent ≤ k)
    (h : e < lastPlace n e) (hlow : k < lastPlace n e) :
    (10 : ℚ) ^ (precision + k) ≤ rounded n e ∧ brink k ≤ n * 10 ^ e := by
  have hfull : lastPlace n e = e + digitCount n - precision := by
    unfold lastPlace at *
    omega
  have hfirst : (10 : ℚ) ^ (precision + k) ≤ 10 ^ ((27 : ℕ) + lastPlace n e) :=
    ten_zpow_le (by unfold precision; omega)
  have hge : (10 : ℚ) ^ ((27 : ℕ) + lastPlace n e) ≤ n * 10 ^ e := by
    refine (ten_zpow_le ?_).trans (le_magnitude hn e)
    unfold precision at hfull
    omega
  refine ⟨hfirst.trans ?_, (brink_lt k).le.trans (hfirst.trans hge)⟩
  have hkept : 10 ^ 27 ≤ dropDigits .halfEven n (lastPlace n e - e).toNat := by
    have hq : 10 ^ 27 ≤ n / 10 ^ (lastPlace n e - e).toNat := by
      rw [Nat.le_div_iff_mul_le (by positivity), ← Nat.pow_add]
      refine (Nat.pow_le_pow_right (by decide) ?_).trans (pow_digitCount_le hn)
      unfold precision at hfull
      omega
    rw [dropDigits_eq]
    split <;> omega
  rw [rounded, if_neg (not_le.mpr h), ten_zpow_add]
  exact mul_le_mul_of_nonneg_right (by exact_mod_cast hkept) (by positivity)

/-- A magnitude is rounded up to one digit more from the brink on, whatever it has been before. -/
theorem rounded_iff {n : ℕ} (hn : n ≠ 0) (e : ℤ) {k : ℤ} (hk : leastExponent ≤ k) :
    (10 : ℚ) ^ (precision + k) ≤ rounded n e ↔ brink k ≤ n * 10 ^ e := by
  rcases le_or_gt (lastPlace n e) e with hexact | hlast
  · exact rounded_iff_exact hexact
  rcases lt_trichotomy (lastPlace n e) k with hlow | rfl | hlow
  · obtain ⟨hrounded, hbefore⟩ := rounded_below hlast hlow
    exact iff_of_false (not_le.mpr hrounded) (not_le.mpr hbefore)
  · exact rounded_iff_last hlast
  · obtain ⟨hrounded, hbefore⟩ := rounded_above hn hk hlast hlow
    exact iff_of_true hrounded hbefore

theorem fix_of_ne_zero (s : Bool) {n : ℕ} (hn : n ≠ 0) (e : ℤ) :
    fix s n e =
      if topExponent < e + digitCount n - precision then .error .overflow
      else if lastPlace n e ≤ e then .ok ⟨s, n, e⟩
      else
        let kept := dropDigits .halfEven n (lastPlace n e - e).toNat
        if digitCount kept ≤ precision then .ok ⟨s, kept, lastPlace n e⟩
        else if topExponent < lastPlace n e + 1 then .error .overflow
        else .ok ⟨s, kept / 10, lastPlace n e + 1⟩ := by
  rw [fix, if_neg hn]
  rfl

def Places (result : Except Signal Decimal) (magnitude : ℚ) : Prop :=
  (result = .error .overflow ∧ (10 : ℚ) ^ (precision + topExponent) ≤ magnitude) ∨
  ∃ d, result = .ok d ∧ d.coeff < 10 ^ precision ∧ |d.value| = magnitude ∧
    magnitude < 10 ^ (precision + topExponent)

theorem places_of_short (s : Bool) {n : ℕ} {e : ℤ} (hn : n < 10 ^ precision)
    (htop : e + digitCount n ≤ precision + topExponent) : Places (.ok ⟨s, n, e⟩) (n * 10 ^ e) :=
  .inr ⟨_, rfl, hn, abs_value _, (magnitude_lt n e).trans_le (ten_zpow_le htop)⟩

theorem places_carried (s : Bool) (low : ℤ) :
    Places (if topExponent < low + 1 then .error .overflow
      else .ok ⟨s, 10 ^ precision / 10, low + 1⟩) (10 ^ (precision + low)) := by
  by_cases hlast : topExponent < low + 1
  · rw [if_pos hlast]
    exact .inl ⟨rfl, ten_zpow_le (by omega)⟩
  · rw [if_neg hlast]
    refine .inr ⟨_, rfl, Nat.div_lt_self (by decide) (by decide), ?_,
      zpow_lt_zpow_right₀ (by norm_num) (by omega)⟩
    rw [abs_value, ten_zpow_add, zpow_add_one₀ (by norm_num), precision]
    norm_num
    ring

theorem fix_cases (s : Bool) {n : ℕ} (hn : n ≠ 0) (e : ℤ) :
    Places (fix s n e) (rounded n e) := by
  have hshort {m : ℕ} : digitCount m ≤ precision ↔ m < 10 ^ precision := digitCount_le (by decide)
  have hlow : leastExponent ≤ topExponent := by decide
  rw [fix_of_ne_zero s hn]
  by_cases htop : topExponent < e + digitCount n - precision
  · rw [if_pos htop]
    have hfirst := (ten_zpow_le (show precision + topExponent ≤ e + digitCount n - 1 by
      omega)).trans (le_magnitude hn e)
    exact .inl ⟨rfl, (rounded_iff hn e hlow).mpr ((brink_lt _).le.trans hfirst)⟩
  have hlen := digitCount_le_lastPlace n e
  have hplace : lastPlace n e ≤ topExponent := max_le (not_lt.mp htop) hlow
  rw [if_neg htop, rounded]
  by_cases hexact : lastPlace n e ≤ e
  · rw [if_pos hexact, if_pos hexact]
    exact places_of_short s (hshort.mp (by omega)) (by omega)
  rw [if_neg hexact, if_neg hexact]
  have hkept := dropDigits_le .halfEven (lt_pow_of_lastPlace (not_le.mp hexact))
  generalize dropDigits .halfEven n (lastPlace n e - e).toNat = kept at *
  generalize lastPlace n e = low at *
  by_cases hfit : digitCount kept ≤ precision
  · rw [if_pos hfit]
    exact places_of_short s (hshort.mp hfit) (by omega)
  · obtain rfl : kept = 10 ^ precision := le_antisymm hkept (not_lt.mp (mt hshort.mpr hfit))
    have hvalue : ((10 ^ precision : ℕ) : ℚ) * 10 ^ low = 10 ^ (precision + low) := by
      rw [ten_zpow_add]
      push_cast
      rfl
    rw [if_neg hfit, hvalue]
    exact places_carried s low

theorem fix_overflow_iff (s : Bool) (n : ℕ) (e : ℤ) :
    fix s n e = .error .overflow ↔ TooLarge (n * 10 ^ e) := by
  rw [TooLarge, abs_of_nonneg (by positivity)]
  by_cases hn : n = 0
  · simpa [fix, hn] using brink_pos topExponent
  rw [← rounded_iff hn e (by decide)]
  rcases fix_cases s hn e with ⟨hfix, hlarge⟩ | ⟨d, hfix, -, -, hfits⟩
  · exact iff_of_true hfix hlarge
  · exact iff_of_false (by simp [hfix]) (not_le.mpr hfits)

theorem fix_coeff_lt {s : Bool} {n : ℕ} {e : ℤ} {d : Decimal} (h : fix s n e = .ok d) :
    d.coeff < 10 ^ precision := by
  by_cases hn : n = 0
  · rw [fix, if_pos hn] at h
    cases h
    show 0 < 10 ^ precision
    decide
  rcases fix_cases s hn e with ⟨hfix, -⟩ | ⟨d', hfix, hshort, -⟩ <;> rw [hfix] at h <;> cases h
  exact hshort

/-- A result reaches a power of ten exactly if the number before rounding reaches the brink. -/
theorem fix_reaches_iff {s : Bool} {n : ℕ} {e k : ℤ} {d : Decimal} (h : fix s n e = .ok d)
    (hk : leastExponent ≤ k) :
    (10 : ℚ) ^ (precision + k) ≤ |d.value| ↔ brink k ≤ n * 10 ^ e := by
  by_cases hn : n = 0
  · rw [fix, if_pos hn] at h
    cases h
    rw [abs_value, hn, Nat.cast_zero, zero_mul, zero_mul]
    exact iff_of_false (not_le.mpr (by positivity)) (not_le.mpr (brink_pos k))
  rcases fix_cases s hn e with ⟨hfix, -⟩ | ⟨d', hfix, -, hvalue, -⟩ <;> rw [hfix] at h <;> cases h
  rw [hvalue, rounded_iff hn e hk]

structure Held (d : Decimal) : Prop where
  coeff : d.coeff < 10 ^ precision
  exp : leastExponent ≤ d.exp
  fits : ¬ TooLarge d.value

theorem fix_held {s : Bool} {n : ℕ} {e : ℤ} {d : Decimal} (h : fix s n e = .ok d) : Held d := by
  refine ⟨fix_coeff_lt h, fix_exp h, fun hd => ?_⟩
  have hlow : leastExponent ≤ topExponent := by decide
  have hc : d.coeff ≠ 0 := by
    intro hc
    rw [TooLarge, abs_value, hc, Nat.cast_zero, zero_mul] at hd
    exact absurd hd (not_le.mpr (brink_pos topExponent))
  have hreach : (10 : ℚ) ^ (precision + topExponent) ≤ |d.value| := by
    rw [TooLarge, abs_value, ← rounded_iff hc _ hlow,
      rounded_of_short ((digitCount_le (by decide)).mpr (fix_coeff_lt h)) (fix_exp h)] at hd
    rwa [abs_value]
  have hbefore := (fix_reaches_iff h hlow).mp hreach
  have hover := (fix_overflow_iff s n e).mpr (hbefore.trans (le_abs_self _))
  rw [h] at hover
  cases hover

theorem signed_short {n : ℕ} (s : Bool) (hn : n < 10 ^ precision) :
    |signed s n| < 10 ^ precision := by
  have habs : |signed s n| = n := by cases s <;> simp [signed]
  rw [habs]
  exact_mod_cast hn

theorem representable_of_short {m e : ℤ} (hm : |m| < 10 ^ precision) (he : leastExponent ≤ e)
    (h : ¬ TooLarge (m * 10 ^ e)) : Representable (m * 10 ^ e) := by
  rcases le_or_gt e topExponent with htop | htop
  · exact ⟨m, e, rfl, hm, he, htop⟩
  have hsplit : (m : ℚ) * 10 ^ e = (m * 10 ^ (e - topExponent).toNat : ℤ) * 10 ^ topExponent := by
    push_cast
    rw [mul_assoc, ← zpow_natCast, Int.toNat_of_nonneg (by omega),
      ← zpow_add₀ (by norm_num : (10 : ℚ) ≠ 0), sub_add_cancel]
  refine ⟨_, topExponent, hsplit, ?_, by decide, le_rfl⟩
  have hlt := (not_le.mp h).trans (brink_lt topExponent)
  rw [hsplit, abs_mul, abs_of_pos (by positivity : (0 : ℚ) < 10 ^ topExponent),
    zpow_add₀ (by norm_num), zpow_natCast] at hlt
  exact_mod_cast lt_of_mul_lt_mul_right hlt (by positivity)

theorem tooLarge_abs (q : ℚ) : TooLarge |q| ↔ TooLarge q := by rw [TooLarge, TooLarge, abs_abs]

theorem mul_overflow_iff (x y : Decimal) :
    x.mul y = .error .overflow ↔ TooLarge (x.value * y.value) := by
  rw [mul, fix_overflow_iff, ← tooLarge_abs (x.value * y.value), abs_mul, abs_value, abs_value,
    zpow_add₀ (by norm_num)]
  push_cast
  rw [mul_mul_mul_comm]

theorem sumOf_overflow_iff (x y : Decimal) :
    sumOf x y = .error .overflow ↔ TooLarge (x.value + y.value) := by
  rw [sumOf, fix_overflow_iff, ← tooLarge_abs (x.value + y.value),
    ← value_scaled x (min_le_left x.exp y.exp), ← value_scaled y (min_le_right x.exp y.exp),
    ← add_mul, abs_mul, abs_of_pos (by positivity : (0 : ℚ) < 10 ^ min x.exp y.exp),
    Nat.cast_natAbs]
  push_cast
  rfl

theorem whole_gap {a b : ℕ} {low unit : ℤ} (hunit : low < unit) (hab : a ≠ b) :
    (10 : ℚ) ^ low < |(a * 10 ^ unit - b * 10 ^ unit : ℚ)| := by
  have hone : (1 : ℚ) ≤ |(a : ℚ) - b| := by
    exact_mod_cast Int.one_le_abs (sub_ne_zero.mpr (Nat.cast_injective.ne hab))
  rw [← sub_mul, abs_mul, abs_of_pos (by positivity : (0 : ℚ) < 10 ^ unit)]
  calc (10 : ℚ) ^ low < 10 ^ unit := zpow_lt_zpow_right₀ (by norm_num) hunit
    _ ≤ _ := le_mul_of_one_le_left (by positivity) hone

theorem hidden_gap {x y : Decimal} (h : Hidden x y) : (10 : ℚ) ^ x.horizon < |x.value| ∧
    (|x.value| ≠ brink topExponent →
      10 ^ x.horizon < |(|x.value| - brink topExponent)|) := by
  obtain ⟨hx, -, -, -⟩ := h
  have hpx := digitCount_pos x.coeff
  have hplace : x.horizon + 30 ≤ x.exp + digitCount x.coeff := by unfold horizon precision; omega
  have hhe : x.horizon ≤ x.exp - 1 := by unfold horizon; omega
  have hge := le_magnitude hx x.exp
  have hlt := magnitude_lt x.coeff x.exp
  have htop : (0 : ℚ) < 10 ^ topExponent := by positivity
  rw [abs_value]
  generalize x.horizon = low at *
  generalize hp : x.exp + digitCount x.coeff = place at *
  refine ⟨(zpow_lt_zpow_right₀ (by norm_num) (by omega)).trans_le hge, fun hne => ?_⟩
  rcases lt_trichotomy place (28 + topExponent) with hc | hc | hc
  · have hxle := hlt.le.trans
      (ten_zpow_le (show place ≤ (27 : ℕ) + topExponent by push_cast; omega))
    have hlow := ten_zpow_le (show low ≤ topExponent by omega)
    rw [ten_zpow_add] at hxle
    rw [abs_sub_comm, brink, precision]
    refine lt_of_lt_of_le ?_ (le_abs_self _)
    linarith
  · have hunit : low < min x.exp (topExponent - 1) := by omega
    rw [← magnitude_scale x.coeff (min_le_left x.exp (topExponent - 1)),
      brink_eq (show min x.exp (topExponent - 1) < topExponent by omega)] at hne ⊢
    generalize scale x.coeff (x.exp - min x.exp (topExponent - 1)).toNat = a at hne ⊢
    generalize 5 * ((2 * 10 ^ precision - 1) *
      10 ^ (topExponent - 1 - min x.exp (topExponent - 1)).toNat) = b at hne ⊢
    generalize min x.exp (topExponent - 1) = unit at hne hunit ⊢
    exact whole_gap hunit fun hab => hne (by rw [hab])
  · have hfirst := ten_zpow_le (show (28 : ℕ) + topExponent ≤ place - 1 by push_cast; omega)
    have hlow := ten_zpow_le (show (29 : ℕ) + low ≤ place - 1 by push_cast; omega)
    rw [ten_zpow_add] at hfirst hlow
    rw [brink, precision]
    refine lt_of_lt_of_le ?_ (le_abs_self _)
    linarith

structure Alike (δ z w : ℚ) : Prop where
  left : z ≠ 0
  right : w ≠ 0
  left_le : |z| ≤ δ
  right_le : |w| ≤ δ
  sign : 0 < z ↔ 0 < w

theorem Alike.neg {δ z w : ℚ} (h : Alike δ z w) : Alike δ (-z) (-w) := by
  refine ⟨neg_ne_zero.mpr h.left, neg_ne_zero.mpr h.right, ?_, ?_, ?_⟩
  · rw [abs_neg]
    exact h.left_le
  · rw [abs_neg]
    exact h.right_le
  · rw [neg_pos, neg_pos, ← not_le, ← not_le, h.left.symm.le_iff_lt, h.right.symm.le_iff_lt, h.sign]

theorem alike_beside {x y : Decimal} (h : Hidden x y) :
    Alike (10 ^ x.horizon) (beside x y).value y.value := by
  obtain ⟨hx, hy, hexp, hadj⟩ := h
  have hbeside : beside x y = ⟨y.negative, 1, x.horizon⟩ := by
    simp [beside, isZero, hx, hy, hexp, hadj]
  refine ⟨?_, ?_, ?_, ?_, ?_⟩
  · rw [ne_eq, value_eq_zero, hbeside]
    simp [isZero]
  · rw [ne_eq, value_eq_zero]
    simpa [isZero] using hy
  · rw [abs_value, hbeside]
    simp
  · rw [abs_value]
    refine (magnitude_lt _ _).le.trans (ten_zpow_le ?_)
    unfold adjusted at hadj
    omega
  · rw [value_pos_iff, value_pos_iff, hbeside]
    simp [hy]

theorem tooLarge_add_congr {q z w δ : ℚ} (hq : δ < |q|)
    (hgap : |q| ≠ brink topExponent → δ < |(|q| - brink topExponent)|) (h : Alike δ z w) :
    TooLarge (q + z) ↔ TooLarge (q + w) := by
  wlog hpos : 0 < q generalizing q z w
  · have hneg : 0 < -q := by
      rcases lt_trichotomy q 0 with hlt | hzero | hgt
      · linarith
      · rw [hzero, abs_zero] at hq
        linarith [abs_nonneg z, h.left_le]
      · exact absurd hgt hpos
    have hcongr := this (q := -q) (by rwa [abs_neg]) (by rwa [abs_neg]) h.neg hneg
    rwa [← neg_add, ← neg_add, TooLarge, TooLarge, abs_neg, abs_neg] at hcongr
  rw [abs_of_pos hpos] at hq hgap
  obtain ⟨hzl, hzu⟩ := abs_le.mp h.left_le
  obtain ⟨hwl, hwu⟩ := abs_le.mp h.right_le
  rw [TooLarge, TooLarge, abs_of_pos (by linarith), abs_of_pos (by linarith)]
  by_cases hb : q = brink topExponent
  · rw [← hb, le_add_iff_nonneg_right, le_add_iff_nonneg_right, h.left.symm.le_iff_lt,
      h.right.symm.le_iff_lt, h.sign]
  · rcases lt_abs.mp (hgap hb) with hside | hside
    · exact iff_of_true (by linarith) (by linarith)
    · exact iff_of_false (by linarith) (by linarith)

theorem tooLarge_beside {x y : Decimal} (h : Hidden x y) :
    TooLarge (x.value + (beside x y).value) ↔ TooLarge (x.value + y.value) := by
  obtain ⟨hfar, hgap⟩ := hidden_gap h
  exact tooLarge_add_congr hfar hgap (alike_beside h)

theorem add_overflow_iff (x y : Decimal) :
    x.add y = .error .overflow ↔ TooLarge (x.value + y.value) := by
  rw [add, sumOf_overflow_iff]
  by_cases hxy : Hidden x y
  · have hyx : ¬ Hidden y x := fun hyx => lt_asymm hxy.2.2.1 hyx.2.2.1
    rw [beside_value hyx, tooLarge_beside hxy]
  · rw [beside_value hxy]
    by_cases hyx : Hidden y x
    · rw [add_comm, tooLarge_beside hyx, add_comm]
    · rw [beside_value hyx]

/-- A running total becomes too large. -/
def SumTooLarge (xs : List Decimal) : Prop :=
  ∃ before x after total, xs = before ++ x :: after ∧ Decimal.sum before = .ok total ∧
    TooLarge (total.value + x.value)

theorem sum_overflow_iff {xs : List Decimal} :
    Decimal.sum xs = .error .overflow ↔ SumTooLarge xs := by
  simp only [Decimal.sum, Traversal.foldlM_error_iff, add_overflow_iff, SumTooLarge]

theorem sub_overflow_iff (x y : Decimal) :
    x.sub y = .error .overflow ↔ TooLarge (x.value - y.value) := by
  rw [sub, add_overflow_iff, value_neg, sub_eq_add_neg]

end BomEngine.Decimal
