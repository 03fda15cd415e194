import BomEngine.Proofs.Decimal.Binary64
import BomEngine.Proofs.Decimal.Exact
import BomEngine.Proofs.Decimal.Notation

/-!
# The shortest text of a double

A double is written with the fewest digits from which it can be read back. Seventeen of them always
suffice, because then the digits stand closer than the doubles. So the text of a finite double
denotes a decimal that is rounded to just that double, and has its sign.
-/

set_option autoImplicit false

namespace BomEngine

namespace Binary64

open Text Number

variable {x : Binary64}

theorem ofFields_fields (x : Binary64) :
    ofFields x.negative (x.exponentField * 2 ^ 52 + x.fraction) = x := by
  have hbits : (if x.negative then 2 ^ 63 else 0) + (x.exponentField * 2 ^ 52 + x.fraction) =
      x.bits.toNat := by
    have hlt : x.bits.toNat < 2 ^ 64 := x.bits.toNat_lt
    unfold negative exponentField fraction
    simp only [Nat.pow_eq, decide_eq_true_eq]
    split <;> omega
  show (⟨UInt64.ofNat ((if x.negative then 2 ^ 63 else 0) +
    (x.exponentField * 2 ^ 52 + x.fraction))⟩ : Binary64) = x
  rw [hbits, UInt64.ofNat_toNat]

structure Normal (m : ℕ) (q : ℤ) : Prop where
  least : -1074 ≤ q
  small : m < 2 ^ 52 → q = -1074

theorem fraction_lt (x : Binary64) : x.fraction < 2 ^ 52 := Nat.mod_lt _ (by decide)

theorem significand_lt (x : Binary64) : x.significand < 2 ^ 53 := by
  have hfraction := x.fraction_lt
  unfold significand
  simp only [Nat.pow_eq]
  split <;> omega

theorem normal_fields (x : Binary64) : Normal x.significand x.exponent := by
  unfold significand exponent
  simp only [Nat.pow_eq]
  split
  · exact ⟨le_rfl, fun _ => rfl⟩
  · refine ⟨by omega, ?_⟩
    omega

theorem exponent_le (hx : x.isFinite = true) : x.exponent ≤ 971 := by
  have hfield : x.exponentField ≠ 2047 := by simpa [isFinite] using hx
  have hlt : x.exponentField < 2048 := Nat.mod_lt _ (by decide)
  unfold exponent
  split <;> omega

theorem assemble_fields (hx : x.isFinite = true) :
    assemble x.negative x.significand x.exponent = x := by
  have hfield : x.exponentField ≠ 2047 := by simpa [isFinite] using hx
  have hlt : x.exponentField < 2048 := Nat.mod_lt _ (by decide)
  have hfraction := x.fraction_lt
  have hsame := x.ofFields_fields
  unfold assemble significand exponent
  simp only [Nat.pow_eq]
  by_cases hzero : x.exponentField = 0
  · rw [hzero, zero_mul, zero_add] at hsame
    rw [if_pos hzero, if_pos hfraction, hsame]
  · have hplace : ((x.exponentField : ℤ) - 1075 + 1075).toNat = x.exponentField := by omega
    rw [if_neg hzero, if_neg hzero, if_neg (by omega), hplace, Nat.add_sub_cancel,
      if_neg (by omega), hsame]

theorem normal_unique {m n : ℕ} {p q : ℤ} (hm : m < 2 ^ 53) (hn : n < 2 ^ 53) (hp : Normal m p)
    (hq : Normal n q) (h : (m : ℚ) * 2 ^ p = n * 2 ^ q) : m = n ∧ p = q := by
  have hle : ∀ {m n : ℕ} {p q : ℤ}, m < 2 ^ 53 → Normal m p → Normal n q →
      (m : ℚ) * 2 ^ p = n * 2 ^ q → q ≤ p := by
    intro m n p q hm hp hq h
    by_contra hlt
    have hbig : 2 ^ 52 ≤ n := by
      by_contra hsmall
      have := hq.small (by omega)
      have := hp.least
      omega
    have hsplit : (2 : ℚ) ^ q = 2 ^ (q - p - 1).toNat * 2 * 2 ^ p := by
      rw [← zpow_natCast, ← zpow_add_one₀ two_ne_zero, ← zpow_add₀ two_ne_zero]
      congr 1
      omega
    have heven : m = n * (2 ^ (q - p - 1).toNat * 2) := by
      rw [hsplit, ← mul_assoc] at h
      exact_mod_cast mul_right_cancel₀ (by positivity : (2 : ℚ) ^ p ≠ 0) h
    have hone : 1 ≤ 2 ^ (q - p - 1).toNat := Nat.one_le_two_pow
    have := Nat.mul_le_mul hbig (Nat.mul_le_mul_right 2 hone)
    omega
  obtain rfl : p = q := le_antisymm (hle hn hq hp h.symm) (hle hm hp hq h)
  exact ⟨by exact_mod_cast mul_right_cancel₀ (by positivity : (2 : ℚ) ^ p ≠ 0) h, rfl⟩

def magnitude (x : Binary64) : ℚ := x.significand * 2 ^ x.exponent

theorem value_eq_signed (x : Binary64) : x.value = Decimal.signed x.negative 1 * x.magnitude := by
  unfold value magnitude
  cases x.negative <;> simp [Decimal.signed]

theorem assemble_carry (s : Bool) {q : ℤ} (hq : -1074 ≤ q) :
    assemble s (2 ^ 53) q = assemble s (2 ^ 52) (q + 1) := by
  have hplace : (q + 1075).toNat * 2 ^ 52 + (2 ^ 53 - 2 ^ 52) =
      (q + 1 + 1075).toNat * 2 ^ 52 + (2 ^ 52 - 2 ^ 52) := by omega
  unfold assemble
  simp only [Nat.pow_eq]
  rw [if_neg (show ¬ 2 ^ 53 < 2 ^ 52 by norm_num), if_neg (show ¬ 2 ^ 52 < 2 ^ 52 by norm_num),
    hplace]

theorem assemble_eq (hx : x.isFinite = true) {m : ℕ} {q : ℤ} (hm : m ≤ 2 ^ 53) (hq : Normal m q)
    (h : (m : ℚ) * 2 ^ q = x.magnitude) : assemble x.negative m q = x := by
  rcases hm.eq_or_lt with rfl | hm
  · have hleast := hq.least
    have hnext : Normal (2 ^ 52) (q + 1) := ⟨by omega, fun h => absurd h (by omega)⟩
    have hsame : ((2 ^ 52 : ℕ) : ℚ) * 2 ^ (q + 1) = x.significand * 2 ^ x.exponent := by
      rw [← magnitude, ← h, zpow_add_one₀ two_ne_zero]
      push_cast
      ring
    obtain ⟨hbits, hplace⟩ :=
      normal_unique (by norm_num) x.significand_lt hnext x.normal_fields hsame
    rw [assemble_carry _ hleast, hbits, hplace, assemble_fields hx]
  · obtain ⟨rfl, rfl⟩ := normal_unique hm x.significand_lt hq x.normal_fields h
    exact assemble_fields hx

theorem magnitude_pos (hz : x.significand ≠ 0) : 0 < x.magnitude := by
  have : 0 < x.significand := Nat.pos_of_ne_zero hz
  unfold magnitude
  positivity

theorem value_pos_iff {x : Binary64} :
    0 < x.value ↔ x.negative = false ∧ x.significand ≠ 0 := by
  rw [value_eq_signed]
  constructor
  · intro h
    have hz : x.significand ≠ 0 := by
      intro hz
      rw [magnitude, hz, Nat.cast_zero, zero_mul, mul_zero] at h
      exact lt_irrefl _ h
    refine ⟨Bool.eq_false_of_not_eq_true fun hneg => ?_, hz⟩
    have hpos := x.magnitude_pos hz
    rw [hneg] at h
    simp only [Decimal.signed, if_true, Nat.cast_one, Int.cast_neg, Int.cast_one] at h
    linarith
  · rintro ⟨hneg, hz⟩
    rw [hneg]
    simpa [Decimal.signed] using x.magnitude_pos hz

theorem round_near (hz : x.significand ≠ 0) {w : ℚ}
    (hw : |w - x.magnitude| ≤ x.magnitude / (2 * 10 ^ 16)) : format.round w = x.magnitude := by
  have hpos := x.magnitude_pos hz
  obtain ⟨hlow, hhigh⟩ := abs_le.mp hw
  have hwpos : 0 < w := by linarith
  have hlog := Int.lt_zpow_succ_log_self (b := 2) (by decide) w
  have hplace : format.place w = max (Int.log 2 w + 1 - 53) (-1074) := by
    show max (Int.log 2 |w| + 1 - (53 : ℕ)) (-1074) = _
    rw [abs_of_pos hwpos, Nat.cast_ofNat]
  refine format.round_of_close (m := x.significand) (k := x.exponent) ?_ ?_ ?_
  · rw [format_pow]
    rfl
  · have hunit : (0 : ℚ) < 2 ^ x.exponent := by positivity
    have hbits : (x.significand : ℚ) + 1 ≤ 2 ^ 53 := by exact_mod_cast x.significand_lt
    have hlt : w < 2 ^ (53 + x.exponent) := by
      rw [zpow_add₀ two_ne_zero, zpow_ofNat]
      unfold magnitude at hhigh
      nlinarith
    have hplace' := (Int.lt_zpow_iff_log_lt (b := 2) (by decide) hwpos).mp (by exact_mod_cast hlt)
    have hleast := x.normal_fields.least
    omega
  · rw [format_pow]
    have hdigits : (2 : ℚ) ^ (Int.log 2 w + 1) ≤ 2 ^ 53 * 2 ^ format.place w := by
      rw [← zpow_ofNat, ← zpow_add₀ two_ne_zero]
      refine zpow_le_zpow_right₀ one_le_two ?_
      omega
    have hreach : w < 2 ^ 53 * 2 ^ format.place w := lt_of_lt_of_le (by exact_mod_cast hlog) hdigits
    refine hw.trans_lt ?_
    generalize (2 : ℚ) ^ format.place w = unit at hreach
    linarith

theorem ofRatio_near (hx : x.isFinite = true) (hz : x.significand ≠ 0) {a b : ℕ} (hb : b ≠ 0)
    (hw : |(a : ℚ) / b - x.magnitude| ≤ x.magnitude / (2 * 10 ^ 16)) :
    ofRatio x.negative a b = x := by
  have hpos := x.magnitude_pos hz
  have ha : a ≠ 0 := by
    rintro rfl
    rw [Nat.cast_zero, zero_div, zero_sub, abs_neg, abs_of_pos hpos] at hw
    linarith
  have hround := round_near hz hw
  rw [round_ratio ha hb] at hround
  have hmade : ofRatio x.negative a b = assemble x.negative (bitsOf a b) (lastPlace a b) :=
    if_neg ha
  rw [hmade]
  exact assemble_eq hx (bitsOf_le ha hb)
    ⟨lastPlace_eq ha hb ▸ le_max_right _ _, lastPlace_of_bitsOf_lt ha hb⟩ hround

theorem ratio_eq (x : Binary64) : (x.above : ℚ) / x.below = x.magnitude := by
  unfold above below magnitude
  simp only [Nat.pow_eq]
  rw [zpow_split two_ne_zero x.exponent]
  push_cast
  ring

theorem below_pos (x : Binary64) : 0 < x.below := Nat.pow_pos (by decide)

theorem leadingPlace_le {a b : ℕ} (ha : a ≠ 0) (hb : b ≠ 0) :
    (10 : ℚ) ^ leadingPlace a b ≤ a / b := by
  have hbq : (0 : ℚ) < b := by positivity
  unfold leadingPlace
  simp only [Nat.pow_eq]
  rw [le_div_iff₀ hbq]
  split
  · rename_i hreach
    have hcast : (b : ℚ) * 10 ^ ((digitCount a : ℤ) - digitCount b).toNat ≤
        a * 10 ^ (-((digitCount a : ℤ) - digitCount b)).toNat := by exact_mod_cast hreach
    rw [zpow_split (by norm_num) ((digitCount a : ℤ) - digitCount b), div_mul_eq_mul_div,
      div_le_iff₀ (by positivity), mul_comm]
    exact hcast
  · have hb' : (b : ℚ) < 10 ^ digitCount b := by exact_mod_cast lt_pow_digitCount b
    have ha' : (10 : ℚ) ^ (digitCount a - 1) ≤ a := by exact_mod_cast pow_digitCount_le ha
    have hcount := digitCount_pos a
    calc (10 : ℚ) ^ ((digitCount a : ℤ) - digitCount b - 1) * b
        ≤ 10 ^ ((digitCount a : ℤ) - digitCount b - 1) * 10 ^ digitCount b :=
          mul_le_mul_of_nonneg_left hb'.le (by positivity)
      _ = 10 ^ (digitCount a - 1) := by
          rw [← zpow_natCast, ← zpow_natCast, ← zpow_add₀ (by norm_num)]
          congr 1
          omega
      _ ≤ a := ha'

theorem tens_ratio (a : ℕ) {b : ℕ} (hb : b ≠ 0) (k : ℤ) :
    ((a * 10 ^ (-k).toNat : ℕ) : ℚ) / (b * 10 ^ k.toNat : ℕ) = a / b / 10 ^ k := by
  have hbq : (b : ℚ) ≠ 0 := by exact_mod_cast hb
  rw [zpow_split (by norm_num) k]
  push_cast
  field_simp

theorem tens_digits (n : ℕ) (k : ℤ) :
    ((n * 10 ^ k.toNat : ℕ) : ℚ) / (10 ^ (-k).toNat : ℕ) = n * 10 ^ k := by
  rw [zpow_split (by norm_num) k]
  push_cast
  ring

theorem exists_readsBack (hx : x.isFinite = true) (hz : x.significand ≠ 0) {k : ℤ}
    (hk : k = leadingPlace x.above x.below - 16) :
    ∃ n ∈ x.neighbours k, x.readsBack n k = true := by
  have hbelow : x.below ≠ 0 := x.below_pos.ne'
  have habove : x.above ≠ 0 := by
    unfold above
    exact mul_ne_zero hz (by simp [Nat.pow_eq])
  have hunit : (0 : ℚ) < 10 ^ k := by positivity
  have hlead : (10 : ℚ) ^ k * 10 ^ 16 ≤ x.magnitude := by
    have hle := leadingPlace_le habove hbelow
    rw [ratio_eq] at hle
    rw [← zpow_ofNat, ← zpow_add₀ (by norm_num), hk]
    simpa using hle
  generalize hn : roundQuotient (x.above * 10 ^ (-k).toNat) (x.below * 10 ^ k.toNat) = n
  have hnearest : ((n : ℤ) : ℚ) = nearest (x.magnitude / 10 ^ k) := by
    rw [← ratio_eq, ← tens_ratio _ hbelow, nearest_ratio _ (by positivity), ← hn]
    rfl
  refine ⟨n, ?_, ?_⟩
  · unfold neighbours
    simp only [Nat.pow_eq, hn]
    split
    · rename_i hlow
      exact List.mem_cons.mpr (.inl hlow)
    · rename_i hlow
      have hcases : n = x.above * 10 ^ (-k).toNat / (x.below * 10 ^ k.toNat) ∨
          n = x.above * 10 ^ (-k).toNat / (x.below * 10 ^ k.toNat) + 1 := by
        rw [← hn]
        unfold roundQuotient
        dsimp only
        split
        · exact .inr rfl
        · exact .inl rfl
      exact List.mem_cons.mpr (.inl (hcases.resolve_left hlow))
  · have hclose : |(n : ℚ) * 10 ^ k - x.magnitude| ≤ x.magnitude / (2 * 10 ^ 16) := by
      have hround := abs_nearest_sub (x.magnitude / 10 ^ k)
      rw [← hnearest, Int.cast_natCast] at hround
      have hsplit : (n : ℚ) * 10 ^ k - x.magnitude = (n - x.magnitude / 10 ^ k) * 10 ^ k := by
        rw [sub_mul, div_mul_cancel₀ _ hunit.ne']
      rw [hsplit, abs_mul, abs_of_pos hunit]
      nlinarith
    unfold readsBack
    simp only [Nat.pow_eq, decide_eq_true_eq]
    refine ofRatio_near hx hz (by positivity) ?_
    rwa [tens_digits]

/-- The search ends at digits that read back, at the last place it may come to or before. -/
theorem searchDigits_readsBack (lead : ℤ) (fuel : ℕ) {k : ℤ}
    (h : ∃ n ∈ x.neighbours (k - fuel), x.readsBack n (k - fuel) = true) :
    x.readsBack (x.searchDigits lead (fuel + 1) k).1 (x.searchDigits lead (fuel + 1) k).2 = true ∧
      k - fuel ≤ (x.searchDigits lead (fuel + 1) k).2 := by
  induction fuel generalizing k with
  | zero =>
    rw [searchDigits]
    split
    · rename_i n hfind
      have hback := List.find?_some hfind
      exact ⟨hback, by simp⟩
    · rename_i hnone
      obtain ⟨n, hn, hback⟩ := h
      rw [Nat.cast_zero, sub_zero] at hn hback
      exact absurd hback (List.find?_eq_none.mp hnone n hn)
  | succ fuel ih =>
    have hstep : k - (fuel + 1 : ℕ) = k - 1 - fuel := by
      push_cast
      ring
    rw [searchDigits]
    split
    · rename_i n hfind
      have hback := List.find?_some hfind
      refine ⟨hback, ?_⟩
      show k - (fuel + 1 : ℕ) ≤ k
      omega
    · rw [hstep] at h ⊢
      exact ih h

theorem le_stripZeros (ideal : ℤ) (n : ℕ) (e : ℤ) : e ≤ (Decimal.stripZeros ideal n e).2 := by
  induction n, e using Decimal.stripZeros.induct ideal with
  | case1 n e h ih =>
    rw [Decimal.stripZeros, dif_pos h]
    omega
  | case2 n e h => rw [Decimal.stripZeros, dif_neg h]

theorem digitCount_two_pow (j : ℕ) : digitCount (2 ^ j) ≤ j + 1 := by
  rw [digitCount_le (Nat.succ_pos j)]
  calc 2 ^ j ≤ 10 ^ j := Nat.pow_le_pow_left (by decide) j
    _ < 10 ^ (j + 1) := Nat.pow_lt_pow_right (by decide) (Nat.lt_succ_self j)

theorem leadingPlace_above (x : Binary64) : -1075 ≤ leadingPlace x.above x.below := by
  have hbelow : digitCount x.below ≤ (-x.exponent).toNat + 1 := digitCount_two_pow _
  have habove := digitCount_pos x.above
  have hleast := x.normal_fields.least
  unfold leadingPlace
  simp only
  split <;> omega

theorem magnitude_lt_top (hx : x.isFinite = true) : x.magnitude < 2 ^ 1024 := by
  have hbits : (x.significand : ℚ) < 2 ^ 53 := by exact_mod_cast x.significand_lt
  have hplace : (2 : ℚ) ^ x.exponent ≤ 2 ^ (971 : ℤ) :=
    zpow_le_zpow_right₀ one_le_two (exponent_le hx)
  calc x.magnitude < 2 ^ 53 * 2 ^ x.exponent :=
        mul_lt_mul_of_pos_right hbits (by positivity)
    _ ≤ 2 ^ 53 * 2 ^ (971 : ℤ) := mul_le_mul_of_nonneg_left hplace (by positivity)
    _ = 2 ^ 1024 := by rw [zpow_ofNat, ← pow_add]

structure Spells (x : Binary64) (n : ℕ) (k : ℤ) : Prop where
  round : format.round (n * 10 ^ k) = x.magnitude
  ne_zero : n ≠ 0
  least : -1100 ≤ k

theorem shortest_spells (hx : x.isFinite = true) (hz : x.significand ≠ 0) :
    Spells x x.shortest.1 x.shortest.2 := by
  have hpos := x.magnitude_pos hz
  have hleast := x.leadingPlace_above
  generalize hlead : leadingPlace x.above x.below = lead at hleast
  obtain ⟨hback, hplace⟩ := searchDigits_readsBack (x := x) lead 16 (k := lead)
    (exists_readsBack hx hz (by rw [hlead]; rfl))
  have hshortest : x.shortest = Decimal.stripZeros ((x.searchDigits lead 17 lead).2 + 17)
      (x.searchDigits lead 17 lead).1 (x.searchDigits lead 17 lead).2 := by
    unfold shortest
    rw [hlead]
  rw [hshortest]
  generalize x.searchDigits lead 17 lead = r at hback hplace
  have hround : format.round (r.1 * 10 ^ r.2) = x.magnitude := by
    unfold readsBack at hback
    simp only [Nat.pow_eq, decide_eq_true_eq] at hback
    have hvalue := value_ofRatio x.negative (r.1 * 10 ^ r.2.toNat) (b := 10 ^ (-r.2).toNat)
      (by positivity) (by rw [hback]; exact hx)
    rw [hback, tens_digits, value_eq_signed] at hvalue
    refine (mul_left_cancel₀ ?_ hvalue).symm
    cases x.negative <;> simp [Decimal.signed]
  have hsame := Decimal.stripZeros_value (r.2 + 17) r.1 r.2
  have hgrow := le_stripZeros (r.2 + 17) r.1 r.2
  generalize Decimal.stripZeros (r.2 + 17) r.1 r.2 = r' at hsame hgrow
  rw [← hsame] at hround
  refine ⟨hround, ?_, by omega⟩
  rintro hnil
  rw [hnil, Nat.cast_zero, zero_mul, FloatFormat.round_zero] at hround
  exact absurd hround hpos.ne

theorem Spells.place_le {n : ℕ} {k : ℤ} (h : Spells x n k) (hx : x.isFinite = true) :
    k + digitCount n ≤ 1025 := by
  have hheld : format.round (2 ^ 1024) = 2 ^ 1024 := by
    refine format.round_of_close (m := 1) (k := 1024) ?_ ?_ ?_
    · rw [format_pow]
      norm_num
    · show max (Int.log 2 |(2 : ℚ) ^ 1024| + 1 - (53 : ℕ)) (-1074) ≤ 1024
      rw [abs_of_pos (by positivity), ← zpow_ofNat, show (2 : ℚ) = ((2 : ℕ) : ℚ) by norm_num,
        Int.log_zpow (by decide)]
      norm_num
    · rw [sub_self, abs_zero]
      exact div_pos (format.pow_pos _) two_pos
  have hlt : (n : ℚ) * 10 ^ k < 2 ^ 1024 := by
    by_contra hge
    have hmono := format.round_mono (not_lt.mp hge)
    rw [hheld, h.round] at hmono
    exact absurd (magnitude_lt_top hx) (not_lt.mpr hmono)
  have hten : (2 : ℚ) ^ 1024 ≤ 10 ^ (1024 : ℤ) := by
    rw [zpow_ofNat]
    exact pow_le_pow_left₀ (by norm_num) (by norm_num) _
  have hplace := (le_magnitude h.ne_zero k).trans_lt (hlt.trans_le hten)
  have := (zpow_lt_zpow_iff_right₀ (by norm_num : (1 : ℚ) < 10)).mp hplace
  omega

theorem paddedExponent_text (e : ℤ) : ExponentText (paddedExponent e) e := by
  obtain ⟨ds, hds, hne, hvalue, -⟩ := digits_digitsOf e.natAbs
  have hpadded : ∃ vs, Digits (if (digitsOf e.natAbs).length < 2 then '0' :: digitsOf e.natAbs
      else digitsOf e.natAbs) vs ∧ vs ≠ [] ∧ valueOf vs = e.natAbs := by
    split
    · exact ⟨0 :: ds, .cons rfl hds, List.cons_ne_nil 0 ds, (valueOf_zeros 1 ds).trans hvalue⟩
    · exact ⟨ds, hds, hne, hvalue⟩
  obtain ⟨vs, hvs, hsome, hsame⟩ := hpadded
  exact Decimal.exponent_signed (.inl rfl) e hvs hsome hsame

theorem numeral_whole {sign cs : List Char} {negative : Bool} {ds : List ℕ}
    (hsign : SignText sign negative) (hds : Digits cs ds) (hne : ds ≠ []) (j : ℕ) :
    NumeralText (sign ++ (cs ++ zeroDigits j ++ ['.', '0']))
      ⟨negative, valueOf ds * 10 ^ j * 10, -1⟩ := by
  have hsome : ds ++ List.replicate j 0 ≠ [] := by simp [hne]
  have hnumeral := NumeralText.mk hsign (hds.append (digits_zeros j)) (.point (digits_zeros 1))
    (.inl hsome) .none
  rwa [List.append_nil, valueOf_append_zeros, valueOf_append_zeros, pow_one] at hnumeral

theorem pointText_text {sign : List Char} {negative : Bool} (hsign : SignText sign negative) (n : ℕ)
    (k : ℤ) : ∃ d : Decimal, NumeralText (sign ++ pointText n k) d ∧ d.negative = negative ∧
      (d.coeff : ℚ) * 10 ^ d.exp = n * 10 ^ k ∧ min k (-1) ≤ d.exp := by
  obtain ⟨ds, hds, hne, hvalue, -⟩ := digits_digitsOf n
  have hpos := List.length_pos_of_ne_nil hne
  have hplace : k + ds.length - 1 + 1 = k + ds.length := by ring
  unfold pointText
  simp only [hds.length, hplace]
  split
  · rcases lt_or_ge k 0 with hk | hk
    · have hpoint : '.' ∈ pointed (digitsOf n) (k + ds.length) :=
        Decimal.point_mem_pointed (by rw [hds.length]; omega)
      have hnumeral := Decimal.numeral_pointed hsign hds hne
        (show k + ds.length ≤ ds.length by omega) .none
      have hexp : (0 : ℤ) - (ds.length - (k + ds.length)) = k := by omega
      rw [List.append_nil, hvalue, hexp] at hnumeral
      rw [if_pos (List.contains_iff_mem.mpr hpoint)]
      exact ⟨_, hnumeral, rfl, rfl, min_le_left _ _⟩
    · obtain ⟨j, rfl⟩ := Int.eq_ofNat_of_zero_le hk
      have hpointed : pointed (digitsOf n) (j + ds.length) = digitsOf n ++ zeroDigits j := by
        rw [Decimal.pointed_of_le (by omega) (by rw [hds.length]; omega), hds.length,
          add_sub_cancel_right, Int.toNat_natCast]
      have hpoint : ¬ '.' ∈ digitsOf n ++ zeroDigits j :=
        (hds.append (digits_zeros j)).not_mem mark_point.1
      rw [hpointed, if_neg (mt List.contains_iff_mem.mp hpoint)]
      refine ⟨_, numeral_whole hsign hds hne j, rfl, ?_, min_le_right _ _⟩
      rw [hvalue]
      push_cast
      rw [zpow_natCast, zpow_neg_one]
      exact mul_inv_cancel_right₀ (by norm_num) _
  · have hnumeral := Decimal.numeral_pointed hsign hds hne (show 1 ≤ (ds.length : ℤ) by omega)
      (paddedExponent_text (k + ds.length - 1))
    have hexp : k + ds.length - 1 - ((ds.length : ℤ) - 1) = k := by ring
    rw [hvalue, hexp] at hnumeral
    exact ⟨_, hnumeral, rfl, rfl, min_le_left _ _⟩

theorem Spells.coeff_ne_zero {n : ℕ} {k : ℤ} (h : Spells x n k) {d : Decimal}
    (hvalue : (d.coeff : ℚ) * 10 ^ d.exp = n * 10 ^ k) : d.coeff ≠ 0 := by
  intro hnil
  rw [hnil, Nat.cast_zero, zero_mul] at hvalue
  have hn : (n : ℚ) ≠ 0 := by exact_mod_cast h.ne_zero
  exact (mul_ne_zero hn (by positivity)) hvalue.symm

theorem Spells.representable_of_value {n : ℕ} {k : ℤ} (h : Spells x n k) (hx : x.isFinite = true)
    {d : Decimal} (hvalue : (d.coeff : ℚ) * 10 ^ d.exp = n * 10 ^ k) (hexp : min k (-1) ≤ d.exp) :
    representable d = true := by
  have hleast := h.least
  have hplace := h.place_le hx
  have hcoeff := h.coeff_ne_zero hvalue
  have hsame := place_eq hcoeff h.ne_zero hvalue
  have hzero : d.isZero = false := decide_eq_false hcoeff
  unfold representable largestExponent Decimal.adjusted
  rw [hzero, if_neg Bool.false_ne_true]
  simp only [Bool.and_eq_true, decide_eq_true_eq]
  omega

theorem chars_of_finite (hx : x.isFinite = true) : x.chars =
    (if x.negative then ['-'] else []) ++
      if x.significand = 0 then ['0', '.', '0'] else pointText x.shortest.1 x.shortest.2 := by
  have hnan : x.isNaN = false := by
    rw [isNaN, hx]
    rfl
  unfold chars isZero
  rw [hnan, hx]
  by_cases hz : x.significand = 0 <;> cases x.negative <;> simp [hz]

/-- The text of a finite double denotes a decimal with its sign that is rounded to it, and is zero
only if it is. -/
theorem denotes_text (hx : x.isFinite = true) : ∃ d, Denotes x.text d ∧ d.negative = x.negative ∧
    format.round d.value = x.value ∧ (d.coeff = 0 ↔ x.significand = 0) := by
  have hsign : SignText (if x.negative then ['-'] else []) x.negative := by
    cases x.negative
    · exact .bare
    · exact .minus
  unfold text
  rw [chars_of_finite hx]
  by_cases hz : x.significand = 0
  · have hheld : representable ⟨x.negative, 0, -1⟩ = true := by cases x.negative <;> decide +kernel
    rw [if_pos hz]
    refine ⟨⟨x.negative, 0, -1⟩, ⟨spells_ofList ?_, hheld⟩, rfl, ?_, by simp [hz]⟩
    · exact numeral_whole hsign (digits_zeros 1) (List.cons_ne_nil 0 []) 0
    rw [Decimal.value_eq_zero.mpr (decide_eq_true rfl), FloatFormat.round_zero, value_eq_signed,
      magnitude, hz, Nat.cast_zero, zero_mul, mul_zero]
  · have hspells := shortest_spells hx hz
    obtain ⟨d, hnumeral, hnegative, hvalue, hexp⟩ :=
      pointText_text hsign x.shortest.1 x.shortest.2
    rw [if_neg hz]
    have hheld := hspells.representable_of_value hx hvalue hexp
    refine ⟨d, ⟨spells_ofList hnumeral, hheld⟩, hnegative, ?_, ?_⟩
    · rw [round_signed, Decimal.abs_value, hvalue, hspells.round, hnegative, ← value_eq_signed]
    · exact iff_of_false (hspells.coeff_ne_zero hvalue) hz

theorem not_denotes_text (hx : x.isFinite = false) (d : Decimal) : ¬ Denotes x.text d := by
  have hwords : ∀ s ∈ ["nan", "-nan", "inf", "-inf"], (ofText? s).bind finite? = none := by
    decide +kernel
  have hmem : x.text ∈ ["nan", "-nan", "inf", "-inf"] := by
    unfold text chars
    rw [hx]
    cases x.isNaN <;> cases x.negative <;> simp
  intro h
  have hnone := hwords _ hmem
  rw [ofText?_eq_finite.mpr h] at hnone
  cases hnone

end Binary64
end BomEngine
