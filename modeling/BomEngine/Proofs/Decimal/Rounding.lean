import BomEngine.Proofs.Decimal.Exact
import BomEngine.Proofs.Traversal

/-!
# What rounding keeps

A result that does not fit is rounded, and the only thing that stops arithmetic on
sums and differences is a result too large to be held. Rounding keeps the sign, and
from the least exponent on it never makes a zero of anything else. So a sum of
quantities without sign is above zero exactly if one of them is, however often it
was rounded on the way.
-/

set_option autoImplicit false

namespace BomEngine.Decimal
open Traversal (FailsOnly)

theorem failsOnly_fix (negative : Bool) (n : ℕ) (e : ℤ) :
    FailsOnly .overflow (fix negative n e) := by
  intro s h
  unfold fix at h
  split at h
  · cases h
  · dsimp only at h
    split_ifs at h <;> cases h <;> rfl

theorem failsOnly_add (x y : Decimal) : FailsOnly .overflow (x.add y) := failsOnly_fix _ _ _

theorem failsOnly_sub (x y : Decimal) : FailsOnly .overflow (x.sub y) := failsOnly_add x y.neg

theorem failsOnly_mul (x y : Decimal) : FailsOnly .overflow (x.mul y) := failsOnly_fix _ _ _

theorem failsOnly_sum (xs : List Decimal) : FailsOnly .overflow (Decimal.sum xs) :=
  .foldlM failsOnly_add xs zero

theorem value_pos_iff {d : Decimal} : 0 < d.value ↔ d.negative = false ∧ d.coeff ≠ 0 := by
  have hp : (0 : ℚ) < 10 ^ d.exp := by positivity
  rw [value, mul_pos_iff_of_pos_right hp]
  cases d.negative <;> simp [signed, Nat.pos_iff_ne_zero]

theorem value_nonneg_iff {d : Decimal} : 0 ≤ d.value ↔ d.negative = false ∨ d.coeff = 0 := by
  have hp : (0 : ℚ) < 10 ^ d.exp := by positivity
  rw [value, mul_nonneg_iff_of_pos_right hp]
  cases d.negative <;> simp [signed]

theorem dropDigits_ne_zero {mode : Rounding} {n k : ℕ} (hk : k < digitCount n) (hn : n ≠ 0) :
    dropDigits mode n k ≠ 0 := by
  have hle : 10 ^ k ≤ n :=
    (Nat.pow_le_pow_right (by decide) (by omega)).trans (pow_digitCount_le hn)
  have hq : 0 < n / 10 ^ k := Nat.div_pos hle (by positivity)
  rw [dropDigits_eq]
  split <;> omega

theorem fix_negative {s : Bool} {n : ℕ} {e : ℤ} {d : Decimal} (h : fix s n e = .ok d) :
    d.negative = s := by
  unfold fix at h
  split at h
  · cases h
    rfl
  · dsimp only at h
    split_ifs at h <;> cases h <;> rfl

theorem fix_exp {s : Bool} {n : ℕ} {e : ℤ} {d : Decimal} (h : fix s n e = .ok d) :
    leastExponent ≤ d.exp := by
  unfold fix at h
  split at h
  · cases h
    exact le_max_left _ _
  · dsimp only at h
    split_ifs at h with _ hlow
    · cases h
      exact (le_max_right _ _).trans hlow
    · cases h
      exact le_max_right _ _
    · cases h
      exact (le_max_right _ _).trans (Int.le_add_one le_rfl)

theorem fix_coeff_eq_zero {s : Bool} {n : ℕ} {e : ℤ} {d : Decimal} (h : fix s n e = .ok d)
    (he : leastExponent ≤ e) : d.coeff = 0 ↔ n = 0 := by
  unfold fix at h
  split at h
  · next hn =>
    cases h
    simp [hn]
  · next hn =>
    have hp : precision = 28 := rfl
    have hdrop : ¬ max (e + digitCount n - precision) leastExponent ≤ e →
        dropDigits .halfEven n
          (max (e + digitCount n - precision) leastExponent - e).toNat ≠ 0 := fun hlow =>
      dropDigits_ne_zero (by omega) hn
    dsimp only at h
    split_ifs at h with _ hlow hfit
    · cases h
      simp [hn]
    · cases h
      simpa [hn] using hdrop hlow
    · cases h
      generalize dropDigits .halfEven n
        (max (e + digitCount n - precision) leastExponent - e).toNat = kept at hfit
      have hbig : 10 ^ precision ≤ kept :=
        not_lt.mp fun hlt => hfit ((digitCount_le (by decide)).mpr hlt)
      have : kept / 10 ≠ 0 := by
        rw [hp] at hbig
        omega
      simp [hn, this]

/-- A quantity that arithmetic can give: without sign, and not below the least exponent. -/
structure Plain (d : Decimal) : Prop where
  nonneg : 0 ≤ d.value
  exp : leastExponent ≤ d.exp

theorem plain_zero : Plain zero := ⟨by simp, by decide⟩

theorem plain_atLeastZero {d : Decimal} (h : leastExponent ≤ d.exp) : Plain d.atLeastZero := by
  refine ⟨?_, ?_⟩
  · rw [value_atLeastZero]
    exact le_max_left _ _
  · unfold atLeastZero
    split
    · exact h
    · exact plain_zero.exp

theorem plain_sub {x y d : Decimal} (h : x.sub y = .ok d) : Plain d.atLeastZero :=
  plain_atLeastZero (fix_exp h)

theorem beside_plain (x : Decimal) {y : Decimal} (hy : Plain y) :
    Plain (beside x y) ∧ (0 < (beside x y).value ↔ 0 < y.value) := by
  unfold beside
  split
  · exact ⟨hy, Iff.rfl⟩
  split
  · next hz =>
    have hv : ({ y with exp := max y.exp (x.exp - precision - 1) } : Decimal).value = 0 :=
      value_eq_zero.mpr hz
    rw [hv, value_eq_zero.mpr hz]
    exact ⟨⟨hv.ge, hy.exp.trans (le_max_left _ _)⟩, Iff.rfl⟩
  split
  · next hz hhidden =>
    have hc : y.coeff ≠ 0 := by simpa [isZero] using hz
    have hn : y.negative = false := (value_nonneg_iff.mp hy.nonneg).resolve_right hc
    have hfirst : y.exp ≤ y.adjusted := by
      have := digitCount_pos y.coeff
      unfold adjusted
      omega
    refine ⟨⟨value_nonneg_iff.mpr (.inl hn), hy.exp.trans ?_⟩, ?_⟩
    · exact hfirst.trans hhidden.2.le
    · rw [value_pos_iff, value_pos_iff]
      simp [hn, hc]
  · exact ⟨hy, Iff.rfl⟩

theorem sumOf_plain {x y d : Decimal} (hx : Plain x) (hy : Plain y) (h : sumOf x y = .ok d) :
    Plain d ∧ (0 < d.value ↔ 0 < x.value ∨ 0 < y.value) := by
  rw [sumOf] at h
  have hlow : leastExponent ≤ min x.exp y.exp := le_min hx.exp hy.exp
  have hxs := value_scaled x (min_le_left x.exp y.exp)
  have hys := value_scaled y (min_le_right x.exp y.exp)
  have hp : (0 : ℚ) < 10 ^ min x.exp y.exp := by positivity
  generalize signed x.negative (scale x.coeff (x.exp - min x.exp y.exp).toNat) = a at *
  generalize signed y.negative (scale y.coeff (y.exp - min x.exp y.exp).toNat) = b at *
  have ha : 0 ≤ a := by
    have := hx.nonneg
    rw [← hxs, mul_nonneg_iff_of_pos_right hp] at this
    exact_mod_cast this
  have hb : 0 ≤ b := by
    have := hy.nonneg
    rw [← hys, mul_nonneg_iff_of_pos_right hp] at this
    exact_mod_cast this
  have hap : 0 < x.value ↔ 0 < a := by
    rw [← hxs, mul_pos_iff_of_pos_right hp]
    exact_mod_cast Iff.rfl
  have hbp : 0 < y.value ↔ 0 < b := by
    rw [← hys, mul_pos_iff_of_pos_right hp]
    exact_mod_cast Iff.rfl
  have hzero := fix_coeff_eq_zero h hlow
  have hsign := fix_negative h
  have hexp := fix_exp h
  rw [hap, hbp, value_pos_iff]
  by_cases hs : a + b = 0
  · have hd : d.coeff = 0 := hzero.mpr (by rw [hs]; rfl)
    exact ⟨⟨value_nonneg_iff.mpr (.inr hd), hexp⟩, by simp only [hd]; omega⟩
  · have hd : d.coeff ≠ 0 := fun hd => hs (Int.natAbs_eq_zero.mp (hzero.mp hd))
    have hn : d.negative = false := by
      rw [hsign, if_neg hs]
      exact decide_eq_false (by omega)
    exact ⟨⟨value_nonneg_iff.mpr (.inl hn), hexp⟩, fun _ => by omega, fun _ => ⟨hn, hd⟩⟩

theorem add_plain {x y d : Decimal} (hx : Plain x) (hy : Plain y) (h : x.add y = .ok d) :
    Plain d ∧ (0 < d.value ↔ 0 < x.value ∨ 0 < y.value) := by
  have hbx := beside_plain y hx
  have hby := beside_plain x hy
  have hs := sumOf_plain hbx.1 hby.1 h
  rwa [hbx.2, hby.2] at hs

theorem sum_from_plain {xs : List Decimal} {total d : Decimal} (ht : Plain total)
    (hx : ∀ x ∈ xs, Plain x) (h : xs.foldlM add total = .ok d) :
    Plain d ∧ (0 < d.value ↔ 0 < total.value ∨ ∃ x ∈ xs, 0 < x.value) := by
  induction xs generalizing total with
  | nil =>
    cases h
    simp [ht]
  | cons x xs ih =>
    rw [List.foldlM_cons] at h
    cases hn : total.add x with
    | error e =>
      rw [hn] at h
      cases h
    | ok next =>
      rw [hn] at h
      have hnext := add_plain ht (hx x (by simp)) hn
      have hrest := ih hnext.1 (fun y hy => hx y (by simp [hy])) h
      rw [hnext.2] at hrest
      simpa [or_assoc] using hrest

theorem sum_plain {xs : List Decimal} {d : Decimal} (hx : ∀ x ∈ xs, Plain x)
    (h : Decimal.sum xs = .ok d) : 0 < d.value ↔ ∃ x ∈ xs, 0 < x.value := by
  simpa using (sum_from_plain plain_zero hx h).2

theorem sum_plain_eq_zero {xs : List Decimal} {d : Decimal} (hx : ∀ x ∈ xs, Plain x)
    (h : Decimal.sum xs = .ok d) : d.value = 0 ↔ ∀ x ∈ xs, x.value = 0 := by
  have hnonneg : 0 ≤ d.value := (sum_from_plain plain_zero hx h).1.nonneg
  have hpos := sum_plain hx h
  constructor
  · intro hzero x hmem
    by_contra hne
    have hxpos : 0 < x.value := lt_of_le_of_ne (hx x hmem).nonneg (Ne.symm hne)
    exact absurd hzero (hpos.mpr ⟨x, hmem, hxpos⟩).ne'
  · intro hall
    by_contra hne
    obtain ⟨x, hmem, hxpos⟩ := hpos.mp (lt_of_le_of_ne hnonneg (Ne.symm hne))
    exact absurd (hall x hmem) hxpos.ne'

end BomEngine.Decimal
