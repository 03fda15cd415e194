import BomEngine.Decimal.Arithmetic
import Mathlib

/-!
# Rounding to the nearest, a tie to the even one

Numbers of so many digits to a base, down to a least place. A rational number is rounded to the
nearest of them by its place and a whole number of its last digit. Rounding keeps the order and
the sign and leaves the numbers of the format as they are; what it gives does not change while a
number moves without passing a tie or a power of the base.
-/

set_option autoImplicit false

namespace BomEngine

def nearest (q : ℚ) : ℤ := if Even ⌊q⌋ then ⌈q - 1 / 2⌉ else ⌊q + 1 / 2⌋

theorem nearest_intCast (n : ℤ) : nearest n = n := by
  have hceil : ⌈(n : ℚ) - 1 / 2⌉ = n := Int.ceil_eq_iff.mpr ⟨by linarith, by linarith⟩
  have hfloor : ⌊(n : ℚ) + 1 / 2⌋ = n := Int.floor_eq_iff.mpr ⟨by linarith, by linarith⟩
  rw [nearest, hceil, hfloor, ite_self]

@[simp] theorem nearest_zero : nearest 0 = 0 := by exact_mod_cast nearest_intCast 0

theorem abs_nearest_sub (q : ℚ) : |nearest q - q| ≤ 1 / 2 := by
  rw [abs_le]
  unfold nearest
  split
  · have hle := Int.le_ceil (q - 1 / 2)
    have hlt := Int.ceil_lt_add_one (q - 1 / 2)
    constructor <;> linarith
  · have hle := Int.floor_le (q + 1 / 2)
    have hlt := Int.lt_floor_add_one (q + 1 / 2)
    constructor <;> linarith

theorem nearest_neighbours (q : ℚ) : ⌊q⌋ ≤ nearest q ∧ nearest q ≤ ⌊q⌋ + 1 := by
  have hle := Int.floor_le q
  have hlt := Int.lt_floor_add_one q
  unfold nearest
  split
  · refine ⟨?_, Int.ceil_le.mpr (by push_cast; linarith)⟩
    rw [Int.le_ceil_iff]
    linarith
  · refine ⟨Int.le_floor.mpr (by linarith), ?_⟩
    rw [← Int.lt_add_one_iff, Int.floor_lt]
    push_cast
    linarith

theorem nearest_mono {q r : ℚ} (h : q ≤ r) : nearest q ≤ nearest r := by
  rcases (Int.floor_mono h).eq_or_lt with hfloor | hfloor
  · unfold nearest
    rw [hfloor]
    split
    · exact Int.ceil_mono (by linarith)
    · exact Int.floor_mono (by linarith)
  · calc nearest q ≤ ⌊q⌋ + 1 := (nearest_neighbours q).2
      _ ≤ ⌊r⌋ := hfloor
      _ ≤ nearest r := (nearest_neighbours r).1

theorem nearest_neg (q : ℚ) : nearest (-q) = -nearest q := by
  by_cases hwhole : ∃ n : ℤ, (n : ℚ) = q
  · obtain ⟨n, rfl⟩ := hwhole
    rw [← Int.cast_neg, nearest_intCast, nearest_intCast]
  have hfloor : ⌊-q⌋ = -⌊q⌋ - 1 := by
    rw [Int.floor_neg, (Int.ceil_eq_floor_add_one_iff_notMem q).mpr hwhole]
    ring
  have hparity : Even ⌊-q⌋ ↔ ¬ Even ⌊q⌋ := by
    rw [hfloor, Int.even_sub_one, even_neg]
  have hceil : ⌈-q - 1 / 2⌉ = -⌊q + 1 / 2⌋ := by
    rw [← Int.ceil_neg]
    congr 1
    ring
  have hdown : ⌊-q + 1 / 2⌋ = -⌈q - 1 / 2⌉ := by
    rw [← Int.floor_neg]
    congr 1
    ring
  rw [nearest, nearest, hceil, hdown]
  simp only [hparity]
  split_ifs <;> rfl

theorem nearest_congr {q r : ℚ}
    (h : ∀ n : ℤ, ((n : ℚ) / 2 ≤ q ↔ (n : ℚ) / 2 ≤ r) ∧ (q ≤ n / 2 ↔ r ≤ n / 2)) :
    nearest q = nearest r := by
  have hfloor : ⌊q⌋ = ⌊r⌋ := eq_of_forall_le_iff fun n => by
    have hn := (h (2 * n)).1
    rw [Int.cast_mul, Int.cast_ofNat, mul_div_cancel_left₀ _ two_ne_zero] at hn
    rw [Int.le_floor, Int.le_floor, hn]
  have hup : ⌊q + 1 / 2⌋ = ⌊r + 1 / 2⌋ := eq_of_forall_le_iff fun n => by
    have hn := (h (2 * n - 1)).1
    push_cast at hn
    rw [Int.le_floor, Int.le_floor, ← sub_le_iff_le_add, ← sub_le_iff_le_add]
    rwa [sub_div, mul_div_cancel_left₀ _ two_ne_zero] at hn
  have hdown : ⌈q - 1 / 2⌉ = ⌈r - 1 / 2⌉ := eq_of_forall_ge_iff fun n => by
    have hn := (h (2 * n + 1)).2
    push_cast at hn
    rw [Int.ceil_le, Int.ceil_le, sub_le_iff_le_add, sub_le_iff_le_add]
    rwa [add_div, mul_div_cancel_left₀ _ two_ne_zero] at hn
  rw [nearest, nearest, hfloor, hup, hdown]

theorem Decimal.Rounding.halfEven_up (kept rest unit : ℕ) :
    Rounding.halfEven.up kept rest unit = true ↔
      if Even kept then unit < 2 * rest else unit ≤ 2 * rest := by
  unfold up
  rcases lt_trichotomy (2 * rest) unit with h | h | h
  · rw [compare_lt_iff_lt.mpr h]
    refine iff_of_false Bool.false_ne_true ?_
    split_ifs <;> omega
  · rw [compare_eq_iff_eq.mpr h, decide_eq_true_iff, ← Nat.not_even_iff]
    split_ifs with hkept
    · exact iff_of_false (not_not_intro hkept) (by omega)
    · exact iff_of_true hkept (by omega)
  · rw [compare_gt_iff_gt.mpr h]
    refine iff_of_true rfl ?_
    split_ifs <;> omega

theorem nearest_ratio (a : ℕ) {b : ℕ} (hb : 0 < b) :
    nearest (a / b) =
      ((if Decimal.Rounding.halfEven.up (a / b) (a % b) b then a / b + 1 else a / b : ℕ) : ℤ) := by
  have hbq : (0 : ℚ) < b := by exact_mod_cast hb
  have hrest : a % b < b := Nat.mod_lt a hb
  have hq : (a : ℚ) / b = (a / b : ℕ) + (a % b : ℕ) / b := by
    rw [div_eq_iff hbq.ne', add_mul, div_mul_cancel₀ _ hbq.ne']
    exact_mod_cast (Nat.div_add_mod' a b).symm
  have hlow : (0 : ℚ) ≤ (a % b : ℕ) / b := by positivity
  have hhigh : ((a % b : ℕ) : ℚ) / b < 1 := (div_lt_one hbq).mpr (by exact_mod_cast hrest)
  have hhalf : (1 : ℚ) / 2 < (a % b : ℕ) / b ↔ b < 2 * (a % b) := by
    rw [lt_div_iff₀ hbq, div_mul_eq_mul_div, div_lt_iff₀ two_pos, one_mul, mul_comm]
    exact_mod_cast Iff.rfl
  have htie : (1 : ℚ) / 2 ≤ (a % b : ℕ) / b ↔ b ≤ 2 * (a % b) := by
    rw [le_div_iff₀ hbq, div_mul_eq_mul_div, div_le_iff₀ two_pos, one_mul, mul_comm]
    exact_mod_cast Iff.rfl
  have hup := Decimal.Rounding.halfEven_up (a / b) (a % b) b
  rw [nearest, hq]
  generalize a / b = k at hup ⊢
  generalize ((a % b : ℕ) : ℚ) / b = f at hlow hhigh hhalf htie ⊢
  have hfloor : ⌊(k : ℚ) + f⌋ = k := by
    rw [Int.floor_eq_iff]
    push_cast
    constructor <;> linarith
  rw [hfloor]
  by_cases hk : Even k
  · rw [if_pos hk, ← hhalf] at hup
    rw [if_pos (by exact_mod_cast hk), Int.ceil_eq_iff]
    simp only [hup]
    split <;> push_cast <;> constructor <;> linarith
  · rw [if_neg hk, ← htie] at hup
    rw [if_neg (by exact_mod_cast hk), Int.floor_eq_iff]
    simp only [hup]
    split <;> push_cast <;> constructor <;> linarith

structure FloatFormat where
  base : ℕ
  digits : ℕ
  least : ℤ
  one_lt_base : 1 < base
  digits_pos : 0 < digits

namespace FloatFormat

variable (F : FloatFormat)

/-- The place of the last digit that is kept of a number. -/
def place (q : ℚ) : ℤ := max (Int.log F.base |q| + 1 - F.digits) F.least

/-- The nearest number of the format, of two such the one with an even last digit. -/
def round (q : ℚ) : ℚ := nearest (q / F.base ^ F.place q) * F.base ^ F.place q

theorem base_pos : (0 : ℚ) < F.base := by
  exact_mod_cast Nat.zero_lt_of_lt F.one_lt_base

theorem pow_pos (k : ℤ) : (0 : ℚ) < F.base ^ k := zpow_pos F.base_pos k

theorem pow_le {j k : ℤ} (h : j ≤ k) : (F.base : ℚ) ^ j ≤ F.base ^ k :=
  zpow_le_zpow_right₀ (by exact_mod_cast F.one_lt_base.le) h

theorem pow_whole {j k : ℤ} (h : j ≤ k) :
    (F.base : ℚ) ^ k = ((F.base ^ (k - j).toNat : ℕ) : ℤ) * F.base ^ j := by
  push_cast
  rw [← zpow_natCast, Int.toNat_of_nonneg (sub_nonneg.mpr h), ← zpow_add₀ F.base_pos.ne',
    sub_add_cancel]

theorem ratio_lt {q : ℚ} (hq : 0 < q) : q / F.base ^ F.place q < F.base ^ F.digits := by
  rw [div_lt_iff₀ (F.pow_pos _), ← zpow_natCast, ← zpow_add₀ F.base_pos.ne']
  refine (Int.lt_zpow_succ_log_self F.one_lt_base q).trans_le (F.pow_le ?_)
  rw [place, abs_of_pos hq]
  omega

theorem le_ratio {q : ℚ} (hq : 0 < q) (h : F.least < F.place q) :
    (F.base : ℚ) ^ (F.digits - 1) ≤ q / F.base ^ F.place q := by
  rw [le_div_iff₀ (F.pow_pos _), ← zpow_natCast, ← zpow_add₀ F.base_pos.ne']
  refine (F.pow_le ?_).trans (Int.zpow_log_le_self F.one_lt_base hq)
  have hdigits := F.digits_pos
  rw [place, abs_of_pos hq] at h ⊢
  omega

@[simp] theorem round_zero : F.round 0 = 0 := by simp [round]

theorem round_neg (q : ℚ) : F.round (-q) = -F.round q := by
  rw [round, round, place, abs_neg, ← place, neg_div, nearest_neg, Int.cast_neg, neg_mul]

theorem le_round_of_whole {q : ℚ} {n : ℤ} (h : n * F.base ^ F.place q ≤ q) :
    n * F.base ^ F.place q ≤ F.round q := by
  have hunit := F.pow_pos (F.place q)
  refine mul_le_mul_of_nonneg_right ?_ hunit.le
  rw [← le_div_iff₀ hunit] at h
  exact_mod_cast (nearest_intCast n).symm.le.trans (nearest_mono h)

theorem round_le_of_whole {q : ℚ} {n : ℤ} (h : q ≤ n * F.base ^ F.place q) :
    F.round q ≤ n * F.base ^ F.place q := by
  have hunit := F.pow_pos (F.place q)
  refine mul_le_mul_of_nonneg_right ?_ hunit.le
  rw [← div_le_iff₀ hunit] at h
  exact_mod_cast (nearest_mono h).trans (nearest_intCast n).le

theorem round_nonneg {q : ℚ} (h : 0 ≤ q) : 0 ≤ F.round q := by
  simpa using F.le_round_of_whole (n := 0) (by simpa using h)

theorem place_mono {q r : ℚ} (hq : 0 < q) (h : q ≤ r) : F.place q ≤ F.place r := by
  rw [place, place, abs_of_pos hq, abs_of_pos (hq.trans_le h)]
  have := Int.log_mono_right (b := F.base) hq h
  omega

theorem round_mono_pos {q r : ℚ} (hq : 0 < q) (h : q ≤ r) : F.round q ≤ F.round r := by
  rcases (F.place_mono hq h).eq_or_lt with hplace | hplace
  · rw [round, round, hplace]
    have hunit := F.pow_pos (F.place r)
    refine mul_le_mul_of_nonneg_right ?_ hunit.le
    exact_mod_cast nearest_mono ((div_le_div_iff_of_pos_right hunit).mpr h)
  · have hr := hq.trans_le h
    have hlog : Int.log F.base q < Int.log F.base r ∧ F.place r ≤ Int.log F.base r := by
      have hdigits := F.digits_pos
      rw [place, place, abs_of_pos hq, abs_of_pos hr] at hplace
      rw [place, abs_of_pos hr]
      omega
    have hbetween : q ≤ F.base ^ Int.log F.base r :=
      (Int.lt_zpow_succ_log_self F.one_lt_base q).le.trans (F.pow_le hlog.1)
    have hreached : (F.base : ℚ) ^ Int.log F.base r ≤ r :=
      Int.zpow_log_le_self F.one_lt_base hr
    calc F.round q ≤ F.base ^ Int.log F.base r := by
          rw [F.pow_whole (hplace.le.trans hlog.2)] at hbetween ⊢
          exact F.round_le_of_whole hbetween
      _ ≤ F.round r := by
          rw [F.pow_whole hlog.2] at hreached ⊢
          exact F.le_round_of_whole hreached

theorem round_mono {q r : ℚ} (h : q ≤ r) : F.round q ≤ F.round r := by
  rcases lt_or_ge 0 q with hq | hq
  · exact F.round_mono_pos hq h
  rcases lt_or_ge r 0 with hr | hr
  · have := F.round_mono_pos (neg_pos.mpr hr) (neg_le_neg h)
    rw [round_neg, round_neg] at this
    exact neg_le_neg_iff.mp this
  · have := F.round_nonneg (neg_nonneg.mpr hq)
    rw [round_neg] at this
    exact (neg_nonneg.mp this).trans (F.round_nonneg hr)

/-- A number of the format: whole in some place that is not too low, and not too long. -/
def Holds (q : ℚ) : Prop :=
  ∃ m k : ℤ, q = m * F.base ^ k ∧ |q| < F.base ^ (F.digits + k) ∧ F.least ≤ k

theorem round_of_holds {q : ℚ} (h : F.Holds q) : F.round q = q := by
  obtain ⟨m, k, hq, hlt, hk⟩ := h
  rcases eq_or_ne q 0 with rfl | hne
  · exact F.round_zero
  have hplace : F.place q ≤ k := by
    have := (Int.lt_zpow_iff_log_lt F.one_lt_base (abs_pos.mpr hne)).mp hlt
    rw [place]
    omega
  rw [F.pow_whole hplace, ← mul_assoc] at hq
  have hwhole : q / F.base ^ F.place q = ((m * (F.base ^ (k - F.place q).toNat : ℕ) : ℤ) : ℚ) := by
    rw [div_eq_iff (F.pow_pos _).ne']
    exact_mod_cast hq
  rw [round, hwhole, nearest_intCast]
  exact_mod_cast hq.symm

theorem abs_round_sub_le (q : ℚ) : |F.round q - q| ≤ F.base ^ F.place q / 2 := by
  have hunit := F.pow_pos (F.place q)
  have hsplit : F.round q - q =
      (nearest (q / F.base ^ F.place q) - q / F.base ^ F.place q) * F.base ^ F.place q := by
    rw [sub_mul, div_mul_cancel₀ _ hunit.ne', round]
  rw [hsplit, abs_mul, abs_of_pos hunit]
  calc |nearest (q / F.base ^ F.place q) - q / F.base ^ F.place q| * F.base ^ F.place q
      ≤ 1 / 2 * F.base ^ F.place q := mul_le_mul_of_nonneg_right (abs_nearest_sub _) hunit.le
    _ = F.base ^ F.place q / 2 := one_div_mul_eq_div 2 _

theorem round_of_close {v w : ℚ} {m k : ℤ} (hv : v = m * F.base ^ k) (hk : F.place w ≤ k)
    (hclose : |w - v| < F.base ^ F.place w / 2) : F.round w = v := by
  have hunit := F.pow_pos (F.place w)
  rw [F.pow_whole hk, ← mul_assoc] at hv
  generalize hn : m * (F.base ^ (k - F.place w).toNat : ℕ) = n at hv
  have hwhole : v = n * F.base ^ F.place w := by
    rw [hv, ← hn]
    push_cast
    ring
  have hsplit : w / F.base ^ F.place w - n = (w - v) / F.base ^ F.place w := by
    rw [sub_div, hwhole, mul_div_cancel_right₀ _ hunit.ne']
  have hnear : |w / F.base ^ F.place w - n| < 1 / 2 := by
    rw [hsplit, abs_div, abs_of_pos hunit, div_lt_iff₀ hunit, one_div_mul_eq_div]
    exact hclose
  have hround := abs_nearest_sub (w / F.base ^ F.place w)
  have hlt : |((nearest (w / F.base ^ F.place w) - n : ℤ) : ℚ)| < 1 := by
    push_cast
    calc |(nearest (w / F.base ^ F.place w) : ℚ) - n|
        ≤ |nearest (w / F.base ^ F.place w) - w / F.base ^ F.place w| +
            |w / F.base ^ F.place w - n| := abs_sub_le _ _ _
      _ < 1 := by linarith
  have hsame : nearest (w / F.base ^ F.place w) - n = 0 := Int.abs_lt_one_iff.mp (by exact_mod_cast hlt)
  rw [round, hwhole, sub_eq_zero.mp hsame]

theorem place_of_lt {q : ℚ} (hq : 0 < q) (h : q < F.base ^ F.least) : F.place q = F.least := by
  have hlog := (Int.lt_zpow_iff_log_lt F.one_lt_base hq).mp h
  have hdigits := F.digits_pos
  rw [place, abs_of_pos hq]
  omega

theorem round_pos_iff {q : ℚ} : 0 < F.round q ↔ F.base ^ F.least / 2 < q := by
  have hleast := F.pow_pos F.least
  have hself : (F.base : ℚ) ^ F.least / F.base ^ F.least = 1 := div_self hleast.ne'
  constructor
  · contrapose!
    intro h
    have hhalf : F.round (F.base ^ F.least / 2) = 0 := by
      have htie : nearest (1 / 2) = 0 := by norm_num [nearest]
      rw [round, F.place_of_lt (by positivity) (by linarith), div_right_comm, hself, htie]
      simp
    exact (F.round_mono h).trans hhalf.le
  · intro h
    rcases lt_or_ge q (F.base ^ F.least) with hlow | hhigh
    · have hq : 0 < q := lt_trans (by positivity) h
      have hratio : 1 / 2 < q / F.base ^ F.least := by rw [lt_div_iff₀ hleast]; linarith
      have hsmall : q / F.base ^ F.least < 1 := (div_lt_one hleast).mpr hlow
      have hfloor : ⌊q / F.base ^ F.least⌋ = 0 :=
        Int.floor_eq_zero_iff.mpr ⟨by linarith, hsmall⟩
      have hup : 0 < nearest (q / F.base ^ F.least) := by
        rw [nearest, hfloor, if_pos Even.zero, Int.ceil_pos]
        linarith
      rw [round, F.place_of_lt hq hlow]
      exact mul_pos (by exact_mod_cast hup) hleast
    · have hholds : F.Holds (F.base ^ F.least) := by
        refine ⟨1, F.least, by simp, ?_, le_rfl⟩
        rw [abs_of_pos hleast]
        have hdigits := F.digits_pos
        exact zpow_lt_zpow_right₀ (by exact_mod_cast F.one_lt_base) (by omega)
      calc (0 : ℚ) < F.base ^ F.least := hleast
        _ = F.round (F.base ^ F.least) := (F.round_of_holds hholds).symm
        _ ≤ F.round q := F.round_mono hhigh

def Between (c : ℚ) (k : ℤ) (q : ℚ) : Prop := k * c < q ∧ q < (k + 1) * c

theorem Between.whole_le_iff {c q : ℚ} {k : ℤ} (h : Between c k q) (hc : 0 < c) (n : ℤ) :
    n * c ≤ q ↔ n ≤ k := by
  constructor
  · intro hn
    have hlt := lt_of_mul_lt_mul_right (hn.trans_lt h.2) hc.le
    exact Int.lt_add_one_iff.mp (by exact_mod_cast hlt)
  · intro hn
    exact (mul_le_mul_of_nonneg_right (by exact_mod_cast hn) hc.le).trans h.1.le

theorem Between.le_whole_iff {c q : ℚ} {k : ℤ} (h : Between c k q) (hc : 0 < c) (n : ℤ) :
    q ≤ n * c ↔ k + 1 ≤ n := by
  constructor
  · intro hn
    have hlt := lt_of_mul_lt_mul_right (h.1.trans_le hn) hc.le
    exact Int.add_one_le_iff.mpr (by exact_mod_cast hlt)
  · intro hn
    exact h.2.le.trans (mul_le_mul_of_nonneg_right (by exact_mod_cast hn) hc.le)

/-- Two numbers between the same multiples of `c` are rounded to one, if the ties and the powers of
the base that they could pass are multiples of `c`. -/
theorem round_congr {c q r : ℚ} {k m j : ℤ} (hc : 0 < c) (hq : Between c k q) (hr : Between c k r)
    (hhalf : (F.base : ℚ) ^ j = 2 * m * c) (hplace : j ≤ F.place q) (hreach : F.base ^ j ≤ q) :
    F.round q = F.round r := by
  have hpow {i : ℤ} (hi : j ≤ i) :
      (F.base : ℚ) ^ i = 2 * (((F.base ^ (i - j).toNat : ℕ) : ℤ) * m : ℤ) * c := by
    rw [F.pow_whole hi, hhalf]
    push_cast
    ring
  have hreaches {i : ℤ} (hi : j ≤ i) : (F.base : ℚ) ^ i ≤ q ↔ (F.base : ℚ) ^ i ≤ r := by
    have hwhole : (F.base : ℚ) ^ i = (2 * (((F.base ^ (i - j).toNat : ℕ) : ℤ) * m) : ℤ) * c := by
      rw [hpow hi]
      push_cast
      ring
    rw [hwhole, hq.whole_le_iff hc, hr.whole_le_iff hc]
  have hq0 : 0 < q := (F.pow_pos j).trans_le hreach
  have hr0 : 0 < r := (F.pow_pos j).trans_le ((hreaches le_rfl).mp hreach)
  have hlog : Int.log F.base q = Int.log F.base r := by
    have hleast := (Int.zpow_le_iff_le_log F.one_lt_base hq0).mp hreach
    have hleast' := (Int.zpow_le_iff_le_log F.one_lt_base hr0).mp ((hreaches le_rfl).mp hreach)
    apply le_antisymm
    · rw [← Int.zpow_le_iff_le_log F.one_lt_base hr0, ← hreaches hleast]
      exact Int.zpow_log_le_self F.one_lt_base hq0
    · rw [← Int.zpow_le_iff_le_log F.one_lt_base hq0, hreaches hleast']
      exact Int.zpow_log_le_self F.one_lt_base hr0
  have hsame : F.place r = F.place q := by
    rw [place, place, abs_of_pos hq0, abs_of_pos hr0, hlog]
  have hunit := F.pow_pos (F.place q)
  rw [round, round, hsame]
  congr 2
  refine nearest_congr fun n => ?_
  have hties : (n : ℚ) / 2 * F.base ^ F.place q =
      (n * (((F.base ^ (F.place q - j).toNat : ℕ) : ℤ) * m) : ℤ) * c := by
    rw [hpow hplace]
    push_cast
    ring
  rw [le_div_iff₀ hunit, le_div_iff₀ hunit, div_le_iff₀ hunit, div_le_iff₀ hunit, hties,
    hq.whole_le_iff hc, hr.whole_le_iff hc, hq.le_whole_iff hc, hr.le_whole_iff hc]
  exact ⟨Iff.rfl, Iff.rfl⟩

end FloatFormat
end BomEngine
