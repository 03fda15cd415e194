import BomEngine.Text.Blank
import BomEngine.Text.Digit
import BomEngine.Proofs.Decimal.Value

/-!
# Texts of digits

Digits of any script stand for the same numbers as plain ones. The digits of a number, as they are
written out, denote that number again, and there are as many of them as it has.
-/

set_option autoImplicit false

namespace BomEngine.Text

def Digits : List Char → List ℕ → Prop := List.Forall₂ fun c d => digitValue? c = some d

variable {cs cs' : List Char} {ds ds' : List ℕ} {c : Char} {d : ℕ}

theorem Digits.append (h : Digits cs ds) (h' : Digits cs' ds') : Digits (cs ++ cs') (ds ++ ds') :=
  List.rel_append h h'

theorem Digits.length (h : Digits cs ds) : cs.length = ds.length := h.length_eq

theorem Digits.not_mem (h : Digits cs ds) (hc : digitValue? c = none) : c ∉ cs := by
  induction h with
  | nil => exact List.not_mem_nil
  | cons hd _ ih =>
    rw [List.mem_cons, not_or]
    refine ⟨?_, ih⟩
    rintro rfl
    cases hc.symm.trans hd

theorem digitValue?_spec (h : digitValue? c = some d) :
    ∃ z ∈ zeros, c.toNat = z + d ∧ d < 10 := by
  unfold digitValue? at h
  split at h
  · rename_i z hz
    have hmem := List.mem_of_find?_eq_some hz
    have hrange := List.find?_some hz
    simp only [Bool.and_eq_true, decide_eq_true_eq] at hrange
    cases h
    exact ⟨z, hmem, by omega, by omega⟩
  · cases h

theorem digitValue?_digitChar (h : d < 10) : digitValue? (digitChar d) = some d := by
  revert h
  revert d
  decide

theorem forall_ascii {P : Char → Prop} (h : ∀ n < 128, P (Char.ofNat n)) (hc : c.toNat < 128) :
    P c := by
  have hn := h c.toNat hc
  rwa [Char.ofNat_toNat] at hn

theorem digitValue?_ascii (h : c.toNat < 128) : digitValue? c = plainDigit? c :=
  forall_ascii (P := fun c => digitValue? c = plainDigit? c) (by decide +kernel) h

theorem digitChar_toNat (h : d < 10) : (digitChar d).toNat = 48 + d := by
  revert h
  revert d
  decide

theorem digit_nonblank (h : digitValue? c = some d) : isBlank c = false ∧ c ≠ '_' := by
  have hall : ∀ z ∈ zeros, ∀ k < 10,
      isBlank (Char.ofNat (z + k)) = false ∧ Char.ofNat (z + k) ≠ '_' := by decide +kernel
  obtain ⟨z, hz, hc, hd⟩ := digitValue?_spec h
  have hzk := hall z hz d hd
  rwa [← hc, Char.ofNat_toNat] at hzk

theorem valueOf_append_singleton (ds : List ℕ) (d : ℕ) :
    valueOf (ds ++ [d]) = 10 * valueOf ds + d := by
  unfold valueOf
  rw [List.foldl_append]
  rfl

theorem valueOf_zeros (k : ℕ) (ds : List ℕ) : valueOf (List.replicate k 0 ++ ds) = valueOf ds := by
  induction k with
  | zero => rfl
  | succ k ih => exact ih

theorem valueOf_append_zeros (ds : List ℕ) (k : ℕ) :
    valueOf (ds ++ List.replicate k 0) = valueOf ds * 10 ^ k := by
  induction k with
  | zero => rw [List.replicate_zero, List.append_nil, pow_zero, mul_one]
  | succ k ih =>
    rw [List.replicate_succ', ← List.append_assoc, valueOf_append_singleton, ih]
    ring

theorem digits_zeros (k : ℕ) : Digits (List.replicate k '0') (List.replicate k 0) := by
  induction k with
  | zero => exact .nil
  | succ k ih => exact .cons rfl ih

theorem digits_onto (n : ℕ) {tail : List Char} {ts : List ℕ} (h : Digits tail ts) :
    ∃ ds, Digits (digitsOnto n tail) (ds ++ ts) ∧ valueOf ds = n ∧ ds.length = digitCount n := by
  induction n using Nat.strong_induction_on generalizing tail ts with
  | _ n ih =>
    rw [digitsOnto, digitCount]
    split
    · next hn => exact ⟨[n], .cons (digitValue?_digitChar hn) h, by simp [valueOf], rfl⟩
    · next hn =>
      have hlast : Digits (digitChar (n % 10) :: tail) (n % 10 :: ts) :=
        .cons (digitValue?_digitChar (Nat.mod_lt n (by decide))) h
      obtain ⟨ds, hds, hvalue, hlength⟩ := ih (n / 10) (by omega) hlast
      refine ⟨ds ++ [n % 10], ?_, ?_, ?_⟩
      · rw [List.append_assoc]
        exact hds
      · rw [valueOf_append_singleton, hvalue]
        exact Nat.div_add_mod n 10
      · rw [List.length_append, hlength]
        rfl

theorem digits_digitsOf (n : ℕ) :
    ∃ ds, Digits (digitsOf n) ds ∧ ds ≠ [] ∧ valueOf ds = n ∧ ds.length = digitCount n := by
  obtain ⟨ds, hds, hvalue, hlength⟩ := digits_onto n .nil
  rw [List.append_nil] at hds
  refine ⟨ds, hds, ?_, hvalue, hlength⟩
  rintro rfl
  exact absurd hlength.symm (digitCount_pos n).ne'

theorem trimBoth_of_nonblank {p : Char → Bool} (h : ∀ c ∈ cs, p c = false) :
    trimBoth p cs = cs := by
  have hdrop : ∀ xs : List Char, (∀ c ∈ xs, p c = false) → xs.dropWhile p = xs := by
    intro xs hxs
    cases xs with
    | nil => rfl
    | cons x xs =>
      exact List.dropWhile_cons_of_neg (by rw [hxs x List.mem_cons_self]; exact Bool.false_ne_true)
  unfold trimBoth
  rw [hdrop cs h, hdrop _ (fun c hc => h c (List.mem_reverse.mp hc)), List.reverse_reverse]

end BomEngine.Text
