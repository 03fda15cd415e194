import BomEngine.Http.Message
import Mathlib

/-!
# Letters from their bytes

The bytes of a letter are read as that letter, whatever follows them, so that a text can be told
from its bytes.
-/

set_option autoImplicit false

namespace BomEngine.Text

theorem toNat_range (c : Char) :
    c.toNat < 0xd800 ∨ 0xdfff < c.toNat ∧ c.toNat < 0x110000 := c.valid

theorem utf8_lt (c : Char) : ∀ b ∈ utf8 c, b < 256 := by
  have hc := toNat_range c
  unfold utf8
  dsimp only
  split
  · simp; omega
  split
  · simp; omega
  split
  · simp; omega
  · simp; omega

theorem utf8_ne_nil (c : Char) : utf8 c ≠ [] := by
  unfold utf8
  dsimp only
  split_ifs <;> exact List.cons_ne_nil _ _

theorem letter?_toNat {least : ℕ} {c : Char} (h : least ≤ c.toNat) :
    letter? least c.toNat = some c := by
  have hc := toNat_range c
  rw [letter?, if_neg (by omega), if_neg (by omega), Char.ofNat_toNat]

theorem tailBits?_tail {x : ℕ} (h : x < 0x40) : tailBits? (0x80 + x) = some x := by
  rw [tailBits?, if_pos (by omega), Nat.add_sub_cancel_left]

section Forms

variable {a b c d x y z : ℕ}

theorem headLetter?_two (ha : 0xc0 ≤ a) (ha' : a < 0xe0) (hb : tailBits? b = some x)
    (rest : List ℕ) : headLetter? (a :: b :: rest) =
      (letter? 0x80 ((a - 0xc0) * 0x40 + x)).map (·, rest) := by
  simp only [headLetter?]
  rw [if_neg (by omega), if_neg (by omega), if_pos ha', hb]
  exact bind_pure_comp (·, rest) (letter? 0x80 _)

theorem headLetter?_three (ha : 0xe0 ≤ a) (ha' : a < 0xf0) (hb : tailBits? b = some x)
    (hc : tailBits? c = some y) (rest : List ℕ) : headLetter? (a :: b :: c :: rest) =
      (letter? 0x800 ((a - 0xe0) * 0x1000 + x * 0x40 + y)).map (·, rest) := by
  simp only [headLetter?]
  rw [if_neg (by omega), if_neg (by omega), if_neg (by omega), if_pos ha', hb, hc]
  exact bind_pure_comp (·, rest) (letter? 0x800 _)

theorem headLetter?_four (ha : 0xf0 ≤ a) (hb : tailBits? b = some x) (hc : tailBits? c = some y)
    (hd : tailBits? d = some z) (rest : List ℕ) : headLetter? (a :: b :: c :: d :: rest) =
      (letter? 0x10000 ((a - 0xf0) * 0x40000 + x * 0x1000 + y * 0x40 + z)).map (·, rest) := by
  -- the number is left open, so that nothing is computed with its large factors
  have hletter (number : ℕ → ℕ → ℕ → ℕ) :
      (do return (← letter? 0x10000 (number (← some x) (← some y) (← some z)), rest)) =
        (letter? 0x10000 (number x y z)).map (·, rest) :=
    bind_pure_comp (·, rest) (letter? 0x10000 _)
  rw [headLetter?, if_neg (by omega), if_neg (by omega), if_neg (by omega), if_neg (by omega), hb,
    hc, hd]
  exact hletter fun x y z => (a - 0xf0) * 0x40000 + x * 0x1000 + y * 0x40 + z

end Forms

theorem headLetter?_utf8 (c : Char) (rest : List ℕ) :
    headLetter? (utf8 c ++ rest) = some (c, rest) := by
  have hc := toNat_range c
  have htail (n : ℕ) : tailBits? (0x80 + n % 0x40) = some (n % 0x40) :=
    tailBits?_tail (Nat.mod_lt _ (by decide))
  unfold utf8
  dsimp only
  split_ifs with h1 h2 h3
  · simp only [List.singleton_append, headLetter?]
    rw [if_pos h1, Char.ofNat_toNat]
  · have hvalue : (0xc0 + c.toNat / 0x40 - 0xc0) * 0x40 + c.toNat % 0x40 = c.toNat := by omega
    refine (headLetter?_two (by omega) (by omega) (htail _) rest).trans ?_
    rw [hvalue, letter?_toNat (by omega), Option.map_some]
  · have hvalue : (0xe0 + c.toNat / 0x1000 - 0xe0) * 0x1000 + c.toNat / 0x40 % 0x40 * 0x40 +
        c.toNat % 0x40 = c.toNat := by omega
    refine (headLetter?_three (by omega) (by omega) (htail _) (htail _) rest).trans ?_
    rw [hvalue, letter?_toNat (by omega), Option.map_some]
  · have hvalue : (0xf0 + c.toNat / 0x40000 - 0xf0) * 0x40000 + c.toNat / 0x1000 % 0x40 * 0x1000 +
        c.toNat / 0x40 % 0x40 * 0x40 + c.toNat % 0x40 = c.toNat := by omega
    refine (headLetter?_four (by omega) (htail _) (htail _) (htail _) rest).trans ?_
    rw [hvalue, letter?_toNat (by omega), Option.map_some]

theorem lettersOf_utf8 (cs : List Char) {fuel : ℕ} (h : cs.length ≤ fuel) :
    Http.lettersOf fuel (cs.flatMap utf8) = cs := by
  induction cs generalizing fuel with
  | nil => cases fuel <;> rfl
  | cons c cs ih =>
    obtain ⟨fuel, rfl⟩ : ∃ k, fuel = k + 1 := ⟨fuel - 1, by simp at h; omega⟩
    rw [List.flatMap_cons]
    obtain ⟨b, bs, hb⟩ := List.exists_cons_of_ne_nil (utf8_ne_nil c)
    have hhead := headLetter?_utf8 c (cs.flatMap utf8)
    rw [hb, List.cons_append] at hhead ⊢
    rw [Http.lettersOf, hhead]
    · exact congrArg (c :: ·) (ih (by simpa using h))
    · exact nofun

end BomEngine.Text
