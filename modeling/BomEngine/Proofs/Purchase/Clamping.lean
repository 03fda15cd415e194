import BomEngine.Proofs.Decimal.Limits
import BomEngine.Proofs.Decimal.Notation
import BomEngine.Proofs.Purchase.Order

/-!
# Clamping what was entered

What is entered stands for a quantity: the decimal that it denotes, or nothing. Of that as much counts
as lies between nothing and what is pending, and more never comes of less. A clamped quantity that is
shown and entered again is the same quantity, digit for digit. Only an integer of too many digits is
no entry at all: there is no text of it to be read.
-/

set_option autoImplicit false

namespace BomEngine
open Number (representable)

namespace Number

theorem representable_zero : representable Decimal.zero = true := by decide +kernel

def Readable : Number → Prop
  | finite d => representable d = true
  | _ => True

def cap : Number → WithTop ℚ
  | finite d => d.value
  | _ => ⊤

theorem positive_cases {n : Number} (h : n.isPositive = .ok true) :
    (∃ d, n = finite d ∧ 0 < d.value) ∨ n = infinite false := by
  cases n with
  | finite d => exact .inl ⟨d, rfl, (Decimal.isPositive_iff d).mp (Except.ok.inj h)⟩
  | infinite negative =>
    cases negative with
    | false => exact .inr rfl
    | true => cases h
  | nan negative signaling payload => cases h

theorem cap_nonneg {n : Number} (h : n.isPositive = .ok true) : 0 ≤ n.cap := by
  rcases positive_cases h with ⟨d, rfl, hd⟩ | rfl
  · exact WithTop.coe_le_coe.mpr hd.le
  · exact le_top

end Number

theorem Decimal.Held.representable {d : Decimal} (h : Held d) (hd : d.coeff ≠ 0) :
    Number.representable d = true := by
  have hlow : (10 : ℚ) ^ (d.exp + digitCount d.coeff - 1) < 10 ^ (precision + topExponent) :=
    calc (10 : ℚ) ^ (d.exp + digitCount d.coeff - 1) ≤ d.coeff * 10 ^ d.exp := le_magnitude hd _
      _ = |d.value| := (abs_value d).symm
      _ < brink topExponent := not_le.mp h.fits
      _ < 10 ^ (precision + topExponent) := brink_lt _
  have hplace := (zpow_lt_zpow_iff_right₀ (by norm_num : (1 : ℚ) < 10)).mp hlow
  have hexp := h.exp
  have hzero : d.isZero = false := decide_eq_false hd
  have htop : (precision : ℤ) + topExponent = 1000000 := rfl
  have hleast : leastExponent = -1000026 := rfl
  have hlargest : Number.largestExponent = 999999999999999999 := rfl
  unfold Number.representable adjusted
  rw [hzero]
  simp only [Bool.false_eq_true, if_false, Bool.and_eq_true, decide_eq_true_eq]
  constructor <;> omega

namespace OrderLine

theorem pending_representable {l : OrderLine} {p : Decimal} (h : l.pending = .ok p) :
    representable p = true := by
  rw [pending_eq] at h
  obtain ⟨d, hd, rfl⟩ := Traversal.map_eq_ok.mp h
  unfold Decimal.atLeastZero
  split
  · rename_i hpos
    have hvalue := (Decimal.isPositive_iff d).mp hpos
    exact (Decimal.fix_held hd).representable (Decimal.value_pos_iff.mp hvalue).2
  · exact Number.representable_zero

end OrderLine

namespace Json

/-- An integer of too many digits stands in the value. -/
inductive Oversized : Json → Prop
  | int {n : ℤ} (h : 10 ^ integerLimit ≤ n.natAbs) : Oversized (.int n)
  | item {items : List Json} {j : Json} (hj : j ∈ items) (h : Oversized j) : Oversized (.arr items)
  | field {fields : List (String × Json)} {k : String} {j : Json} (hj : (k, j) ∈ fields)
      (h : Oversized j) : Oversized (.obj fields)

mutual

theorem isShowable_iff : ∀ j : Json, j.isShowable = true ↔ ¬ j.Oversized
  | .null | .bool _ | .double _ | .str _ => ⟨fun _ => nofun, fun _ => rfl⟩
  | .int n => by
    have hdigits := digitCount_le (n := n.natAbs) (k := integerLimit) (by decide)
    rw [isShowable, decide_eq_true_eq, hdigits, ← not_le]
    exact not_congr ⟨.int, fun h => by cases h; assumption⟩
  | .arr items => by
    rw [isShowable, itemsShowable_iff items]
    constructor
    · intro h hsize
      cases hsize with
      | item hj hsize => exact h _ hj hsize
    · exact fun h j hj hsize => h (.item hj hsize)
  | .obj fields => by
    rw [isShowable, fieldsShowable_iff fields]
    constructor
    · intro h hsize
      cases hsize with
      | field hj hsize => exact h _ hj hsize
    · exact fun h field hj hsize => h (.field hj hsize)

theorem itemsShowable_iff : ∀ items : List Json,
    itemsShowable items = true ↔ ∀ j ∈ items, ¬ j.Oversized
  | [] => by simp [itemsShowable]
  | j :: rest => by
    rw [itemsShowable, Bool.and_eq_true, isShowable_iff j, itemsShowable_iff rest,
      List.forall_mem_cons]

theorem fieldsShowable_iff : ∀ fields : List (String × Json),
    fieldsShowable fields = true ↔ ∀ field ∈ fields, ¬ field.2.Oversized
  | [] => by simp [fieldsShowable]
  | (k, j) :: rest => by
    rw [fieldsShowable, Bool.and_eq_true, isShowable_iff j, fieldsShowable_iff rest,
      List.forall_mem_cons]

end

theorem oversized_limit : Oversized (.int (10 ^ integerLimit)) := by
  have hten : Int.natAbs 10 = 10 := rfl
  refine .int ?_
  rw [Int.natAbs_pow, hten]

end Json

namespace Quantity
namespace Entry

def Denotes : Entry → Decimal → Prop
  | value .null, _ => False
  | value j, d => Number.Denotes (Text.trim j.shown) d
  | number n, d => n = .finite d

/-- A number that is entered as such has an exponent that a decimal can have. -/
def Readable : Entry → Prop
  | value _ => True
  | number n => n.Readable

def Oversized : Entry → Prop
  | value j => j.Oversized
  | number _ => False

/-- The quantity that an entry stands for: nothing, if it denotes none. -/
def Counts (e : Entry) (q : ℚ) : Prop :=
  (∃ d, e.Denotes d ∧ d.value = q) ∨ (∀ d, ¬ e.Denotes d) ∧ q = 0

variable {e : Entry} {d : Decimal}

theorem ofText_eq (s : String) :
    Number.Denotes (Text.trim s) (ofText s) ∨
      (∀ d, ¬ Number.Denotes (Text.trim s) d) ∧ ofText s = Decimal.zero := by
  have hnone : (∀ d, Number.ofText? (Text.trim s) ≠ some (.finite d)) →
      ∀ d, ¬ Number.Denotes (Text.trim s) d := fun h d hd => h d (Number.ofText?_eq_finite.mpr hd)
  unfold ofText
  cases hn : Number.ofText? (Text.trim s) with
  | none => exact .inr ⟨hnone (hn ▸ nofun), rfl⟩
  | some n =>
    cases n with
    | finite d => exact .inl (Number.ofText?_eq_finite.mp hn)
    | infinite negative => exact .inr ⟨hnone (hn ▸ nofun), rfl⟩
    | nan negative signaling payload => exact .inr ⟨hnone (hn ▸ nofun), rfl⟩

theorem ofValue_shown {j : Json} (hnull : j ≠ .null) (h : ¬ j.Oversized) :
    ofValue j = .ok (ofText j.shown) := by
  cases j with
  | null => exact absurd rfl hnull
  | _ => simp only [ofValue, (Json.isShowable_iff _).mpr h, if_true]

theorem ofValue_oversized {j : Json} (h : j.Oversized) : ofValue j = .error .badValue := by
  cases j with
  | null => cases h
  | _ => exact if_neg fun hshow => (Json.isShowable_iff _).mp hshow h

theorem quantity_oversized (h : e.Oversized) : e.quantity = .error .badValue := by
  cases e with
  | value j => exact ofValue_oversized h
  | number n => exact h.elim

theorem quantity_total (h : ¬ e.Oversized) :
    ∃ d, e.quantity = .ok d ∧ (e.Denotes d ∨ (∀ d', ¬ e.Denotes d') ∧ d = Decimal.zero) := by
  cases e with
  | value j =>
    by_cases hnull : j = .null
    · subst hnull
      exact ⟨_, rfl, .inr ⟨fun _ h => h, rfl⟩⟩
    · refine ⟨_, ofValue_shown hnull h, ?_⟩
      cases j with
      | null => exact absurd rfl hnull
      | _ => exact ofText_eq _
  | number n =>
    refine ⟨_, rfl, ?_⟩
    cases n with
    | finite d => exact .inl rfl
    | infinite negative => exact .inr ⟨nofun, rfl⟩
    | nan negative signaling payload => exact .inr ⟨nofun, rfl⟩

theorem denotes_unique {d' : Decimal} (h : e.Denotes d) (h' : e.Denotes d') : d = d' := by
  cases e with
  | value j =>
    cases j with
    | null => exact h.elim
    | _ => exact Number.denotes_unique h h'
  | number n => exact Number.finite.inj (h.symm.trans h')

theorem counts_iff (h : e.Denotes d ∨ (∀ d', ¬ e.Denotes d') ∧ d = Decimal.zero) (q : ℚ) :
    e.Counts q ↔ d.value = q := by
  rcases h with hd | ⟨hnone, rfl⟩
  · constructor
    · rintro (⟨d', hd', rfl⟩ | ⟨hnone, -⟩)
      · rw [denotes_unique hd hd']
      · exact absurd hd (hnone d)
    · exact fun h => .inl ⟨d, hd, h⟩
  · rw [Decimal.value_zero]
    constructor
    · rintro (⟨d', hd', -⟩ | ⟨-, rfl⟩)
      · exact absurd hd' (hnone d')
      · rfl
    · exact fun h => .inr ⟨hnone, h.symm⟩

theorem representable_of_denotes (he : e.Readable) (h : e.Denotes d) : representable d = true := by
  cases e with
  | value j =>
    cases j with
    | null => exact h.elim
    | _ => exact h.2
  | number n =>
    cases h
    exact he

theorem clamped_eq {pending : Number} (h : e.quantity = .ok d) :
    e.clamped pending = Result.ofArithmetic (clampTo pending d) := by
  rw [clamped, h]
  rfl

theorem quantity_text (s : String) : (value (.str s)).quantity = .ok (ofText s) := rfl

theorem quantity_unrepresentable {s : String} (h : Number.Spells (Text.trim s) d)
    (hd : representable d = false) : (value (.str s)).quantity = .ok Decimal.zero := by
  rw [quantity_text, ofText, Number.ofText?_spells h, hd]
  rfl

end Entry

theorem ofText_text {v : Decimal} (h : representable v = true) : ofText v.text = v := by
  unfold ofText
  rw [Decimal.trim_text, Decimal.ofText?_text h]
  rfl

variable {pending : Number}

theorem clampTo_finite (p entered : Decimal) :
    clampTo (.finite p) entered = .ok (.finite (clamp p entered)) := by
  have hcmp : Number.cmp (.finite p) (.finite entered) = .ok (p.cmp entered) := rfl
  unfold clampTo clamp Decimal.lt
  split
  · rfl
  · rw [hcmp]
    cases p.cmp entered <;> rfl

theorem clampTo_infinite (entered : Decimal) :
    clampTo (.infinite false) entered =
      .ok (.finite (if entered.isNegative then Decimal.zero else entered)) := by
  unfold clampTo
  split <;> rfl

theorem clampTo_cases (hpos : pending.isPositive = .ok true) (entered : Decimal) :
    ∃ v, clampTo pending entered = .ok (.finite v) ∧
      (v.value : WithTop ℚ) = max 0 (min pending.cap entered.value) ∧
      (v = Decimal.zero ∨ pending = .finite v ∨ v = entered) := by
  rcases Number.positive_cases hpos with ⟨p, rfl, hp⟩ | rfl
  · refine ⟨_, clampTo_finite p entered, ?_, ?_⟩
    · rw [clamp_value hp.le, WithTop.coe_max, WithTop.coe_min]
      rfl
    · unfold clamp
      split
      · exact .inl rfl
      split
      · exact .inr (.inl rfl)
      · exact .inr (.inr rfl)
  · refine ⟨_, clampTo_infinite entered, ?_, ?_⟩
    · have hcap : min (Number.infinite false).cap (entered.value : WithTop ℚ) = entered.value :=
        min_eq_right le_top
      rw [hcap]
      split
      · rename_i hneg
        have hvalue := (Decimal.isNegative_iff entered).mp hneg
        rw [Decimal.value_zero]
        exact (max_eq_left (WithTop.coe_le_coe.mpr hvalue.le)).symm
      · rename_i hneg
        have hvalue := not_lt.mp (mt (Decimal.isNegative_iff entered).mpr hneg)
        exact (max_eq_right (WithTop.coe_le_coe.mpr hvalue)).symm
    · split
      · exact .inl rfl
      · exact .inr (.inr rfl)

theorem clampTo_of_mem (hpos : pending.isPositive = .ok true) {v : Decimal} (hnonneg : 0 ≤ v.value)
    (hle : (v.value : WithTop ℚ) ≤ pending.cap) : clampTo pending v = .ok (.finite v) := by
  have hneg : ¬ v.isNegative = true := mt (Decimal.isNegative_iff v).mp (not_lt.mpr hnonneg)
  rcases Number.positive_cases hpos with ⟨p, rfl, -⟩ | rfl
  · have hlt : ¬ p.lt v = true :=
      mt (Decimal.lt_iff p v).mp (not_lt.mpr (WithTop.coe_le_coe.mp hle))
    rw [clampTo_finite, clamp, if_neg hneg, if_neg hlt]
  · rw [clampTo_infinite, if_neg hneg]

/-- What is made of an entry where something is pending: as much of the quantity that it stands for
as lies between nothing and what is pending, in the digits of one of these. Entered once more as it
is shown, it stays the same, with its digits and its sign. -/
structure Clamped (pending : Number) (e : Entry) (v : Decimal) : Prop where
  result : e.clamped pending = .ok (.finite v)
  nonneg : 0 ≤ v.value
  le : (v.value : WithTop ℚ) ≤ pending.cap
  projects : ∀ q, e.Counts q → (v.value : WithTop ℚ) = max 0 (min pending.cap q)
  digits : v = Decimal.zero ∨ pending = .finite v ∨ e.Denotes v
  again : (Entry.value (.str v.text)).clamped pending = .ok (.finite v)

theorem exists_clamped (hpos : pending.isPositive = .ok true) (hpending : pending.Readable)
    {e : Entry} (he : e.Readable) (hsize : ¬ e.Oversized) : ∃ v, Clamped pending e v := by
  obtain ⟨entered, hquantity, hdenotes⟩ := Entry.quantity_total hsize
  obtain ⟨v, hresult, hvalue, hcases⟩ := clampTo_cases hpos entered
  have hnonneg : 0 ≤ v.value := WithTop.coe_le_coe.mp (hvalue.symm ▸ le_max_left _ _)
  have hle : (v.value : WithTop ℚ) ≤ pending.cap := by
    rw [hvalue]
    exact max_le (Number.cap_nonneg hpos) (min_le_left _ _)
  have hdigits : v = Decimal.zero ∨ pending = .finite v ∨ e.Denotes v := by
    rcases hcases with h | h | rfl
    · exact .inl h
    · exact .inr (.inl h)
    · exact hdenotes.symm.imp And.right .inr
  have hread : representable v = true := by
    rcases hdigits with rfl | rfl | hd
    · exact Number.representable_zero
    · exact hpending
    · exact Entry.representable_of_denotes he hd
  refine ⟨v, ?_, hnonneg, hle, ?_, hdigits, ?_⟩
  · rw [Entry.clamped_eq hquantity, hresult]
    rfl
  · intro q hq
    rw [hvalue, (Entry.counts_iff hdenotes q).mp hq]
  · have hagain : (Entry.value (.str v.text)).quantity = .ok v := by
      rw [Entry.quantity_text, ofText_text hread]
    rw [Entry.clamped_eq hagain, clampTo_of_mem hpos hnonneg hle]
    rfl

theorem line_clamped {l : OrderLine} {p : Decimal} (h : l.pending = .ok p) (hp : 0 < p.value)
    (typed : String) : Clamped (.finite p) (.value (.str typed)) (clamp p (ofText typed)) := by
  have hpos : (Number.finite p).isPositive = .ok true := by
    rw [Number.isPositive_finite, (Decimal.isPositive_iff p).mpr hp]
  obtain ⟨v, hv⟩ := exists_clamped (e := .value (.str typed)) hpos
    (OrderLine.pending_representable h) trivial nofun
  obtain rfl : clamp p (ofText typed) = v := by
    have hresult : (Entry.value (.str typed)).clamped (.finite p) =
        .ok (.finite (clamp p (ofText typed))) := by
      rw [Entry.clamped_eq (Entry.quantity_text typed), clampTo_finite]
      rfl
    exact Number.finite.inj (Except.ok.inj (hresult.symm.trans hv.result))
  exact hv

/-- An entry is refused exactly if an integer of too many digits is in it. Any other, where
something is pending, stands for exactly one quantity and is clamped, and no less comes of a larger
entry, or where more is pending. A numeral beyond the exponents of decimals counts as nothing. -/
theorem entries_decided (hpos : pending.isPositive = .ok true) (hpending : pending.Readable) :
    (∀ e : Entry, e.Readable →
      (e.Oversized → e.clamped pending = .error .badValue) ∧
      (¬ e.Oversized → (∃! q, e.Counts q) ∧ ∃ v, Clamped pending e v)) ∧
    (∀ s d, Number.Spells (Text.trim s) d → representable d = false →
      (Entry.value (.str s)).clamped pending = .ok (.finite Decimal.zero)) ∧
    ∀ (pending' : Number) (e e' : Entry) v v' q q', Clamped pending e v → Clamped pending' e' v' →
      e.Counts q → e'.Counts q' → q ≤ q' → pending.cap ≤ pending'.cap → v.value ≤ v'.value := by
  refine ⟨fun e he => ⟨fun hsize => ?_, fun hsize => ⟨?_, exists_clamped hpos hpending he hsize⟩⟩,
    fun s d hd hrange => ?_, ?_⟩
  · rw [Entry.clamped, Entry.quantity_oversized hsize]
    rfl
  · obtain ⟨d, -, hdenotes⟩ := Entry.quantity_total hsize
    exact ⟨d.value, (Entry.counts_iff hdenotes _).mpr rfl,
      fun q hq => ((Entry.counts_iff hdenotes q).mp hq).symm⟩
  · have hcap : Decimal.zero.value ≤ pending.cap := by
      rw [Decimal.value_zero]
      exact Number.cap_nonneg hpos
    rw [Entry.clamped_eq (Entry.quantity_unrepresentable hd hrange),
      clampTo_of_mem hpos Decimal.value_zero.ge hcap]
    rfl
  · intro pending' e e' v v' q q' hv hv' hq hq' hle hcap
    rw [← WithTop.coe_le_coe, hv.projects q hq, hv'.projects q' hq']
    exact max_le_max le_rfl (min_le_min hcap (WithTop.coe_le_coe.mpr hle))

theorem entries_decided_bench :
    (Entry.value (.int (10 ^ Json.integerLimit))).clamped (.finite ⟨false, 25, -1⟩) =
      .error .badValue ∧
    (Entry.value (.str "1E+1000000000000000000")).clamped (.finite ⟨false, 25, -1⟩) =
      .ok (.finite Decimal.zero) ∧
    (∃ v, Clamped (.finite ⟨false, 25, -1⟩) (.value (.str " +1_2e٠ ")) v) ∧
    (∃ v, Clamped (.finite ⟨false, 25, -1⟩) (.value (.str "-0.00")) v) ∧
    ofText " +1_2e٠ " = ⟨false, 12, 0⟩ ∧ ofText "-0.00" = ⟨true, 0, -2⟩ := by
  have hpos : (Number.finite ⟨false, 25, -1⟩).isPositive = .ok true := by decide +kernel
  have hread : (Number.finite ⟨false, 25, -1⟩).Readable := by
    show representable _ = true
    decide +kernel
  have hspells : Number.Spells (Text.trim "1E+1000000000000000000") ⟨false, 1, 10 ^ 18⟩ := by
    have htext : Text.trim "1E+1000000000000000000" = Decimal.text ⟨false, 1, 10 ^ 18⟩ := by
      decide +kernel
    rw [htext]
    exact Decimal.spells_text _
  obtain ⟨hentries, hrange, -⟩ := entries_decided hpos hread
  exact ⟨(hentries (.value _) trivial).1 Json.oversized_limit, hrange _ _ hspells (by decide +kernel),
    ((hentries (.value (.str _)) trivial).2 nofun).2,
    ((hentries (.value (.str _)) trivial).2 nofun).2,
    by decide +kernel, by decide +kernel⟩

/-- Five are pending, and neither of two entries above five gives five. -/
theorem entries_refused :
    (Entry.value (.int (10 ^ Json.integerLimit))).clamped (.finite ⟨false, 5, 0⟩) =
      .error .badValue ∧
    (Entry.value (.str "1E+1000000000000000000")).clamped (.finite ⟨false, 5, 0⟩) =
      .ok (.finite Decimal.zero) := by
  constructor
  · have hsize : (Entry.value (.int (10 ^ Json.integerLimit))).Oversized := Json.oversized_limit
    rw [Entry.clamped, Entry.quantity_oversized hsize]
    rfl
  · decide +kernel

end Quantity
end BomEngine
