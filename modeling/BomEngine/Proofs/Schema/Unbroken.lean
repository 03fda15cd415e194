import BomEngine.Bom.Resolution
import BomEngine.Campaign
import BomEngine.Cost.Entry
import BomEngine.Part
import BomEngine.Purchase.Order
import BomEngine.Purchase.Request
import BomEngine.Purchase.Vendor
import BomEngine.Quote.Basic
import BomEngine.WorkOrder
import Mathlib

/-!
# Checks that do not break

A check of an incoming value accepts it or says what is wrong with it. Only the status of a purchase
order is looked at before it is known to be a text, so that an order is the only kind of record whose
check breaks. For the other kinds it is put together from checks that never do.
-/

set_option autoImplicit false

namespace BomEngine

variable {α β : Type}

namespace Verdict

@[simp] theorem map_eq_broken {f : α → β} {v : Verdict α} : f <$> v = .broken ↔ v = .broken := by
  show v.map f = .broken ↔ _
  cases v <;> simp [map]

@[simp] theorem seq_eq_broken {f : Verdict (α → β)} {v : Verdict α} :
    f <*> v = .broken ↔ f = .broken ∨ v = .broken := by
  show f.both v = .broken ↔ _
  cases f <;> cases v <;> simp [both]

@[simp] theorem under_eq_broken {step : Step} {v : Verdict α} :
    v.under step = .broken ↔ v = .broken := by
  cases v <;> simp [under]

@[simp] theorem demand_eq_broken {v : Verdict α} {p : α → Option FlawKind} :
    v.demand p = .broken ↔ v = .broken := by
  cases v with
  | accepted a => cases h : p a <;> simp [demand, flaw, h]
  | _ => simp [demand]

@[simp] theorem flaw_ne_broken {kind : FlawKind} : (flaw kind : Verdict α) ≠ .broken := nofun

end Verdict

class Check.Unbroken (c : Check α) : Prop where
  ne_broken : ∀ j, c j ≠ .broken

namespace Check

export Unbroken (ne_broken)

attribute [simp] ne_broken

variable {c : Check α}

instance : Unbroken text := ⟨fun j => by cases j <;> simp [text]⟩

instance [Unbroken c] (p : α → Option FlawKind) : Unbroken (c.demand p) :=
  ⟨fun j => by simp [Check.demand]⟩

instance : Unbroken nonempty := ⟨fun j => by simp [nonempty]⟩

theorem finiteOf_eq_broken {v : Verdict Number} : finiteOf v = .broken ↔ v = .broken := by
  cases v with
  | accepted n => cases n <;> simp [finiteOf, finite]
  | _ => simp [finiteOf]

theorem numberOfText_ne_broken (s : String) : numberOfText s ≠ .broken := by
  unfold numberOfText
  split <;> simp

instance : Unbroken decimal :=
  ⟨fun j => by cases j <;> simp [decimal, finiteOf_eq_broken, numberOfText_ne_broken]⟩

instance : Unbroken positive := ⟨fun j => by simp [positive]⟩

instance : Unbroken nonnegative := ⟨fun j => by simp [nonnegative]⟩

theorem intOfDouble_ne_broken (x : Binary64) : intOfDouble x ≠ .broken := by
  unfold intOfDouble
  split
  · simp
  split
  · simp
  split <;> simp

theorem intOfText_ne_broken (s : String) : int (.str s) ≠ .broken := by
  rw [int]
  split
  · simp
  split <;> simp

instance : Unbroken int where
  ne_broken j := by
    cases j with
    | double x => exact intOfDouble_ne_broken x
    | str s => exact intOfText_ne_broken s
    | _ => simp [int]

instance (least : Int) : Unbroken (atLeast least) := ⟨fun j => by simp [atLeast]⟩

theorem boolOfInt_ne_broken (n : Int) : boolOfInt n ≠ .broken := by
  unfold boolOfInt
  split
  · simp
  split
  · simp
  split <;> simp

theorem boolOfWord_ne_broken (s : String) : boolOfWord s ≠ .broken := by
  unfold boolOfWord
  dsimp only
  split
  · simp
  split <;> simp

theorem boolOfDouble_ne_broken (x : Binary64) : bool (.double x) ≠ .broken := by
  rw [bool]
  split
  · exact boolOfInt_ne_broken _
  · simp

instance : Unbroken bool where
  ne_broken j := by
    cases j with
    | int n => exact boolOfInt_ne_broken n
    | str s => exact boolOfWord_ne_broken s
    | double x => exact boolOfDouble_ne_broken x
    | _ => simp [bool]

instance [Unbroken c] (a : α) : Unbroken (orNull a c) :=
  ⟨fun j => by cases j <;> simp [orNull]⟩

instance [Unbroken c] : Unbroken (Check.optional c) where
  ne_broken j := by
    have hmap : ∀ j, (c j).map some ≠ .broken := fun j h =>
      ne_broken (c := c) j (Verdict.map_eq_broken.mp h)
    cases j with
    | null => nofun
    | _ => exact hmap _

theorem each_ne_broken [Unbroken c] (i : Nat) (items : List Json) : each c i items ≠ .broken := by
  induction items generalizing i with
  | nil => nofun
  | cons j rest ih => simp [each, ih]

instance [Unbroken c] : Unbroken (list c) :=
  ⟨fun j => by cases j <;> simp [list, each_ne_broken]⟩

theorem textKeyed_ne_broken [Unbroken c] (fields : List (String × Json)) :
    textKeyed c fields ≠ .broken := by
  induction fields with
  | nil => nofun
  | cons f rest ih => simp [textKeyed, ih]

instance [Unbroken c] : Unbroken (mapping c) :=
  ⟨fun j => by cases j <;> simp [mapping, textKeyed_ne_broken]⟩

theorem unbroken_record {check : Fields → Verdict α} (h : ∀ fs, check fs ≠ .broken) :
    Unbroken (record check) :=
  ⟨fun j => by cases j <;> simp [record, h]⟩

end Check

namespace Fields

open Check

variable {c : Check α}

@[simp] theorem required_ne_broken [Unbroken c] (fs : Fields) (name : String) :
    fs.required name c ≠ .broken := by
  unfold required
  split <;> simp

theorem withDefault_eq_broken {fs : Fields} {name : String} {default : α} :
    fs.withDefault name default c = .broken ↔ ∃ j, fs.lookup name = some j ∧ c j = .broken := by
  unfold withDefault
  cases fs.lookup name <;> simp

@[simp] theorem withDefault_ne_broken [Unbroken c] (fs : Fields) (name : String) (default : α) :
    fs.withDefault name default c ≠ .broken := by
  simp [withDefault_eq_broken]

@[simp] theorem optional_ne_broken [Unbroken c] (fs : Fields) (name : String) :
    Fields.optional fs name c ≠ .broken :=
  withDefault_ne_broken fs name none

end Fields

open Check

instance : Unbroken (Record.check : Check Part) :=
  unbroken_record fun fs => by simp [Part.ofFields]

instance : Unbroken (Record.check : Check CostEntry) :=
  unbroken_record fun fs => by simp [CostEntry.ofFields]

instance : Unbroken (Record.check : Check WhereUsed) :=
  unbroken_record fun fs => by simp [WhereUsed.ofFields]

instance : Unbroken (Record.check : Check PriceRecord) :=
  unbroken_record fun fs => by simp [PriceRecord.ofFields]

instance : Unbroken (Record.check : Check WorkOrder) :=
  unbroken_record fun fs => by simp [WorkOrder.ofFields]

theorem ShortageStatus.ofText_ne_broken (s : String) :
    ShortageStatus.check (.str s) ≠ .broken := by
  rw [check]
  split <;> simp

instance : Unbroken ShortageStatus.check where
  ne_broken j := by
    cases j with
    | str s => exact ShortageStatus.ofText_ne_broken s
    | _ => simp [ShortageStatus.check]

instance : Unbroken (Record.check : Check NettedLine) :=
  unbroken_record fun fs => by simp [NettedLine.ofFields]

instance : Unbroken (Record.check : Check WorkOrderBom) :=
  unbroken_record fun fs => by simp [WorkOrderBom.ofFields]

instance : Unbroken (Record.check : Check QuoteLine) :=
  unbroken_record fun fs => by simp [QuoteLine.ofFields]

instance : Unbroken (Record.check : Check Quote) :=
  unbroken_record fun fs => by simp [Quote.ofFields]

instance : Unbroken (Record.check : Check Campaign) :=
  unbroken_record fun fs => by simp [Campaign.ofFields]

instance : Unbroken (Record.check : Check Vendor) :=
  unbroken_record fun fs => by simp [Vendor.ofFields]

instance : Unbroken (Record.check : Check CreatedOrder) :=
  unbroken_record fun fs => by simp [CreatedOrder.ofFields]

namespace BomNode

mutual

theorem check_ne_broken : ∀ j : Json, check j ≠ .broken
  | .obj fields => by simp [check, checkIn_ne_broken fields]
  | .null | .bool _ | .int _ | .double _ | .str _ | .arr _ => by simp [check]

theorem checkIn_ne_broken : ∀ fields : List (String × Json), checkIn fields ≠ .broken
  | [] => nofun
  | (k, j) :: rest => by
    rw [checkIn]
    split
    · simp [checkChildren_ne_broken j]
    · exact checkIn_ne_broken rest

theorem checkChildren_ne_broken : ∀ j : Json, checkChildren j ≠ .broken
  | .arr items => checkEach_ne_broken 0 items
  | .null | .bool _ | .int _ | .double _ | .str _ | .obj _ => by simp [checkChildren]

theorem checkEach_ne_broken : ∀ (i : Nat) (items : List Json), checkEach i items ≠ .broken
  | _, [] => nofun
  | i, j :: rest => by simp [checkEach, check_ne_broken j, checkEach_ne_broken (i + 1) rest]

end

instance : Unbroken (Record.check : Check BomNode) := ⟨check_ne_broken⟩

end BomNode

namespace PurchaseOrder

instance : Unbroken (Record.check : Check OrderLine) :=
  unbroken_record fun fs => by simp [OrderLine.ofFields]

/-- Something in the place of the status that is no text and does not count as nothing. -/
def HasBrokenStatus (j : Json) : Prop :=
  ∃ status, j.get? "status" = some status ∧ status.isTruthy ∧ ∀ s, status ≠ .str s

theorem statusCheck_eq_broken {j : Json} :
    statusCheck j = .broken ↔ j.isTruthy ∧ ∀ s, j ≠ .str s := by
  unfold statusCheck
  by_cases hj : j.isTruthy
  · cases j <;> simp_all
  · simp [hj]

theorem check_eq_broken {j : Json} :
    (Record.check j : Verdict PurchaseOrder) = .broken ↔ HasBrokenStatus j := by
  cases j with
  | obj fs =>
    show ofFields fs = .broken ↔ ∃ status, fs.lookup "status" = some status ∧ _
    simp [ofFields, Fields.withDefault_eq_broken, statusCheck_eq_broken]
  | _ => simp [Record.check, Check.record, HasBrokenStatus, Json.get?]

end PurchaseOrder

end BomEngine
