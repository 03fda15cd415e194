import BomEngine.Json.Printer
import BomEngine.Failure

/-!
# Entered quantities

A quantity that a user has entered. What is blank, unreadable or not finite counts
as zero, and what is received is at least zero and at most what is pending. An
integer with too many digits is no quantity at all: it cannot even be written out.
-/

set_option autoImplicit false

namespace BomEngine.Quantity

def ofNumber : Number → Decimal
  | .finite d => d
  | _ => Decimal.zero

def ofText (s : String) : Decimal :=
  match Number.ofText? (Text.trim s) with
  | some n => ofNumber n
  | none => Decimal.zero

/-- The quantity that a value stands for. A value that cannot be written out is refused before any
text of it is looked at. -/
def ofValue : Json → Result Decimal
  | .null => .ok Decimal.zero
  | j => if j.isShowable then .ok (ofText j.shown) else .error .badValue

def clamp (pending entered : Decimal) : Decimal :=
  if entered.isNegative then Decimal.zero
  else if pending.lt entered then pending
  else entered

/-- `clamp` where what is pending can be any number. -/
def clampTo (pending : Number) (entered : Decimal) : Except Signal Number :=
  if entered.isNegative then .ok Decimal.zero
  else do
    match ← pending.cmp entered with
    | .lt => return pending
    | _ => return entered

inductive Entry where
  | value (j : Json)
  | number (n : Number)

namespace Entry

def quantity : Entry → Result Decimal
  | value j => ofValue j
  | number n => .ok (ofNumber n)

def clamped (pending : Number) (e : Entry) : Result Number := do
  let entered ← e.quantity
  Result.ofArithmetic (clampTo pending entered)

end Entry

/-- The number that a value is, as opposed to the number its text denotes. -/
def numberOf : Json → Result Number
  | .int n => .ok (Decimal.ofInt n)
  | .bool b => .ok (Decimal.ofInt (if b then 1 else 0))
  | .double x => .ok x.toNumber
  | .str s =>
    match Number.ofText? s with
    | some n => .ok n
    | none => .error (.signal .invalid)
  | _ => .error .wrongArguments

end BomEngine.Quantity
