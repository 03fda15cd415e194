import BomEngine.Decimal.Arithmetic

/-!
# Numbers that may be infinite or undefined

What a user or a caller writes as a number can also denote an infinity or no
number at all. Arithmetic goes on with these; ordering refuses what is no number.
-/

set_option autoImplicit false

namespace BomEngine

inductive Number where
  | finite (d : Decimal)
  | infinite (negative : Bool)
  | nan (negative signaling : Bool) (payload : Nat)
  deriving DecidableEq, Repr, Inhabited

instance : Coe Decimal Number := ⟨.finite⟩

namespace Number

/-- A result keeps the last 28 digits of the mark on an undefined number. -/
def quiet (negative : Bool) (payload : Nat) : Number :=
  .nan negative false (payload % Nat.pow 10 Decimal.precision)

/-- What an operation gives when an operand is no number: a signaling one stops it,
a quiet one is the result. -/
def undefined? : Number → Number → Option (Except Signal Number)
  | .nan _ true _, _ => some (.error .invalid)
  | _, .nan _ true _ => some (.error .invalid)
  | .nan n false p, _ => some (.ok (quiet n p))
  | _, .nan n false p => some (.ok (quiet n p))
  | _, _ => none

def add (x y : Number) : Except Signal Number :=
  match undefined? x y with
  | some r => r
  | none =>
    match x, y with
    | .finite a, .finite b => (a.add b).map .finite
    | .infinite s, .infinite t => if s = t then .ok (.infinite s) else .error .invalid
    | .infinite s, _ => .ok (.infinite s)
    | _, y => .ok y

def neg : Number → Number
  | .finite d => .finite d.neg
  | .infinite s => .infinite !s
  | x => x

def sub (x y : Number) : Except Signal Number := x.add y.neg

def isZero : Number → Bool
  | .finite d => d.isZero
  | _ => false

def isNegativeSign : Number → Bool
  | .finite d => d.negative
  | .infinite s => s
  | .nan s _ _ => s

def mul (x y : Number) : Except Signal Number :=
  match undefined? x y with
  | some r => r
  | none =>
    match x, y with
    | .finite a, .finite b => (a.mul b).map .finite
    | x, y =>
      if x.isZero || y.isZero then .error .invalid
      else .ok (.infinite (x.isNegativeSign != y.isNegativeSign))

def div (x y : Number) : Except Signal Number :=
  match undefined? x y with
  | some r => r
  | none =>
    let negative := x.isNegativeSign != y.isNegativeSign
    match x, y with
    | .finite a, .finite b => (a.div b).map .finite
    | .infinite _, .infinite _ => .error .invalid
    | .infinite _, _ => .ok (.infinite negative)
    | _, _ => .ok (.finite ⟨negative, 0, Decimal.leastExponent⟩)

def quantize (mode : Decimal.Rounding) (e : Int) : Number → Except Signal Number
  | .finite d => (d.quantize mode e).map .finite
  | .infinite _ => .error .invalid
  | .nan _ true _ => .error .invalid
  | .nan n false p => .ok (quiet n p)

def cmp : Number → Number → Except Signal Ordering
  | .finite a, .finite b => .ok (a.cmp b)
  | .infinite s, .infinite t => .ok (if s = t then .eq else if s then .lt else .gt)
  | .infinite s, .finite _ => .ok (if s then .lt else .gt)
  | .finite _, .infinite s => .ok (if s then .gt else .lt)
  | _, _ => .error .invalid

def isPositive (x : Number) : Except Signal Bool := do
  return (← (Decimal.zero : Number).cmp x) == .lt

def atLeastZero (x : Number) : Except Signal Number := do
  return if ← x.isPositive then x else Decimal.zero

def finite? : Number → Option Decimal
  | .finite d => some d
  | _ => none

end Number
end BomEngine
