/-!
# Decimals

A decimal is a sign, a coefficient and an exponent, and keeps all three: `1.10`
and `1.1` are equal in value and different as decimals, and so are `0` and `-0`.
Arithmetic results have at most 28 digits and an exponent range; reading,
comparing and counting digits are exact.
-/

set_option autoImplicit false

namespace BomEngine

/-- The decimal `± coeff · 10 ^ exp`. -/
structure Decimal where
  negative : Bool
  coeff : Nat
  exp : Int
  deriving DecidableEq, Repr, Inhabited

inductive Signal where
  | invalid
  | overflow
  | divisionByZero
  deriving DecidableEq, Repr

def digitCount (n : Nat) : Nat :=
  if h : n < 10 then 1 else digitCount (n / 10) + 1
termination_by n
decreasing_by omega

def scale (n k : Nat) : Nat := if n = 0 then 0 else n * Nat.pow 10 k

namespace Decimal

def zero : Decimal := ⟨false, 0, 0⟩

def one : Decimal := ⟨false, 1, 0⟩

def hundred : Decimal := ⟨false, 100, 0⟩

def ofInt (n : Int) : Decimal := ⟨n < 0, n.natAbs, 0⟩

def isZero (d : Decimal) : Bool := d.coeff = 0

def neg (d : Decimal) : Decimal := { d with negative := !d.negative }

def adjusted (d : Decimal) : Int := d.exp + digitCount d.coeff - 1

def signed (negative : Bool) (n : Nat) : Int := if negative then -(n : Int) else n

/-- Compares `a · 10 ^ e` with `b · 10 ^ f`. The leading digits decide unless
they stand at the same place. -/
def compareMagnitude (a : Nat) (e : Int) (b : Nat) (f : Int) : Ordering :=
  if a = 0 then if b = 0 then .eq else .lt
  else if b = 0 then .gt
  else
    match compare (e + digitCount a) (f + digitCount b) with
    | .eq =>
      let low := min e f
      compare (scale a (e - low).toNat) (scale b (f - low).toNat)
    | o => o

def cmp (x y : Decimal) : Ordering :=
  match x.negative && !x.isZero, y.negative && !y.isZero with
  | false, false => compareMagnitude x.coeff x.exp y.coeff y.exp
  | true, true => compareMagnitude y.coeff y.exp x.coeff x.exp
  | true, false => .lt
  | false, true => .gt

def lt (x y : Decimal) : Bool := x.cmp y == .lt

def le (x y : Decimal) : Bool := x.cmp y != .gt

def sameValue (x y : Decimal) : Bool := x.cmp y == .eq

def isPositive (d : Decimal) : Bool := zero.lt d

def isNegative (d : Decimal) : Bool := d.lt zero

/-- The larger of zero and `d`: zero itself when they are equal in value. -/
def atLeastZero (d : Decimal) : Decimal := if d.isPositive then d else zero

end Decimal
end BomEngine
