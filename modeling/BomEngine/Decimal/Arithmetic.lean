import BomEngine.Decimal.Basic

/-!
# Arithmetic in 28 digits

Each operation is the exact one followed by `fix`, which keeps 28 digits, rounds
a half to the even neighbour and bounds the exponent. Results that are too small
lose digits silently; results that are too large are an overflow.

A sum of two decimals far apart never writes out the digits between them: an
operand below the last digit that can matter is replaced by one unit just there,
which rounds the same way.
-/

set_option autoImplicit false

namespace BomEngine.Decimal

def precision : Nat := 28

def maxExponent : Int := 999999

def leastExponent : Int := -999999 - 27

def topExponent : Int := maxExponent - 27

inductive Rounding where
  | halfEven
  | halfUp
  deriving DecidableEq, Repr

/-- Whether the part cut off, `rest` of `unit`, moves the last digit kept up. -/
def Rounding.up (mode : Rounding) (kept rest unit : Nat) : Bool :=
  match compare (2 * rest) unit with
  | .lt => false
  | .gt => true
  | .eq =>
    match mode with
    | .halfEven => kept % 2 = 1
    | .halfUp => true

def dropDigits (mode : Rounding) (n k : Nat) : Nat :=
  if digitCount n < k then 0
  else
    let unit := Nat.pow 10 k
    if mode.up (n / unit) (n % unit) unit then n / unit + 1 else n / unit

/-- Brings an exact result into 28 digits and the exponent range. -/
def fix (negative : Bool) (n : Nat) (e : Int) : Except Signal Decimal :=
  if n = 0 then .ok ⟨negative, 0, max leastExponent (min e maxExponent)⟩
  else
    let full := e + digitCount n - precision
    let low := max full leastExponent
    if full > topExponent then .error .overflow
    else if low ≤ e then .ok ⟨negative, n, e⟩
    else
      let kept := dropDigits .halfEven n (low - e).toNat
      if digitCount kept ≤ precision then .ok ⟨negative, kept, low⟩
      else if low + 1 > topExponent then .error .overflow
      else .ok ⟨negative, kept / 10, low + 1⟩

/-- The place below which an addend cannot be seen beside `x`, but for its presence. -/
def horizon (x : Decimal) : Int :=
  x.exp + min (-1) ((digitCount x.coeff : Int) - precision - 2)

def beside (x y : Decimal) : Decimal :=
  if x.isZero then y
  else if y.isZero then { y with exp := max y.exp (x.exp - precision - 1) }
  else if y.exp < x.exp ∧ y.adjusted < x.horizon then ⟨y.negative, 1, x.horizon⟩
  else y

/-- The exact sum of two decimals, rounded. A zero sum is negative only if both are. -/
def sumOf (x y : Decimal) : Except Signal Decimal :=
  let low := min x.exp y.exp
  let s := signed x.negative (scale x.coeff (x.exp - low).toNat)
    + signed y.negative (scale y.coeff (y.exp - low).toNat)
  fix (if s = 0 then x.negative && y.negative else s < 0) s.natAbs low

def add (x y : Decimal) : Except Signal Decimal := sumOf (beside y x) (beside x y)

def sub (x y : Decimal) : Except Signal Decimal := x.add y.neg

def mul (x y : Decimal) : Except Signal Decimal :=
  fix (x.negative != y.negative) (x.coeff * y.coeff) (x.exp + y.exp)

/-- Takes trailing zeros off, as long as the exponent stays at most `ideal`. -/
def stripZeros (ideal : Int) (n : Nat) (e : Int) : Nat × Int :=
  if h : n ≠ 0 ∧ e < ideal ∧ n % 10 = 0 then stripZeros ideal (n / 10) (e + 1) else (n, e)
termination_by n
decreasing_by omega

/-- Quotient with one digit more than is kept. An inexact one never ends in 0 or
5, so that it is not mistaken for a tie. -/
def div (x y : Decimal) : Except Signal Decimal :=
  if y.isZero then .error (if x.isZero then .invalid else .divisionByZero)
  else
    let negative := x.negative != y.negative
    if x.isZero then fix negative 0 (x.exp - y.exp)
    else
      let shift : Int := digitCount y.coeff - digitCount x.coeff + precision + 1
      let above := scale x.coeff shift.toNat
      let below := scale y.coeff (-shift).toNat
      let q := above / below
      let e := x.exp - y.exp - shift
      if above % below = 0 then
        let (q, e) := stripZeros (x.exp - y.exp) q e
        fix negative q e
      else fix negative (if q % 5 = 0 then q + 1 else q) e

/-- The neighbour of `x` with exponent `e`, which must not need more than 28 digits. -/
def quantize (mode : Rounding) (e : Int) (x : Decimal) : Except Signal Decimal :=
  if x.isZero then fix x.negative 0 e
  else if x.adjusted > maxExponent ∨ x.adjusted - e + 1 > precision then .error .invalid
  else
    let n := if e ≤ x.exp then scale x.coeff (x.exp - e).toNat
      else dropDigits mode x.coeff (e - x.exp).toNat
    if digitCount n > precision then .error .invalid else fix x.negative n e

def sum (xs : List Decimal) : Except Signal Decimal := xs.foldlM add zero

end BomEngine.Decimal
