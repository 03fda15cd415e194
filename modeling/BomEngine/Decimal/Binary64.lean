import BomEngine.Decimal.Printer

/-!
# Double precision numbers

A double is 64 bits; a finite one denotes `± m · 2 ^ q`. Here are the nearest
double to a ratio (a tie goes to the even neighbour), the exact decimal of a
double, and its shortest text: the fewest digits that read back, of two such the
nearer, of two equally near the even one.
-/

set_option autoImplicit false

namespace BomEngine

structure Binary64 where
  bits : UInt64
  deriving DecidableEq, Repr, Inhabited

namespace Binary64

open Text

def negative (x : Binary64) : Bool := Nat.pow 2 63 ≤ x.bits.toNat

def exponentField (x : Binary64) : Nat := x.bits.toNat / Nat.pow 2 52 % 2048

def fraction (x : Binary64) : Nat := x.bits.toNat % Nat.pow 2 52

def isFinite (x : Binary64) : Bool := x.exponentField != 2047

def isNaN (x : Binary64) : Bool := !x.isFinite && x.fraction != 0

def significand (x : Binary64) : Nat :=
  if x.exponentField = 0 then x.fraction else x.fraction + Nat.pow 2 52

def exponent (x : Binary64) : Int :=
  if x.exponentField = 0 then -1074 else (x.exponentField : Int) - 1075

def isZero (x : Binary64) : Bool := x.isFinite && x.significand = 0

def ofFields (negative : Bool) (magnitude : Nat) : Binary64 :=
  ⟨UInt64.ofNat ((if negative then Nat.pow 2 63 else 0) + magnitude)⟩

def infinity (negative : Bool) : Binary64 := ofFields negative (2047 * Nat.pow 2 52)

def nan : Binary64 := ofFields false (2047 * Nat.pow 2 52 + Nat.pow 2 51)

/-- The double `m · 2 ^ q` for `m ≤ 2 ^ 53`, where `m` is small only at the least `q`. -/
def assemble (negative : Bool) (m : Nat) (q : Int) : Binary64 :=
  if m < Nat.pow 2 52 then ofFields negative m
  else
    let magnitude := (q + 1075).toNat * Nat.pow 2 52 + (m - Nat.pow 2 52)
    if 2047 * Nat.pow 2 52 ≤ magnitude then infinity negative else ofFields negative magnitude

def roundQuotient (above below : Nat) : Nat :=
  let kept := above / below
  if Decimal.Rounding.halfEven.up kept (above % below) below then kept + 1 else kept

def lastPlace (above below : Nat) : Int :=
  let q : Int := max ((Nat.log2 above : Int) - Nat.log2 below - 53) (-1074)
  if Nat.pow 2 53 ≤ (above * Nat.pow 2 (-q).toNat) / (below * Nat.pow 2 q.toNat) then q + 1 else q

def ofRatio (negative : Bool) (above below : Nat) : Binary64 :=
  if above = 0 then ofFields negative 0
  else
    let q := lastPlace above below
    assemble negative (roundQuotient (above * Nat.pow 2 (-q).toNat) (below * Nat.pow 2 q.toNat)) q

/-- The double nearest to a decimal: infinite beyond the range, zero far below it. -/
def ofDecimal (d : Decimal) : Binary64 :=
  if d.isZero then ofFields d.negative 0
  else if d.adjusted > 310 then infinity d.negative
  else if d.adjusted < -330 then ofFields d.negative 0
  else ofRatio d.negative (scale d.coeff d.exp.toNat) (Nat.pow 10 (-d.exp).toNat)

def reduce : Nat → Nat → Nat × Nat
  | m, 0 => (m, 0)
  | m, q + 1 => if m % 2 = 0 then reduce (m / 2) q else (m, q + 1)

def toNumber (x : Binary64) : Number :=
  if x.isNaN then .nan x.negative false 0
  else if !x.isFinite then .infinite x.negative
  else if x.isZero then .finite ⟨x.negative, 0, 0⟩
  else
    let (m, places) := reduce x.significand (-x.exponent).toNat
    .finite ⟨x.negative, m * Nat.pow 2 x.exponent.toNat * Nat.pow 5 places, -(places : Int)⟩

def above (x : Binary64) : Nat := x.significand * Nat.pow 2 x.exponent.toNat

def below (x : Binary64) : Nat := Nat.pow 2 (-x.exponent).toNat

def toInt? (x : Binary64) : Option Int :=
  if x.isFinite && x.above % x.below = 0 then
    some (Decimal.signed x.negative (x.above / x.below))
  else none

def truncate (x : Binary64) : Int := Decimal.signed x.negative (x.above / x.below)

def leadingPlace (above below : Nat) : Int :=
  let e : Int := (digitCount above : Int) - digitCount below
  if below * Nat.pow 10 e.toNat ≤ above * Nat.pow 10 (-e).toNat then e else e - 1

def neighbours (x : Binary64) (k : Int) : List Nat :=
  let above := x.above * Nat.pow 10 (-k).toNat
  let below := x.below * Nat.pow 10 k.toNat
  let low := above / below
  let near := roundQuotient above below
  if near = low then [low, low + 1] else [low + 1, low]

def readsBack (x : Binary64) (n : Nat) (k : Int) : Bool :=
  ofRatio x.negative (n * Nat.pow 10 k.toNat) (Nat.pow 10 (-k).toNat) = x

/-- Tries one more digit until a neighbour reads back. -/
def searchDigits (x : Binary64) (lead : Int) : Nat → Int → Nat × Int
  | 0, k => (x.above / x.below, k)
  | fuel + 1, k =>
    match (x.neighbours k).find? fun n => x.readsBack n k with
    | some n => (n, k)
    | none => searchDigits x lead fuel (k - 1)

def shortest (x : Binary64) : Nat × Int :=
  let lead := leadingPlace x.above x.below
  let (n, k) := searchDigits x lead 17 lead
  Decimal.stripZeros (k + 17) n k

def paddedExponent (e : Int) : List Char :=
  let ds := digitsOf e.natAbs
  'e' :: (if e < 0 then '-' else '+') :: (if ds.length < 2 then '0' :: ds else ds)

/-- Digits `n · 10 ^ k` as a number with a point: positional from `1e-4` up to below
`1e16`, with an exponent of two digits or more outside. -/
def pointText (n : Nat) (k : Int) : List Char :=
  let ds := digitsOf n
  let lead := k + ds.length - 1
  if -4 ≤ lead ∧ lead < 16 then
    let cs := pointed ds (lead + 1)
    if cs.contains '.' then cs else cs ++ ['.', '0']
  else pointed ds 1 ++ paddedExponent lead

def chars (x : Binary64) : List Char :=
  if x.isNaN then "nan".toList
  else
    let body :=
      if !x.isFinite then "inf".toList
      else if x.isZero then "0.0".toList
      else let (n, k) := x.shortest; pointText n k
    if x.negative then '-' :: body else body

def text (x : Binary64) : String := String.ofList x.chars

end Binary64
end BomEngine
