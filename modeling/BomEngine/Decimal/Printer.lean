import BomEngine.Decimal.Number
import BomEngine.Text.Digit

/-!
# The text of a decimal

Digits with a point where the exponent is at most zero and the number is not
very small; otherwise one digit before the point and an exponent with its sign.
The exponent is never lost, so the text tells `1.10` from `1.1`.
-/

set_option autoImplicit false

namespace BomEngine

open Text

def zeroDigits (k : Nat) : List Char := List.replicate k '0'

def pointed (ds : List Char) (place : Int) : List Char :=
  if place ≤ 0 then '0' :: '.' :: (zeroDigits (-place).toNat ++ ds)
  else if ds.length ≤ place.toNat then ds ++ zeroDigits (place.toNat - ds.length)
  else ds.take place.toNat ++ '.' :: ds.drop place.toNat

def exponentText (e : Int) : List Char :=
  'E' :: (if e < 0 then '-' else '+') :: digitsOf e.natAbs

namespace Decimal

def isPlain (d : Decimal) : Bool := d.exp ≤ 0 && -6 ≤ d.adjusted

def magnitudeChars (d : Decimal) : List Char :=
  let ds := digitsOf d.coeff
  if d.isPlain then pointed ds (d.exp + ds.length)
  else pointed ds 1 ++ exponentText d.adjusted

def chars (d : Decimal) : List Char :=
  if d.negative then '-' :: d.magnitudeChars else d.magnitudeChars

def text (d : Decimal) : String := String.ofList d.chars

end Decimal

namespace Number

def payloadText (p : Nat) : String := if p = 0 then "" else String.ofList (digitsOf p)

def text : Number → String
  | .finite d => d.text
  | .infinite s => if s then "-Infinity" else "Infinity"
  | .nan s signaling p =>
    (if s then "-" else "") ++ (if signaling then "sNaN" else "NaN") ++ payloadText p

end Number
end BomEngine
