import BomEngine.Decimal.Number
import BomEngine.Text.Blank
import BomEngine.Text.Digit

/-!
# Reading decimals

A number text is trimmed, loses its underscores, and may use the decimal digits
of any script. What is left is an optional sign, then digits with at most one
point and an optional exponent, or one of the words for an infinity and for no
number. Reading is exact; only exponents near a quintillion are refused.
-/

set_option autoImplicit false

namespace BomEngine.Number

open Text

/-- One sign of a number text: digits of any script become plain ones, and other
signs outside ASCII fit nowhere. -/
def plainSign? (c : Char) : Option Char :=
  if c.toNat < 128 then some c
  else (digitValue? c).map digitChar

def plainSigns? (cs : List Char) : Option (List Char) :=
  ((trimBoth isBlank cs).filter (· != '_')).mapM plainSign?

def digitRun (cs : List Char) : List Nat × List Char :=
  match cs with
  | c :: rest =>
    match plainDigit? c with
    | some d => let (ds, r) := digitRun rest; (d :: ds, r)
    | none => ([], c :: rest)
  | [] => ([], [])

def splitSign : List Char → Bool × List Char
  | '-' :: rest => (true, rest)
  | '+' :: rest => (false, rest)
  | cs => (false, cs)

def allDigits? (cs : List Char) : Option Nat :=
  match digitRun cs with
  | (d :: ds, []) => some (valueOf (d :: ds))
  | _ => none

def exponentOf? : List Char → Option Int
  | [] => some 0
  | c :: rest =>
    if c = 'e' ∨ c = 'E' then
      let (negative, ds) := splitSign rest
      (allDigits? ds).map (Decimal.signed negative)
    else none

def largestExponent : Int := 999999999999999999

/-- Whether a decimal can be held exactly. -/
def representable (d : Decimal) : Bool :=
  -2 * largestExponent + 1 ≤ d.exp &&
    (if d.isZero then d.exp ≤ largestExponent else d.adjusted ≤ largestExponent)

def unsigned? (negative : Bool) (cs : List Char) : Option Number :=
  let (whole, rest) := digitRun cs
  let (part, rest) :=
    match rest with
    | '.' :: rest => digitRun rest
    | rest => ([], rest)
  if whole.isEmpty && part.isEmpty then none
  else
    match exponentOf? rest with
    | none => none
    | some e =>
      let d : Decimal := ⟨negative, valueOf (whole ++ part), e - part.length⟩
      if representable d then some (.finite d) else none

def payload? (cs : List Char) : Option Nat :=
  if cs.isEmpty then some 0 else allDigits? cs

def special? (negative : Bool) (cs : List Char) : Option Number :=
  match cs.map Char.toLower with
  | 'i' :: 'n' :: 'f' :: rest =>
    if rest = [] ∨ rest = "inity".toList then some (.infinite negative) else none
  | 'n' :: 'a' :: 'n' :: rest => (payload? rest).map (.nan negative false)
  | 's' :: 'n' :: 'a' :: 'n' :: rest => (payload? rest).map (.nan negative true)
  | _ => none

def ofChars? (cs : List Char) : Option Number :=
  match plainSigns? cs with
  | none => none
  | some ps =>
    let (negative, rest) := splitSign ps
    match special? negative rest with
    | some n => some n
    | none => unsigned? negative rest

def ofText? (s : String) : Option Number := ofChars? s.toList

end BomEngine.Number
