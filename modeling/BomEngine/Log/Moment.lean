import BomEngine.Failure

/-!
# Moments

Seconds since the beginning of 1970 as a date and a time of day in UTC, with
millionths of a second where there are any. Years have four digits.
-/

set_option autoImplicit false

namespace BomEngine.Moment

open Text

structure Span where
  seconds : Int
  millionths : Nat
  deriving DecidableEq, Repr

def Span.ofDouble (x : Binary64) : Span :=
  let part := Binary64.ofRatio false (x.above % x.below * 1000000) x.below
  let whole : Int := Decimal.signed x.negative (x.above / x.below)
  let millionths : Int := Decimal.signed x.negative (Binary64.roundQuotient part.above part.below)
  ⟨whole + Int.fdiv millionths 1000000, (Int.fmod millionths 1000000).toNat⟩

structure Date where
  year : Int
  month : Nat
  day : Nat
  deriving DecidableEq, Repr

/-- The date so many days after the first of January 1970. Years are counted from
March, so that the odd day of a leap year is the last. -/
def Date.ofDays (days : Int) : Date :=
  let n := days + 719468
  let era := Int.fdiv n 146097
  let dayOfEra := (n - era * 146097).toNat
  let yearOfEra := (dayOfEra - dayOfEra / 1460 + dayOfEra / 36524 - dayOfEra / 146096) / 365
  let dayOfYear := dayOfEra - (365 * yearOfEra + yearOfEra / 4 - yearOfEra / 100)
  let shifted := (5 * dayOfYear + 2) / 153
  let month := if shifted < 10 then shifted + 3 else shifted - 9
  ⟨era * 400 + yearOfEra + (if month ≤ 2 then 1 else 0), month,
    dayOfYear - (153 * shifted + 2) / 5 + 1⟩

def padded (width n : Nat) : String :=
  let ds := digitsOf n
  String.ofList (List.replicate (width - ds.length) '0' ++ ds)

def Date.text (d : Date) : String :=
  padded 4 d.year.toNat ++ "-" ++ padded 2 d.month ++ "-" ++ padded 2 d.day

def clockText (second : Nat) : String :=
  padded 2 (second / 3600) ++ ":" ++ padded 2 (second / 60 % 60) ++ ":" ++ padded 2 (second % 60)

/-- Date and time of a span; years before 1 and after 9999 have none. -/
def Span.text? (s : Span) : Option String :=
  let date := Date.ofDays (Int.fdiv s.seconds 86400)
  if 1 ≤ date.year ∧ date.year ≤ 9999 then
    some (date.text ++ "T" ++ clockText (Int.fmod s.seconds 86400).toNat
      ++ (if s.millionths = 0 then "" else "." ++ padded 6 s.millionths) ++ "+00:00")
  else none

def spanOf? : Json → Option Span
  | .int n => some ⟨n, 0⟩
  | .bool b => some ⟨if b then 1 else 0, 0⟩
  | .double x => if x.isFinite then some (Span.ofDouble x) else none
  | _ => none

def text (seconds : Json) : Result String :=
  match (spanOf? seconds).bind Span.text? with
  | some s => .ok s
  | none => .error .badValue

end BomEngine.Moment
