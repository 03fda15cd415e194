import BomEngine.Schema.Verdict
import BomEngine.Text.Casing

/-!
# Checks of single values

Texts are only texts. Numbers may also come as texts: decimals in any number
text, integers in plain digits with single underscores between them and possibly
a fraction of zeros. Truth values may come as the numbers 0 and 1 or as words.
-/

set_option autoImplicit false

namespace BomEngine.Check

open Text

def text : Check String
  | .str s => .accepted s
  | _ => .flaw .textExpected

def nonempty : Check String :=
  text.demand fun s => if s.isEmpty then some .textTooShort else none

def numberOfText (s : String) : Verdict Number :=
  match Number.ofText? s with
  | some n => .accepted n
  | none => .flaw .decimalUnreadable

def finite : Number → Verdict Decimal
  | .finite d => .accepted d
  | _ => .flaw .notFinite

def finiteOf : Verdict Number → Verdict Decimal
  | .accepted n => finite n
  | .refused flaws => .refused flaws
  | .broken => .broken

/-- A finite decimal: an integer, a double through its text, or a number text. -/
def decimal : Check Decimal
  | .int n => .accepted (Decimal.ofInt n)
  | .double x => finiteOf (numberOfText x.text)
  | .str s => finiteOf (numberOfText s)
  | _ => .flaw .decimalExpected

def positive : Check Decimal :=
  decimal.demand fun d => if d.isPositive then none else some .notAbove

def nonnegative : Check Decimal :=
  decimal.demand fun d => if d.isNegative then some .belowLeast else none

/-- Digits with single underscores between them, and what follows. `after` tells
whether a digit stands before. -/
def groupedDigits (after : Bool) : List Char → List Nat × List Char
  | [] => ([], [])
  | c :: rest =>
    match plainDigit? c with
    | some d => let (ds, r) := groupedDigits true rest; (d :: ds, r)
    | none =>
      if c = '_' ∧ after ∧ (rest.head?.bind plainDigit?).isSome then groupedDigits false rest
      else ([], c :: rest)

def isZeroFraction : List Char → Bool
  | [] => true
  | '.' :: '0' :: rest => rest.all (· == '0')
  | _ => false

def intOfText? (cs : List Char) : Option Int :=
  let (negative, rest) := Number.splitSign (trimBoth isNumberBlank cs)
  match groupedDigits false rest with
  | ([], _) => none
  | (ds, rest) => if isZeroFraction rest then some (Decimal.signed negative (valueOf ds)) else none

def intTextLimit : Nat := 4300

def wordBound : Int := 9223372036854775808

def fitsWord (n : Int) : Bool := -wordBound < n && n < wordBound

def intOfDouble (x : Binary64) : Verdict Int :=
  if !x.isFinite then .flaw .notFinite
  else
    match x.toInt? with
    | none => .flaw .intHasFraction
    | some n => if fitsWord n then .accepted n else .flaw .intTooLarge

def int : Check Int
  | .int n => .accepted n
  | .bool b => .accepted (if b then 1 else 0)
  | .double x => intOfDouble x
  | .str s =>
    if intTextLimit < s.length then .flaw .intTooLarge
    else
      match intOfText? s.toList with
      | some n => .accepted n
      | none => .flaw .intUnreadable
  | _ => .flaw .intExpected

def atLeast (least : Int) : Check Int :=
  int.demand fun n => if n < least then some .belowLeast else none

def trueWords : List String := ["1", "true", "t", "yes", "y", "on"]

def falseWords : List String := ["0", "false", "f", "no", "n", "off"]

def boolOfInt (n : Int) : Verdict Bool :=
  if n = 1 then .accepted true
  else if n = 0 then .accepted false
  else if -wordBound ≤ n ∧ n < wordBound then .flaw .boolUnreadable
  else .flaw .boolExpected

def boolOfWord (s : String) : Verdict Bool :=
  let w := String.ofList (s.toList.map Char.toLower)
  if trueWords.contains w then .accepted true
  else if falseWords.contains w then .accepted false
  else .flaw .boolUnreadable

def bool : Check Bool
  | .bool b => .accepted b
  | .int n => boolOfInt n
  | .double x =>
    match intOfDouble x with
    | .accepted n => boolOfInt n
    | _ => .flaw .boolExpected
  | .str s => boolOfWord s
  | _ => .flaw .boolExpected

def unsignedDouble? (negative : Bool) (cs : List Char) : Option Binary64 :=
  let (whole, rest) := Number.digitRun cs
  let (part, rest) :=
    match rest with
    | '.' :: rest => Number.digitRun rest
    | rest => ([], rest)
  if whole.isEmpty && part.isEmpty then none
  else (Number.exponentOf? rest).map fun e =>
    Binary64.ofDecimal ⟨negative, valueOf (whole ++ part), e - part.length⟩

def doubleOfPlain? (cs : List Char) : Option Binary64 :=
  let (negative, rest) := Number.splitSign cs
  let word := String.ofList (rest.map Char.toLower)
  if word = "inf" ∨ word = "infinity" then some (Binary64.infinity negative)
  else if word = "nan" then some Binary64.nan
  else unsignedDouble? negative rest

def pairedUnderscores : List Char → Bool
  | '_' :: '_' :: _ => true
  | _ :: rest => pairedUnderscores rest
  | [] => false

/-- The double that a text denotes. Single underscores inside are passed over if
the text is not blank at its ends. -/
def doubleOfText? (cs : List Char) : Option Binary64 :=
  match doubleOfPlain? (trimBoth isNumberBlank cs) with
  | some x => some x
  | none =>
    if cs.head? = some '_' ∨ cs.getLast? = some '_' ∨ pairedUnderscores cs then none
    else if cs.contains '_' then doubleOfPlain? (cs.filter (· != '_'))
    else none

def double : Check Binary64
  | .double x => .accepted x
  | .bool b => .accepted (Binary64.ofDecimal (Decimal.ofInt (if b then 1 else 0)))
  | .int n =>
    let x := Binary64.ofDecimal (Decimal.ofInt n)
    if x.isFinite then .accepted x else .flaw .floatExpected
  | .str s =>
    match doubleOfText? s.toList with
    | some x => .accepted x
    | none => .flaw .floatUnreadable
  | _ => .flaw .floatExpected

def positiveDouble : Check Binary64 :=
  double.demand fun x =>
    if x.isNaN || x.negative || x.isZero then some .notAbove else none

/-- The entries of an object whose names are integers. Of two names for one
integer the later entry is kept, in the place of the earlier. -/
def intKeyed {α : Type} (check : Check α) : List (String × Json) → Verdict (List (Int × α))
  | [] => .accepted []
  | (k, j) :: rest =>
    let key := match int (.str k) with
      | .refused flaws => .refused (flaws.map fun f => ⟨[.field k, .field "[key]"], f.kind⟩)
      | v => v
    (fun k a r => (k, a) :: r) <$> key <*> (check j).under (.field k) <*> intKeyed check rest

def intMapping {α : Type} (check : Check α) : Check (List (Int × α))
  | .obj fields => (intKeyed check fields).map fun es => es.foldl (fun done e => putEntry e.1 e.2 done) []
  | _ => .flaw .mappingExpected

def textKeyed {α : Type} (check : Check α) : List (String × Json) → Verdict (List (String × α))
  | [] => .accepted []
  | (k, j) :: rest => (fun a r => (k, a) :: r) <$> (check j).under (.field k) <*> textKeyed check rest

def mapping {α : Type} (check : Check α) : Check (List (String × α))
  | .obj fields => textKeyed check fields
  | _ => .flaw .mappingExpected

end BomEngine.Check
