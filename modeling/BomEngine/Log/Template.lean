import BomEngine.Failure

/-!
# Message templates

A template is a text with places for values. A place begins with a percent sign;
two of them stand for one. Between it and the letter that says how the value is
written there may be a name in brackets, flags, a width and a number of decimal
places. Values are taken in turn, or by name from an object. Every value has to be
used, and every place needs one.
-/

set_option autoImplicit false

namespace BomEngine.Template

open Text

structure Style where
  left : Bool
  plus : Bool
  blank : Bool
  alternate : Bool
  zero : Bool
  width : Nat
  places : Option Nat
  deriving DecidableEq, Repr

def isFlag (c : Char) : Bool := c = '-' || c = '+' || c = ' ' || c = '#' || c = '0'

def Style.ofFlags (flags : List Char) : Style :=
  ⟨flags.contains '-', flags.contains '+', flags.contains ' ', flags.contains '#',
    flags.contains '0', 0, none⟩

inductive Supply where
  | places (rest : List Json)
  | single (j : Json) (used : Bool)

structure Values where
  named : Option (List (String × Json))
  supply : Supply

/-- A list of one object that is not empty is the object itself. -/
def Values.ofArgs : List Json → Values
  | [.obj (f :: fs)] => ⟨some (f :: fs), .single (.obj (f :: fs)) false⟩
  | args => ⟨none, .places args⟩

def Values.next (v : Values) : Result (Json × Values) :=
  match v.supply with
  | .places (j :: rest) => .ok (j, { v with supply := .places rest })
  | .single j false => .ok (j, { v with supply := .single j true })
  | _ => .error .wrongArguments

def Values.choose (v : Values) (name : String) : Result Values :=
  match v.named with
  | none => .error .wrongArguments
  | some fields =>
    match fields.lookup name with
    | some j => .ok { v with supply := .single j false }
    | none => .error .unknownName

def Values.isUsedUp (v : Values) : Bool :=
  match v.supply with
  | .places (_ :: _) => false
  | _ => true

structure Parts where
  sign : List Char
  mark : List Char
  body : List Char

def signOf (s : Style) (negative : Bool) : List Char :=
  if negative then ['-'] else if s.plus then ['+'] else if s.blank then [' '] else []

def padLeft (c : Char) (width : Nat) (cs : List Char) : List Char :=
  List.replicate (width - cs.length) c ++ cs

def spaces (n : Nat) : List Char := List.replicate n ' '

def Parts.laidOut (s : Style) (zero : Bool) (p : Parts) : List Char :=
  let gap := s.width - (p.sign.length + p.mark.length + p.body.length)
  if s.left then p.sign ++ p.mark ++ p.body ++ spaces gap
  else if zero then p.sign ++ p.mark ++ List.replicate gap '0' ++ p.body
  else spaces gap ++ p.sign ++ p.mark ++ p.body

def digitsIn (base : Nat) : Nat → Nat → List Char → List Char
  | 0, _, tail => tail
  | fuel + 1, n, tail =>
    let tail := hexDigit (n % base) :: tail
    if n < base then tail else digitsIn base fuel (n / base) tail

def inBase (base n : Nat) : List Char := digitsIn base (n.log2 + 1) n []

/-- The integer that a value is. A fraction is cut off only where that is `allowed`. -/
def integerOf (allowed : Bool) : Json → Result Int
  | .int n => .ok n
  | .bool b => .ok (if b then 1 else 0)
  | .double x =>
    if !allowed then .error .wrongArguments
    else if x.isNaN then .error .badValue
    else if !x.isFinite then .error .tooLarge
    else .ok x.truncate
  | _ => .error .wrongArguments

def integerParts (s : Style) (kind : Char) (n : Int) : Parts :=
  let base := if kind = 'x' ∨ kind = 'X' then 16 else if kind = 'o' then 8 else 10
  let digits := padLeft '0' (s.places.getD 0) (inBase base n.natAbs)
  { sign := signOf s (decide (n < 0))
    mark := if s.alternate && base != 10 then ['0', kind] else []
    body := if kind = 'X' then digits.map Char.toUpper else digits }

def doubleOf : Json → Result Binary64
  | .double x => .ok x
  | .bool b => .ok (Binary64.ofDecimal (Decimal.ofInt (if b then 1 else 0)))
  | .int n =>
    let x := Binary64.ofDecimal (Decimal.ofInt n)
    if x.isFinite then .ok x else .error .tooLarge
  | _ => .error .wrongArguments

/-- `n · 10 ^ e` as an integer number of units `10 ^ unit`, rounded to even. -/
def inUnits (n : Nat) (e unit : Int) : Nat :=
  if unit ≤ e then scale n (e - unit).toNat else Decimal.dropDigits .halfEven n (unit - e).toNat

def pointFor (s : Style) (places : Nat) : List Char :=
  if places = 0 && !s.alternate then [] else ['.']

def fixedText (s : Style) (places n : Nat) (e : Int) : List Char :=
  let ds := padLeft '0' (places + 1) (digitsOf (inUnits n e (-(places : Int))))
  ds.take (ds.length - places) ++ pointFor s places ++ ds.drop (ds.length - places)

def leading (count n : Nat) (e : Int) : List Char × Int :=
  if n = 0 then (List.replicate count '0', 0)
  else
    let top := e + digitCount n - 1
    let kept := inUnits n e (top + 1 - count)
    if digitCount kept ≤ count then (digitsOf kept, top) else (digitsOf (kept / 10), top + 1)

def exponentText (e : Int) : List Char :=
  'e' :: (if e < 0 then '-' else '+') :: padLeft '0' 2 (digitsOf e.natAbs)

def scientificText (s : Style) (places n : Nat) (e : Int) : List Char :=
  let (ds, top) := leading (places + 1) n e
  ds.take 1 ++ pointFor s places ++ ds.drop 1 ++ exponentText top

def withoutZeros (cs : List Char) : List Char :=
  if cs.contains '.' then
    let kept := cs.reverse.dropWhile (· = '0')
    (if kept.head? = some '.' then kept.drop 1 else kept).reverse
  else cs

def generalText (s : Style) (count n : Nat) (e : Int) : List Char :=
  let count := max count 1
  let (ds, top) := leading count n e
  let trimmed := fun (cs : List Char) => if s.alternate then cs else withoutZeros cs
  if -4 ≤ top ∧ top < count then
    trimmed (fixedText s (count - 1 - top).toNat (valueOf (ds.filterMap plainDigit?))
      (top + 1 - count))
  else
    trimmed (ds.take 1 ++ pointFor s (count - 1) ++ ds.drop 1) ++ exponentText top

def doubleParts (s : Style) (kind : Char) (x : Binary64) : Parts :=
  let places := s.places.getD 6
  let body :=
    match x.toNumber with
    | .nan .. => "nan".toList
    | .infinite _ => "inf".toList
    | .finite d =>
      match kind.toLower with
      | 'f' => fixedText s places d.coeff d.exp
      | 'e' => scientificText s places d.coeff d.exp
      | _ => generalText s places d.coeff d.exp
  { sign := signOf s (x.negative && !x.isNaN)
    mark := []
    body := if kind.isUpper then body.map Char.toUpper else body }

def plainText (cs : List Char) : List Char :=
  cs.flatMap fun c => if c.toNat < 128 then [c] else byNumber c.toNat

def cutTo (s : Style) (cs : List Char) : List Char :=
  match s.places with
  | some n => cs.take n
  | none => cs

def textParts (cs : List Char) : Parts := ⟨[], [], cs⟩

/-- The sign that a value is: a text of one letter, or a number of one. -/
def signParts : Json → Result Parts
  | .str s =>
    match s.toList with
    | [c] => .ok (textParts [c])
    | _ => .error .wrongArguments
  | .int n => if 0 ≤ n ∧ n < 0x110000 then .ok (textParts [Char.ofNat n.toNat]) else .error .tooLarge
  | .bool b => .ok (textParts [Char.ofNat (if b then 1 else 0)])
  | _ => .error .wrongArguments

def written (s : Style) (kind : Char) (j : Json) : Result (List Char) :=
  let flat := { s with plus := false, blank := false }
  match kind with
  | 's' => .ok ((textParts (cutTo s j.shown.toList)).laidOut flat false)
  | 'r' => .ok ((textParts (cutTo s j.inner)).laidOut flat false)
  | 'a' => .ok ((textParts (cutTo s (plainText j.inner))).laidOut flat false)
  | 'c' => (signParts j).map (Parts.laidOut flat false)
  | 'd' | 'i' | 'u' => (integerOf true j).map fun n => (integerParts s 'd' n).laidOut s s.zero
  | 'o' | 'x' | 'X' => (integerOf false j).map fun n => (integerParts s kind n).laidOut s s.zero
  | 'e' | 'E' | 'f' | 'F' | 'g' | 'G' =>
    (doubleOf j).map fun x => (doubleParts s kind x).laidOut s s.zero
  | _ => .error .badValue

def nameFrom : Nat → List Char → Option (List Char × List Char)
  | _, [] => none
  | depth, ')' :: rest =>
    match depth with
    | 0 => some ([], rest)
    | d + 1 => (nameFrom d rest).map fun r => (')' :: r.1, r.2)
  | depth, '(' :: rest => (nameFrom (depth + 1) rest).map fun r => ('(' :: r.1, r.2)
  | depth, c :: rest => (nameFrom depth rest).map fun r => (c :: r.1, r.2)

def readName (v : Values) : List Char → Result (Values × List Char)
  | '(' :: rest =>
    if v.named.isNone then .error .wrongArguments
    else
      match nameFrom 0 rest with
      | none => .error .badValue
      | some (name, rest) => (v.choose (String.ofList name)).map fun v => (v, rest)
  | cs => .ok (v, cs)

def widthBound : Nat := 9223372036854775808

def placesBound : Nat := 2147483648

def starValue (limit : Int) (v : Values) : Result (Int × Values) := do
  let (j, v) ← v.next
  match j with
  | .int n => if -limit ≤ n ∧ n < limit then return (n, v) else throw .tooLarge
  | .bool b => return (if b then 1 else 0, v)
  | _ => throw .wrongArguments

def readNumber (cs : List Char) : Nat × List Char :=
  (valueOf ((cs.takeWhile Char.isDigit).filterMap plainDigit?), cs.dropWhile Char.isDigit)

def readWidth (s : Style) (v : Values) (cs : List Char) : Result (Style × Values × List Char) :=
  match cs with
  | '*' :: rest => do
    let (n, v) ← starValue widthBound v
    return ({ s with width := n.natAbs, left := s.left || decide (n < 0) }, v, rest)
  | cs =>
    let (n, rest) := readNumber cs
    if n < widthBound then .ok ({ s with width := n }, v, rest) else .error .badValue

def readPlaces (s : Style) (v : Values) (cs : List Char) : Result (Style × Values × List Char) :=
  match cs with
  | '.' :: '*' :: rest => do
    let (n, v) ← starValue placesBound v
    return ({ s with places := some n.toNat }, v, rest)
  | '.' :: rest =>
    let (n, rest) := readNumber rest
    if n < placesBound then .ok ({ s with places := some n }, v, rest) else .error .badValue
  | cs => .ok (s, v, cs)

def skipLength : List Char → List Char
  | 'h' :: rest | 'l' :: rest | 'L' :: rest => rest
  | cs => cs

def place (v : Values) (cs : List Char) : Result (List Char × Values × List Char) := do
  let (v, cs) ← readName v cs
  let style := Style.ofFlags (cs.takeWhile isFlag)
  let (style, v, cs) ← readWidth style v (cs.dropWhile isFlag)
  let (style, v, cs) ← readPlaces style v cs
  match skipLength cs with
  | [] => throw .badValue
  | kind :: rest => do
    let (j, v) ← v.next
    return (← written style kind j, v, rest)

def fillFrom : Nat → Values → List Char → Result (List Char)
  | _, v, [] => if v.isUsedUp then .ok [] else .error .wrongArguments
  | 0, _, _ => .error .badValue
  | fuel + 1, v, '%' :: '%' :: rest => return '%' :: (← fillFrom fuel v rest)
  | fuel + 1, v, '%' :: rest => do
    let (done, v, rest) ← place v rest
    return done ++ (← fillFrom fuel v rest)
  | fuel + 1, v, c :: rest => return c :: (← fillFrom fuel v rest)

/-- A template with values in its places. Without any values it stays as it is. -/
def fill (template : String) (args : List Json) : Result String :=
  if args.isEmpty then .ok template
  else (fillFrom template.length (Values.ofArgs args) template.toList).map String.ofList

end BomEngine.Template
