import BomEngine.Json.Basic
import BomEngine.Text.Digit

/-!
# Reading JSON

A reader that also accepts the words for infinities and for no number, as long
as they stand alone as values. A number with a fraction or an exponent is a
double, any other is an integer of at most 4300 digits. Where reading stops, the
error tells how many letters stand before that place.
-/

set_option autoImplicit false

namespace BomEngine.Json

open Text

/-- Why a text is no JSON: something unexpected with `left` letters to go, or an
integer that is too long. -/
inductive Stop where
  | unexpected (left : Nat)
  | tooLong
  deriving DecidableEq, Repr

abbrev Read (α : Type) := Except Stop (α × List Char)

def stopAt {α : Type} (cs : List Char) : Read α := .error (.unexpected cs.length)

def isSpace (c : Char) : Bool := c = ' ' || c = '\t' || c = '\n' || c = '\r'

def skipSpace (cs : List Char) : List Char := cs.dropWhile isSpace

def hexValue? (c : Char) : Option Nat :=
  if '0' ≤ c ∧ c ≤ '9' then some (c.toNat - 48)
  else if 'a' ≤ c ∧ c ≤ 'f' then some (c.toNat - 87)
  else if 'A' ≤ c ∧ c ≤ 'F' then some (c.toNat - 55)
  else none

/-- The four hexadecimal digits after a `u`. At least one more letter must follow.
Where they are wrong, reading stops at the `u`. -/
def unit (cs : List Char) : Read Nat :=
  let stop := Except.error (Stop.unexpected (cs.length + 1))
  match cs with
  | a :: b :: c :: d :: e :: rest =>
    match hexValue? a, hexValue? b, hexValue? c, hexValue? d with
    | some a, some b, some c, some d => .ok (((a * 16 + b) * 16 + c) * 16 + d, e :: rest)
    | _, _, _, _ => stop
  | _ => stop

/-- A letter written by number; a high surrogate takes a low one that follows. A
surrogate left alone becomes the replacement sign. -/
def numbered (cs : List Char) : Read Char :=
  match unit cs with
  | .error e => .error e
  | .ok (n, rest) =>
    if 0xd800 ≤ n ∧ n < 0xdc00 ∧ 6 < rest.length then
      match rest with
      | '\\' :: 'u' :: after =>
        match unit after with
        | .error e => .error e
        | .ok (m, last) =>
          if 0xdc00 ≤ m ∧ m < 0xe000 then
            .ok (Char.ofNat (0x10000 + (n - 0xd800) * 0x400 + (m - 0xdc00)), last)
          else .ok (Char.ofNat 0xfffd, rest)
      | _ => .ok (Char.ofNat 0xfffd, rest)
    else .ok (if 0xd800 ≤ n ∧ n < 0xe000 then Char.ofNat 0xfffd else Char.ofNat n, rest)

def simpleEscape? (c : Char) : Option Char :=
  match c with
  | '"' => some '"'
  | '\\' => some '\\'
  | '/' => some '/'
  | 'b' => some (Char.ofNat 8)
  | 'f' => some (Char.ofNat 12)
  | 'n' => some '\n'
  | 'r' => some '\r'
  | 't' => some '\t'
  | _ => none

/-- The rest of a string whose opening quote had `opening` letters to go. The
letters read so far are given last first. -/
def stringFrom (opening : Nat) : Nat → List Char → List Char → Read (List Char)
  | 0, _, _ => .error (.unexpected opening)
  | fuel + 1, done, cs =>
    match cs with
    | [] => .error (.unexpected opening)
    | '"' :: rest => .ok (done.reverse, rest)
    | '\\' :: rest =>
      match rest with
      | [] => .error (.unexpected opening)
      | 'u' :: after =>
        match numbered after with
        | .error e => .error e
        | .ok (c, last) => stringFrom opening fuel (c :: done) last
      | c :: after =>
        match simpleEscape? c with
        | none => stopAt cs
        | some c => stringFrom opening fuel (c :: done) after
    | c :: rest =>
      if c.toNat < 32 then stopAt cs else stringFrom opening fuel (c :: done) rest

def string (cs : List Char) : Read String :=
  (stringFrom (cs.length + 1) (cs.length + 1) [] cs).map fun r => (String.ofList r.1, r.2)

def plainDigits : List Char → List Nat × List Char
  | [] => ([], [])
  | c :: rest =>
    match plainDigit? c with
    | some d => let (ds, r) := plainDigits rest; (d :: ds, r)
    | none => ([], c :: rest)

def fractionPart (cs : List Char) : List Nat × List Char :=
  match cs with
  | '.' :: rest =>
    match plainDigits rest with
    | ([], _) => ([], cs)
    | r => r
  | _ => ([], cs)

def exponentPart (cs : List Char) : Option Int × List Char :=
  match cs with
  | c :: rest =>
    if c = 'e' ∨ c = 'E' then
      let (negative, after) : Bool × List Char :=
        match rest with
        | '-' :: after => (true, after)
        | '+' :: after => (false, after)
        | after => (false, after)
      match plainDigits after with
      | ([], _) => (none, cs)
      | (ds, last) => (some (Decimal.signed negative (valueOf ds)), last)
    else (none, cs)
  | [] => (none, cs)

/-- A number whose sign has been read. `start` is where to stop if there is none. -/
def number (start : List Char) (negative : Bool) (cs : List Char) : Read Json :=
  let whole : List Nat × List Char :=
    match cs with
    | '0' :: rest => ([0], rest)
    | cs => plainDigits cs
  if whole.1.isEmpty then stopAt start
  else
    let (part, rest) := fractionPart whole.2
    let (e, rest) := exponentPart rest
    if part.isEmpty && e.isNone then
      if integerLimit < whole.1.length then .error .tooLong
      else .ok (.int (Decimal.signed negative (valueOf whole.1)), rest)
    else
      let d : Decimal := ⟨negative, valueOf (whole.1 ++ part), e.getD 0 - part.length⟩
      .ok (.double (Binary64.ofDecimal d), rest)

def afterWord? : List Char → List Char → Option (List Char)
  | [], cs => some cs
  | w :: ws, c :: cs => if w = c then afterWord? ws cs else none
  | _ :: _, [] => none

def words : List (String × Json) :=
  [("null", .null), ("true", .bool true), ("false", .bool false), ("NaN", .double Binary64.nan),
   ("Infinity", .double (Binary64.infinity false)), ("-Infinity", .double (Binary64.infinity true))]

def word? (cs : List Char) : Option (Json × List Char) :=
  words.findSome? fun w => (afterWord? w.1.toList cs).map fun rest => (w.2, rest)

def scalar (cs : List Char) : Read Json :=
  match word? cs with
  | some r => .ok r
  | none =>
    match cs with
    | '-' :: rest => number cs true rest
    | _ => number cs false cs

mutual

/-- A value at the front. The fuel bounds the number of values and is never used
up when it is the number of letters. -/
def value : Nat → List Char → Read Json
  | 0, cs => stopAt cs
  | fuel + 1, cs =>
    match cs with
    | '"' :: rest => (string rest).map fun r => (.str r.1, r.2)
    | '[' :: rest =>
      match skipSpace rest with
      | ']' :: last => .ok (.arr [], last)
      | rest => (items fuel rest).map fun r => (.arr r.1, r.2)
    | '\x7b' :: rest =>
      match skipSpace rest with
      | '\x7d' :: last => .ok (.obj [], last)
      | rest => (fields fuel [] rest).map fun r => (.obj r.1, r.2)
    | cs => scalar cs

def items : Nat → List Char → Read (List Json)
  | 0, cs => stopAt cs
  | fuel + 1, cs =>
    match value fuel cs with
    | .error e => .error e
    | .ok (j, rest) =>
      match skipSpace rest with
      | ']' :: last => .ok ([j], last)
      | ',' :: after => (items fuel (skipSpace after)).map fun r => (j :: r.1, r.2)
      | rest => stopAt rest

def fields : Nat → List (String × Json) → List Char → Read (List (String × Json))
  | 0, _, cs => stopAt cs
  | fuel + 1, done, cs =>
    match cs with
    | '"' :: rest =>
      match string rest with
      | .error e => .error e
      | .ok (name, rest) =>
        match skipSpace rest with
        | ':' :: after =>
          match value fuel (skipSpace after) with
          | .error e => .error e
          | .ok (j, rest) =>
            let done := putEntry name j done
            match skipSpace rest with
            | '\x7d' :: last => .ok (done, last)
            | ',' :: after => fields fuel done (skipSpace after)
            | rest => stopAt rest
        | rest => stopAt rest
    | cs => stopAt cs

end

inductive ReadError where
  | unexpectedAt (offset : Nat)
  | integerTooLong
  deriving DecidableEq, Repr

def located {α : Type} (total : Nat) : Except Stop α → Except ReadError α
  | .ok a => .ok a
  | .error (.unexpected left) => .error (.unexpectedAt (total - left))
  | .error .tooLong => .error .integerTooLong

def wholeValue (cs : List Char) : Except Stop Json :=
  match value (2 * cs.length + 1) (skipSpace cs) with
  | .error e => .error e
  | .ok (j, rest) =>
    match skipSpace rest with
    | [] => .ok j
    | rest => .error (.unexpected rest.length)

def ofChars (cs : List Char) : Except ReadError Json := located cs.length (wholeValue cs)

def ofText (s : String) : Except ReadError Json := ofChars s.toList

end BomEngine.Json
