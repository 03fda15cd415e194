import BomEngine.Json.Basic
import BomEngine.Decimal.Reader
import BomEngine.Text.Quoted

/-!
# Texts of JSON values

Two texts. `Json.write` is JSON in ASCII with a blank after commas and colons.
`Json.shown` is how a value appears inside a message: a text as it is, and
everything else in a notation that quotes the texts inside lists and objects.
-/

set_option autoImplicit false

namespace BomEngine.Json

open Text

def unitEscape (n : Nat) : List Char := '\\' :: 'u' :: hexOf 4 n

/-- A code point beyond 16 bits is written as its two surrogates. -/
def numberEscape (n : Nat) : List Char :=
  if n < 0x10000 then unitEscape n
  else unitEscape (0xd800 + (n - 0x10000) / 0x400) ++ unitEscape (0xdc00 + (n - 0x10000) % 0x400)

def escapedChar (c : Char) : List Char :=
  if c = '"' then ['\\', '"']
  else if c = '\\' then ['\\', '\\']
  else if c = '\n' then ['\\', 'n']
  else if c = '\r' then ['\\', 'r']
  else if c = '\t' then ['\\', 't']
  else if c = Char.ofNat 8 then ['\\', 'b']
  else if c = Char.ofNat 12 then ['\\', 'f']
  else if ' ' ≤ c ∧ c ≤ '~' then [c]
  else numberEscape c.toNat

def writeString (s : String) : List Char :=
  '"' :: (s.toList.flatMap escapedChar ++ ['"'])

def writeDouble (x : Binary64) : List Char :=
  if x.isNaN then "NaN".toList
  else if !x.isFinite then if x.negative then "-Infinity".toList else "Infinity".toList
  else x.chars

def bracketed (opening closing : Char) (items : List (List Char)) : List Char :=
  opening :: (List.intercalate [',', ' '] items ++ [closing])

mutual

def write : Json → List Char
  | .null => "null".toList
  | .bool b => if b then "true".toList else "false".toList
  | .int n => intText n
  | .double x => writeDouble x
  | .str s => writeString s
  | .arr items => bracketed '[' ']' (writeItems items)
  | .obj fields => bracketed '\x7b' '\x7d' (writeFields fields)

def writeItems : List Json → List (List Char)
  | [] => []
  | j :: rest => write j :: writeItems rest

def writeFields : List (String × Json) → List (List Char)
  | [] => []
  | (k, j) :: rest => (writeString k ++ ':' :: ' ' :: write j) :: writeFields rest

end

def text (j : Json) : String := String.ofList j.write

mutual

def inner : Json → List Char
  | .null => "None".toList
  | .bool b => if b then "True".toList else "False".toList
  | .int n => intText n
  | .double x => x.chars
  | .str s => quoted s.toList
  | .arr items => bracketed '[' ']' (innerItems items)
  | .obj fields => bracketed '\x7b' '\x7d' (innerFields fields)

def innerItems : List Json → List (List Char)
  | [] => []
  | j :: rest => inner j :: innerItems rest

def innerFields : List (String × Json) → List (List Char)
  | [] => []
  | (k, j) :: rest => (quoted k.toList ++ ':' :: ' ' :: inner j) :: innerFields rest

end

def shown : Json → String
  | .str s => s
  | j => String.ofList j.inner

mutual

/-- Whether a value can be written out: no integer in it has too many digits. -/
def isShowable : Json → Bool
  | .int n => digitCount n.natAbs ≤ integerLimit
  | .arr items => itemsShowable items
  | .obj fields => fieldsShowable fields
  | _ => true

def itemsShowable : List Json → Bool
  | [] => true
  | j :: rest => isShowable j && itemsShowable rest

def fieldsShowable : List (String × Json) → Bool
  | [] => true
  | (_, j) :: rest => isShowable j && fieldsShowable rest

end

def number? (j : Json) : Option Number := Number.ofText? j.shown

end BomEngine.Json
