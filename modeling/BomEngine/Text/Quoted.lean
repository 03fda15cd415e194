import BomEngine.Text.PrintableTable

/-!
# Quoted text

A text between quotes: single ones unless the text holds a single quote and no
double one. Backslash, the chosen quote and the line signs are escaped; other
hidden signs are written by number with the fewest of two, four or eight digits.
-/

set_option autoImplicit false

namespace BomEngine.Text

def hexDigit (d : Nat) : Char :=
  if d < 10 then Char.ofNat (48 + d) else Char.ofNat (87 + d)

def hexOf : Nat → Nat → List Char
  | 0, _ => []
  | width + 1, n => hexOf width (n / 16) ++ [hexDigit (n % 16)]

def byNumber (n : Nat) : List Char :=
  if n < 0x100 then '\\' :: 'x' :: hexOf 2 n
  else if n < 0x10000 then '\\' :: 'u' :: hexOf 4 n
  else '\\' :: 'U' :: hexOf 8 n

def quotedChar (quote c : Char) : List Char :=
  if c = quote ∨ c = '\\' then ['\\', c]
  else if c = '\t' then ['\\', 't']
  else if c = '\n' then ['\\', 'n']
  else if c = '\r' then ['\\', 'r']
  else if isShown c then [c]
  else byNumber c.toNat

def quoteFor (cs : List Char) : Char :=
  if cs.contains '\'' && !cs.contains '"' then '"' else '\''

def quoted (cs : List Char) : List Char :=
  let q := quoteFor cs
  q :: (cs.flatMap (quotedChar q) ++ [q])

end BomEngine.Text
