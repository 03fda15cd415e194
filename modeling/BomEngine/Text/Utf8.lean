/-!
# UTF-8

Letters as bytes and bytes as letters. Reading refuses what is no shortest form
and what is beyond the last code point. The code of a lone surrogate is read as
the replacement sign.
-/

set_option autoImplicit false

namespace BomEngine.Text

def utf8 (c : Char) : List Nat :=
  let n := c.toNat
  if n < 0x80 then [n]
  else if n < 0x800 then [0xc0 + n / 0x40, 0x80 + n % 0x40]
  else if n < 0x10000 then [0xe0 + n / 0x1000, 0x80 + n / 0x40 % 0x40, 0x80 + n % 0x40]
  else [0xf0 + n / 0x40000, 0x80 + n / 0x1000 % 0x40, 0x80 + n / 0x40 % 0x40, 0x80 + n % 0x40]

def tailBits? (b : Nat) : Option Nat := if 0x80 ≤ b ∧ b < 0xc0 then some (b - 0x80) else none

/-- A letter of a form that must not be shorter than `least`. -/
def letter? (least n : Nat) : Option Char :=
  if n < least ∨ 0x10ffff < n then none
  else if 0xd800 ≤ n ∧ n < 0xe000 then some (Char.ofNat 0xfffd)
  else some (Char.ofNat n)

def headLetter? : List Nat → Option (Char × List Nat)
  | a :: rest =>
    if a < 0x80 then some (Char.ofNat a, rest)
    else if a < 0xc0 then none
    else
      match rest with
      | b :: rest =>
        if a < 0xe0 then do
          return (← letter? 0x80 ((a - 0xc0) * 0x40 + (← tailBits? b)), rest)
        else
          match rest with
          | c :: rest =>
            if a < 0xf0 then do
              return (← letter? 0x800
                ((a - 0xe0) * 0x1000 + (← tailBits? b) * 0x40 + (← tailBits? c)), rest)
            else
              match rest with
              | d :: rest => do
                return (← letter? 0x10000 ((a - 0xf0) * 0x40000 + (← tailBits? b) * 0x1000
                  + (← tailBits? c) * 0x40 + (← tailBits? d)), rest)
              | [] => none
          | [] => none
      | [] => none
  | [] => none

def lettersFrom : Nat → List Nat → Option (List Char)
  | _, [] => some []
  | 0, _ => none
  | fuel + 1, bytes =>
    match headLetter? bytes with
    | some (c, rest) => (lettersFrom fuel rest).map (c :: ·)
    | none => none

def ofUtf8? (bytes : List Nat) : Option (List Char) := lettersFrom bytes.length bytes

end BomEngine.Text
