import BomEngine.Text.Utf8

/-!
# Encodings

Bytes may hold a text in UTF-8, UTF-16 or UTF-32. A byte order mark in front tells
which, and is no part of the text. Without one, the places of zero bytes among the
first four tell it, because a text that is to be read begins with an ASCII letter.
-/

set_option autoImplicit false

namespace BomEngine.Text

inductive Encoding where
  | utf8
  | utf16 (bigEndian : Bool)
  | utf32 (bigEndian : Bool)
  deriving DecidableEq, Repr

namespace Encoding

def ofZeros : List Nat → Encoding
  | 0 :: 0 :: _ :: _ :: _ => .utf32 true
  | 0 :: _ :: _ :: _ :: _ => .utf16 true
  | _ :: 0 :: 0 :: 0 :: _ => .utf32 false
  | _ :: 0 :: _ :: _ :: _ => .utf16 false
  | [0, _] => .utf16 true
  | [_, 0] => .utf16 false
  | _ => .utf8

def detect : List Nat → Encoding × List Nat
  | 0x00 :: 0x00 :: 0xfe :: 0xff :: bytes => (.utf32 true, bytes)
  | 0xff :: 0xfe :: 0x00 :: 0x00 :: bytes => (.utf32 false, bytes)
  | 0xfe :: 0xff :: bytes => (.utf16 true, bytes)
  | 0xff :: 0xfe :: bytes => (.utf16 false, bytes)
  | 0xef :: 0xbb :: 0xbf :: bytes => (.utf8, bytes)
  | bytes => (ofZeros bytes, bytes)

def number (bigEndian : Bool) (bytes : List Nat) : Nat :=
  (if bigEndian then bytes else bytes.reverse).foldl (fun n b => 256 * n + b) 0

def units16? (bigEndian : Bool) : List Nat → Option (List Nat)
  | [] => some []
  | [_] => none
  | a :: b :: rest => (units16? bigEndian rest).map (number bigEndian [a, b] :: ·)

def units32? (bigEndian : Bool) : List Nat → Option (List Nat)
  | [] => some []
  | a :: b :: c :: d :: rest =>
    (units32? bigEndian rest).map (number bigEndian [a, b, c, d] :: ·)
  | _ => none

/-- A surrogate without its other half is read as the replacement sign. -/
def loneUnit (n : Nat) : Char :=
  if 0xd800 ≤ n ∧ n < 0xe000 then Char.ofNat 0xfffd else Char.ofNat n

def lettersOf16 : List Nat → List Char
  | [] => []
  | [n] => [loneUnit n]
  | n :: m :: rest =>
    if 0xd800 ≤ n ∧ n < 0xdc00 ∧ 0xdc00 ≤ m ∧ m < 0xe000 then
      Char.ofNat (0x10000 + (n - 0xd800) * 0x400 + (m - 0xdc00)) :: lettersOf16 rest
    else loneUnit n :: lettersOf16 (m :: rest)

def letterOf32? (n : Nat) : Option Char := if n ≤ 0x10ffff then some (loneUnit n) else none

def letters? : Encoding → List Nat → Option (List Char)
  | .utf8, bytes => ofUtf8? bytes
  | .utf16 bigEndian, bytes => (units16? bigEndian bytes).map lettersOf16
  | .utf32 bigEndian, bytes => (units32? bigEndian bytes).bind fun ns => ns.mapM letterOf32?

end Encoding

def ofBytes? (bytes : List Nat) : Option (List Char) :=
  let (encoding, bytes) := Encoding.detect bytes
  encoding.letters? bytes

end BomEngine.Text
