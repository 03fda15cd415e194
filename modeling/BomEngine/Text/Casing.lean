import BomEngine.Text.CaseTable

/-!
# Upper and lower case

Full case mapping, letter by letter: a letter may become several, and only the
capital sigma looks at its neighbours. It becomes a final sigma after a cased
letter when no cased letter follows.
-/

set_option autoImplicit false

namespace BomEngine.Text

def CaseRow.image? (row : CaseRow) (n : Nat) : Option Nat :=
  let (lo, hi, step, target) := row
  if lo ≤ n ∧ n ≤ hi ∧ (n - lo) % step = 0 then some (target + (n - lo)) else none

def caseImage (rows : List CaseRow) (words : List (Nat × List Nat)) (c : Char) : List Char :=
  match words.lookup c.toNat with
  | some ns => ns.map Char.ofNat
  | none =>
    match rows.findSome? fun r => r.image? c.toNat with
    | some n => [Char.ofNat n]
    | none => [c]

def upperChar (c : Char) : List Char :=
  if c.toNat < 128 then [c.toUpper] else caseImage upperRows upperWords c

def lowerChar (c : Char) : List Char :=
  if c.toNat < 128 then [c.toLower] else caseImage lowerRows lowerWords c

def isCased (c : Char) : Bool := within casedRanges c.toNat

def isPassedOver (c : Char) : Bool := within passedOverRanges c.toNat

def meetsCased (cs : List Char) : Bool :=
  match cs.dropWhile isPassedOver with
  | c :: _ => isCased c
  | [] => false

def capitalSigma : Char := Char.ofNat 0x3a3

/-- Lower case of a list of letters, the letters on its left given nearest first. -/
def lowerFrom : List Char → List Char → List Char
  | _, [] => []
  | left, c :: rest =>
    let image :=
      if c = capitalSigma then
        if meetsCased left && !meetsCased rest then [Char.ofNat 0x3c2] else [Char.ofNat 0x3c3]
      else lowerChar c
    image ++ lowerFrom (c :: left) rest

def upper (s : String) : String := String.ofList (s.toList.flatMap upperChar)

def lower (s : String) : String := String.ofList (lowerFrom [] s.toList)

end BomEngine.Text
