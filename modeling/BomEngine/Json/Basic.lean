import BomEngine.Decimal.Binary64
import BomEngine.Entries

/-!
# JSON values

Integers have any size and are kept apart from doubles. The fields of an object
stay in the order they were written; a repeated name keeps its first place and
its last value.
-/

set_option autoImplicit false

namespace BomEngine

inductive Json where
  | null
  | bool (b : Bool)
  | int (n : Int)
  | double (x : Binary64)
  | str (s : String)
  | arr (items : List Json)
  | obj (fields : List (String × Json))
  deriving Repr, Inhabited

namespace Json

/-- Integers with more digits than this are neither read from a text nor written as one. -/
def integerLimit : Nat := 4300

def isNull : Json → Bool
  | .null => true
  | _ => false

def get? (j : Json) (name : String) : Option Json :=
  match j with
  | .obj fields => fields.lookup name
  | _ => none

def ofOption {α : Type} (f : α → Json) : Option α → Json
  | some a => f a
  | none => .null

def strs (ss : List String) : Json := .arr (ss.map .str)

def decimal (d : Decimal) : Json := .str d.text

/-- Whether a value counts as something: not null, false, zero or empty. -/
def isTruthy : Json → Bool
  | .null => false
  | .bool b => b
  | .int n => n != 0
  | .double x => !x.isZero
  | .str s => !s.isEmpty
  | .arr items => !items.isEmpty
  | .obj fields => !fields.isEmpty

def numeric? : Json → Option Number
  | .bool b => some (.finite (Decimal.ofInt (if b then 1 else 0)))
  | .int n => some (.finite (Decimal.ofInt n))
  | .double x => some x.toNumber
  | _ => none

def sameNumber (a b : Json) : Bool :=
  match a.numeric?, b.numeric? with
  | some x, some y =>
    match x.cmp y with
    | .ok .eq => true
    | _ => false
  | _, _ => false

mutual

/-- Equality that compares numbers by value and objects without regard to order. -/
def same : Json → Json → Bool
  | .null, .null => true
  | .str s, .str t => s == t
  | .arr xs, .arr ys => sameItems xs ys
  | .obj xs, .obj ys => xs.length == ys.length && sameFields xs ys
  | x, y => sameNumber x y

def sameItems : List Json → List Json → Bool
  | [], [] => true
  | x :: xs, y :: ys => same x y && sameItems xs ys
  | _, _ => false

def sameFields : List (String × Json) → List (String × Json) → Bool
  | [], _ => true
  | (k, x) :: xs, ys =>
    (match ys.lookup k with
      | some y => same x y
      | none => false) && sameFields xs ys

end

mutual

def sortFields : Json → Json
  | .arr items => .arr (sortItems items)
  | .obj fields => .obj ((sortEach fields).mergeSort fun a b => a.1 ≤ b.1)
  | j => j

def sortItems : List Json → List Json
  | [] => []
  | j :: rest => sortFields j :: sortItems rest

def sortEach : List (String × Json) → List (String × Json)
  | [] => []
  | (k, j) :: rest => (k, sortFields j) :: sortEach rest

end

end Json
end BomEngine
