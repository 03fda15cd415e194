import BomEngine.Schema.Record

/-!
# Bills of materials

A node is one occurrence of a part inside its parent, with the quantity that one
unit of the parent consumes and the nodes below it. A node without any below it
is a leaf: a part that is purchased.
-/

set_option autoImplicit false

namespace BomEngine

inductive BomNode where
  | mk (ipn description : String) (qty : Decimal) (ref : Option String) (children : List BomNode)
  deriving Repr, Inhabited

namespace BomNode

def ipn : BomNode → String
  | mk ipn _ _ _ _ => ipn

def description : BomNode → String
  | mk _ description _ _ _ => description

def qty : BomNode → Decimal
  | mk _ _ qty _ _ => qty

def ref : BomNode → Option String
  | mk _ _ _ ref _ => ref

def children : BomNode → List BomNode
  | mk _ _ _ _ children => children

def isLeaf (n : BomNode) : Bool := n.children.isEmpty

mutual

/-- A tree of nodes: missing or null descriptions are empty, quantities one, and
children none. -/
def check : Json → Verdict BomNode
  | .obj fields =>
    mk <$> Fields.required fields "ipn" Check.nonempty
      <*> Fields.withDefault fields "description" "" (Check.orNull "" Check.text)
      <*> Fields.withDefault fields "qty" Decimal.one (Check.orNull Decimal.one Check.positive)
      <*> Fields.optional fields "ref" Check.text
      <*> checkIn fields
  | _ => .flaw .recordExpected

def checkIn : List (String × Json) → Verdict (List BomNode)
  | [] => .accepted []
  | (k, j) :: rest =>
    if k = "children" then (checkChildren j).under (.field "children") else checkIn rest

def checkChildren : Json → Verdict (List BomNode)
  | .null => .accepted []
  | .arr items => checkEach 0 items
  | _ => .flaw .tupleExpected

def checkEach : Nat → List Json → Verdict (List BomNode)
  | _, [] => .accepted []
  | i, j :: rest => List.cons <$> (check j).under (.index i) <*> checkEach (i + 1) rest

end

mutual

def shown : BomNode → Json
  | mk ipn description qty ref children =>
    .obj [("ipn", .str ipn), ("description", .str description), ("qty", .decimal qty),
      ("ref", Json.ofOption .str ref), ("children", .arr (shownEach children))]

def shownEach : List BomNode → List Json
  | [] => []
  | n :: rest => shown n :: shownEach rest

end

instance : Record BomNode := ⟨"BOMNode", check, shown⟩

end BomNode
end BomEngine
