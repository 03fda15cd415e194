import BomEngine.Bom.Node

/-!
# Explosion

A bill of materials as a list: every node once, parents before children, with its
position, the IPNs on the way to it, and the quantity needed for a number of
assemblies. Positions, not IPNs, tell nodes apart, since one IPN can stand at
several places. A part inside itself or a node too far down ends the walk.
-/

set_option autoImplicit false

namespace BomEngine

structure ExplodedNode where
  path : List String
  position : List Int
  ipn : String
  description : String
  ref : Option String
  depth : Int
  qtyPer : Decimal
  qtyRequired : Decimal
  isLeaf : Bool
  deriving DecidableEq, Repr

namespace ExplodedNode

def ofFields (fs : Fields) : Verdict ExplodedNode :=
  ExplodedNode.mk <$> fs.required "path" (Check.tuple Check.text)
    <*> fs.required "position" (Check.tuple Check.int)
    <*> fs.required "ipn" Check.text
    <*> fs.withDefault "description" "" Check.text
    <*> fs.optional "ref" Check.text
    <*> fs.required "depth" (Check.atLeast 0)
    <*> fs.required "qty_per" Check.decimal
    <*> fs.required "qty_required" Check.decimal
    <*> fs.required "is_leaf" Check.bool

def shownFields (n : ExplodedNode) : List (String × Json) :=
  [("path", Json.strs n.path), ("position", .arr (n.position.map .int)), ("ipn", .str n.ipn),
    ("description", .str n.description), ("ref", Json.ofOption .str n.ref),
    ("depth", .int n.depth), ("qty_per", .decimal n.qtyPer),
    ("qty_required", .decimal n.qtyRequired), ("is_leaf", .bool n.isLeaf)]

instance : Record ExplodedNode :=
  ⟨"ExplodedBOMNode", Check.record ofFields, fun n => .obj n.shownFields⟩

def isPurchased (n : ExplodedNode) : Bool := n.depth != 0 && n.isLeaf

end ExplodedNode

namespace Explosion

/-- Where a node stands: its position, the IPNs above it, the quantity needed of
its parent. -/
structure Place where
  position : List Int
  path : List String
  needed : Number

def requirement (place : Place) (qty : Decimal) : Result Decimal := do
  match ← Result.ofArithmetic (place.needed.mul (.finite qty)) with
  | .finite d => return d
  | _ => throw (.flaws "ExplodedBOMNode" [⟨[.field "qty_required"], .notFinite⟩])

/-- Why a node cannot stand at a place, if so: it is inside itself, or too deep. -/
def obstacle? (limit : Int) (place : Place) (ipn : String) : Option Fault :=
  if place.path.contains ipn then some (.circularBom (place.path ++ [ipn]))
  else if limit < place.position.length then some (.bomTooDeep ipn limit)
  else none

def entry (place : Place) (n : BomNode) (required : Decimal) : ExplodedNode :=
  ⟨place.path ++ [n.ipn], place.position, n.ipn, n.description, n.ref, place.position.length,
    n.qty, required, n.isLeaf⟩

def Place.child (place : Place) (ipn : String) (required : Decimal) (i : Nat) : Place :=
  ⟨place.position ++ [(i : Int)], place.path ++ [ipn], .finite required⟩

mutual

def walk (limit : Int) (place : Place) : BomNode → Result (List ExplodedNode)
  | .mk ipn description qty ref children =>
    match obstacle? limit place ipn with
    | some f => .error (.fault f)
    | none =>
      match requirement place qty with
      | .error e => .error e
      | .ok required =>
        match walkEach limit (place.child ipn required) 0 children with
        | .error e => .error e
        | .ok below => .ok (entry place (.mk ipn description qty ref children) required :: below)

def walkEach (limit : Int) (place : Nat → Place) (i : Nat) :
    List BomNode → Result (List ExplodedNode)
  | [] => .ok []
  | n :: rest =>
    match walk limit (place i) n with
    | .error e => .error e
    | .ok first =>
      match walkEach limit place (i + 1) rest with
      | .error e => .error e
      | .ok others => .ok (first ++ others)

end

end Explosion

/-- The nodes of a tree for a number of assemblies, with no node deeper than `limit`. -/
def explode (limit : Int) (buildQty : Number) (root : BomNode) : Result (List ExplodedNode) :=
  Explosion.walk limit ⟨[], [], buildQty⟩ root

end BomEngine
