import BomEngine.Bom.Explosion

/-!
# Resolutions

What came of fetching and exploding a bill of materials: the tree and its nodes,
or a message in their place. Also the list of assemblies that use a part.
-/

set_option autoImplicit false

namespace BomEngine

structure BomResolution where
  rootIpn : String
  buildQty : Decimal
  root : Option BomNode
  nodes : List ExplodedNode
  error : Option String
  deriving Repr

namespace BomResolution

def ofFields (fs : Fields) : Verdict BomResolution :=
  BomResolution.mk <$> fs.required "root_ipn" Check.text
    <*> fs.withDefault "build_qty" Decimal.one Check.decimal
    <*> fs.optional "root" BomNode.check
    <*> fs.withDefault "nodes" [] (Check.list Record.check)
    <*> fs.optional "error" Check.text

def shown (r : BomResolution) : Json :=
  .obj [("root_ipn", .str r.rootIpn), ("build_qty", .decimal r.buildQty),
    ("root", Record.dumpOption r.root), ("nodes", Record.dumpList r.nodes),
    ("error", Json.ofOption .str r.error)]

instance : Record BomResolution := ⟨"BOMResolution", Check.record ofFields, shown⟩

def isOk (r : BomResolution) : Bool := r.error.isNone && r.root.isSome

def components (r : BomResolution) : List ExplodedNode := r.nodes.filter fun n => 0 < n.depth

def leaves (r : BomResolution) : List ExplodedNode := r.components.filter ExplodedNode.isLeaf

def noData : String := "No BOM data"

end BomResolution

structure WhereUsed where
  assemblyIpn : String
  description : String
  qty : Decimal
  ref : String
  deriving DecidableEq, Repr

namespace WhereUsed

def ofFields (fs : Fields) : Verdict WhereUsed :=
  WhereUsed.mk <$> fs.required "assembly_ipn" Check.text
    <*> fs.withDefault "description" "" (Check.orNull "" Check.text)
    <*> fs.withDefault "qty" Decimal.one Check.decimal
    <*> fs.withDefault "ref" "" (Check.orNull "" Check.text)

def shown (w : WhereUsed) : Json :=
  .obj [("assembly_ipn", .str w.assemblyIpn), ("description", .str w.description),
    ("qty", .decimal w.qty), ("ref", .str w.ref)]

instance : Record WhereUsed := ⟨"WhereUsedEntry", Check.record ofFields, shown⟩

end WhereUsed
end BomEngine
