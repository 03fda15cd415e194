import BomEngine.Bom.Explosion

/-!
# Tree view

An exploded bill of materials whose nodes can be opened and closed. Nodes near
the root start open. Opening or closing one node leaves the state of all others
as it is, so what was chosen below a closed node is there again when it opens.
-/

set_option autoImplicit false

namespace BomEngine

structure TreeRow where
  node : ExplodedNode
  expanded : Bool
  deriving DecidableEq, Repr

namespace TreeRow

def ofFields (fs : Fields) : Verdict TreeRow :=
  TreeRow.mk <$> ExplodedNode.ofFields fs <*> fs.withDefault "expanded" false Check.bool

instance : Record TreeRow :=
  ⟨"BOMTreeRow", Check.record ofFields,
    fun r => .obj (r.node.shownFields ++ [("expanded", .bool r.expanded)])⟩

end TreeRow

structure TreeView where
  nodes : List ExplodedNode
  expandedDepth : Int
  chosen : List (List Int × Bool)
  deriving DecidableEq, Repr

namespace TreeView

def ofNodes (nodes : List ExplodedNode) (expandedDepth : Int) : TreeView :=
  ⟨nodes, expandedDepth, []⟩

def positionText (position : List Int) : String :=
  "/".intercalate (position.map toString)

def unknown (position : List Int) : Fault :=
  .notFound "BOM node" (some (if position.isEmpty then "root" else positionText position))

def node? (v : TreeView) (position : List Int) : Option ExplodedNode :=
  v.nodes.find? fun n => n.position == position

def stateOf (v : TreeView) (n : ExplodedNode) : Bool :=
  match v.chosen.lookup n.position with
  | some state => state
  | none => n.depth < v.expandedDepth

def isExpanded (v : TreeView) (position : List Int) : Except Fault Bool :=
  match v.node? position with
  | some n => .ok (v.stateOf n)
  | none => .error (unknown position)

def toggle (v : TreeView) (position : List Int) : Except Fault (Bool × TreeView) :=
  match v.isExpanded position with
  | .error f => .error f
  | .ok state => .ok (!state, { v with chosen := (position, !state) :: v.chosen })

/-- The rows from a list of nodes on, where nodes deeper than `closed` are hidden
up to the first that is not. -/
def rowsFrom (v : TreeView) : Option Int → List ExplodedNode → List TreeRow
  | _, [] => []
  | closed, n :: rest =>
    if closed.any fun depth => decide (depth < n.depth) then rowsFrom v closed rest
    else
      let open_ := v.stateOf n
      ⟨n, open_⟩ :: rowsFrom v (if open_ || n.isLeaf then none else some n.depth) rest

def visibleRows (v : TreeView) : List TreeRow := v.rowsFrom none v.nodes

end TreeView
end BomEngine
