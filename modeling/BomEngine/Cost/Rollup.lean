import BomEngine.Bom.Resolution
import BomEngine.Cost.Entry
import BomEngine.Log.Record
import BomEngine.Part

/-!
# Cost rollup

A catalog gives unit costs by IPN; an IPN it does not know costs nothing. The
cost of a bill of materials is that of its purchased components. It is preferred
over the cost that the operations service reports for the assembly.
-/

set_option autoImplicit false

namespace BomEngine

structure CostCatalog where
  entries : List (String × Number)
  deriving DecidableEq, Repr

namespace CostCatalog

/-- The costs of the parts that have one; of two for an IPN the later. -/
def ofParts (parts : List Part) : CostCatalog :=
  ⟨parts.foldl (fun es p =>
    match p.cost with
    | some c => putEntry p.ipn (.finite c) es
    | none => es) []⟩

def ofValues (values : List (String × Json)) : Result CostCatalog := do
  return ⟨← values.mapM fun v => do return (v.1, ← Result.number v.2)⟩

def knows (c : CostCatalog) (ipn : String) : Bool := hasEntry ipn c.entries

def unitCost (c : CostCatalog) (ipn : String) : Number :=
  (c.entries.lookup ipn).getD Decimal.zero

def size (c : CostCatalog) : Nat := c.entries.length

end CostCatalog

def rollUp (catalog : CostCatalog) (nodes : List ExplodedNode) : Except Signal Number :=
  (nodes.filter ExplodedNode.isPurchased).foldlM
    (fun total n => do total.add (← (Number.finite n.qtyRequired).mul (catalog.unitCost n.ipn)))
    (Number.finite Decimal.zero)

def isWorthShowing (cost : Option Number) : Except Signal Bool :=
  match cost with
  | some c => c.isPositive
  | none => .ok false

namespace CostSummary

def logger : String := "app.services.costing"

/-- The cost of one assembly: that of all of them shared out, where their number
is above zero. -/
def perUnit (total : Number) (buildQty : Decimal) : Except Signal Number :=
  if buildQty.isPositive then total.div (.finite buildQty) else .ok total

def rolledUp (resolution : Option BomResolution) (catalog : Option CostCatalog) :
    Except Signal (Option Number) :=
  match resolution, catalog with
  | some r, some c =>
    if r.isOk && c.size != 0 then do
      return some (← perUnit (← rollUp c r.nodes) r.buildQty)
    else .ok none
  | _, _ => .ok none

def differs (x : Number) (d : Decimal) : Bool :=
  match x with
  | .finite c => !c.sameValue d
  | _ => true

def differenceRecord? (ipn : String) (rolled : Option Number) (entry : Option CostEntry) :
    Option LogRecord :=
  match rolled, entry.bind CostEntry.bomCost with
  | some r, some c =>
    if differs r c then
      some (.debug logger ("BOM cost for " ++ ipn ++ ": rollup " ++ r.text
        ++ " differs from server " ++ c.text) [("ipn", .str ipn)])
    else none
  | _, _ => none

def reported (entry : Option CostEntry) : Option Number :=
  (entry.bind CostEntry.bomCost).map .finite

def chosen (rolled : Option Number) (entry : Option CostEntry) : Option (Number × String) :=
  match rolled with
  | some r => some (r, "rollup")
  | none => (reported entry).map fun c => (c, "server")

def finiteCost : Option (Number × String) → Result (Option Decimal)
  | none => .ok none
  | some (.finite d, _) => .ok (some d)
  | some _ => .error (.flaws "CostSummary" [⟨[.field "bom_cost"], .notFinite⟩])

def summarize (ipn : String) (entry : Option CostEntry) (resolution : Option BomResolution)
    (catalog : Option CostCatalog) : Noted (Option CostSummary) := do
  let rolled ← Noted.ofResult (Result.ofArithmetic (rolledUp resolution catalog))
  match differenceRecord? ipn rolled entry with
  | some r => Noted.note r
  | none => pure ()
  let cost := chosen rolled entry
  if entry.isNone && cost.isNone then return none
  let worth ← Noted.ofResult (Result.ofArithmetic (isWorthShowing (cost.map fun c => c.1)))
  let bomCost ← Noted.ofResult (finiteCost cost)
  return some {
    ipn := ipn
    lastUnitPrice := entry.bind CostEntry.lastUnitPrice
    lastOrder := entry.bind CostEntry.lastOrder
    lastOrderedDate := entry.bind CostEntry.lastOrderedDate
    bomCost := bomCost
    bomCostSource := cost.map fun c => c.2
    showBomCost := worth }

end CostSummary
end BomEngine
