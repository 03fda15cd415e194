import BomEngine.Bom.Explosion
import BomEngine.Shortage.Line

/-!
# Netting

The requirements of an exploded bill of materials against stock. The purchased
components of one IPN are added up into one line, in the order in which the IPNs
first occur. What is short is what is required less what is on hand, or nothing.
-/

set_option autoImplicit false

namespace BomEngine

def shortageOf (required onHand : Number) : Except Signal Number := do
  (← required.sub onHand).atLeastZero

/-- Short exactly if the shortage is above zero. -/
def statusOf (required onHand : Number) : Except Signal ShortageStatus := do
  return if ← (← shortageOf required onHand).isPositive then .shortage else .ok

structure Requirement where
  ipn : String
  description : String
  qty : Decimal
  deriving DecidableEq, Repr

namespace Requirement

def collect (n : ExplodedNode) : List Requirement → Except Signal (List Requirement)
  | [] => do return [⟨n.ipn, n.description, ← Decimal.zero.add n.qtyRequired⟩]
  | r :: rest =>
    if r.ipn = n.ipn then do return { r with qty := ← r.qty.add n.qtyRequired } :: rest
    else do return r :: (← collect n rest)

def ofNodes (nodes : List ExplodedNode) : Except Signal (List Requirement) :=
  (nodes.filter ExplodedNode.isPurchased).foldlM (fun rs n => collect n rs) []

end Requirement

/-- Stock by IPN. An entry that is no number only matters where it is asked for. -/
abbrev Stock := List (String × Result Number)

def Stock.onHand (stock : Stock) (ipn : String) : Result Number :=
  (stock.lookup ipn).getD (.ok Decimal.zero)

namespace NettedLine

/-- A line made of numbers, which must be finite, and at least zero where a line
has no sign. -/
def ofNumbers (ipn description : String) (required onHand shortage : Number)
    (status : ShortageStatus) : Result NettedLine :=
  let least := fun (d : Decimal) => if d.isNegative then some FlawKind.belowLeast else none
  Result.ofVerdict "ResolvedBOMLine"
    (NettedLine.mk <$> .accepted ipn <*> .accepted description
      <*> ((Check.finite required).demand least).under (.field "qty_required")
      <*> (Check.finite onHand).under (.field "qty_on_hand")
      <*> ((Check.finite shortage).demand least).under (.field "shortage")
      <*> .accepted status)

def ofRequirement (stock : Stock) (r : Requirement) : Result NettedLine := do
  let onHand ← stock.onHand r.ipn
  let shortage ← Result.ofArithmetic (shortageOf r.qty onHand)
  let status ← Result.ofArithmetic (statusOf r.qty onHand)
  ofNumbers r.ipn r.description r.qty onHand shortage status

end NettedLine

def netRequirements (nodes : List ExplodedNode) (stock : Stock) : Result (List NettedLine) := do
  let requirements ← Result.ofArithmetic (Requirement.ofNodes nodes)
  requirements.mapM (NettedLine.ofRequirement stock)

end BomEngine
