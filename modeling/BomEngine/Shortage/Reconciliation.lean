import BomEngine.Log.Record
import BomEngine.Shortage.Netting
import BomEngine.Shortage.Summary
import BomEngine.WorkOrder

/-!
# Reconciliation

The operations service labels lines itself. Its label and shortage are checked
against its own quantities; where they contradict them the line has drifted. The
line is then recomputed, unless the service is trusted.
-/

set_option autoImplicit false

namespace BomEngine

/-- Whether a label of the service fits the label that the quantities imply. A low
line is a short one. -/
def ShortageStatus.fits (reported expected : ShortageStatus) : Bool :=
  reported == expected || (reported == .low && expected == .shortage)

namespace NettedLine

/-- A shortage that a line can hold. The difference of two finite numbers is one. -/
def lineShortage (l : NettedLine) : Except Signal Decimal := do
  return (← l.required.sub l.onHand).atLeastZero

def recomputed (l : NettedLine) : Except Signal NettedLine := do
  let shortage ← l.lineShortage
  return { l with shortage := shortage, status := if shortage.isPositive then .shortage else .ok }

def hasDrifted (l computed : NettedLine) : Bool :=
  !l.status.fits computed.status || !l.shortage.sameValue computed.shortage

end NettedLine

namespace Reconciliation

def logger : String := "app.services.inventory_netting"

def driftRecord (l computed : NettedLine) : LogRecord :=
  .warning logger ("Shortage status drift for " ++ l.ipn)
    [("ipn", .str l.ipn), ("reported_status", .str l.status.text),
      ("expected_status", .str computed.status.text), ("reported_shortage", .decimal l.shortage),
      ("expected_shortage", .decimal computed.shortage)]

/-- The line to go on with, and whether it had drifted. A strict reconciliation
refuses a drifted line. -/
def line (trust strict : Bool) (l : NettedLine) : Noted (NettedLine × Bool) := do
  let computed ← Noted.ofResult (Result.ofArithmetic l.recomputed)
  if l.hasDrifted computed then
    if strict then throw (.fault (.statusDrift l.ipn l.status.text computed.status.text))
    Noted.note (driftRecord l computed)
  return (if trust then l else computed, l.hasDrifted computed)

end Reconciliation

structure ShortageView where
  lines : List NettedLine
  summary : ShortageSummary
  deriving DecidableEq, Repr

namespace ShortageView

def ofLines (lines : List NettedLine) (drifted : List String) : Except Signal ShortageView := do
  return ⟨lines, ← ShortageSummary.ofLines lines drifted⟩

def driftRecord (b : WorkOrderBom) (drifted : List String) : LogRecord :=
  .warning Reconciliation.logger
    (toString drifted.length ++ " BOM line(s) with inconsistent shortage status")
    [("wo_id", Json.ofOption .str b.workOrder), ("assembly_ipn", .str b.assemblyIpn)]

def ofWorkOrderBom (trust strict : Bool) (b : WorkOrderBom) : Noted ShortageView := do
  let outcomes ← b.lines.mapM (Reconciliation.line trust strict)
  let drifted := (outcomes.filter fun o => o.2).map fun o => o.1.ipn
  if !drifted.isEmpty then Noted.note (driftRecord b drifted)
  Noted.ofResult (Result.ofArithmetic (ofLines (outcomes.map fun o => o.1) drifted))

def hasShortage (v : ShortageView) : Bool := v.summary.hasShortage

def shortages (v : ShortageView) : List NettedLine := shortLines v.lines

end ShortageView
end BomEngine
