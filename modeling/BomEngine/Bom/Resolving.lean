import BomEngine.Bom.Resolution
import BomEngine.Log.Record

/-!
# Resolving

From the outcome of a fetch to a resolution. A tree that could not be fetched or
cannot be walked gives a resolution with a message, not a failure.
-/

set_option autoImplicit false

namespace BomEngine.BomResolution

def logger : String := "app.services.bom_explosion"

def unresolved (ipn : String) (buildQty : Decimal) (message : String) : BomResolution :=
  ⟨ipn, buildQty, none, [], some message⟩

def quantityOf (j : Json) : Result Decimal := do
  match ← Result.number j with
  | .finite d => return d
  | _ => throw (.flaws "BOMResolution" [⟨[.field "build_qty"], .notFinite⟩])

def missingRecord (ipn : String) (f : Fault) : LogRecord :=
  if f.isNotFound then .info logger ("No BOM found for " ++ ipn) [("ipn", .str ipn)]
  else .warning logger ("BOM fetch failed for " ++ ipn ++ ": " ++ f.message)
    [("ipn", .str ipn), ("error_code", .str f.kind.code)]

def rejectedRecord (ipn : String) (f : Fault) : LogRecord :=
  .warning logger ("Rejected BOM for " ++ ipn ++ ": " ++ f.message)
    [("ipn", .str ipn), ("error_code", .str f.kind.code), ("details", .obj f.report.details)]

def ofTree (limit : Int) (ipn : String) (buildQty : Decimal) (root : BomNode) :
    Noted BomResolution :=
  match explode limit (.finite buildQty) root with
  | .ok nodes => pure ⟨ipn, buildQty, some root, nodes, none⟩
  | .error (.fault f) =>
    if f.isInvalidBom then do
      Noted.note (rejectedRecord ipn f)
      return unresolved ipn buildQty f.message
    else throw (.fault f)
  | .error e => throw e

def ofOutcome (limit : Int) (ipn : String) (buildQty : Decimal) :
    Outcome BomNode → Noted BomResolution
  | .ok root => ofTree limit ipn buildQty root
  | .error f => do
    Noted.note (missingRecord ipn f)
    return unresolved ipn buildQty noData

end BomEngine.BomResolution
