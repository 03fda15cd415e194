import BomEngine.Schema.Record
import BomEngine.Shortage.Line

/-!
# Purchase requests

Requests to create an order, from the short lines of a netted list: each line is
ordered in the quantity that is short. A vendor has to be chosen, and something
has to be short.
-/

set_option autoImplicit false

namespace BomEngine

structure RequestLine where
  ipn : String
  ordered : Decimal
  unitPrice : Option Decimal
  mpn : Option String
  manufacturer : Option String
  notes : Option String
  deriving DecidableEq, Repr

namespace RequestLine

def ofFields (fs : Fields) : Verdict RequestLine :=
  RequestLine.mk <$> fs.required "ipn" Check.text
    <*> fs.required "qty_ordered" Check.positive
    <*> fs.optional "unit_price" Check.nonnegative
    <*> fs.optional "mpn" Check.text
    <*> fs.optional "manufacturer" Check.text
    <*> fs.optional "notes" Check.text

def shown (l : RequestLine) : Json :=
  .obj [("ipn", .str l.ipn), ("qty_ordered", .decimal l.ordered),
    ("unit_price", Json.ofOption .decimal l.unitPrice), ("mpn", Json.ofOption .str l.mpn),
    ("manufacturer", Json.ofOption .str l.manufacturer), ("notes", Json.ofOption .str l.notes)]

def check : Check RequestLine := Check.record ofFields

instance : Record RequestLine := ⟨"POLineCreate", check, shown⟩

/-- A line that orders what is short, which must be above zero. -/
def ofShort (l : NettedLine) : Result RequestLine :=
  if l.shortage.isPositive then .ok ⟨l.ipn, l.shortage, none, none, none, none⟩
  else .error (.flaws "POLineCreate" [⟨[.field "qty_ordered"], .notAbove⟩])

end RequestLine

structure PurchaseRequest where
  vendor : String
  notes : Option String
  lines : List RequestLine
  deriving DecidableEq, Repr

namespace PurchaseRequest

def ofFields (fs : Fields) : Verdict PurchaseRequest :=
  PurchaseRequest.mk <$> fs.required "vendor_id" Check.nonempty
    <*> fs.optional "notes" Check.text
    <*> fs.required "lines" ((Check.list RequestLine.check).demand
      fun ls => if ls.isEmpty then some .tooFew else none)

def shown (r : PurchaseRequest) : Json :=
  .obj [("vendor_id", .str r.vendor), ("notes", Json.ofOption .str r.notes),
    ("lines", Record.dumpList r.lines)]

instance : Record PurchaseRequest := ⟨"PurchaseOrderCreate", Check.record ofFields, shown⟩

def canGenerate (lines : List NettedLine) (vendor : Option String) : Bool :=
  (vendor.any fun v => !v.isEmpty) && !(shortLines lines).isEmpty

def ofLines (lines : List NettedLine) (vendor : Option String) (notes : Option String) :
    Result PurchaseRequest :=
  let chosen := vendor.getD ""
  if chosen.isEmpty then
    .error (.fault (.validation "A vendor must be selected" (some "vendor_id")))
  else if (shortLines lines).isEmpty then
    .error (.fault (.validation "No shortage lines to order" none))
  else do
    return ⟨chosen, notes, ← (shortLines lines).mapM RequestLine.ofShort⟩

end PurchaseRequest

structure CreatedOrder where
  id : String
  lines : Int
  deriving DecidableEq, Repr

namespace CreatedOrder

def ofFields (fs : Fields) : Verdict CreatedOrder :=
  CreatedOrder.mk <$> fs.required "po_id" Check.text <*> fs.withDefault "lines" 0 Check.int

def shown (c : CreatedOrder) : Json := .obj [("po_id", .str c.id), ("lines", .int c.lines)]

instance : Record CreatedOrder := ⟨"PurchaseOrderCreated", Check.record ofFields, shown⟩

end CreatedOrder

structure VendorChoice where
  vendor : Option String
  deriving DecidableEq, Repr

namespace VendorChoice

instance : Record VendorChoice :=
  ⟨"GeneratePORequest",
    Check.record fun fs => VendorChoice.mk <$> fs.optional "vendor_id" Check.text,
    fun c => .obj [("vendor_id", Json.ofOption .str c.vendor)]⟩

end VendorChoice
end BomEngine
