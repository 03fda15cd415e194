import BomEngine.Schema.Record

/-!
# Receipts

The lines of a receipt that is sent to the operations service, and the request
with which a user asks for a receipt: quantities by line, as typed.
-/

set_option autoImplicit false

namespace BomEngine

structure ReceiptLine where
  line : Int
  qty : Decimal
  deriving DecidableEq, Repr

namespace ReceiptLine

instance : Record ReceiptLine :=
  ⟨"ReceiptLine",
    Check.record fun fs =>
      ReceiptLine.mk <$> fs.required "line_id" Check.int <*> fs.required "qty" Check.positive,
    fun l => .obj [("line_id", .int l.line), ("qty", .decimal l.qty)]⟩

end ReceiptLine

abbrev Entered := List (Int × String)

def typedText : Json → String
  | .null => ""
  | j => j.shown

structure ReceiptRequest where
  lines : Entered
  skipInspection : Bool
  deriving DecidableEq, Repr

namespace ReceiptRequest

def check : Check ReceiptRequest :=
  Check.record fun fs =>
    ReceiptRequest.mk
      <$> fs.withDefault "lines" [] (Check.intMapping fun j => .accepted (typedText j))
      <*> fs.withDefault "skip_inspection" false Check.bool

def shown (r : ReceiptRequest) : Json :=
  .obj [("lines", .obj (r.lines.map fun l => (String.ofList (Text.intText l.1), .str l.2))),
    ("skip_inspection", .bool r.skipInspection)]

instance : Record ReceiptRequest := ⟨"ReceivePORequest", check, shown⟩

end ReceiptRequest
end BomEngine
