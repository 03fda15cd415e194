import BomEngine.Schema.Record

/-!
# Netted lines

A requirement beside the stock on hand: how much is needed, how much is there,
how much is short, and the label that says so. The label `low` comes only from
the operations service; it means short, but not without any stock.
-/

set_option autoImplicit false

namespace BomEngine

inductive ShortageStatus where
  | ok
  | low
  | shortage
  deriving DecidableEq, Repr

namespace ShortageStatus

def text : ShortageStatus → String
  | ok => "ok"
  | low => "low"
  | shortage => "shortage"

def all : List ShortageStatus := [ok, low, shortage]

def check : Check ShortageStatus
  | .str s =>
    match all.find? fun status => status.text == s with
    | some status => .accepted status
    | none => .flaw .notAMember
  | _ => .flaw .notAMember

end ShortageStatus

structure NettedLine where
  ipn : String
  description : String
  required : Decimal
  onHand : Decimal
  shortage : Decimal
  status : ShortageStatus
  deriving DecidableEq, Repr

namespace NettedLine

def ofFields (fs : Fields) : Verdict NettedLine :=
  NettedLine.mk <$> fs.required "ipn" Check.text
    <*> fs.withDefault "description" "" (Check.orNull "" Check.text)
    <*> fs.withDefault "qty_required" Decimal.zero Check.nonnegative
    <*> fs.withDefault "qty_on_hand" Decimal.zero Check.decimal
    <*> fs.withDefault "shortage" Decimal.zero Check.nonnegative
    <*> fs.withDefault "status" .ok ShortageStatus.check

def shown (l : NettedLine) : Json :=
  .obj [("ipn", .str l.ipn), ("description", .str l.description),
    ("qty_required", .decimal l.required), ("qty_on_hand", .decimal l.onHand),
    ("shortage", .decimal l.shortage), ("status", .str l.status.text)]

instance : Record NettedLine := ⟨"ResolvedBOMLine", Check.record ofFields, shown⟩

def isPartlyAvailable (l : NettedLine) : Bool := l.shortage.isPositive && l.onHand.isPositive

def isShort (l : NettedLine) : Bool := l.status == .shortage

end NettedLine

def shortLines (lines : List NettedLine) : List NettedLine := lines.filter NettedLine.isShort

end BomEngine
