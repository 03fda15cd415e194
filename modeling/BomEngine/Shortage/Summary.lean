import BomEngine.Shortage.Line

/-!
# Summaries of netted lines

Counts and totals that depend on the lines alone.
-/

set_option autoImplicit false

namespace BomEngine

structure ShortageSummary where
  totalLines : Int
  statusCounts : List (String × Int)
  totalShortage : Decimal
  hasShortage : Bool
  partlyAvailable : Int
  drifted : List String
  deriving DecidableEq, Repr

namespace ShortageSummary

def ofFields (fs : Fields) : Verdict ShortageSummary :=
  ShortageSummary.mk <$> fs.withDefault "total_lines" 0 Check.int
    <*> fs.withDefault "status_counts" [] (Check.mapping Check.int)
    <*> fs.withDefault "total_shortage_qty" Decimal.zero Check.decimal
    <*> fs.withDefault "has_shortage" false Check.bool
    <*> fs.withDefault "partially_available" 0 Check.int
    <*> fs.withDefault "drifted_lines" [] (Check.list Check.text)

def shown (s : ShortageSummary) : Json :=
  .obj [("total_lines", .int s.totalLines),
    ("status_counts", .obj (s.statusCounts.map fun c => (c.1, .int c.2))),
    ("total_shortage_qty", .decimal s.totalShortage), ("has_shortage", .bool s.hasShortage),
    ("partially_available", .int s.partlyAvailable), ("drifted_lines", Json.strs s.drifted)]

instance : Record ShortageSummary := ⟨"ShortageSummary", Check.record ofFields, shown⟩

def countOf (status : ShortageStatus) (lines : List NettedLine) : Nat :=
  lines.countP fun l => l.status == status

def ofLines (lines : List NettedLine) (drifted : List String) : Except Signal ShortageSummary := do
  let total ← Decimal.sum (lines.map NettedLine.shortage)
  return {
    totalLines := lines.length
    statusCounts := ShortageStatus.all.map fun s => (s.text, (countOf s lines : Int))
    totalShortage := total
    hasShortage := 0 < countOf .shortage lines
    partlyAvailable := lines.countP NettedLine.isPartlyAvailable
    drifted := drifted }

end ShortageSummary
end BomEngine
