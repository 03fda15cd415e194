import BomEngine.Cost.Rollup
import BomEngine.Quote.Basic

/-!
# Quote costing

The margin of every line of a quote and of the whole: what is quoted less what it
costs. A part that the catalog does not know costs nothing. The margin in percent
has two places, a half rounded away from zero; a quote worth nothing has none.
-/

set_option autoImplicit false

namespace BomEngine

structure LineCosting where
  ipn : String
  description : String
  qty : Decimal
  unitPrice : Decimal
  unitCost : Decimal
  costKnown : Bool
  total : Decimal
  cost : Decimal
  margin : Decimal
  marginPercent : Decimal
  belowCost : Bool
  deriving DecidableEq, Repr

structure QuoteTotals where
  quoted : Decimal
  cost : Decimal
  margin : Decimal
  marginPercent : Decimal
  belowCost : Bool
  deriving DecidableEq, Repr

namespace LineCosting

def ofFields (fs : Fields) : Verdict LineCosting :=
  LineCosting.mk <$> fs.required "ipn" Check.text
    <*> fs.withDefault "description" "" Check.text
    <*> fs.required "qty" Check.decimal
    <*> fs.required "unit_price" Check.decimal
    <*> fs.required "unit_cost" Check.decimal
    <*> fs.required "cost_known" Check.bool
    <*> fs.required "line_total" Check.decimal
    <*> fs.required "line_cost" Check.decimal
    <*> fs.required "line_margin" Check.decimal
    <*> fs.required "margin_percent" Check.decimal
    <*> fs.withDefault "below_cost" false Check.bool

def shown (l : LineCosting) : Json :=
  .obj [("ipn", .str l.ipn), ("description", .str l.description), ("qty", .decimal l.qty),
    ("unit_price", .decimal l.unitPrice), ("unit_cost", .decimal l.unitCost),
    ("cost_known", .bool l.costKnown), ("line_total", .decimal l.total),
    ("line_cost", .decimal l.cost), ("line_margin", .decimal l.margin),
    ("margin_percent", .decimal l.marginPercent), ("below_cost", .bool l.belowCost)]

instance : Record LineCosting := ⟨"QuoteLineCosting", Check.record ofFields, shown⟩

end LineCosting

namespace QuoteTotals

def ofFields (fs : Fields) : Verdict QuoteTotals :=
  QuoteTotals.mk <$> fs.withDefault "total_quoted" Decimal.zero Check.decimal
    <*> fs.withDefault "total_cost" Decimal.zero Check.decimal
    <*> fs.withDefault "margin" Decimal.zero Check.decimal
    <*> fs.withDefault "margin_percent" Decimal.zero Check.decimal
    <*> fs.withDefault "below_cost" false Check.bool

def shown (t : QuoteTotals) : Json :=
  .obj [("total_quoted", .decimal t.quoted), ("total_cost", .decimal t.cost),
    ("margin", .decimal t.margin), ("margin_percent", .decimal t.marginPercent),
    ("below_cost", .bool t.belowCost)]

instance : Record QuoteTotals := ⟨"QuoteTotals", Check.record ofFields, shown⟩

end QuoteTotals

namespace Margin

def percent (total margin : Number) : Except Signal Number := do
  match ← total.cmp Decimal.zero with
  | .gt => (← (← (Decimal.hundred : Number).mul margin).div total).quantize .halfUp (-2)
  | _ => return Decimal.zero

def isLoss (margin : Number) : Except Signal Bool := do
  return (← margin.cmp Decimal.zero) == .lt

end Margin

/-- What a line is quoted and what it costs. All amounts must come out finite. -/
def QuoteLine.costing (catalog : CostCatalog) (l : QuoteLine) : Result LineCosting := do
  let unitCost := catalog.unitCost l.ipn
  let total ← Result.ofArithmetic (l.qty.mul l.unitPrice)
  let cost ← Result.ofArithmetic ((l.qty : Number).mul unitCost)
  let margin ← Result.ofArithmetic ((total : Number).sub cost)
  let percent ← Result.ofArithmetic (Margin.percent total margin)
  let belowCost ← Result.ofArithmetic (Margin.isLoss margin)
  Result.ofVerdict "QuoteLineCosting"
    (LineCosting.mk l.ipn l.description l.qty l.unitPrice
      <$> (Check.finite unitCost).under (.field "unit_cost")
      <*> .accepted (catalog.knows l.ipn)
      <*> .accepted total
      <*> (Check.finite cost).under (.field "line_cost")
      <*> (Check.finite margin).under (.field "line_margin")
      <*> (Check.finite percent).under (.field "margin_percent")
      <*> .accepted belowCost)

namespace QuoteTotals

def ofLines (lines : List LineCosting) : Result QuoteTotals := do
  let quoted ← Result.ofArithmetic (Decimal.sum (lines.map LineCosting.total))
  let cost ← Result.ofArithmetic (Decimal.sum (lines.map LineCosting.cost))
  let margin ← Result.ofArithmetic (quoted.sub cost)
  let percent ← Result.ofArithmetic (Margin.percent quoted margin)
  Result.ofVerdict "QuoteTotals"
    ((fun p => ⟨quoted, cost, margin, p, margin.isNegative⟩)
      <$> (Check.finite percent).under (.field "margin_percent"))

end QuoteTotals

namespace Quote

def logger : String := "app.services.quote_costing"

def noteLines (q : Quote) (what : String) (lines : List LineCosting) : Noted Unit :=
  if lines.isEmpty then pure ()
  else
    Noted.note (.info logger
      ("Quote " ++ q.id ++ ": " ++ toString lines.length ++ " line(s) " ++ what)
      [("quote_id", .str q.id), ("ipns", Json.strs (lines.map LineCosting.ipn))])

def costing (catalog : CostCatalog) (q : Quote) : Noted (List LineCosting × QuoteTotals) := do
  let lines ← Noted.ofResult (q.lines.mapM (QuoteLine.costing catalog))
  let totals ← Noted.ofResult (QuoteTotals.ofLines lines)
  q.noteLines "without a catalog cost" (lines.filter fun l => !l.costKnown)
  q.noteLines "priced below cost" (lines.filter LineCosting.belowCost)
  return (lines, totals)

end Quote
end BomEngine
