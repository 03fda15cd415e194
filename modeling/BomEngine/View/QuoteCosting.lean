import BomEngine.Quote.Costing
import BomEngine.View.Section

/-!
# The costing view

A quote with the margins of its lines and of the whole.
-/

set_option autoImplicit false

namespace BomEngine

structure CostingSection where
  lines : List LineCosting
  totals : QuoteTotals
  deriving DecidableEq, Repr

instance : Record CostingSection :=
  ⟨"QuoteCostingSection",
    Check.record fun fs =>
      CostingSection.mk <$> fs.withDefault "lines" [] (Check.list Record.check)
        <*> fs.required "totals" Record.check,
    fun s => .obj [("lines", Record.dumpList s.lines), ("totals", Record.dump s.totals)]⟩

structure QuoteView where
  quoteId : String
  state : ViewState
  message : Option String
  quote : Option Quote
  costing : Section CostingSection
  deriving DecidableEq, Repr

instance : Record QuoteView :=
  ⟨"QuoteCostingView",
    Check.record fun fs =>
      QuoteView.mk <$> fs.required "quote_id" Check.text
        <*> fs.required "state" ViewState.check
        <*> fs.optional "message" Check.text
        <*> fs.optional "quote" Record.check
        <*> fs.required "costing" Record.check,
    fun v => .obj [("quote_id", .str v.quoteId), ("state", .str v.state.text),
      ("message", Json.ofOption .str v.message), ("quote", Record.dumpOption v.quote),
      ("costing", Record.dump v.costing)]⟩

namespace QuoteView

def noCost : String := "No cost information available"

def costingSection (parts : Outcome (List Part)) : Outcome Quote → Noted (Section CostingSection)
  | .error _ => pure .skipped
  | .ok quote =>
    match parts with
    | .error f => pure (.without (Section.stateOfFault f) noCost)
    | .ok parts => do
      let (lines, totals) ← quote.costing (CostCatalog.ofParts parts)
      return .loaded ⟨lines, totals⟩

def ofOutcomes (id : String) (quote : Outcome Quote) (parts : Outcome (List Part)) :
    Noted QuoteView := do
  let costing ← costingSection parts quote
  return ⟨id, ViewState.ofOutcome quote, quote.message?, quote.value?, costing⟩

end QuoteView
end BomEngine
