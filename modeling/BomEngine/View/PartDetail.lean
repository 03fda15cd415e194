import BomEngine.Bom.TreeView
import BomEngine.Cost.Rollup
import BomEngine.Settings
import BomEngine.Shortage.Netting
import BomEngine.Shortage.Summary
import BomEngine.View.Section

/-!
# The view of a part

A part with its bill of materials, its cost and the assemblies that use it. The
view is a function of the outcomes of five fetches; those of the bill of materials
and of the catalog matter only for an assembly.
-/

set_option autoImplicit false

namespace BomEngine

structure BomSection where
  buildQty : Decimal
  rows : List TreeRow
  availability : List NettedLine
  summary : Option ShortageSummary
  deriving DecidableEq, Repr

instance : Record BomSection :=
  ⟨"BOMSection",
    Check.record fun fs =>
      BomSection.mk <$> fs.required "build_qty" Check.decimal
        <*> fs.withDefault "rows" [] (Check.list Record.check)
        <*> fs.withDefault "availability" [] (Check.list Record.check)
        <*> fs.optional "summary" Record.check,
    fun s => .obj [("build_qty", .decimal s.buildQty), ("rows", Record.dumpList s.rows),
      ("availability", Record.dumpList s.availability),
      ("summary", Record.dumpOption s.summary)]⟩

structure PartView where
  ipn : String
  state : ViewState
  message : Option String
  part : Option Part
  isAssembly : Bool
  bom : Section BomSection
  cost : Section CostSummary
  whereUsed : Section (List WhereUsed)
  deriving DecidableEq, Repr

instance : Record PartView :=
  ⟨"PartDetailView",
    Check.record fun fs =>
      PartView.mk <$> fs.required "ipn" Check.text
        <*> fs.required "state" ViewState.check
        <*> fs.optional "message" Check.text
        <*> fs.optional "part" Record.check
        <*> fs.withDefault "is_assembly" false Check.bool
        <*> fs.required "bom" Record.check
        <*> fs.required "cost" Record.check
        <*> fs.required "where_used" Record.check,
    fun v => .obj [("ipn", .str v.ipn), ("state", .str v.state.text),
      ("message", Json.ofOption .str v.message), ("part", Record.dumpOption v.part),
      ("is_assembly", .bool v.isAssembly), ("bom", Record.dump v.bom),
      ("cost", Record.dump v.cost), ("where_used", Record.dump v.whereUsed)]⟩

structure PartOutcomes where
  part : Outcome Part
  bom : Outcome BomNode
  parts : Outcome (List Part)
  cost : Outcome CostEntry
  whereUsed : Outcome (List WhereUsed)

namespace PartView

def noCost : String := "No cost information available"

def noWhereUsed : String := "Where-used information unavailable"

/-- Whether the part is an assembly, as far as its record is there to say so. -/
def isAssemblyOf (s : Settings) (ipn : String) (part : Outcome Part) : Bool :=
  Part.isAssemblyOf part.value? ipn s.assemblyPrefixes

def stockOf (parts : List Part) : Stock :=
  parts.foldl (fun stock p =>
    let onHand := p.currentStock.getD Decimal.zero
    putEntry p.ipn (.ok (.finite (if onHand.isZero then Decimal.zero else onHand))) stock) []

def availability (nodes : List ExplodedNode) :
    Option (List Part) → Result (List NettedLine × Option ShortageSummary)
  | none => .ok ([], none)
  | some parts => do
    let lines ← netRequirements nodes (stockOf parts)
    return (lines, some (← Result.ofArithmetic (ShortageSummary.ofLines lines [])))

def bomSection (s : Settings) (expandedDepth : Option Int) (parts : Option (List Part)) :
    Option BomResolution → Result (Section BomSection)
  | none => .ok (.without .skipped "Not an assembly")
  | some r =>
    if r.isOk then do
      let (lines, summary) ← availability r.nodes parts
      let tree := TreeView.ofNodes r.nodes (expandedDepth.getD s.bomExpandedDepth)
      return .loaded ⟨r.buildQty, tree.visibleRows, lines, summary⟩
    else
      let message := r.error.getD ""
      .ok (.without .failed (if message.isEmpty then BomResolution.noData else message))

/-- The section for a cost. A rollup is shown also when the cost itself could not
be fetched. -/
def costSection (cost : Outcome CostEntry) (summary : Option CostSummary) : Section CostSummary :=
  match summary, cost with
  | some summary, .ok _ => .loaded summary
  | some summary, .error f =>
    if summary.hasAny then ⟨.loaded, some summary, some noCost⟩
    else .without (Section.stateOfFault f) noCost
  | none, .ok _ => ⟨.loaded, none, none⟩
  | none, .error f => .without (Section.stateOfFault f) noCost

def assemble (s : Settings) (ipn : String) (expandedDepth : Option Int)
    (resolution : Option BomResolution) (parts : Option (List Part))
    (part : Outcome Part) (cost : Outcome CostEntry) (whereUsed : Outcome (List WhereUsed)) :
    Noted PartView := do
  let bom ← Noted.ofResult (bomSection s expandedDepth parts resolution)
  let summary ← CostSummary.summarize ipn cost.value? resolution (parts.map CostCatalog.ofParts)
  return {
    ipn := ipn
    state := ViewState.ofOutcome part
    message := part.message?
    part := part.value?
    isAssembly := isAssemblyOf s ipn part
    bom := bom
    cost := costSection cost summary
    whereUsed := Section.ofOutcome noWhereUsed whereUsed }

end PartView
end BomEngine
