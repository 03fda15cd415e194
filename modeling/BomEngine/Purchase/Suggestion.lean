import BomEngine.Log.Record
import BomEngine.Purchase.Vendor
import BomEngine.Shortage.Line

/-!
# Suggested orders

The short lines of a netted list, grouped by the vendor preferred for each part.
Parts without a preferred vendor are listed apart.
-/

set_option autoImplicit false

namespace BomEngine

structure SuggestedLine where
  ipn : String
  mpn : Option String
  manufacturer : Option String
  needed : Decimal
  unitPrice : Decimal
  deriving DecidableEq, Repr

namespace SuggestedLine

def ofFields (fs : Fields) : Verdict SuggestedLine :=
  SuggestedLine.mk <$> fs.required "ipn" Check.text
    <*> fs.optional "mpn" Check.text
    <*> fs.optional "manufacturer" Check.text
    <*> fs.required "qty_needed" Check.decimal
    <*> fs.withDefault "estimated_unit_price" Decimal.zero Check.decimal

def shown (l : SuggestedLine) : Json :=
  .obj [("ipn", .str l.ipn), ("mpn", Json.ofOption .str l.mpn),
    ("manufacturer", Json.ofOption .str l.manufacturer), ("qty_needed", .decimal l.needed),
    ("estimated_unit_price", .decimal l.unitPrice)]

instance : Record SuggestedLine := ⟨"POSuggestionLine", Check.record ofFields, shown⟩

def total (l : SuggestedLine) : Except Signal Decimal := l.needed.mul l.unitPrice

def ofSource (l : NettedLine) (s : PreferredSource) : SuggestedLine :=
  ⟨l.ipn, s.mpn, s.manufacturer, l.shortage, s.unitPrice⟩

end SuggestedLine

structure SuggestedOrder where
  vendor : String
  notes : Option String
  lines : List SuggestedLine
  deriving DecidableEq, Repr

namespace SuggestedOrder

def ofFields (fs : Fields) : Verdict SuggestedOrder :=
  SuggestedOrder.mk <$> fs.required "vendor_id" Check.text
    <*> fs.optional "notes" Check.text
    <*> fs.withDefault "lines" [] (Check.list Record.check)

def shown (o : SuggestedOrder) : Json :=
  .obj [("vendor_id", .str o.vendor), ("notes", Json.ofOption .str o.notes),
    ("lines", Record.dumpList o.lines)]

instance : Record SuggestedOrder := ⟨"POSuggestion", Check.record ofFields, shown⟩

def total (o : SuggestedOrder) : Except Signal Decimal :=
  o.lines.foldlM (fun sum l => do sum.add (← l.total)) Decimal.zero

def ofLines (vendor : String) (lines : List SuggestedLine) : SuggestedOrder :=
  ⟨vendor, some ("Suggested order for " ++ toString lines.length ++ " short part(s)"), lines⟩

end SuggestedOrder

structure SuggestionSet where
  suggestions : List SuggestedOrder
  unassigned : List String
  deriving DecidableEq, Repr

namespace SuggestionSet

def ofFields (fs : Fields) : Verdict SuggestionSet :=
  SuggestionSet.mk <$> fs.withDefault "suggestions" [] (Check.list Record.check)
    <*> fs.withDefault "unassigned" [] (Check.list Check.text)

def shown (s : SuggestionSet) : Json :=
  .obj [("suggestions", Record.dumpList s.suggestions), ("unassigned", Json.strs s.unassigned)]

instance : Record SuggestionSet := ⟨"POSuggestionSet", Check.record ofFields, shown⟩

abbrev Sources := List (String × PreferredSource)

def addTo (vendor : String) (line : SuggestedLine) (groups : List (String × List SuggestedLine)) :
    List (String × List SuggestedLine) :=
  putEntry vendor ((groups.lookup vendor).getD [] ++ [line]) groups

def grouped (sources : Sources) (lines : List NettedLine) : List (String × List SuggestedLine) :=
  lines.foldl (fun groups l =>
    match sources.lookup l.ipn with
    | some s => addTo s.vendor (SuggestedLine.ofSource l s) groups
    | none => groups) []

def withoutSource (sources : Sources) (lines : List NettedLine) : List String :=
  (lines.filter fun l => (sources.lookup l.ipn).isNone).map NettedLine.ipn

def ofShort (sources : Sources) (short : List NettedLine) : SuggestionSet :=
  ⟨(grouped sources short).map fun g => SuggestedOrder.ofLines g.1 g.2, withoutSource sources short⟩

def unassignedRecord (ipns : List String) : LogRecord :=
  .info "app.services.procurement"
    (toString ipns.length ++ " short part(s) have no preferred vendor") [("ipns", Json.strs ipns)]

def ofLines (sources : Sources) (lines : List NettedLine) : Noted SuggestionSet := do
  let set := ofShort sources (shortLines lines)
  if !set.unassigned.isEmpty then Noted.note (unassignedRecord set.unassigned)
  return set

end SuggestionSet
end BomEngine
