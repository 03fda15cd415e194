import BomEngine.Schema.Record

/-!
# Parts

The catalog record of an internal part number. The flag `isAssembly` says whether
the part has a bill of materials; a catalog may leave it open.
-/

set_option autoImplicit false

namespace BomEngine

structure Part where
  ipn : String
  category : Option String
  description : Option String
  cost : Option Decimal
  price : Option Decimal
  leadTime : Option Int
  minimumStock : Option Decimal
  currentStock : Option Decimal
  location : Option String
  vendor : Option String
  status : Option String
  isAssembly : Option Bool
  fields : List (String × String)
  deriving DecidableEq, Repr

namespace Part

def ofFields (fs : Fields) : Verdict Part :=
  Part.mk <$> fs.required "ipn" Check.nonempty
    <*> fs.optional "category" Check.text
    <*> fs.optional "description" Check.text
    <*> fs.optional "cost" Check.nonnegative
    <*> fs.optional "price" Check.nonnegative
    <*> fs.optional "lead_time" (Check.atLeast 0)
    <*> fs.optional "minimum_stock" Check.decimal
    <*> fs.optional "current_stock" Check.decimal
    <*> fs.optional "location" Check.text
    <*> fs.optional "vendor" Check.text
    <*> fs.optional "status" Check.text
    <*> fs.optional "is_assembly" Check.bool
    <*> fs.withDefault "fields" [] (Check.orNull [] (Check.mapping Check.text))

def shown (p : Part) : Json :=
  .obj [("ipn", .str p.ipn), ("category", Json.ofOption .str p.category),
    ("description", Json.ofOption .str p.description), ("cost", Json.ofOption .decimal p.cost),
    ("price", Json.ofOption .decimal p.price), ("lead_time", Json.ofOption .int p.leadTime),
    ("minimum_stock", Json.ofOption .decimal p.minimumStock),
    ("current_stock", Json.ofOption .decimal p.currentStock),
    ("location", Json.ofOption .str p.location), ("vendor", Json.ofOption .str p.vendor),
    ("status", Json.ofOption .str p.status), ("is_assembly", Json.ofOption .bool p.isAssembly),
    ("fields", .obj (p.fields.map fun f => (f.1, .str f.2)))]

instance : Record Part := ⟨"Part", Check.record ofFields, shown⟩

def hasPrefix (starts : List String) (ipn : String) : Bool :=
  !ipn.isEmpty && starts.any fun s => (Text.upper s).toList.isPrefixOf (Text.upper ipn).toList

/-- The flag of the part decides; where there is none, the beginning of the IPN. -/
def isAssemblyOf (part : Option Part) (ipn : String) (starts : List String) : Bool :=
  match part.bind Part.isAssembly with
  | some flag => flag
  | none => hasPrefix starts ipn

end Part
end BomEngine
