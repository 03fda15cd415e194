import BomEngine.Schema.Record

/-!
# Quotes

An offer to a customer: lines with quantities and prices.
-/

set_option autoImplicit false

namespace BomEngine

structure QuoteLine where
  id : Option Int
  ipn : String
  description : String
  qty : Decimal
  unitPrice : Decimal
  notes : String
  deriving DecidableEq, Repr

namespace QuoteLine

def ofFields (fs : Fields) : Verdict QuoteLine :=
  QuoteLine.mk <$> fs.optional "id" Check.int
    <*> fs.withDefault "ipn" "" Check.text
    <*> fs.withDefault "description" "" (Check.orNull "" Check.text)
    <*> fs.withDefault "qty" Decimal.zero Check.nonnegative
    <*> fs.withDefault "unit_price" Decimal.zero Check.nonnegative
    <*> fs.withDefault "notes" "" (Check.orNull "" Check.text)

def shown (l : QuoteLine) : Json :=
  .obj [("id", Json.ofOption .int l.id), ("ipn", .str l.ipn), ("description", .str l.description),
    ("qty", .decimal l.qty), ("unit_price", .decimal l.unitPrice), ("notes", .str l.notes)]

instance : Record QuoteLine := ⟨"QuoteLine", Check.record ofFields, shown⟩

end QuoteLine

structure Quote where
  id : String
  customer : String
  status : String
  notes : String
  createdAt : Option String
  validUntil : Option String
  acceptedAt : Option String
  lines : List QuoteLine
  deriving DecidableEq, Repr

namespace Quote

def ofFields (fs : Fields) : Verdict Quote :=
  Quote.mk <$> fs.required "id" Check.text
    <*> fs.withDefault "customer" "" (Check.orNull "" Check.text)
    <*> fs.withDefault "status" "draft" Check.text
    <*> fs.withDefault "notes" "" (Check.orNull "" Check.text)
    <*> fs.optional "created_at" Check.text
    <*> fs.optional "valid_until" Check.text
    <*> fs.optional "accepted_at" Check.text
    <*> fs.withDefault "lines" [] (Check.orNull [] (Check.list Record.check))

def shown (q : Quote) : Json :=
  .obj [("id", .str q.id), ("customer", .str q.customer), ("status", .str q.status),
    ("notes", .str q.notes), ("created_at", Json.ofOption .str q.createdAt),
    ("valid_until", Json.ofOption .str q.validUntil),
    ("accepted_at", Json.ofOption .str q.acceptedAt), ("lines", Record.dumpList q.lines)]

instance : Record Quote := ⟨"Quote", Check.record ofFields, shown⟩

end Quote
end BomEngine
