import BomEngine.Schema.Record

/-!
# Vendors and prices

Vendors, the price history of a part, and the vendor preferred for it: the
cheapest one in its history.
-/

set_option autoImplicit false

namespace BomEngine

structure Vendor where
  id : String
  name : String
  website : Option String
  contactName : Option String
  contactEmail : Option String
  contactPhone : Option String
  notes : Option String
  status : String
  leadTimeDays : Int
  deriving DecidableEq, Repr

namespace Vendor

def ofFields (fs : Fields) : Verdict Vendor :=
  Vendor.mk <$> fs.required "id" Check.text
    <*> fs.required "name" Check.text
    <*> fs.optional "website" Check.text
    <*> fs.optional "contact_name" Check.text
    <*> fs.optional "contact_email" Check.text
    <*> fs.optional "contact_phone" Check.text
    <*> fs.optional "notes" Check.text
    <*> fs.withDefault "status" "active" Check.text
    <*> fs.withDefault "lead_time_days" 0 (Check.atLeast 0)

def shown (v : Vendor) : Json :=
  .obj [("id", .str v.id), ("name", .str v.name), ("website", Json.ofOption .str v.website),
    ("contact_name", Json.ofOption .str v.contactName),
    ("contact_email", Json.ofOption .str v.contactEmail),
    ("contact_phone", Json.ofOption .str v.contactPhone), ("notes", Json.ofOption .str v.notes),
    ("status", .str v.status), ("lead_time_days", .int v.leadTimeDays)]

instance : Record Vendor := ⟨"Vendor", Check.record ofFields, shown⟩

def isActive (v : Vendor) : Bool := Text.lower v.status == "active"

end Vendor

structure PriceRecord where
  id : Option Int
  ipn : String
  vendor : Option String
  vendorName : Option String
  unitPrice : Decimal
  currency : String
  minQty : Int
  leadTimeDays : Option Int
  order : Option String
  recordedAt : Option String
  deriving DecidableEq, Repr

namespace PriceRecord

def ofFields (fs : Fields) : Verdict PriceRecord :=
  PriceRecord.mk <$> fs.optional "id" Check.int
    <*> fs.required "ipn" Check.text
    <*> fs.optional "vendor_id" Check.text
    <*> fs.optional "vendor_name" Check.text
    <*> fs.withDefault "unit_price" Decimal.zero Check.nonnegative
    <*> fs.withDefault "currency" "USD" Check.text
    <*> fs.withDefault "min_qty" 0 Check.int
    <*> fs.optional "lead_time_days" Check.int
    <*> fs.optional "po_id" Check.text
    <*> fs.optional "recorded_at" Check.text

def shown (p : PriceRecord) : Json :=
  .obj [("id", Json.ofOption .int p.id), ("ipn", .str p.ipn),
    ("vendor_id", Json.ofOption .str p.vendor), ("vendor_name", Json.ofOption .str p.vendorName),
    ("unit_price", .decimal p.unitPrice), ("currency", .str p.currency),
    ("min_qty", .int p.minQty), ("lead_time_days", Json.ofOption .int p.leadTimeDays),
    ("po_id", Json.ofOption .str p.order), ("recorded_at", Json.ofOption .str p.recordedAt)]

instance : Record PriceRecord := ⟨"PriceRecord", Check.record ofFields, shown⟩

def namesVendor (p : PriceRecord) : Bool := p.vendor.any fun v => !v.isEmpty

end PriceRecord

structure PreferredSource where
  ipn : String
  vendor : String
  mpn : Option String
  manufacturer : Option String
  unitPrice : Decimal
  deriving DecidableEq, Repr

namespace PreferredSource

def ofFields (fs : Fields) : Verdict PreferredSource :=
  PreferredSource.mk <$> fs.required "ipn" Check.text
    <*> fs.required "vendor_id" Check.text
    <*> fs.optional "mpn" Check.text
    <*> fs.optional "manufacturer" Check.text
    <*> fs.withDefault "unit_price" Decimal.zero Check.nonnegative

def shown (s : PreferredSource) : Json :=
  .obj [("ipn", .str s.ipn), ("vendor_id", .str s.vendor), ("mpn", Json.ofOption .str s.mpn),
    ("manufacturer", Json.ofOption .str s.manufacturer), ("unit_price", .decimal s.unitPrice)]

instance : Record PreferredSource := ⟨"PreferredSource", Check.record ofFields, shown⟩

/-- The first of the cheapest records. -/
def cheapest? : List PriceRecord → Option PriceRecord
  | [] => none
  | p :: rest =>
    match cheapest? rest with
    | none => some p
    | some q => if q.unitPrice.lt p.unitPrice then some q else some p

/-- The cheapest vendor in a price history, if any record names one. -/
def ofPrices (ipn : String) (prices : List PriceRecord) : Option PreferredSource :=
  (cheapest? (prices.filter PriceRecord.namesVendor)).map fun best =>
    ⟨ipn, best.vendor.getD "", none, none, best.unitPrice⟩

end PreferredSource
end BomEngine
