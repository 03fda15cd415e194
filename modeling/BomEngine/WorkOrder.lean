import BomEngine.Shortage.Line

/-!
# Work orders

An order to build a number of assemblies, and the bill of materials the
operations service has netted for it.
-/

set_option autoImplicit false

namespace BomEngine

structure WorkOrder where
  id : String
  assemblyIpn : String
  qty : Decimal
  status : String
  priority : Option String
  notes : Option String
  createdAt : Option String
  startedAt : Option String
  completedAt : Option String
  deriving DecidableEq, Repr

namespace WorkOrder

def ofFields (fs : Fields) : Verdict WorkOrder :=
  WorkOrder.mk <$> fs.required "id" Check.text
    <*> fs.required "assembly_ipn" Check.text
    <*> fs.required "qty" Check.positive
    <*> fs.withDefault "status" "open" Check.text
    <*> fs.optional "priority" Check.text
    <*> fs.optional "notes" Check.text
    <*> fs.optional "created_at" Check.text
    <*> fs.optional "started_at" Check.text
    <*> fs.optional "completed_at" Check.text

def shown (w : WorkOrder) : Json :=
  .obj [("id", .str w.id), ("assembly_ipn", .str w.assemblyIpn), ("qty", .decimal w.qty),
    ("status", .str w.status), ("priority", Json.ofOption .str w.priority),
    ("notes", Json.ofOption .str w.notes), ("created_at", Json.ofOption .str w.createdAt),
    ("started_at", Json.ofOption .str w.startedAt),
    ("completed_at", Json.ofOption .str w.completedAt)]

instance : Record WorkOrder := ⟨"WorkOrder", Check.record ofFields, shown⟩

end WorkOrder

structure WorkOrderBom where
  workOrder : Option String
  assemblyIpn : String
  qty : Decimal
  lines : List NettedLine
  deriving DecidableEq, Repr

namespace WorkOrderBom

def ofFields (fs : Fields) : Verdict WorkOrderBom :=
  WorkOrderBom.mk <$> fs.optional "wo_id" Check.text
    <*> fs.required "assembly_ipn" Check.text
    <*> fs.withDefault "qty" Decimal.one Check.positive
    <*> fs.withDefault "bom" [] (Check.orNull [] (Check.list Record.check))

def shown (w : WorkOrderBom) : Json :=
  .obj [("wo_id", Json.ofOption .str w.workOrder), ("assembly_ipn", .str w.assemblyIpn),
    ("qty", .decimal w.qty), ("bom", Record.dumpList w.lines)]

instance : Record WorkOrderBom := ⟨"WorkOrderBOM", Check.record ofFields, shown⟩

end WorkOrderBom
end BomEngine
