import BomEngine.Schema.Record
import BomEngine.Status

/-!
# Firmware campaigns

A snapshot of how far a rollout has come. Running campaigns are active.
-/

set_option autoImplicit false

namespace BomEngine

structure Campaign where
  id : String
  name : String
  version : Option String
  status : String
  totalDevices : Int
  completed : Int
  failed : Int
  pending : Int
  deriving DecidableEq, Repr

namespace Campaign

def ofFields (fs : Fields) : Verdict Campaign :=
  Campaign.mk <$> fs.required "id" Check.text
    <*> fs.withDefault "name" "" Check.text
    <*> fs.optional "version" Check.text
    <*> fs.withDefault "status" "draft" Check.text
    <*> fs.withDefault "total_devices" 0 (Check.atLeast 0)
    <*> fs.withDefault "completed" 0 (Check.atLeast 0)
    <*> fs.withDefault "failed" 0 (Check.atLeast 0)
    <*> fs.withDefault "pending" 0 (Check.atLeast 0)

def shown (c : Campaign) : Json :=
  .obj [("id", .str c.id), ("name", .str c.name), ("version", Json.ofOption .str c.version),
    ("status", .str c.status), ("total_devices", .int c.totalDevices),
    ("completed", .int c.completed), ("failed", .int c.failed), ("pending", .int c.pending)]

instance : Record Campaign := ⟨"FirmwareCampaign", Check.record ofFields, shown⟩

def isActive (c : Campaign) : Bool := isActiveCampaign c.status

end Campaign
end BomEngine
