import BomEngine.Json.Printer

/-!
# Faults

What the engine itself refuses or cannot do, one constructor a cause. A report is
a fault as others see it: an error code, a message, details without empty
entries, and the HTTP status it is answered with.
-/

set_option autoImplicit false

namespace BomEngine

/-- The kinds of faults. A kind may be a special case of another one. -/
inductive FaultKind where
  | general
  | validation
  | invalidState
  | notFound
  | invalidBom
  | circularBom
  | bomTooDeep
  | statusDrift
  | integration
  | unavailable
  deriving DecidableEq, Repr

namespace FaultKind

def code : FaultKind → String
  | general => "ZRP_ERROR"
  | validation => "VALIDATION_ERROR"
  | invalidState => "INVALID_STATE"
  | notFound => "NOT_FOUND"
  | invalidBom => "INVALID_BOM"
  | circularBom => "CIRCULAR_BOM"
  | bomTooDeep => "BOM_DEPTH_EXCEEDED"
  | statusDrift => "STATUS_DRIFT"
  | integration => "INTEGRATION_ERROR"
  | unavailable => "SERVICE_UNAVAILABLE"

def status : FaultKind → Nat
  | general => 500
  | validation | invalidState => 400
  | notFound => 404
  | invalidBom | circularBom | bomTooDeep | statusDrift => 422
  | integration => 502
  | unavailable => 503

def lineage : FaultKind → List FaultKind
  | general => [general]
  | circularBom => [circularBom, invalidBom, general]
  | bomTooDeep => [bomTooDeep, invalidBom, general]
  | k => [k, general]

end FaultKind

structure Report where
  kind : FaultKind
  message : Json
  details : List (String × Json)

namespace Report

/-- Drops the details that have no value. -/
def make (kind : FaultKind) (message : Json) (details : List (String × Json)) : Report :=
  ⟨kind, message, details.filter fun d => !d.2.isNull⟩

def body (r : Report) : Json :=
  .obj (("error", .str r.kind.code) :: ("message", r.message) ::
    if r.details.isEmpty then [] else [("details", .obj r.details)])

end Report

inductive Fault where
  | validation (message : String) (field : Option String)
  | invalidState (message current : String) (allowed : List String)
  | notFound (resource : String) (id : Option String)
  | circularBom (path : List String)
  | bomTooDeep (ipn : String) (limit : Int)
  | statusDrift (ipn reported expected : String)
  | integration (service message : String) (answered : Option Int)
  | unavailable (service message : String)
  deriving DecidableEq, Repr

namespace Fault

def kind : Fault → FaultKind
  | validation .. => .validation
  | invalidState .. => .invalidState
  | notFound .. => .notFound
  | circularBom .. => .circularBom
  | bomTooDeep .. => .bomTooDeep
  | statusDrift .. => .statusDrift
  | integration .. => .integration
  | unavailable .. => .unavailable

def message : Fault → String
  | validation m _ => m
  | invalidState m _ _ => m
  | notFound resource none => resource ++ " not found"
  | notFound resource (some id) => resource ++ " " ++ id ++ " not found"
  | circularBom path => "invalid BOM: cycle detected (" ++ " -> ".intercalate path ++ ")"
  | bomTooDeep ipn limit =>
    "invalid BOM: " ++ ipn ++ " is nested deeper than " ++ toString limit ++ " levels"
  | statusDrift ipn reported expected =>
    "Shortage status for " ++ ipn ++ " reported as '" ++ reported ++ "', quantities imply '"
      ++ expected ++ "'"
  | integration service m _ => service ++ ": " ++ m
  | unavailable service m => service ++ " " ++ m

def details : Fault → List (String × Json)
  | validation _ field => [("field", Json.ofOption .str field)]
  | invalidState _ current allowed =>
    [("current_state", .str current),
     ("allowed_states", if allowed.isEmpty then .null else Json.strs allowed)]
  | notFound resource id => [("resource", .str resource), ("resource_id", Json.ofOption .str id)]
  | circularBom path => [("path", Json.strs path)]
  | bomTooDeep ipn limit => [("ipn", .str ipn), ("max_depth", .int limit)]
  | statusDrift ipn reported expected =>
    [("ipn", .str ipn), ("reported", .str reported), ("expected", .str expected)]
  | integration service _ status =>
    [("service", .str service), ("upstream_status", Json.ofOption .int status)]
  | unavailable service _ => [("service", .str service)]

def report (f : Fault) : Report := Report.make f.kind (.str f.message) f.details

def isNotFound (f : Fault) : Bool := f.kind == .notFound

def isInvalidBom (f : Fault) : Bool := f.kind.lineage.contains .invalidBom

end Fault

abbrev Outcome (α : Type) := Except Fault α

namespace Outcome

variable {α : Type}

def message? : Outcome α → Option String
  | .ok _ => none
  | .error f => some f.message

def value? : Outcome α → Option α
  | .ok a => some a
  | .error _ => none

end Outcome
end BomEngine
