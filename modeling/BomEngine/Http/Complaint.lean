import BomEngine.Schema.Record

/-!
# Complaints

What is wrong with a request, flaw by flaw: the field, a message for people, and
the code of the flaw.
-/

set_option autoImplicit false

namespace BomEngine

def FlawKind.message : FlawKind → String
  | missing => "Field required"
  | recordExpected => "Input should be a valid dictionary or object to extract fields from"
  | textExpected => "Input should be a valid string"
  | textTooShort => "String should have at least 1 character"
  | decimalExpected => "Decimal input should be an integer, float, string or Decimal object"
  | decimalUnreadable => "Input should be a valid decimal"
  | notFinite => "Input should be a finite number"
  | notAbove => "Input should be greater than 0"
  | belowLeast => "Input should be greater than or equal to 0"
  | intExpected => "Input should be a valid integer"
  | intHasFraction => "Input should be a valid integer, got a number with a fractional part"
  | intUnreadable => "Input should be a valid integer, unable to parse string as an integer"
  | intTooLarge => "Unable to parse input string as an integer, exceeded maximum size"
  | boolExpected => "Input should be a valid boolean"
  | boolUnreadable => "Input should be a valid boolean, unable to interpret input"
  | floatExpected => "Input should be a valid number"
  | floatUnreadable => "Input should be a valid number, unable to parse string as a number"
  | listExpected => "Input should be a valid list"
  | tooFew => "List should have at least 1 item after validation, not 0"
  | tupleExpected => "Input should be a valid tuple"
  | mappingExpected => "Input should be a valid dictionary"
  | notAMember => "Input should be a known value"
  | frozen => "Instance is frozen"

namespace Http

structure Complaint where
  field : String
  message : String
  code : String

namespace Complaint

def stepText : Step → String
  | .field name => name
  | .index i => toString i

def fieldOf (path : List Step) : String :=
  ".".intercalate ((path.map stepText).filter fun s => s != "body")

def codeOf (f : Flaw) : String :=
  match f.kind with
  | .recordExpected => "model_attributes_type"
  | kind => kind.code

def ofFlaw (within : List Step) (f : Flaw) : Complaint :=
  ⟨fieldOf (within ++ f.path), f.kind.message, codeOf f⟩

def json (c : Complaint) : Json :=
  .obj [("field", .str c.field), ("message", .str c.message), ("type", .str c.code)]

end Complaint
end Http
end BomEngine
