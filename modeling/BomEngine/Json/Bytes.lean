import BomEngine.Json.Reader
import BomEngine.Text.Encoding

/-!
# JSON in bytes

The value in bytes that hold a JSON text in one of the encodings of Unicode.
-/

set_option autoImplicit false

namespace BomEngine.Json

inductive BytesError where
  | noText
  | noJson (e : ReadError)
  deriving DecidableEq, Repr

def ofBytes (bytes : List Nat) : Except BytesError Json :=
  match Text.ofBytes? bytes with
  | none => .error .noText
  | some cs => (ofChars cs).mapError .noJson

end BomEngine.Json
