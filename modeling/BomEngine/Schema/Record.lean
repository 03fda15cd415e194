import BomEngine.Failure
import BomEngine.Schema.Scalar

/-!
# Kinds of records

A kind of record has a name, a check that reads it, and a form in which it is
shown. Numbers of records are shown as texts.
-/

set_option autoImplicit false

namespace BomEngine

class Record (α : Type) where
  name : String
  check : Check α
  dump : α → Json

namespace Record

variable {α : Type} [Record α]

def parse (j : Json) : Result α := Result.ofVerdict (name α) (check j)

def dumpList (xs : List α) : Json := .arr (xs.map dump)

def dumpOption (x : Option α) : Json := Json.ofOption dump x

end Record
end BomEngine
