import BomEngine.Schema.Verdict

/-!
# Failures

Everything that can end an operation without a result: a fault of the engine, a
record with flaws, settings that cannot be read, a signal from arithmetic, and
the few ways in which a value can be of no use where it is needed.
-/

set_option autoImplicit false

namespace BomEngine

inductive Failure where
  | fault (f : Fault)
  | flaws (record : String) (flaws : List Flaw)
  /-- The value of a list setting in the environment is no JSON. -/
  | unreadableSetting (name : String)
  | signal (s : Signal)
  /-- Something that is no text where the case of a text is asked for. -/
  | noText
  /-- A value that follows from others and cannot be set. -/
  | derived
  | wrongArguments
  | nameTaken
  | unknownName
  | tooLarge
  | badValue
  | badAddress
  | crash
  deriving DecidableEq, Repr

abbrev Result (α : Type) := Except Failure α

namespace Result

variable {α : Type}

def ofArithmetic : Except Signal α → Result α
  | .ok a => .ok a
  | .error s => .error (.signal s)

def ofVerdict (record : String) : Verdict α → Result α
  | .accepted a => .ok a
  | .refused flaws => .error (.flaws record flaws)
  | .broken => .error .noText

def number (j : Json) : Result Number :=
  match j.number? with
  | some n => .ok n
  | none => .error (.signal .invalid)

end Result

instance {α : Type} : Coe (Except Signal α) (Result α) := ⟨Result.ofArithmetic⟩

end BomEngine
