import BomEngine.Fault.Basic

/-!
# Verdicts on incoming records

A record is checked as a whole: all its flaws are collected, in the order of its
fields, each with the path to it. A check that breaks ends the whole check. A
verdict is therefore an applicative and not a monad.
-/

set_option autoImplicit false

namespace BomEngine

inductive Step where
  | field (name : String)
  | index (i : Nat)
  deriving DecidableEq, Repr

inductive FlawKind where
  | missing
  | recordExpected
  | textExpected
  | textTooShort
  | decimalExpected
  | decimalUnreadable
  | notFinite
  | notAbove
  | belowLeast
  | intExpected
  | intHasFraction
  | intUnreadable
  | intTooLarge
  | boolExpected
  | boolUnreadable
  | floatExpected
  | floatUnreadable
  | listExpected
  | tooFew
  | tupleExpected
  | mappingExpected
  | notAMember
  | frozen
  deriving DecidableEq, Repr

namespace FlawKind

def code : FlawKind → String
  | missing => "missing"
  | recordExpected => "model_type"
  | textExpected => "string_type"
  | textTooShort => "string_too_short"
  | decimalExpected => "decimal_type"
  | decimalUnreadable => "decimal_parsing"
  | notFinite => "finite_number"
  | notAbove => "greater_than"
  | belowLeast => "greater_than_equal"
  | intExpected => "int_type"
  | intHasFraction => "int_from_float"
  | intUnreadable => "int_parsing"
  | intTooLarge => "int_parsing_size"
  | boolExpected => "bool_type"
  | boolUnreadable => "bool_parsing"
  | floatExpected => "float_type"
  | floatUnreadable => "float_parsing"
  | listExpected => "list_type"
  | tooFew => "too_short"
  | tupleExpected => "tuple_type"
  | mappingExpected => "dict_type"
  | notAMember => "enum"
  | frozen => "frozen_instance"

end FlawKind

def Step.json : Step → Json
  | .field name => .str name
  | .index i => .int i

structure Flaw where
  path : List Step
  kind : FlawKind
  deriving DecidableEq, Repr

def Flaw.json (f : Flaw) : Json :=
  .obj [("loc", .arr (f.path.map Step.json)), ("type", .str f.kind.code)]

def Flaw.under (step : Step) (f : Flaw) : Flaw := { f with path := step :: f.path }

inductive Verdict (α : Type) where
  | accepted (a : α)
  | refused (flaws : List Flaw)
  | broken
  deriving Repr

namespace Verdict

variable {α β : Type}

def map (f : α → β) : Verdict α → Verdict β
  | accepted a => accepted (f a)
  | refused flaws => refused flaws
  | broken => broken

/-- Both verdicts together: a break wins, then the flaws of both are joined. -/
def both (f : Verdict (α → β)) (x : Verdict α) : Verdict β :=
  match f, x with
  | broken, _ => broken
  | _, broken => broken
  | accepted f, accepted a => accepted (f a)
  | refused fs, refused gs => refused (fs ++ gs)
  | refused fs, accepted _ => refused fs
  | accepted _, refused gs => refused gs

instance : Applicative Verdict where
  pure := accepted
  seq f x := both f (x ())
  map := map

def flaw (kind : FlawKind) : Verdict α := refused [⟨[], kind⟩]

def under (step : Step) : Verdict α → Verdict α
  | refused flaws => refused (flaws.map (Flaw.under step))
  | v => v

def isAccepted : Verdict α → Bool
  | accepted _ => true
  | _ => false

def demand (v : Verdict α) (p : α → Option FlawKind) : Verdict α :=
  match v with
  | accepted a =>
    match p a with
    | none => accepted a
    | some kind => flaw kind
  | v => v

end Verdict

abbrev Fields := List (String × Json)

abbrev Check (α : Type) := Json → Verdict α

namespace Check

variable {α : Type}

def orNull (a : α) (check : Check α) : Check α
  | .null => .accepted a
  | j => check j

def optional (check : Check α) : Check (Option α)
  | .null => .accepted none
  | j => (check j).map some

def demand (check : Check α) (p : α → Option FlawKind) : Check α := fun j => (check j).demand p

def each (check : Check α) : Nat → List Json → Verdict (List α)
  | _, [] => .accepted []
  | i, j :: rest => List.cons <$> (check j).under (.index i) <*> each check (i + 1) rest

def list (check : Check α) : Check (List α)
  | .arr items => each check 0 items
  | _ => .flaw .listExpected

/-- A list whose length is part of its meaning. -/
def tuple (check : Check α) : Check (List α)
  | .arr items => each check 0 items
  | _ => .flaw .tupleExpected

def record (check : Fields → Verdict α) : Check α
  | .obj fields => check fields
  | _ => .flaw .recordExpected

end Check

namespace Fields

variable {α : Type}

def required (fields : Fields) (name : String) (check : Check α) : Verdict α :=
  match fields.lookup name with
  | some j => (check j).under (.field name)
  | none => .refused [⟨[.field name], .missing⟩]

def withDefault (fields : Fields) (name : String) (default : α) (check : Check α) : Verdict α :=
  match fields.lookup name with
  | some j => (check j).under (.field name)
  | none => .accepted default

def optional (fields : Fields) (name : String) (check : Check α) : Verdict (Option α) :=
  fields.withDefault name none (Check.optional check)

end Fields
end BomEngine
