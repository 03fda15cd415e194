import BomEngine.Json.Bytes
import BomEngine.Log.Record
import BomEngine.Service.Address

/-!
# Exchanges with the operations service

A program that talks to the service sends requests and gets replies. What it
does is followed in a world: the replies that are still to come for each route,
the requests that were sent, and the log records that were written. All of it is
kept when the program fails.
-/

set_option autoImplicit false

namespace BomEngine

namespace Service

inductive Method where
  | get
  | post
  deriving DecidableEq, Repr

def Method.text : Method → String
  | .get => "GET"
  | .post => "POST"

structure Request where
  method : Method
  target : Target
  body : Option Json

namespace Request

def line (r : Request) : String := r.method.text ++ " " ++ r.target.text

def path (r : Request) : String := Target.text { r.target with query := none }

end Request

/-- What comes back: a status with a body, which need not be JSON, or nothing. -/
inductive Reply where
  | response (status : Int) (body : Option Json)
  | timedOut
  | unreachable (reason : String)

namespace Reply

def bodyOfBytes (bytes : List Nat) : Option Json := (Json.ofBytes bytes).toOption

def bodyOfChars (cs : List Char) : Option Json := bodyOfBytes (cs.flatMap Text.utf8)

def notFound : Reply := .response 404 (some (.obj [("error", .str "not found")]))

end Reply

/-- The replies for successive requests to each route; the last one is repeated. -/
structure Script where
  root : String
  routes : List (String × List Reply)

namespace Script

def withoutRoot (root path : String) : String :=
  if root.toList.isPrefixOf path.toList then String.ofList (path.toList.drop root.length) else path

def route (s : Script) (r : Request) : String :=
  r.method.text ++ " " ++ withoutRoot s.root r.path

def next (s : Script) (r : Request) : Reply × Script :=
  match s.routes.lookup (s.route r) with
  | none | some [] => (.notFound, s)
  | some [last] => (last, s)
  | some (reply :: rest) => (reply, { s with routes := putEntry (s.route r) rest s.routes })

def replace (s : Script) (routes : List (String × List Reply)) : Script :=
  { s with routes := routes.foldl (fun done r => putEntry r.1 r.2 done) s.routes }

end Script

structure World where
  script : Script
  records : List LogRecord
  sent : List Request

def World.ofScript (script : Script) : World := ⟨script, [], []⟩

end Service

open Service

abbrev Act (α : Type) := ExceptT Failure (StateM World) α

namespace Act

variable {α β : Type}

def ofNoted (x : Noted α) : Act α := fun w =>
  (x.result, { w with records := w.records ++ x.records })

def ofResult (r : Result α) : Act α := fun w => (r, w)

instance : MonadLift Result Act := ⟨ofResult⟩

instance : MonadLift Noted Act := ⟨ofNoted⟩

def note (record : LogRecord) : Act Unit := ofNoted (Noted.note record)

def exchange (r : Request) : Act Reply := fun w =>
  let (reply, script) := w.script.next r
  (.ok reply, { w with script := script, sent := w.sent ++ [r] })

def attempt (x : Act α) : Act (Result α) := fun w =>
  let (r, w) := x w
  (.ok r, w)

/-- What a program gives, also if it ends with a fault. Other failures go on. -/
def outcome (x : Act α) : Act (Except Fault α) := fun w =>
  match x w with
  | (.ok a, w) => (.ok (.ok a), w)
  | (.error (.fault f), w) => (.ok (.error f), w)
  | (.error e, w) => (.error e, w)

end Act
end BomEngine
