import BomEngine.Log.Line
import BomEngine.Settings

/-!
# Setting up the log

The log has a level, below which nothing is written, and a form of its lines. It is
written to the console and, if there is one, to a file. A later setup replaces an
earlier one.
-/

set_option autoImplicit false

namespace BomEngine

inductive LineForm where
  | json
  | plain
  deriving DecidableEq, Repr

structure LogSetup where
  level : Int
  form : LineForm
  toFile : Bool
  deriving DecidableEq, Repr

namespace LogSetup

def transportLevel : Int := 30

def levelNames : List (String × Int) :=
  [("CRITICAL", 50), ("FATAL", 50), ("ERROR", 40), ("WARNING", 30), ("WARN", 30), ("INFO", 20),
    ("DEBUG", 10), ("NOTSET", 0)]

def given (value : Option String) (setting : String) : String :=
  let v := value.getD ""
  if v.isEmpty then setting else v

def ofSettings (s : Settings) (level form : Option String) (file : Bool) : Result LogSetup :=
  match levelNames.lookup (Text.upper (given level s.logLevel)) with
  | none => .error .badValue
  | some n => .ok
    { level := n
      form := if Text.lower (given form s.logFormat) == "json" then .json else .plain
      toFile := file || !(s.logFile.getD "").isEmpty }

def writes (s : LogSetup) (level : Int) : Bool := 0 < level && s.level ≤ level

def line (s : LogSetup) (time : String) (e : LogEntry) : Result String :=
  match s.form with
  | .json => e.jsonLineAt time
  | .plain => e.plainLineAt time

def lines (s : LogSetup) (time : String) (entries : List LogEntry) : Result (List String) :=
  (entries.filter fun e => s.writes e.level).mapM (s.line time)

end LogSetup
end BomEngine
