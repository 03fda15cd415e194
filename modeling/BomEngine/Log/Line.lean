import BomEngine.Log.Moment
import BomEngine.Log.Record
import BomEngine.Log.Template

/-!
# Log lines

A log entry as a line: JSON with the context at the top level, or a plain line with
the time, level and logger in brackets. Context cannot take the names that every
entry has of its own.
-/

set_option autoImplicit false

namespace BomEngine

structure LogEntry where
  logger : String
  level : Int
  template : String
  args : List Json
  created : Json
  context : List (String × Json)
  error : Option String

namespace LogEntry

def levels : List (Int × String) :=
  [(50, "CRITICAL"), (40, "ERROR"), (30, "WARNING"), (20, "INFO"), (10, "DEBUG"), (0, "NOTSET")]

def levelName (level : Int) : String :=
  (levels.lookup level).getD ("Level " ++ toString level)

def loggerName (name : String) : String := if name.isEmpty then "root" else name

def ownNames : List String :=
  ["name", "msg", "args", "levelname", "levelno", "pathname", "filename", "module", "exc_info",
    "exc_text", "stack_info", "lineno", "funcName", "created", "msecs", "relativeCreated", "thread",
    "threadName", "processName", "process", "message", "asctime"]

def errorText (message : String) : String :=
  if message.isEmpty then "ValueError" else "ValueError: " ++ message

def withoutLineEnd (s : String) : String :=
  let cs := s.toList
  if cs.getLast? = some '\n' then String.ofList cs.dropLast else s

/-- The context that is written: names with a low line in front are left out. -/
def written (e : LogEntry) : List (String × Json) :=
  e.context.filter fun c => !c.1.startsWith "_"

def fields (e : LogEntry) (time message : String) : List (String × Json) :=
  let own : List (String × Json) :=
    [("timestamp", .str time), ("level", .str (levelName e.level)),
      ("logger", .str (loggerName e.logger)), ("message", .str message)]
  let all := e.written.foldl (fun done c => putEntry c.1 c.2 done) own
  match e.error with
  | some m => putEntry "exc_info" (.str (withoutLineEnd (errorText m))) all
  | none => all

def checkNames (e : LogEntry) : Result Unit :=
  if e.context.any fun c => ownNames.contains c.1 then .error .nameTaken else .ok ()

def jsonLineAt (e : LogEntry) (time : String) : Result String := do
  e.checkNames
  return (Json.obj (e.fields time (← Template.fill e.template e.args))).text

def jsonLine (e : LogEntry) : Result String := do
  e.checkNames
  e.jsonLineAt (← Moment.text e.created)

def plainLineAt (e : LogEntry) (time : String) : Result String := do
  return "[" ++ time ++ "] [" ++ levelName e.level ++ "] [" ++ loggerName e.logger ++ "] "
    ++ (← Template.fill e.template e.args)

end LogEntry
end BomEngine
