import BomEngine.Http.Complaint
import BomEngine.Http.Cors
import BomEngine.Http.Route
import BomEngine.Service.Loading

/-!
# The application

Answers requests from the views and the operations on orders. Faults are answered
with their report, complaints about a request with all of them, and any other
failure with a text that does not tell what it was.
-/

set_option autoImplicit false

namespace BomEngine.Http

structure Application where
  settings : Settings
  current : Settings
  client : OpsClient
  now : String

inductive Refusal where
  | complaints (cs : List Complaint)
  | unreadableBody
  | failure (f : Failure)

abbrev Reading (α : Type) := Except Refusal α

def refused (complaints : List Complaint) {α : Type} : Reading α := .error (.complaints complaints)

def isJsonType (s : String) : Bool :=
  let kind := Text.lower (Text.trim (String.ofList (Service.cut (· = ';') s.toList).1))
  kind = "application/json" || (kind.startsWith "application/" && kind.endsWith "+json")

def bodyMissing : Complaint := ⟨"", FlawKind.missing.message, FlawKind.missing.code⟩

def notJson (offset : Nat) : Complaint := ⟨toString offset, "JSON decode error", "json_invalid"⟩

/-- The JSON of a body. A body of another content type is no record. -/
def bodyJson (r : Incoming) : Reading Json :=
  if r.body.isEmpty then refused [bodyMissing]
  else if !((r.header? "content-type").all isJsonType) then .ok (.str "")
  else
    match Json.ofBytes (r.body.flatMap Text.utf8) with
    | .ok .null => refused [bodyMissing]
    | .ok j => .ok j
    | .error (.noJson (.unexpectedAt offset)) => refused [notJson offset]
    | .error _ => .error .unreadableBody

def checked {α : Type} (within : List Step) : Verdict α → Reading α
  | .accepted a => .ok a
  | .refused flaws => refused (flaws.map (Complaint.ofFlaw within))
  | .broken => .error (.failure .noText)

def bodyRecord (α : Type) [Record α] (r : Incoming) : Reading α := do
  checked [.field "body"] (Record.check (← bodyJson r))

def buildQty (r : Incoming) : Reading Decimal :=
  match r.queryValue? "build_qty" with
  | none => .ok Decimal.one
  | some s => checked [.field "query", .field "build_qty"] (Check.positive (.str s))

abbrev Serve (α : Type) := ExceptT Refusal (StateM Service.World) α

def reading {α : Type} (x : Reading α) : Serve α := fun w => (x, w)

def doing {α : Type} (x : Act α) : Serve α := fun w =>
  match x w with
  | (.ok a, w) => (.ok a, w)
  | (.error f, w) => (.error (.failure f), w)

def shown {α : Type} [Record α] (x : Act α) : Serve Answer := do
  return .json 200 (Record.dump (← doing x))

namespace Application

def serve (app : Application) (r : Incoming) : Route → Serve Answer
  | .home => return .json 200 (.obj [("message", .str app.settings.projectName),
      ("version", .str app.settings.version), ("status", .str "online")])
  | .health => return .json 200 (.obj [("status", .str "healthy")])
  | .partDetail ipn => do
    let qty ← reading (buildQty r)
    shown (Loading.partDetail app.client app.current ipn (.ok qty) none)
  | .shortages id => shown (Loading.workOrderShortages app.client app.current id)
  | .generateOrder id => do
    let choice ← reading (bodyRecord VendorChoice r)
    let made ← shown (Loading.generateOrder app.client app.current id choice.vendor)
    return { made with status := 201 }
  | .suggestions id => shown (Loading.suggestions app.client app.current id)
  | .receiving id => shown (Loading.receiving app.client app.current id)
  | .receive id => do
    let asked ← reading (bodyRecord ReceiptRequest r)
    shown (Loading.receive app.client app.current id asked.lines asked.skipInspection)
  | .costing id => shown (Loading.quoteCosting app.client id)

def logger : String := "app.main"

def stamped (app : Application) : Json → Json
  | .obj fields => .obj (fields ++ [("timestamp", .str app.now)])
  | j => j

def faultRecord (r : Incoming) (f : Fault) : LogRecord :=
  .warning logger ("ZRP Exception: " ++ f.kind.code ++ " - " ++ f.message)
    [("error_code", .str f.kind.code), ("details", .obj f.report.details),
      ("path", .str r.shownPath)]

def complaintsRecord (r : Incoming) (cs : List Complaint) : LogRecord :=
  .warning logger ("Validation error on " ++ r.shownPath)
    [("errors", .arr (cs.map Complaint.json))]

def unexpectedRecord (r : Incoming) : LogRecord :=
  .error logger ("Unexpected error on " ++ r.shownPath) []

def complaintsBody (cs : List Complaint) : Json :=
  .obj [("error", .str "VALIDATION_ERROR"), ("message", .str "Request validation failed"),
    ("details", .obj [("errors", .arr (cs.map Complaint.json))])]

def unexpectedBody : Json :=
  .obj [("error", .str "INTERNAL_ERROR"),
    ("message", .str "An unexpected error occurred. Please try again later.")]

def detail (status : Nat) (s : String) : Answer := .json status (.obj [("detail", .str s)])

def securityHeaders (app : Application) : List (String × String) :=
  [("x-frame-options", "DENY"), ("x-content-type-options", "nosniff"),
    ("referrer-policy", "strict-origin-when-cross-origin")]
    ++ if app.settings.isProduction then
        [("strict-transport-security", "max-age=31536000; includeSubDomains")]
      else []

def finished (app : Application) (r : Incoming) (a : Answer) : Answer :=
  (a.withHeaders app.securityHeaders).withHeaders (Cors.headers app.settings.allowedOrigins r)

/-- The answer to a refused request. An unexpected failure gets no headers. -/
def refusal (app : Application) (r : Incoming) : Refusal → LogRecord × Answer
  | .complaints cs =>
    (complaintsRecord r cs, app.finished r (.json 422 (app.stamped (complaintsBody cs))))
  | .failure (.fault f) =>
    (faultRecord r f, app.finished r (.json f.kind.status (app.stamped f.report.body)))
  | _ => (unexpectedRecord r, .json 500 (app.stamped unexpectedBody))

def unrouted (app : Application) (r : Incoming) : Answer :=
  if Route.isMisspelt app.settings.apiRoot r.path then .text 307 "" else detail 404 "Not Found"

def routed (app : Application) (r : Incoming) (route : Route) (w : Service.World) :
    Answer × Service.World :=
  match app.serve r route w with
  | (.ok a, w) => (app.finished r a, w)
  | (.error .unreadableBody, w) =>
    (app.finished r (detail 400 "There was an error parsing the body"), w)
  | (.error why, w) =>
    let (record, a) := app.refusal r why
    (a, { w with records := w.records ++ [record] })

def answer (app : Application) (r : Incoming) (w : Service.World) : Answer × Service.World :=
  match Cors.preflight? app.settings.allowedOrigins r with
  | some a => (a, w)
  | none =>
    match Route.ofPath? app.settings.apiRoot r.path with
    | none => (app.finished r (app.unrouted r), w)
    | some route =>
      if route.method = r.method then app.routed r route w
      else (app.finished r (detail 405 "Method Not Allowed"), w)

def startRecord (s : Settings) : LogRecord :=
  .info logger "Starting ZRP BOM Engine"
    [("version", .str s.version), ("environment", .str s.environment),
      ("ops_api_url", .str s.opsApiUrl)]

def stopRecord : LogRecord := .info logger "Shutting down ZRP BOM Engine" []

def lifespan (s : Settings) : Noted OpsClient := do
  Noted.note (startRecord s)
  let client := OpsClient.ofSettings s none none none
  Noted.note stopRecord
  return client

end Application
end BomEngine.Http
