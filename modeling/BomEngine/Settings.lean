import BomEngine.Json.Reader
import BomEngine.Schema.Record

/-!
# Settings

The settings of the engine, with a default for each. They come from values given
directly and, below these, from the environment, where every value is a text.
Names are compared without regard to case.

A list setting may be given as a list or as items with commas between them. In
the environment, however, its text is first read as JSON.
-/

set_option autoImplicit false

namespace BomEngine

structure Settings where
  projectName : String
  version : String
  apiRoot : String
  debug : Bool
  environment : String
  opsApiUrl : String
  opsApiKey : Option String
  opsApiTimeout : Binary64
  allowedOrigins : List String
  assemblyPrefixes : List String
  bomMaxDepth : Int
  bomExpandedDepth : Int
  trustServerStatus : Bool
  openOrderStatuses : List String
  pollInterval : Binary64
  logLevel : String
  logFormat : String
  logFile : Option String
  deriving DecidableEq, Repr

namespace Settings

def seconds (n : Nat) : Binary64 := Binary64.ofDecimal (Decimal.ofInt n)

def defaultOrigins : List String :=
  ["http://localhost:5173", "http://127.0.0.1:5173", "http://localhost:3000",
    "http://127.0.0.1:3000"]

def splitCommas (cs : List Char) : List (List Char) :=
  match cs with
  | [] => [[]]
  | c :: rest =>
    match splitCommas rest with
    | piece :: pieces => if c = ',' then [] :: piece :: pieces else (c :: piece) :: pieces
    | [] => [[c]]

def commaItems (s : String) : List String :=
  ((splitCommas s.toList).map fun p => String.ofList (Text.trimBoth Text.isBlank p)).filter
    fun item => !item.isEmpty

/-- A list setting, where a text stands for the items in it. -/
def listed : Json → Json
  | .str s => Json.strs (commaItems s)
  | j => j

def itemsBy (f : String → String) : Json → Json
  | .arr items => .arr (items.map fun j => .str (f j.shown))
  | j => j

def textList : Check (List String) := Check.list Check.text

def ofFields (fs : Fields) : Verdict Settings :=
  Settings.mk <$> fs.withDefault "PROJECT_NAME" "ZRP BOM Engine" Check.text
    <*> fs.withDefault "VERSION" "1.0.0" Check.text
    <*> fs.withDefault "API_V1_STR" "/api/v1" Check.text
    <*> fs.withDefault "DEBUG" false Check.bool
    <*> fs.withDefault "ENVIRONMENT" "development" Check.text
    <*> fs.withDefault "OPS_API_URL" "http://localhost:9000/api/v1" Check.text
    <*> fs.optional "OPS_API_KEY" Check.text
    <*> fs.withDefault "OPS_API_TIMEOUT_SECONDS" (seconds 10) Check.positiveDouble
    <*> fs.withDefault "ALLOWED_ORIGINS" defaultOrigins (fun j => textList (listed j))
    <*> fs.withDefault "ASSEMBLY_IPN_PREFIXES" ["ASY-", "PCA-"]
      (fun j => textList (itemsBy Text.upper (listed j)))
    <*> fs.withDefault "BOM_MAX_DEPTH" 25 (Check.atLeast 1)
    <*> fs.withDefault "BOM_DEFAULT_EXPANDED_DEPTH" 2 (Check.atLeast 0)
    <*> fs.withDefault "TRUST_SERVER_SHORTAGE_STATUS" false Check.bool
    <*> fs.withDefault "OPEN_PO_STATUSES" ["submitted", "partial"]
      (fun j => textList (itemsBy Text.lower (listed j)))
    <*> fs.withDefault "POLL_INTERVAL_SECONDS" (seconds 5) Check.positiveDouble
    <*> fs.withDefault "LOG_LEVEL" "INFO" Check.text
    <*> fs.withDefault "LOG_FORMAT" "text" Check.text
    <*> fs.optional "LOG_FILE" Check.text

def shown (s : Settings) : Json :=
  .obj [("PROJECT_NAME", .str s.projectName), ("VERSION", .str s.version),
    ("API_V1_STR", .str s.apiRoot), ("DEBUG", .bool s.debug), ("ENVIRONMENT", .str s.environment),
    ("OPS_API_URL", .str s.opsApiUrl), ("OPS_API_KEY", Json.ofOption .str s.opsApiKey),
    ("OPS_API_TIMEOUT_SECONDS", .double s.opsApiTimeout),
    ("ALLOWED_ORIGINS", Json.strs s.allowedOrigins),
    ("ASSEMBLY_IPN_PREFIXES", Json.strs s.assemblyPrefixes),
    ("BOM_MAX_DEPTH", .int s.bomMaxDepth), ("BOM_DEFAULT_EXPANDED_DEPTH", .int s.bomExpandedDepth),
    ("TRUST_SERVER_SHORTAGE_STATUS", .bool s.trustServerStatus),
    ("OPEN_PO_STATUSES", Json.strs s.openOrderStatuses),
    ("POLL_INTERVAL_SECONDS", .double s.pollInterval), ("LOG_LEVEL", .str s.logLevel),
    ("LOG_FORMAT", .str s.logFormat), ("LOG_FILE", Json.ofOption .str s.logFile)]

instance : Record Settings := ⟨"Settings", Check.record ofFields, shown⟩

def isEnvironment (name : String) (s : Settings) : Bool := Text.lower s.environment == name

def isProduction (s : Settings) : Bool := s.isEnvironment "production"

def isDevelopment (s : Settings) : Bool := s.isEnvironment "development"

def names : List String :=
  ["PROJECT_NAME", "VERSION", "API_V1_STR", "DEBUG", "ENVIRONMENT", "OPS_API_URL", "OPS_API_KEY",
    "OPS_API_TIMEOUT_SECONDS", "ALLOWED_ORIGINS", "ASSEMBLY_IPN_PREFIXES", "BOM_MAX_DEPTH",
    "BOM_DEFAULT_EXPANDED_DEPTH", "TRUST_SERVER_SHORTAGE_STATUS", "OPEN_PO_STATUSES",
    "POLL_INTERVAL_SECONDS", "LOG_LEVEL", "LOG_FORMAT", "LOG_FILE"]

def isList (name : String) : Bool :=
  ["ALLOWED_ORIGINS", "ASSEMBLY_IPN_PREFIXES", "OPEN_PO_STATUSES"].contains name

/-- The last value given under a name in any case. -/
def given? {α : Type} (name : String) (values : List (String × α)) : Option α :=
  (values.reverse.find? fun v => Text.lower v.1 == Text.lower name).map fun v => v.2

abbrev Environment := List (String × String)

/-- What the environment says about a setting. The text of a list setting is read
as JSON, where null says nothing. -/
def fromEnvironment (env : Environment) (name : String) : Result (Option Json) :=
  match given? name env with
  | none => .ok none
  | some text =>
    if isList name then
      match Json.ofText text with
      | .ok .null => .ok none
      | .ok j => .ok (some j)
      | .error _ => .error (.unreadableSetting name)
    else .ok (some (.str text))

/-- The fields of the settings: a value given directly before one of the environment. -/
def gather (env : Environment) (direct : Fields) : List String → Result Fields
  | [] => .ok []
  | name :: rest => do
    let above := given? name direct
    let below ← fromEnvironment env name
    let others ← gather env direct rest
    return match above.or below with
      | some j => (name, j) :: others
      | none => others

def load (env : Environment) (direct : Fields) : Result Settings := do
  Record.parse (.obj (← gather env direct names))

def ofEnvironment (env : Environment) : Result Settings := load env []

end Settings

/-- Settings are read when something first asks for them, so settings that cannot
be read only fail what needs them. -/
abbrev Configuration := Result Settings

def Configuration.orElse {α : Type} (config : Configuration) (given : Option α)
    (setting : Settings → α) : Result α :=
  match given with
  | some a => .ok a
  | none => config.map setting

end BomEngine
