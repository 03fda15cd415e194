import BomEngine.Http.Message
import BomEngine.Settings

/-!
# Requests from other origins

Which origins may use the application from a browser. A browser asks in advance
with a preflight, which is answered without looking at the path.
-/

set_option autoImplicit false

namespace BomEngine.Http.Cors

def methods : List String := ["GET", "POST", "OPTIONS"]

def headerNames : List String :=
  ["Accept", "Accept-Language", "Authorization", "Content-Language", "Content-Type", "Origin"]

def anyOrigin (origins : List String) : Bool := origins.contains "*"

def isAllowed (origins : List String) (origin : String) : Bool :=
  anyOrigin origins || origins.contains origin

def allowOrigin (value : String) : String × String := ("access-control-allow-origin", value)

def credentials : String × String := ("access-control-allow-credentials", "true")

def named (name : String) : Bool :=
  (headerNames.map Text.lower).contains (Text.lower (Text.trim name))

def failures (origins : List String) (r : Incoming) (origin method : String) : List String :=
  let asked := ((r.header? "access-control-request-headers").map fun s =>
    (Settings.splitCommas s.toList).map String.ofList).getD []
  (if isAllowed origins origin then [] else ["origin"])
    ++ (if methods.contains method then [] else ["method"])
    ++ (if asked.all named then [] else ["headers"])

def preflight (origins : List String) (r : Incoming) (origin method : String) : Answer :=
  let headers :=
    (if isAllowed origins origin then [allowOrigin origin] else [])
      ++ [("access-control-allow-methods", ", ".intercalate methods),
        ("access-control-max-age", "600"),
        ("access-control-allow-headers", ", ".intercalate headerNames), credentials]
  match failures origins r origin method with
  | [] => (Answer.text 200 "OK").withHeaders headers
  | wrong => (Answer.text 400 ("Disallowed CORS " ++ ", ".intercalate wrong)).withHeaders headers

def preflight? (origins : List String) (r : Incoming) : Option Answer :=
  if r.method = "OPTIONS" then
    match r.header? "origin", r.header? "access-control-request-method" with
    | some origin, some method => some (preflight origins r origin method)
    | _, _ => none
  else none

def headers (origins : List String) (r : Incoming) : List (String × String) :=
  match r.header? "origin" with
  | none => []
  | some origin =>
    let allowed :=
      if anyOrigin origins then
        [allowOrigin (if (r.header? "cookie").isSome then origin else "*")]
      else if isAllowed origins origin then [allowOrigin origin]
      else []
    credentials :: allowed

end BomEngine.Http.Cors
