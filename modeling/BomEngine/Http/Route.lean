import BomEngine.Http.Message

/-!
# Routes

What the application can be asked for. Every route has one method. A step of a
path that names something must not be empty.
-/

set_option autoImplicit false

namespace BomEngine.Http

open Service

inductive Route where
  | home
  | health
  | partDetail (ipn : String)
  | shortages (workOrder : String)
  | generateOrder (workOrder : String)
  | suggestions (workOrder : String)
  | receiving (order : String)
  | receive (order : String)
  | costing (quote : String)
  deriving DecidableEq, Repr

namespace Route

def method : Route → String
  | generateOrder _ | receive _ => "POST"
  | _ => "GET"

def table : List (String × String × (String → Route)) :=
  [("parts", "detail", partDetail), ("work-orders", "shortages", shortages),
    ("work-orders", "purchase-orders", generateOrder),
    ("work-orders", "purchase-suggestions", suggestions),
    ("purchase-orders", "receiving", receiving), ("purchase-orders", "receive", receive),
    ("quotes", "costing", costing)]

def ofSteps? : List (List Char) → Option Route
  | [[], kind, name, aspect] =>
    if name.isEmpty then none
    else (table.find? fun t => t.1.toList == kind && t.2.1.toList == aspect).map
      fun t => t.2.2 (String.ofList name)
  | _ => none

def afterRoot? : List Char → List Char → Option (List Char)
  | [], path => some path
  | r :: root, c :: path => if r = c then afterRoot? root path else none
  | _ :: _, [] => none

def withoutLineEnd (path : List Char) : List Char :=
  if path.getLast? = some '\n' then path.dropLast else path

def ofPath? (root : String) (path : List Char) : Option Route :=
  let path := withoutLineEnd path
  if path = ['/'] then some home
  else if path = "/health".toList then some health
  else (afterRoot? root.toList path).bind fun rest => ofSteps? (steps rest)

def otherEnd (path : List Char) : List Char :=
  if path.getLast? = some '/' then (path.reverse.dropWhile (· = '/')).reverse else path ++ ['/']

def isMisspelt (root : String) (path : List Char) : Bool :=
  path != ['/'] && (ofPath? root (otherEnd path)).isSome

end Route
end BomEngine.Http
