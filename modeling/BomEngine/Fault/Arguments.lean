import BomEngine.Fault.Basic

/-!
# Reports from named arguments

A report can be made of any values, given by place or by name. Each kind names
its parameters, says which may be given by place and which have a default, and
whether further names are taken over as details. Arguments that do not fit the
parameters make no report.
-/

set_option autoImplicit false

namespace BomEngine.Report

structure Parameter where
  name : String
  default? : Option Json

structure Signature where
  byPlace : List Parameter
  byName : List Parameter
  further : Bool

def needed (name : String) : Parameter := ⟨name, none⟩

def optionally (name : String) : Parameter := ⟨name, some .null⟩

def signature : FaultKind → Signature
  | .general | .invalidBom => ⟨[needed "message"], [], true⟩
  | .validation => ⟨[needed "message"], [optionally "field"], false⟩
  | .invalidState =>
    ⟨[needed "message"], [optionally "current_state", optionally "allowed_states"], false⟩
  | .notFound => ⟨[needed "resource", optionally "resource_id"], [], false⟩
  | .circularBom => ⟨[needed "path"], [], false⟩
  | .bomTooDeep => ⟨[needed "ipn"], [needed "max_depth"], false⟩
  | .statusDrift => ⟨[needed "ipn"], [needed "reported", needed "expected"], false⟩
  | .integration => ⟨[needed "service", needed "message"], [optionally "upstream_status"], false⟩
  | .unavailable => ⟨[needed "service", ⟨"message", some (.str "is unreachable")⟩], [], false⟩

def Signature.bind? (s : Signature) (args : List Json) (named : List (String × Json)) :
    Option (List (String × Json) × List (String × Json)) :=
  if s.byPlace.length < args.length then none
  else
    let placed := (s.byPlace.zip args).map fun p => (p.1.name, p.2)
    let open_ := s.byPlace.drop args.length ++ s.byName
    let known := fun n => open_.any fun p => p.name == n
    let others := named.filter fun f => !known f.1
    if (named.any fun f => hasEntry f.1 placed) || (!s.further && !others.isEmpty) then none
    else
      (open_.mapM fun p => ((named.lookup p.name).or p.default?).map fun v => (p.name, v)).map
        fun values => (placed ++ values, others)

/-- The texts that a value lists: its letters, its names or its items. -/
def listed? : Json → Option (List Json)
  | .str s => some (s.toList.map fun c => .str (String.ofList [c]))
  | .arr items => some items
  | .obj fields => some (fields.map fun f => .str f.1)
  | _ => none

def text? : Json → Option String
  | .str s => some s
  | _ => none

/-- The report of a kind for bound arguments, or `none` where a list is asked for
and something else is given. -/
def ofBound? (kind : FaultKind) (value : String → Json) (others : List (String × Json)) :
    Option Report :=
  let made := fun (message : String) (names : List String) =>
    some (make kind (.str message) (names.map fun n => (n, value n)))
  match kind with
  | .general | .invalidBom => some (make kind (value "message") others)
  | .validation => some (make kind (value "message") [("field", value "field")])
  | .invalidState =>
    let allowed := value "allowed_states"
    let states := if allowed.isTruthy then (listed? allowed).map Json.arr else some .null
    states.map fun states => make kind (value "message")
      [("current_state", value "current_state"), ("allowed_states", states)]
  | .notFound =>
    let id := value "resource_id"
    let id := if id.isNull then none else some id.shown
    let resource := value "resource"
    some (make kind (.str (Fault.notFound resource.shown id).message)
      [("resource", resource), ("resource_id", Json.ofOption .str id)])
  | .circularBom =>
    match listed? (value "path") with
    | none => none
    | some items => (items.mapM text?).map fun path =>
      make kind (.str (Fault.circularBom path).message) [("path", Json.strs path)]
  | .bomTooDeep =>
    made ("invalid BOM: " ++ (value "ipn").shown ++ " is nested deeper than "
      ++ (value "max_depth").shown ++ " levels") ["ipn", "max_depth"]
  | .statusDrift =>
    made (Fault.statusDrift (value "ipn").shown (value "reported").shown
      (value "expected").shown).message ["ipn", "reported", "expected"]
  | .integration =>
    made ((value "service").shown ++ ": " ++ (value "message").shown)
      ["service", "upstream_status"]
  | .unavailable =>
    made ((value "service").shown ++ " " ++ (value "message").shown) ["service"]

def ofArguments? (kind : FaultKind) (args : List Json) (named : List (String × Json)) :
    Option Report :=
  match (signature kind).bind? args named with
  | none => none
  | some (bound, others) => ofBound? kind (fun n => (bound.lookup n).getD .null) others

end BomEngine.Report
