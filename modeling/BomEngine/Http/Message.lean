import BomEngine.Json.Reader
import BomEngine.Service.Address
import BomEngine.Text.Casing

/-!
# Requests and answers

A request as the application sees it: its path without escapes, the values of its
query, its headers by name in lower case, and the letters of its body.
-/

set_option autoImplicit false

namespace BomEngine.Http

open Service Text

structure Incoming where
  method : String
  path : List Char
  query : List (String × String)
  headers : List (String × String)
  body : List Char

inductive Content where
  | json (j : Json)
  | text (s : String)

structure Answer where
  status : Nat
  content : Content
  headers : List (String × String)

namespace Answer

def json (status : Nat) (j : Json) : Answer := ⟨status, .json j, []⟩

def text (status : Nat) (s : String) : Answer := ⟨status, .text s, []⟩

def withHeaders (a : Answer) (headers : List (String × String)) : Answer :=
  { a with headers := headers.foldl (fun hs h => putEntry h.1 h.2 hs) a.headers }

end Answer

def canFollow (a b : Nat) : Bool :=
  0xe0 ≤ a && a ≤ 0xf4 && (tailBits? b).isSome && (a != 0xe0 || 0xa0 ≤ b)
    && (a != 0xed || b < 0xa0) && (a != 0xf0 || 0x90 ≤ b) && (a != 0xf4 || b < 0x90)

def brokenLength : List Nat → Nat
  | a :: b :: c :: _ =>
    if canFollow a b then if 0xf0 ≤ a && (tailBits? c).isSome then 3 else 2 else 1
  | [a, b] => if canFollow a b then 2 else 1
  | _ => 1

/-- The letters of bytes. What is no letter becomes a replacement sign. -/
def lettersOf : Nat → List Nat → List Char
  | _, [] => []
  | 0, _ => []
  | fuel + 1, bytes =>
    match headLetter? bytes with
    | some (c, rest) => c :: lettersOf fuel rest
    | none => Char.ofNat 0xfffd :: lettersOf fuel (bytes.drop (brokenLength bytes))

def escapedBytes : List Char → List Nat × List Char
  | '%' :: a :: b :: rest =>
    match Json.hexValue? a, Json.hexValue? b with
    | some x, some y => let (bs, r) := escapedBytes rest; ((16 * x + y) :: bs, r)
    | _, _ => ([], '%' :: a :: b :: rest)
  | cs => ([], cs)

def unescapeFrom : Nat → List Char → List Char
  | _, [] => []
  | 0, _ => []
  | fuel + 1, c :: rest =>
    match escapedBytes (c :: rest) with
    | ([], _) => c :: unescapeFrom fuel rest
    | (bytes, rest) => lettersOf bytes.length bytes ++ unescapeFrom fuel rest

def unescape (cs : List Char) : List Char := unescapeFrom cs.length cs

def queryOf (cs : List Char) : List (String × String) :=
  let plain := fun (p : List Char) =>
    String.ofList (unescape (p.map fun c => if c = '+' then ' ' else c))
  let (first, rest) := cut (· = '&') cs
  let others :=
    match rest with
    | _ :: more => if more.length < cs.length then queryOf more else []
    | [] => []
  let (name, value) := cut (· = '=') first
  if first.isEmpty then others else (plain name, plain (value.drop 1)) :: others
termination_by cs.length

namespace Incoming

/-- A request for the text of an address. A query given apart from it replaces
the one in it. -/
def ofAddress (method address : String) (query : Option (List (String × String)))
    (headers : List (String × String)) (body : List Char) : Incoming :=
  let (path, inside) := splitAddress address.toList
  let path := normalized path
  { method := method
    path := unescape (if path.isEmpty then ['/'] else path)
    query := query.getD (queryOf (inside.getD []))
    headers := headers.map fun h => (Text.lower h.1, h.2)
    body := body }

def header? (r : Incoming) (name : String) : Option String := r.headers.lookup name

def queryValue? (r : Incoming) (name : String) : Option String := r.query.reverse.lookup name

/-- The path as it is written to the log: up to a question mark or number sign,
without line signs. -/
def shownPath (r : Incoming) : String :=
  let kept := r.path.filter fun c => !(c = '\t' || c = '\n' || c = '\r')
  String.ofList (cut (fun c => c = '?' || c = '#') kept).1

end Incoming
end BomEngine.Http
