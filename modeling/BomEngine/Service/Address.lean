import BomEngine.Failure
import BomEngine.Text.Quoted
import BomEngine.Text.Utf8

/-!
# Addresses

How the text of an address becomes the target of a request. A question mark
starts the query, a number sign what is not sent. Unsafe letters are written as
percent escapes, escapes that are there already stay, and dots that stand for a
whole step of the path are removed. Control characters and very long addresses
are refused.
-/

set_option autoImplicit false

namespace BomEngine.Service

open Text

structure Target where
  path : List Char
  query : Option (List Char)
  deriving DecidableEq, Repr

namespace Target

/-- Path and query as they are sent. An empty path is sent as a stroke. -/
def chars (t : Target) : List Char :=
  (if t.path.isEmpty then ['/'] else t.path) ++
    match t.query with
    | some q => '?' :: q
    | none => []

def text (t : Target) : String := String.ofList t.chars

end Target

def isControl (c : Char) : Bool := c.toNat < 32 || c.toNat = 127

def longest : Nat := 65536

def escapedByte (b : Nat) : List Char := '%' :: (hexOf 2 b).map Char.toUpper

def escape (safe : Char → Bool) (cs : List Char) : List Char :=
  cs.flatMap fun c => if safe c then [c] else (utf8 c).flatMap escapedByte

def querySafe (c : Char) : Bool :=
  ' ' < c && c ≤ '~' && !(c = '"' || c = '<' || c = '>')

def pathSafe (c : Char) : Bool := querySafe c && !(c = Char.ofNat 96 || c = '\x7b' || c = '\x7d')

def cut (stop : Char → Bool) (cs : List Char) : List Char × List Char :=
  (cs.takeWhile fun c => !stop c, cs.dropWhile fun c => !stop c)

def splitAddress (cs : List Char) : List Char × Option (List Char) :=
  let (path, rest) := cut (fun c => c = '?' || c = '#') cs
  match rest with
  | '?' :: rest => (path, some (cut (· = '#') rest).1)
  | _ => (path, none)

def steps (cs : List Char) : List (List Char) :=
  match cs with
  | [] => [[]]
  | c :: rest =>
    if c = '/' then [] :: steps rest
    else
      match steps rest with
      | s :: ss => (c :: s) :: ss
      | [] => [[c]]

def back (done : List (List Char)) : List (List Char) :=
  if done = [[]] then done else done.drop 1

/-- Steps without the dots among them. The steps kept so far are given last first. -/
def withoutDots : List (List Char) → List (List Char) → List (List Char)
  | done, [] => done.reverse
  | done, s :: rest =>
    if s = ['.'] then withoutDots done rest
    else if s = ['.', '.'] then withoutDots (back done) rest
    else withoutDots (s :: done) rest

def normalized (path : List Char) : List Char := List.intercalate ['/'] (withoutDots [] (steps path))

def Target.ofRaw (raw : List Char) : Target :=
  let (path, rest) := cut (· = '?') raw
  ⟨escape pathSafe (normalized path),
    match rest with
    | '?' :: q => some (escape querySafe q)
    | _ => none⟩

def tooLong (cs : List Char) : Bool := longest < cs.length

def Target.below (base : List Char) (address : String) : Result Target :=
  let cs := address.toList
  if cs.any isControl || tooLong cs then .error .badAddress
  else
    let (path, query) := splitAddress cs
    let relative : Target := ⟨escape pathSafe path, query.map (escape querySafe)⟩
    let raw := base ++ relative.chars.dropWhile (· = '/')
    let (merged, rest) := cut (· = '?') raw
    if tooLong merged || tooLong (rest.drop 1) then .error .badAddress
    else .ok (Target.ofRaw raw)

/-- Where the service is: the address as it is shown, and the path that every
request begins with. -/
structure Base where
  shown : String
  path : List Char
  deriving DecidableEq, Repr

namespace Base

def splitScheme (cs : List Char) : List Char × List Char :=
  let (scheme, rest) := cut (fun c => c = ':' || c = '/') cs
  match rest with
  | ':' :: '/' :: '/' :: rest => (scheme.map Char.toLower, rest)
  | _ => ([], cs)

def plainHost (scheme host : List Char) : List Char :=
  let host := host.map Char.toLower
  let dropEnd := fun (end_ : List Char) =>
    if end_.isSuffixOf host then host.take (host.length - end_.length) else host
  if scheme = "http".toList then dropEnd ":80".toList
  else if scheme = "https".toList then dropEnd ":443".toList
  else host

/-- The base for the text of an address. Strokes at its end do not count; a base
with a path ends with one. -/
def ofText (text : String) : Base :=
  let cs := (text.toList.reverse.dropWhile (· = '/')).reverse
  let (scheme, rest) := splitScheme cs
  if scheme.isEmpty then ⟨String.ofList cs, ['/']⟩
  else
    let (host, path) := cut (· = '/') rest
    let path := escape pathSafe (normalized path)
    let path := if path.isEmpty then path else path ++ ['/']
    ⟨String.ofList (scheme ++ "://".toList ++ plainHost scheme host ++ path),
      if path.isEmpty then ['/'] else path⟩

end Base
end BomEngine.Service
