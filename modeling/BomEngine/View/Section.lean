import BomEngine.Schema.Record

/-!
# Sections of a view

A view shows one main record, and around it sections that are loaded each on its
own. A section that cannot be loaded has a state and a message in place of data
and leaves the rest of the view as it is.
-/

set_option autoImplicit false

namespace BomEngine

inductive SectionState where
  | loaded
  | failed
  | notFound
  | skipped
  deriving DecidableEq, Repr

namespace SectionState

def text : SectionState → String
  | loaded => "loaded"
  | failed => "failed"
  | notFound => "not_found"
  | skipped => "skipped"

def check : Check SectionState
  | .str s =>
    match [loaded, failed, notFound, skipped].find? fun state => state.text == s with
    | some state => .accepted state
    | none => .flaw .notAMember
  | _ => .flaw .notAMember

end SectionState

structure Section (α : Type) where
  state : SectionState
  data : Option α
  message : Option String
  deriving DecidableEq, Repr

namespace Section

variable {α : Type}

def loaded (a : α) : Section α := ⟨.loaded, some a, none⟩

def without (state : SectionState) (message : String) : Section α := ⟨state, none, some message⟩

def skipped : Section α := ⟨.skipped, none, none⟩

def stateOfFault (f : Fault) : SectionState := if f.isNotFound then .notFound else .failed

def ofOutcome (message : String) : Outcome α → Section α
  | .ok a => loaded a
  | .error f => without (stateOfFault f) message

def isLoaded (s : Section α) : Bool := s.state == .loaded

instance [Record α] : Record (Section α) :=
  ⟨"Section[" ++ Record.name α ++ "]",
    Check.record fun fs =>
      Section.mk <$> fs.required "state" SectionState.check
        <*> fs.optional "data" Record.check
        <*> fs.optional "message" Check.text,
    fun s => .obj [("state", .str s.state.text), ("data", Record.dumpOption s.data),
      ("message", Json.ofOption .str s.message)]⟩

end Section

instance {α : Type} [Record α] : Record (List α) :=
  ⟨"List[" ++ Record.name α ++ "]", Check.list Record.check, Record.dumpList⟩

inductive ViewState where
  | loaded
  | notFound
  | failed
  deriving DecidableEq, Repr

namespace ViewState

def text : ViewState → String
  | loaded => "loaded"
  | notFound => "not_found"
  | failed => "failed"

def check : Check ViewState
  | .str s =>
    match [loaded, notFound, failed].find? fun state => state.text == s with
    | some state => .accepted state
    | none => .flaw .notAMember
  | _ => .flaw .notAMember

def ofOutcome {α : Type} : Outcome α → ViewState
  | .ok _ => loaded
  | .error f => if f.isNotFound then notFound else failed

end ViewState

end BomEngine
