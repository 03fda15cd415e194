import BomEngine.Log.Record

/-!
# Pollers

A poller fetches a value again and again for as long as the latest value is
active. A start begins a loop, which takes turns: it sleeps, fetches, and sleeps
again. A stop cancels the loop, and a cancelled loop does nothing but end when its
turn comes. Loops that were cancelled stay in the list of loops, so that turns may
come in any order and late; the number of a loop is its place in the list.
-/

set_option autoImplicit false

namespace BomEngine

inductive Phase where
  | begun
  | asleep
  | fetching
  | ended
  | broken (f : Failure)

structure Loop where
  phase : Phase
  cancelled : Bool

namespace Loop

def hasEnded (l : Loop) : Bool :=
  match l.phase with
  | .ended | .broken _ => true
  | _ => false

def isFetching (l : Loop) : Bool :=
  match l.phase with
  | .fetching => true
  | _ => false

def cancel (l : Loop) : Loop := { l with cancelled := true }

def enter (phase : Phase) (l : Loop) : Loop := { l with phase := phase }

end Loop

structure Poller (α : Type) where
  latest : Option α
  fetchCount : Nat
  stopped : Bool
  /-- The loop of the last start that began one, unless it was stopped. -/
  task : Option Nat
  loops : List Loop

namespace Poller

def logger : String := "app.services.polling"

structure Setup (α : Type) where
  name : String
  isActive : Option α → Bool
  delivers : Bool

inductive Action (α : Type) where
  | start (initial : Option α)
  | stop
  | update (value : Option α)

/-- What happens to a loop. When a fetch is over, it may have acted on the poller
before it came out, and so may the receiver of the value after the delivery. -/
inductive Turn (α : Type) where
  | begin
  | awake
  | fetched (before : List (Action α)) (outcome : Result (Option α)) (after : List (Action α))

inductive Effect (α : Type) where
  | begin (loop : Nat)
  | sleep (loop : Nat)
  | fetch (loop : Nat)
  | deliver (value : Option α)
  | note (record : LogRecord)

variable {α : Type}

abbrev Move (α : Type) := Poller α × List (Effect α)

def Move.andThen (m : Move α) (f : Poller α → Move α) : Move α :=
  let n := f m.1
  (n.1, m.2 ++ n.2)

def new : Poller α := ⟨none, 0, false, none, []⟩

def loop? (p : Poller α) (i : Nat) : Option Loop := p.loops[i]?

def setLoop (p : Poller α) (i : Nat) (f : Loop → Loop) : Poller α :=
  { p with loops := p.loops.modify i f }

def enter (p : Poller α) (i : Nat) (phase : Phase) : Poller α := p.setLoop i (Loop.enter phase)

/-- Whether the loop that was started last goes on. -/
def running (p : Poller α) : Bool :=
  ((p.task.bind p.loop?).map fun l => !l.hasEnded).getD false

def isCancelled (p : Poller α) (i : Nat) : Bool := ((p.loop? i).map Loop.cancelled).getD false

def isActive (s : Setup α) (p : Poller α) : Bool := p.latest.isSome && s.isActive p.latest

def Setup.idle (s : Setup α) (what : String) : Effect α :=
  .note (.debug logger (s.name ++ ": entity inactive, " ++ what) [])

def Setup.ticked (s : Setup α) (count : Nat) : Effect α :=
  .note (.debug logger (s.name ++ ": tick " ++ toString count) [])

def Setup.missed (s : Setup α) (f : Fault) : Effect α :=
  .note (.warning logger (s.name ++ ": poll failed: " ++ f.message) [])

/-- Begins a loop, unless one goes on or there is nothing to poll for. -/
def start (s : Setup α) (initial : Option α) (p : Poller α) : Move α :=
  if p.running then (p, [])
  else
    let q := { p with stopped := false, latest := initial }
    if s.isActive initial then
      ({ q with task := some p.loops.length, loops := p.loops ++ [⟨.begun, false⟩] },
        [.begin p.loops.length])
    else (q, [s.idle "not polling"])

def stop (p : Poller α) : Poller α :=
  let q := match p.task with
    | some i => if p.running then p.setLoop i Loop.cancel else p
    | none => p
  { q with stopped := true, task := none }

def update (value : Option α) (p : Poller α) : Poller α := { p with latest := value }

def act (s : Setup α) (p : Poller α) : Action α → Move α
  | .start initial => p.start s initial
  | .stop => (p.stop, [])
  | .update value => (p.update value, [])

def actions (s : Setup α) : List (Action α) → Poller α → Move α
  | [], p => (p, [])
  | a :: as, p => (p.act s a).andThen (actions s as)

/-- Ends a loop. Only the loop of a poller that was not stopped says so. -/
def finish (s : Setup α) (i : Nat) (p : Poller α) : Move α :=
  (p.enter i .ended, if p.stopped then [] else [s.idle "polling stopped"])

/-- The top of a loop: another sleep if there is a reason to go on. A loop that was
cancelled in the course of its own turn does not get any further than this. -/
def goOn (s : Setup α) (i : Nat) (p : Poller α) : Move α :=
  if p.stopped || !p.isActive s then p.finish s i
  else if p.isCancelled i then (p.enter i .ended, [])
  else (p.enter i .asleep, [.sleep i])

def wake (s : Setup α) (i : Nat) (p : Poller α) : Move α :=
  if p.stopped || !p.isActive s then p.finish s i else (p.enter i .fetching, [.fetch i])

def tick (s : Setup α) (value : Option α) (p : Poller α) : Move α :=
  ({ p with fetchCount := p.fetchCount + 1, latest := value },
    s.ticked (p.fetchCount + 1) :: if s.delivers then [.deliver value] else [])

/-- A fault is passed over, any other failure ends the loop, and a value counts
unless the poller was stopped. -/
def receive (s : Setup α) (i : Nat) (after : List (Action α)) (p : Poller α) :
    Result (Option α) → Move α
  | .error (.fault f) => Move.andThen (p, [s.missed f]) (goOn s i)
  | .error f => (p.enter i (.broken f), [])
  | .ok value =>
    if p.stopped then (p.enter i .ended, [])
    else ((p.tick s value).andThen (actions s (if s.delivers then after else []))).andThen (goOn s i)

def takes (p : Poller α) (i : Nat) : Bool :=
  !p.stopped && (p.loop? i).any fun l => l.isFetching && !l.cancelled

def resume (s : Setup α) (i : Nat) (failure : Option Failure) (p : Poller α) : Move α :=
  match failure with
  | none => p.goOn s i
  | some f => (p.enter i (.broken f), [])

def takeTurn (s : Setup α) (i : Nat) (p : Poller α) : Phase → Turn α → Move α
  | .begun, .begin => p.goOn s i
  | .asleep, .awake => p.wake s i
  | .fetching, .fetched before outcome after =>
    (actions s before p).andThen fun q => q.receive s i after outcome
  | _, _ => (p, [])

/-- A turn of a loop. It is lost on a loop that has ended or waits for another one. -/
def turn (s : Setup α) (i : Nat) (t : Turn α) (p : Poller α) : Move α :=
  match p.loop? i with
  | none => (p, [])
  | some l =>
    if l.hasEnded then (p, [])
    else if l.cancelled then (p.enter i .ended, [])
    else p.takeTurn s i l.phase t

inductive Event (α : Type) where
  | act (a : Action α)
  | turn (loop : Nat) (t : Turn α)

def step (s : Setup α) (p : Poller α) : Event α → Move α
  | .act a => p.act s a
  | .turn i t => p.turn s i t

def run (s : Setup α) : List (Event α) → Poller α → Move α
  | [], p => (p, [])
  | e :: es, p => (p.step s e).andThen (run s es)

def ending (p : Poller α) (i : Nat) : Option (Result Unit) :=
  match (p.loop? i).map Loop.phase with
  | none | some .ended => some (.ok ())
  | some (.broken f) => some (.error f)
  | some _ => none

end Poller
end BomEngine
