import BomEngine.Poll.Poller

/-!
# Timelines

A timeline runs pollers on a clock of its own, against scripts of what fetches come
to. Time passes only until the next turn of a loop is due; turns due at one time
are taken in the order in which they were asked for. What can be seen from outside
is kept in the order in which it happened.
-/

set_option autoImplicit false

namespace BomEngine

open Poller

structure ScriptedFetch (α : Type) where
  delay : Nat
  stops : Bool
  outcome : Result (Option α)

namespace ScriptedFetch

variable {α : Type}

def turn (react : Option α → List (Action α)) (f : ScriptedFetch α) : Turn α :=
  .fetched (if f.stops then [.stop] else []) f.outcome
    (match f.outcome with
      | .ok value => react value
      | .error _ => [])

/-- The next fetch of a script, and the script after it. The last one is repeated. -/
def next : List (ScriptedFetch α) → ScriptedFetch α × List (ScriptedFetch α)
  | [] => (⟨0, false, .error .crash⟩, [])
  | [f] => (f, [f])
  | f :: fs => (f, fs)

end ScriptedFetch

inductive Sight (α ρ : Type) where
  | fetch (name : String)
  | deliver (name : String) (value : Option α)
  | record (r : LogRecord)
  | report (r : ρ)

/-- Pollers of a state `σ`: how a turn of a loop of one of them changes the state,
the name of each, the milliseconds that they sleep, and what receivers do. -/
structure Timeline.Rules (σ α : Type) where
  turn : Nat → Nat → Turn α → σ → σ × List (Nat × Effect α)
  name : σ → Nat → String
  interval : Nat
  react : Option α → List (Action α)

structure Timeline (σ α ρ : Type) where
  now : Nat
  due : List (Nat × Nat × Nat × Turn α)
  state : σ
  scripts : List (String × List (ScriptedFetch α))
  seen : List (Nat × Sight α ρ)

namespace Timeline

variable {σ α ρ : Type}

def start (state : σ) (scripts : List (String × List (ScriptedFetch α))) : Timeline σ α ρ :=
  ⟨0, [], state, scripts, []⟩

def insertDue {τ : Type} (time : Nat) (t : τ) : List (Nat × τ) → List (Nat × τ)
  | [] => [(time, t)]
  | e :: rest => if time < e.1 then (time, t) :: e :: rest else e :: insertDue time t rest

def see (g : Timeline σ α ρ) (x : Sight α ρ) : Timeline σ α ρ :=
  { g with seen := g.seen ++ [(g.now, x)] }

def await (k i delay : Nat) (t : Turn α) (g : Timeline σ α ρ) : Timeline σ α ρ :=
  { g with due := insertDue (g.now + delay) (k, i, t) g.due }

def perform (r : Rules σ α) (g : Timeline σ α ρ) : Nat × Effect α → Timeline σ α ρ
  | (k, .begin i) => g.await k i 0 .begin
  | (k, .sleep i) => g.await k i r.interval .awake
  | (k, .fetch i) =>
    let name := r.name g.state k
    let (f, rest) := ScriptedFetch.next ((g.scripts.lookup name).getD [])
    { g.see (.fetch name) with scripts := putEntry name rest g.scripts }
      |>.await k i f.delay (f.turn r.react)
  | (k, .deliver value) => g.see (.deliver (r.name g.state k) value)
  | (_, .note record) => g.see (.record record)

def follow (r : Rules σ α) (g : Timeline σ α ρ) (m : σ × List (Nat × Effect α)) :
    Timeline σ α ρ :=
  m.2.foldl (perform r) { g with state := m.1 }

/-- Takes the turns that are due up to a limit, at most as many as the fuel, and
none any more once `halt` holds. -/
def runTurns (r : Rules σ α) (halt : σ → Bool) (limit : Nat) :
    Nat → Timeline σ α ρ → Timeline σ α ρ
  | 0, g => { g with now := limit }
  | fuel + 1, g =>
    if halt g.state then g
    else match g.due with
      | [] => { g with now := limit }
      | (time, k, i, t) :: rest =>
        if time ≤ limit then
          let g := { g with now := time, due := rest }
          runTurns r halt limit fuel (g.follow r (r.turn k i t g.state))
        else { g with now := limit }

/-- Lets the time pass up to a limit. At one time a loop takes at most one turn after
a sleep and one after a fetch. -/
def passUntil (r : Rules σ α) (halt : σ → Bool) (limit : Nat) (g : Timeline σ α ρ) :
    Timeline σ α ρ :=
  runTurns r halt limit (g.due.length + 2 * (limit - g.now + 1)) g

def pass (r : Rules σ α) (limit : Nat) (g : Timeline σ α ρ) : Timeline σ α ρ :=
  if g.now < limit then g.passUntil r (fun _ => false) limit else g

def records (g : Timeline σ α ρ) : List LogRecord :=
  g.seen.filterMap fun s => match s.2 with
    | .record r => some r
    | _ => none

def sights (g : Timeline σ α ρ) : List (Nat × Sight α ρ) :=
  g.seen.filter fun s => match s.2 with
    | .record _ => false
    | _ => true

end Timeline
end BomEngine
