import BomEngine.Poll.Monitor
import BomEngine.Poll.Timeline
import BomEngine.Settings

/-!
# Rehearsals

A poller, or a monitor of campaigns, on a timeline, while others act on it at
given times. After each step there is a report of how it stands.
-/

set_option autoImplicit false

namespace BomEngine

open Poller

def Settings.pollMilliseconds (s : Settings) : Nat :=
  Binary64.roundQuotient (s.pollInterval.above * 1000) s.pollInterval.below

namespace PollRehearsal

variable {α : Type}

inductive Step (α : Type) where
  | act (a : Action α)
  | state
  | wait (limit : Nat)

inductive Answer where
  | nothing
  | started (polling : Bool)
  | over (ending : Result Unit)
  | waiting

structure Report (α : Type) where
  step : Option (Step α)
  answer : Answer
  running : Bool
  latest : Option α
  fetchCount : Nat

abbrev Play (α : Type) := Timeline (Poller α) α (Report α)

structure Rules (α : Type) where
  setup : Setup α
  interval : Nat
  react : Option α → List (Action α)

def Rules.timeline (r : Rules α) : Timeline.Rules (Poller α) α where
  turn k i t p := let m := p.turn r.setup i t; (m.1, m.2.map fun e => (k, e))
  name _ _ := r.setup.name
  interval := r.interval
  react := r.react

def report (g : Play α) (step : Option (Step α)) (answer : Answer) : Play α :=
  g.see (.report ⟨step, answer, g.state.running, g.state.latest, g.state.fetchCount⟩)

/-- Waits for the loop that was started last, also if it is stopped meanwhile. -/
def wait (r : Rules α) (limit : Nat) (g : Play α) : Answer × Play α :=
  match g.state.task with
  | none => (.over (.ok ()), g)
  | some i =>
    match g.state.ending i with
    | some ending => (.over ending, g)
    | none =>
      let g := g.passUntil r.timeline (fun p => (p.ending i).isSome) (g.now + limit)
      match g.state.ending i with
      | some ending => (.over ending, g)
      | none => (.waiting, g)

def take (r : Rules α) (step : Step α) (g : Play α) : Answer × Play α :=
  match step with
  | .act (.start initial) =>
    let m := g.state.start r.setup initial
    (.started m.1.running, g.follow r.timeline (m.1, m.2.map fun e => (0, e)))
  | .act a =>
    let m := g.state.act r.setup a
    (.nothing, g.follow r.timeline (m.1, m.2.map fun e => (0, e)))
  | .state => (.nothing, g)
  | .wait limit => wait r limit g

def steps (r : Rules α) : List (Nat × Step α) → Play α → Play α
  | [], g => g
  | (time, step) :: rest, g =>
    let (answer, g) := take r step (g.pass r.timeline time)
    steps r rest (report g (some step) answer)

def play (r : Rules α) (script : List (ScriptedFetch α)) (list : List (Nat × Step α))
    (limit : Nat) : Play α :=
  report ((steps r list (Timeline.start Poller.new [(r.setup.name, script)])).pass r.timeline limit)
    none .nothing

end PollRehearsal

namespace MonitorRehearsal

inductive Step where
  | watch (c : Campaign)
  | update (c : Campaign)
  | stop
  | state

/-- A report after a step, or at the end. A step that watches is answered with the name
of its poller. -/
structure Report where
  step : Option Step
  name : Option String
  campaignId : Option String
  current : Option Campaign
  polling : Bool

abbrev Play := Timeline CampaignMonitor Campaign Report

def timeline (interval : Nat) : Timeline.Rules CampaignMonitor Campaign where
  turn k i t m := m.turn k i t
  name m k := ((m.pollers[k]?).map (·.1)).getD ""
  interval := interval
  react _ := []

def report (g : Play) (step : Option Step) (name : Option String) : Play :=
  let m := g.state
  g.see (.report ⟨step, name, m.campaignId, m.current, m.polling⟩)

def take (interval : Nat) (step : Step) (g : Play) : Option String × Play :=
  match step with
  | .watch c =>
    (some (CampaignMonitor.setup c.id).name, g.follow (timeline interval) (g.state.watch c))
  | .update c => (none, { g with state := g.state.update c })
  | .stop => (none, { g with state := g.state.stop })
  | .state => (none, g)

def steps (interval : Nat) : List (Nat × Step) → Play → Play
  | [], g => g
  | (time, step) :: rest, g =>
    let (name, g) := take interval step (g.pass (timeline interval) time)
    steps interval rest (report g (some step) name)

def play (interval : Nat) (scripts : List (String × List (ScriptedFetch Campaign)))
    (list : List (Nat × Step)) (limit : Nat) : Play :=
  report ((steps interval list (Timeline.start CampaignMonitor.new scripts)).pass
    (timeline interval) limit) none none

end MonitorRehearsal
end BomEngine
