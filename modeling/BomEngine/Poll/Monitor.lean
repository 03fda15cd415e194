import BomEngine.Campaign
import BomEngine.Poll.Poller

/-!
# Campaign monitors

A monitor polls one campaign at a time. Watching another campaign stops the
poller of the one before; the pollers it has made stay in a list, because turns
of their loops may still come.
-/

set_option autoImplicit false

namespace BomEngine

open Poller

structure CampaignMonitor where
  watched : Option Nat
  pollers : List (String × Poller Campaign)

namespace CampaignMonitor

def setup (id : String) : Setup Campaign :=
  ⟨"campaign " ++ id, fun c => (c.map Campaign.isActive).getD false, true⟩

def new : CampaignMonitor := ⟨none, []⟩

def poller? (m : CampaignMonitor) : Option (String × Poller Campaign) :=
  m.watched.bind fun k => m.pollers[k]?

def campaignId (m : CampaignMonitor) : Option String := m.poller?.map (·.1)

def current (m : CampaignMonitor) : Option Campaign := m.poller?.bind fun e => e.2.latest

def polling (m : CampaignMonitor) : Bool := (m.poller?.map fun e => e.2.running).getD false

abbrev Move := CampaignMonitor × List (Nat × Effect Campaign)

def onPoller (k : Nat) (f : String → Poller Campaign → Poller.Move Campaign)
    (m : CampaignMonitor) : Move :=
  match m.pollers[k]? with
  | none => (m, [])
  | some (id, p) =>
    let (p, es) := f id p
    ({ m with pollers := m.pollers.set k (id, p) }, es.map fun e => (k, e))

def stop (m : CampaignMonitor) : CampaignMonitor :=
  match m.watched with
  | none => m
  | some k => { (m.onPoller k fun _ p => (p.stop, [])).1 with watched := none }

/-- Stops what was watched, and starts a new poller from a campaign. -/
def watch (c : Campaign) (m : CampaignMonitor) : Move :=
  let m := m.stop
  let k := m.pollers.length
  onPoller k (fun id p => p.start (setup id) (some c))
    { watched := some k, pollers := m.pollers ++ [(c.id, Poller.new)] }

def update (c : Campaign) (m : CampaignMonitor) : CampaignMonitor :=
  match m.watched with
  | none => m
  | some k =>
    (m.onPoller k fun id p => (if id = c.id then p.update (some c) else p, [])).1

def turn (k i : Nat) (t : Turn Campaign) (m : CampaignMonitor) : Move :=
  m.onPoller k fun id p => p.turn (setup id) i t

def Move.andThen (x : Move) (f : CampaignMonitor → Move) : Move :=
  let n := f x.1
  (n.1, x.2 ++ n.2)

inductive Call where
  | watch (c : Campaign)
  | update (c : Campaign)
  | stop

def call (m : CampaignMonitor) : Call → Move
  | .watch c => m.watch c
  | .update c => (m.update c, [])
  | .stop => (m.stop, [])

def calls : List Call → CampaignMonitor → Move
  | [], m => (m, [])
  | c :: cs, m => (m.call c).andThen (calls cs)

/-- What the receiver of a campaign does: it may call the monitor, and it may fail then. -/
structure Reaction where
  calls : List Call
  failure : Option Failure

/-- Whether a campaign that comes now for a loop of a poller counts. -/
def takes (m : CampaignMonitor) (k i : Nat) : Bool := (m.pollers[k]?).any fun e => e.2.takes i

/-- The end of a fetch for a loop of one of its pollers. Where the campaign counts, its receiver
reacts to it before the loop goes on. -/
def fetched (k i : Nat) (outcome : Result Campaign) (r : Reaction) (m : CampaignMonitor) : Move :=
  match outcome with
  | .ok c =>
    if m.takes k i then
      ((m.onPoller k fun id p => p.tick (setup id) (some c)).andThen (calls r.calls)).andThen
        (onPoller k fun id p => p.resume (setup id) i r.failure)
    else m.turn k i (.fetched [] (.ok (some c)) [])
  | .error e => m.turn k i (.fetched [] (.error e) [])

inductive Event where
  | call (c : Call)
  | begin (poller loop : Nat)
  | awake (poller loop : Nat)
  | fetched (poller loop : Nat) (outcome : Result Campaign) (r : Reaction)

def step (m : CampaignMonitor) : Event → Move
  | .call c => m.call c
  | .begin k i => m.turn k i .begin
  | .awake k i => m.turn k i .awake
  | .fetched k i outcome r => m.fetched k i outcome r

def run : List Event → CampaignMonitor → Move
  | [], m => (m, [])
  | e :: es, m => (m.step e).andThen (run es)

end CampaignMonitor
end BomEngine
