import BomEngine.Poll.Poller
import Mathlib

/-!
# The history of a poller

An event can do several things to a poller: a turn in which a value is fetched records the
value, lets its receiver act on the poller and goes on with the loop. The history of a run
has all of these deeds in order, those of receivers among them, so that a run can be looked
at between any two of them. Performed one after another the deeds come to what the run does.
-/

set_option autoImplicit false

namespace BomEngine.Poller

variable {α : Type}

namespace Move

theorem andThen_nil (m : Move α) : (m.andThen fun p => (p, [])) = m := by
  rw [andThen, List.append_nil]

theorem andThen_congr {f g : Poller α → Move α} (h : ∀ p, f p = g p) (m : Move α) :
    m.andThen f = m.andThen g := by
  rw [funext h]

theorem andThen_assoc (m : Move α) (f g : Poller α → Move α) :
    (m.andThen f).andThen g = m.andThen fun p => (f p).andThen g := by
  unfold andThen
  dsimp only
  rw [List.append_assoc]

end Move

/-- The smallest things that happen to a poller. -/
inductive Deed (α : Type) where
  | act (a : Action α)
  | sleep (loop : Nat)
  | issue (loop : Nat)
  | miss (f : Fault)
  | take (loop : Nat) (value : Option α)
  | finish (loop : Nat)
  /-- A loop ends without a word: cancelled, broken, or with a value that comes too late. -/
  | drop (loop : Nat) (phase : Phase)

namespace Deed

def perform (s : Setup α) : Deed α → Poller α → Move α
  | act a, p => p.act s a
  | sleep i, p => (p.enter i .asleep, [.sleep i])
  | issue i, p => (p.enter i .fetching, [.fetch i])
  | miss f, p => (p, [s.missed f])
  | take _ value, p => p.tick s value
  | finish i, p => p.finish s i
  | drop i phase, p => (p.enter i phase, [])

end Deed

def performAll (s : Setup α) : List (Deed α) → Poller α → Move α
  | [], p => (p, [])
  | d :: ds, p => (d.perform s p).andThen (performAll s ds)

variable (s : Setup α)

def goingOn (i : Nat) (p : Poller α) : Deed α :=
  if p.stopped || !p.isActive s then .finish i
  else if p.isCancelled i then .drop i .ended
  else .sleep i

def waking (i : Nat) (p : Poller α) : Deed α :=
  if p.stopped || !p.isActive s then .finish i else .issue i

def taking (i : Nat) (value : Option α) (after : List (Action α)) (p : Poller α) :
    List (Deed α) :=
  let ds := .take i value :: after.map .act
  ds ++ [goingOn s i (performAll s ds p).1]

def receiving (i : Nat) (after : List (Action α)) (p : Poller α) :
    Result (Option α) → List (Deed α)
  | .error (.fault f) => [.miss f, goingOn s i p]
  | .error f => [.drop i (.broken f)]
  | .ok value =>
    if p.stopped then [.drop i .ended] else taking s i value (if s.delivers then after else []) p

def turning (i : Nat) (p : Poller α) : Phase → Turn α → List (Deed α)
  | .begun, .begin => [goingOn s i p]
  | .asleep, .awake => [waking s i p]
  | .fetching, .fetched before outcome after =>
    before.map .act ++ receiving s i after (p.actions s before).1 outcome
  | _, _ => []

def deeds (p : Poller α) : Event α → List (Deed α)
  | .act a => [.act a]
  | .turn i t =>
    match p.loop? i with
    | none => []
    | some l =>
      if l.hasEnded then []
      else if l.cancelled then [.drop i .ended]
      else turning s i p l.phase t

def history : List (Event α) → Poller α → List (Deed α)
  | [], _ => []
  | e :: es, p => deeds s p e ++ history es (p.step s e).1

variable {s}

theorem performAll_append (ds es : List (Deed α)) (p : Poller α) :
    performAll s (ds ++ es) p = (performAll s ds p).andThen (performAll s es) := by
  induction ds generalizing p with
  | nil => rfl
  | cons d ds ih =>
    calc performAll s (d :: ds ++ es) p
        = (d.perform s p).andThen fun q => (performAll s ds q).andThen (performAll s es) :=
          Move.andThen_congr ih _
      _ = (performAll s (d :: ds) p).andThen (performAll s es) := (Move.andThen_assoc _ _ _).symm

theorem performAll_singleton (d : Deed α) (p : Poller α) :
    performAll s [d] p = d.perform s p := Move.andThen_nil _

theorem performAll_acts (as : List (Action α)) (p : Poller α) :
    performAll s (as.map .act) p = p.actions s as := by
  induction as generalizing p with
  | nil => rfl
  | cons a as ih => exact Move.andThen_congr ih _

theorem perform_goingOn (i : Nat) (p : Poller α) :
    (goingOn s i p).perform s p = p.goOn s i := by
  unfold goingOn goOn
  split
  · rfl
  · split <;> rfl

theorem perform_waking (i : Nat) (p : Poller α) : (waking s i p).perform s p = p.wake s i := by
  unfold waking wake
  split <;> rfl

theorem performAll_goingOn (i : Nat) (p : Poller α) :
    performAll s [goingOn s i p] p = p.goOn s i :=
  (performAll_singleton _ p).trans (perform_goingOn i p)

theorem performAll_taking (i : Nat) (value : Option α) (after : List (Action α)) (p : Poller α) :
    performAll s (taking s i value after p) p =
      ((p.tick s value).andThen (actions s after)).andThen (goOn s i) := by
  have hacts : performAll s (.take i value :: after.map .act) p =
      (p.tick s value).andThen (actions s after) := Move.andThen_congr (performAll_acts after) _
  unfold taking
  dsimp only
  rw [performAll_append, hacts, Move.andThen, performAll_goingOn]
  rfl

theorem performAll_receiving (i : Nat) (after : List (Action α)) (p : Poller α)
    (outcome : Result (Option α)) :
    performAll s (receiving s i after p outcome) p = p.receive s i after outcome := by
  cases outcome with
  | ok value =>
    unfold receiving receive
    dsimp only
    split
    · rfl
    · exact performAll_taking i value _ p
  | error e =>
    cases e with
    | fault f =>
      show Move.andThen (p, [s.missed f]) (performAll s [goingOn s i p]) =
        Move.andThen (p, [s.missed f]) (goOn s i)
      rw [Move.andThen, performAll_goingOn]
      rfl
    | _ => rfl

theorem performAll_turning (i : Nat) (p : Poller α) (phase : Phase) (t : Turn α) :
    performAll s (turning s i p phase t) p = p.takeTurn s i phase t := by
  cases phase with
  | begun =>
    cases t with
    | begin => exact performAll_goingOn i p
    | _ => rfl
  | asleep =>
    cases t with
    | awake => exact (performAll_singleton _ p).trans (perform_waking i p)
    | _ => rfl
  | fetching =>
    cases t with
    | fetched before outcome after =>
      unfold turning takeTurn
      rw [performAll_append, performAll_acts, Move.andThen, performAll_receiving]
      rfl
    | _ => rfl
  | ended => rfl
  | broken f => rfl

theorem performAll_deeds (p : Poller α) (e : Event α) :
    performAll s (deeds s p e) p = p.step s e := by
  cases e with
  | act a => exact performAll_singleton _ p
  | turn i t =>
    show performAll s (deeds s p (.turn i t)) p = p.turn s i t
    unfold deeds turn
    dsimp only
    cases p.loop? i with
    | none => rfl
    | some l =>
      dsimp only
      split
      · rfl
      split
      · rfl
      · exact performAll_turning i p l.phase t

theorem performAll_history (es : List (Event α)) (p : Poller α) :
    performAll s (history s es p) p = run s es p := by
  induction es generalizing p with
  | nil => rfl
  | cons e es ih =>
    calc performAll s (deeds s p e ++ history s es (p.step s e).1) p
        = (p.step s e).andThen (performAll s (history s es (p.step s e).1)) := by
          rw [performAll_append, performAll_deeds]
      _ = (p.step s e).andThen (run s es) := by
          rw [Move.andThen, ih]
          rfl

end BomEngine.Poller
