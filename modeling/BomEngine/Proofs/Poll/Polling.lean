import BomEngine.Proofs.Poll.Turns

/-!
# Polling left alone

A poller that nobody stops or updates fetches one value after another for as long as there is a
reason to go on. A fault is passed over, every value counts and is delivered, and the first one that
is no reason ends the loop. Each round is a fetch and what it comes to; a run of rounds is known from
one round by induction on the outcomes.
-/

set_option autoImplicit false

namespace BomEngine.Poller

variable {α : Type} {s : Setup α} {p : Poller α} {i : Nat}

abbrev Outcome (α : Type) := Except Fault (Option α)

def Setup.isReason (s : Setup α) (value : Option α) : Bool := value.isSome && s.isActive value

def Setup.endsWith (s : Setup α) : Outcome α → Bool
  | .ok value => !s.isReason value
  | .error _ => false

/-- The outcomes up to the first one that ends the loop, which is the last that is heard of. -/
def heard (s : Setup α) : List (Outcome α) → List (Outcome α)
  | [] => []
  | o :: os => o :: if s.endsWith o then [] else heard s os

def values (os : List (Outcome α)) : List (Option α) := os.filterMap Except.toOption

def Effect.isSeen : Effect α → Bool
  | .note _ => false
  | _ => true

def Effect.delivered? : Effect α → Option (Option α)
  | .deliver value => some value
  | _ => none

def Setup.delivery (s : Setup α) : Outcome α → List (Effect α)
  | .ok value => if s.delivers then [.deliver value] else []
  | .error _ => []

/-- What is seen of a loop from a fetch up to the next sleep, if there is one. -/
def Setup.round (s : Setup α) (i : Nat) (o : Outcome α) : List (Effect α) :=
  .fetch i :: (s.delivery o ++ if s.endsWith o then [] else [.sleep i])

def turnsFor (i : Nat) (o : Outcome α) : List (Event α) :=
  [.turn i .awake, .turn i (.fetched [] (o.mapError .fault) [])]

/-- A start, and the turns of the loop that it begins. -/
def leftAlone (i : Nat) (initial : Option α) (os : List (Outcome α)) : List (Event α) :=
  .act (.start initial) :: .turn i .begin :: os.flatMap (turnsFor i)

theorem run_append (es fs : List (Event α)) (p : Poller α) :
    run s (es ++ fs) p = (run s es p).andThen (run s fs) := by
  induction es generalizing p with
  | nil => rfl
  | cons e es ih =>
    calc run s (e :: es ++ fs) p
        = (p.step s e).andThen fun q => (run s es q).andThen (run s fs) := Move.andThen_congr ih _
      _ = (run s (e :: es) p).andThen (run s fs) := (Move.andThen_assoc _ _ _).symm

theorem run_pair (e f : Event α) (p : Poller α) :
    run s [e, f] p = (p.step s e).andThen fun q => q.step s f :=
  Move.andThen_congr (fun _ => Move.andThen_nil _) _

theorem single_run {es : List (Event α)} (h : p.Single) : (run s es p).1.Single := by
  have hlawful : Lawful s False (history s es p) p := lawful_history False.elim p
  rw [← performAll_history]
  exact single_performAll hlawful h

structure Hears (s : Setup α) (i : Nat) (p : Poller α) (os : List (Outcome α)) (m : Move α) :
    Prop where
  seen : m.2.filter Effect.isSeen = os.flatMap (s.round i)
  fetchCount : m.1.fetchCount = p.fetchCount + (values os).length
  latest : m.1.latest = (values os).getLastD p.latest

theorem Hears.andThen {os later : List (Outcome α)} {m : Move α} {f : Poller α → Move α}
    (h : Hears s i p os m) (hf : Hears s i m.1 later (f m.1)) :
    Hears s i p (os ++ later) (m.andThen f) := by
  refine ⟨?_, ?_, ?_⟩
  · rw [Move.andThen, List.filter_append, h.seen, hf.seen, List.flatMap_append]
  · rw [values, List.filterMap_append, List.length_append, ← Nat.add_assoc]
    exact hf.fetchCount.trans (congrArg (· + _) h.fetchCount)
  · rw [values, List.filterMap_append, getLastD_append]
    exact hf.latest.trans (congrArg _ h.latest)

structure Waits (s : Setup α) (p : Poller α) (i : Nat) : Prop where
  loop : p.loop? i = some ⟨.asleep, false⟩
  task : p.task = some i
  stopped : p.stopped = false
  active : p.isActive s = true

structure Over (s : Setup α) (p : Poller α) (i : Nat) : Prop where
  loop : p.loop? i = some ⟨.ended, false⟩
  task : p.task = some i
  inactive : p.isActive s = false

theorem Waits.running (h : Waits s p i) : p.running = true :=
  running_of_goes ⟨_, h.loop, rfl, rfl⟩ h.task

theorem Over.running (h : Over s p i) : p.running = false := by
  rw [Poller.running, h.task, Option.bind_some, h.loop]
  rfl

theorem Over.inert (h : Over s p i) (hp : p.Single) : p.Inert s := by
  refine ⟨h.inactive, ?_⟩
  rintro j ⟨hgoes, -⟩
  obtain rfl : i = j := Option.some.inj (h.task.symm.trans (hp j hgoes))
  obtain ⟨l, hl, -, he⟩ := hgoes
  cases h.loop.symm.trans hl
  cases he

theorem Over.run (h : Over s p i) (os : List (Outcome α)) :
    run s (os.flatMap (turnsFor i)) p = (p, []) := by
  have hturn : ∀ t, p.turn s i t = (p, []) := fun t => by
    rw [turn, h.loop]
    rfl
  induction os with
  | nil => rfl
  | cons o os ih =>
    rw [List.flatMap_cons, run_append, turnsFor, run_pair]
    simp only [step, hturn, Move.andThen, ih, List.append_nil]

theorem goOn_decided {l : Loop} (hl : p.loop? i = some l) (hc : l.cancelled = false)
    (he : l.hasEnded = false) (ht : p.task = some i) (hstopped : p.stopped = false) :
    (p.isActive s = true → Waits s (p.goOn s i).1 i) ∧
    (p.isActive s = false → Over s (p.goOn s i).1 i) ∧
    (p.goOn s i).1.latest = p.latest ∧ (p.goOn s i).1.fetchCount = p.fetchCount ∧
    (p.goOn s i).2.filter Effect.isSeen = if p.isActive s then [.sleep i] else [] := by
  obtain ⟨phase, cancelled⟩ := l
  cases hc
  cases hactive : p.isActive s with
  | true =>
    rw [goOn_sleeps ⟨_, hl, rfl, he⟩ hstopped hactive]
    exact ⟨fun _ => ⟨loop?_enter hl .asleep, ht, hstopped, hactive⟩, nofun, rfl, rfl, rfl⟩
  | false =>
    have hfinish : p.goOn s i = (p.enter i .ended, [s.idle "polling stopped"]) := by
      rw [goOn, hactive, finish, hstopped]
      rfl
    rw [hfinish]
    exact ⟨nofun, fun _ => ⟨loop?_enter hl .ended, ht, hactive⟩, rfl, rfl, rfl⟩

/-- One round: a fetch, and what it comes to. -/
theorem Waits.round (h : Waits s p i) (o : Outcome α) :
    Hears s i p [o] (run s (turnsFor i o) p) ∧
    (s.endsWith o = true → Over s (run s (turnsFor i o) p).1 i) ∧
    (s.endsWith o = false → Waits s (run s (turnsFor i o) p).1 i) := by
  have hwakes : p.turn s i .awake = (p.enter i .fetching, [.fetch i]) :=
    turn_awake h.loop rfl rfl h.stopped h.active
  have hloop := loop?_enter h.loop .fetching
  have hawaits : (p.enter i .fetching).Awaits i := ⟨⟨_, hloop, rfl, rfl⟩, _, hloop, rfl⟩
  rw [turnsFor, run_pair]
  simp only [step, hwakes, Move.andThen]
  cases o with
  | error f =>
    obtain ⟨hwaits, -, hlatest, hcount, hseen⟩ := goOn_decided (s := s)
      (p := p.enter i .fetching) hloop rfl rfl h.task h.stopped
    have hactive : (p.enter i .fetching).isActive s = true := h.active
    rw [hactive] at hseen
    simp only [Except.mapError, turn_received hawaits, receive, Move.andThen]
    refine ⟨⟨?_, hcount, hlatest⟩, fun hends => absurd hends Bool.false_ne_true,
      fun _ => hwaits hactive⟩
    rw [List.filter_append, List.filter_append, hseen]
    rfl
  | ok value =>
    obtain ⟨hwaits, hover, hlatest, hcount, hseen⟩ := goOn_decided (s := s)
      (p := ((p.enter i .fetching).tick s value).1) hloop rfl rfl h.task h.stopped
    have hactive : (((p.enter i .fetching).tick s value).1).isActive s =
        !s.endsWith (.ok value : Outcome α) := (Bool.not_not _).symm
    have htick : (((p.enter i .fetching).tick s value).2).filter Effect.isSeen =
        s.delivery (.ok value) := by
      rw [tick, Setup.delivery]
      cases s.delivers <;> rfl
    rw [hactive] at hseen hwaits hover
    simp only [Except.mapError, turn_fetched hawaits h.stopped value, Move.andThen]
    refine ⟨⟨?_, hcount, hlatest⟩, fun hends => hover (by rw [hends]; rfl),
      fun hends => hwaits (by rw [hends]; rfl)⟩
    rw [List.filter_append, List.filter_append, htick, hseen, List.flatMap_singleton, Setup.round]
    cases s.endsWith (.ok value : Outcome α) <;> rfl

theorem Waits.rounds (h : Waits s p i) (os : List (Outcome α)) :
    let m := run s (os.flatMap (turnsFor i)) p
    Hears s i p (heard s os) m ∧ (os.any s.endsWith = true → Over s m.1 i) ∧
      (os.any s.endsWith = false → Waits s m.1 i) := by
  induction os generalizing p with
  | nil => exact ⟨⟨rfl, rfl, rfl⟩, nofun, fun _ => h⟩
  | cons o os ih =>
    obtain ⟨hfirst, hover, hwaits⟩ := h.round o
    rw [List.flatMap_cons, run_append]
    cases hends : s.endsWith o with
    | true =>
      have hdone := (hover hends).run os
      have hheard : heard s (o :: os) = [o] := by rw [heard, if_pos hends]
      simp only [Move.andThen, hdone, List.append_nil, hheard]
      exact ⟨hfirst, fun _ => hover hends, by simp [hends]⟩
    | false =>
      obtain ⟨hrest, hlast⟩ := ih (hwaits hends)
      have hheard : heard s (o :: os) = [o] ++ heard s os := by
        rw [heard, if_neg (by simp [hends])]
        rfl
      have hany : (o :: os).any s.endsWith = os.any s.endsWith := by
        rw [List.any_cons, hends, Bool.false_or]
      rw [hheard, hany]
      exact ⟨hfirst.andThen hrest, hlast⟩

theorem start_waits (hp : p.running = false) {initial : Option α}
    (hreason : s.isReason initial = true) :
    ∃ q, run s [.act (.start initial), .turn p.loops.length .begin] p =
        (q, [.begin p.loops.length, .sleep p.loops.length]) ∧
      Waits s q p.loops.length ∧ q.fetchCount = p.fetchCount ∧ q.latest = initial := by
  obtain ⟨-, hactive⟩ := Bool.and_eq_true_iff.mp hreason
  generalize hstarted : ({ p with
    stopped := false, latest := initial, task := some p.loops.length,
    loops := p.loops ++ [⟨.begun, false⟩] } : Poller α) = started
  have hstart : p.start s initial = (started, [.begin p.loops.length]) := by
    rw [start, if_neg (by simp [hp]), ← hstarted]
    exact if_pos hactive
  have hloop : started.loop? p.loops.length = some ⟨.begun, false⟩ := by
    rw [← hstarted]
    exact List.getElem?_concat_length
  have hgoes : started.Goes p.loops.length := ⟨_, hloop, rfl, rfl⟩
  have htop : started.isActive s = true ∧ started.stopped = false ∧
      started.task = some p.loops.length ∧ started.fetchCount = p.fetchCount ∧
      started.latest = initial := by
    rw [← hstarted]
    exact ⟨hreason, rfl, rfl, rfl, rfl⟩
  obtain ⟨hgo, hstopped, htask, hcount, hlatest⟩ := htop
  have hturn : started.turn s p.loops.length .begin =
      (started.enter p.loops.length .asleep, [.sleep p.loops.length]) := by
    rw [← goOn_sleeps hgoes hstopped hgo, turn, hloop]
    rfl
  refine ⟨_, ?_, ⟨loop?_enter hloop .asleep, htask, hstopped, hgo⟩, hcount, hlatest⟩
  rw [run_pair]
  simp only [step, act, hstart, Move.andThen, hturn]
  rfl

theorem start_inert (hp : p.running = false) (hsingle : p.Single) {initial : Option α}
    (hreason : s.isReason initial = false) :
    (p.start s initial).1.Inert s ∧ Rests p (p.start s initial) [initial] := by
  have hlatest : (p.start s initial).1.latest = initial := by
    rw [start, if_neg (by simp [hp])]
    dsimp only
    split <;> rfl
  refine ⟨⟨?_, ?_⟩, start_silent initial p, (fetchCount_act (.start initial) p).1, hlatest⟩
  · rw [isActive, hlatest]
    exact hreason
  · rintro j ⟨hgoes, l, hl, hphase⟩
    by_cases hj : j < p.loops.length
    · have hold : p.Goes j := goes_of_act (a := .start initial) hj hgoes
      rw [running_of_goes hold (hsingle j hold)] at hp
      cases hp
    · cases (begun_of_act (a := .start initial) hj hl).symm.trans hphase

theorem delivered_rounds (hs : s.delivers = true) (os : List (Outcome α)) :
    (os.flatMap (s.round i)).filterMap Effect.delivered? = values os := by
  induction os with
  | nil => rfl
  | cons o os ih =>
    have hround : (s.round i o).filterMap Effect.delivered? = o.toOption.toList := by
      cases o with
      | error f => rfl
      | ok value =>
        simp only [Setup.round, Setup.delivery, hs, if_true]
        cases s.endsWith (.ok value : Outcome α) <;> rfl
    rw [List.flatMap_cons, List.filterMap_append, ih, hround, values, values, List.filterMap_cons]
    cases o <;> rfl

theorem filterMap_seen (es : List (Effect α)) :
    (es.filter Effect.isSeen).filterMap Effect.delivered? = es.filterMap Effect.delivered? := by
  induction es with
  | nil => rfl
  | cons e es ih =>
    cases e with
    | deliver value => exact congrArg (List.cons value) ih
    | _ => exact ih

/-- What comes of a start and of the outcomes of one fetch after another. The fetches that are seen
are those of the outcomes heard of, each after a sleep; the values among these are counted and
delivered, and the last of them is the latest value. The loop goes on unless one of them has ended
it, and then nothing comes of any turns any more. -/
structure Polled (s : Setup α) (p : Poller α) (initial : Option α) (os : List (Outcome α))
    (m : Move α) : Prop where
  seen : m.2.filter Effect.isSeen = .begin p.loops.length :: .sleep p.loops.length ::
    (heard s os).flatMap (s.round p.loops.length)
  delivered : s.delivers = true → m.2.filterMap Effect.delivered? = values (heard s os)
  fetchCount : m.1.fetchCount = p.fetchCount + (values (heard s os)).length
  latest : m.1.latest = (values (heard s os)).getLastD initial
  running : m.1.running = !os.any s.endsWith
  rests : os.any s.endsWith = true → ∀ later, (∀ e ∈ later, e.Quiet) →
    Rests m.1 (run s later m.1) []

theorem polled_of_start (hp : p.running = false) (hsingle : p.Single) {initial : Option α}
    (hreason : s.isReason initial = true) (os : List (Outcome α)) :
    Polled s p initial os (run s (leftAlone p.loops.length initial os) p) := by
  obtain ⟨q, hstart, hwaits, hcount, hlatest⟩ := start_waits hp hreason
  obtain ⟨hhears, hover, hstill⟩ := hwaits.rounds os
  have hrun : run s (leftAlone p.loops.length initial os) p =
      Move.andThen (q, [.begin p.loops.length, .sleep p.loops.length])
        (run s (os.flatMap (turnsFor p.loops.length))) := by
    rw [← hstart, ← run_append]
    rfl
  have hlast : (run s (leftAlone p.loops.length initial os) p).1.Single := single_run hsingle
  rw [hrun] at hlast ⊢
  have hseen : ((.begin p.loops.length :: .sleep p.loops.length ::
      (run s (os.flatMap (turnsFor p.loops.length)) q).2) : List (Effect α)).filter
        Effect.isSeen = .begin p.loops.length :: .sleep p.loops.length ::
      (heard s os).flatMap (s.round p.loops.length) := by
    rw [← hhears.seen]
    rfl
  refine ⟨hseen, fun hs => ?_, hcount ▸ hhears.fetchCount, hlatest ▸ hhears.latest, ?_,
    fun hany later hlater => inert_run hlater ((hover hany).inert hlast)⟩
  · rw [← delivered_rounds hs (heard s os), ← hhears.seen, filterMap_seen]
    rfl
  · cases hany : os.any s.endsWith with
    | true => exact (hover hany).running
    | false => exact (hstill hany).running

/-- A poller that does not go on, however it got there, is started and left alone. From a value that
is a reason to go on it fetches one value after another up to the first that is none, and no further;
faults on the way are passed over. From any other value it never fetches. -/
theorem polling_decided (s : Setup α) (earlier : List (Event α)) (initial : Option α)
    (h : (run s earlier new).1.running = false) :
    let p := (run s earlier new).1
    (s.isReason initial = true → ∀ os : List (Outcome α),
      Polled s p initial os (run s (leftAlone p.loops.length initial os) p)) ∧
    (s.isReason initial = false → ∀ later, (∀ e ∈ later, e.Quiet) →
      Rests p (run s (.act (.start initial) :: later) p) [initial]) := by
  have hsingle : (run s earlier new).1.Single := single_run single_new
  refine ⟨fun hreason => polled_of_start h hsingle hreason, fun hreason later hlater => ?_⟩
  obtain ⟨hinert, hstart⟩ := start_inert h hsingle hreason
  exact hstart.andThen (inert_run hlater hinert)

def benchOutcomes : List (Outcome Nat) :=
  [.ok (some 1), .error (.unavailable "ZRP" "timed out"), .ok (some 2), .ok (some 1)]

theorem polling_decided_bench : (run benchSetup [] new).1.running = false ∧
    Polled benchSetup new (some 1) benchOutcomes
      (run benchSetup (leftAlone 0 (some 1) benchOutcomes) new) ∧
    values (heard benchSetup benchOutcomes) = [some 1, some 2] ∧
    Rests new (run benchSetup [.act (.start (some 2)), .turn 0 .begin] new) [some 2] := by
  obtain ⟨hactive, -⟩ := polling_decided benchSetup [] (some 1) rfl
  obtain ⟨-, hinactive⟩ := polling_decided benchSetup [] (some 2) rfl
  have hbegin : (.turn 0 .begin : Event Nat).Quiet := trivial
  have hquiet : ∀ e ∈ [(.turn 0 .begin : Event Nat)], e.Quiet :=
    List.forall_mem_singleton.mpr hbegin
  exact ⟨rfl, hactive rfl benchOutcomes, rfl, hinactive rfl _ hquiet⟩

end BomEngine.Poller
