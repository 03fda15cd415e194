import BomEngine.Proofs.Poll.Safety

/-!
# What becomes of an update

A value that is recorded by an update stays the latest until a value is taken from a fetch.
Fetches come one at a time, so all values taken after an update belong to fetches that were issued
after it, but for one: the fetch that is under way when the update comes. Its value takes the place
of the newer one, and if it is active the loop goes on, whatever the update said.
-/

set_option autoImplicit false

namespace BomEngine.Poller

variable {α : Type} {s : Setup α} {p : Poller α} {i j : Nat} {fair : Prop}

def Deed.Sets : Deed α → Prop
  | .act (.update _) | .act (.start _) => True
  | _ => False

def Deed.taken? : Deed α → Option (Option α)
  | .take _ value => some value
  | _ => none

theorem latest_perform {d : Deed α} (hd : ¬ d.Sets) (p : Poller α) :
    (d.perform s p).1.latest = d.taken?.getD p.latest := by
  cases d with
  | act a =>
    cases a with
    | stop => exact latest_stop p
    | _ => exact absurd trivial hd
  | _ => rfl

/-- Without calls that set it the latest value is the last one that was taken. -/
theorem latest_performAll {ds : List (Deed α)} (hds : ∀ d ∈ ds, ¬ d.Sets) (p : Poller α) :
    (performAll s ds p).1.latest = (ds.filterMap Deed.taken?).getLastD p.latest := by
  induction ds generalizing p with
  | nil => rfl
  | cons d ds ih =>
    have hrest := ih (fun e he => hds e (List.mem_cons_of_mem d he)) (d.perform s p).1
    refine hrest.trans ?_
    rw [latest_perform (hds d List.mem_cons_self), List.filterMap_cons]
    cases d.taken? with
    | none => rfl
    | some value => exact (List.getLastD_cons).symm

def Fetching (p : Poller α) (i : Nat) : Prop := ∃ l, p.loop? i = some l ∧ l.phase = .fetching

/-- A loop that goes on once its fetch is over. -/
def Awaits (p : Poller α) (i : Nat) : Prop := p.Goes i ∧ p.Fetching i

theorem awaits_of_take {value : Option α} (hfair : fair)
    (h : (Deed.take i value).Allowed s fair p) : p.Awaits i := by
  obtain ⟨-, l, hl, hphase, hc⟩ := h
  refine ⟨⟨l, hl, hc hfair, ?_⟩, l, hl, hphase⟩
  unfold Loop.hasEnded
  rw [hphase]

theorem awaits_of_performAll {ds : List (Deed α)} (h : Lawful s fair ds p)
    (hi : (performAll s ds p).1.Awaits i) : .issue i ∈ ds ∨ p.Awaits i := by
  obtain ⟨hgoes, l, hl, hphase⟩ := hi
  rcases issue_of_performAll h hl hphase with hissue | ⟨l', hl', hphase'⟩
  · exact .inl hissue
  · exact .inr ⟨goes_of_performAll h (lt_of_loop? hl') hgoes, l', hl', hphase'⟩

theorem Single.awaits (h : p.Single) (hi : p.Awaits i) (hj : p.Awaits j) : j = i :=
  Option.some.inj ((h j hj.1).symm.trans (h i hi.1))

def Leaves (i : Nat) : List (Deed α) → Prop
  | .act _ :: ds => Leaves i ds
  | .sleep j :: _ | .finish j :: _ | .drop j _ :: _ => j = i
  | _ => False

def Settles : List (Deed α) → Prop
  | [] => True
  | .take i _ :: ds => Leaves i ds ∧ Settles ds
  | _ :: ds => Settles ds

theorem leaves_append {ds : List (Deed α)} (h : Leaves i ds) (es : List (Deed α)) :
    Leaves i (ds ++ es) := by
  induction ds with
  | nil => cases h
  | cons d ds ih =>
    cases d with
    | act a => exact ih h
    | _ => exact h

theorem leaves_acts (as : List (Action α)) {ds : List (Deed α)} (h : Leaves i ds) :
    Leaves i (as.map .act ++ ds) := by
  induction as with
  | nil => exact h
  | cons a as ih => exact ih

theorem leaves_goingOn (p : Poller α) : Leaves i [goingOn s i p] := by
  unfold goingOn
  split
  · rfl
  split <;> rfl

theorem settles_append {ds es : List (Deed α)} (hds : Settles ds) (hes : Settles es) :
    Settles (ds ++ es) := by
  induction ds with
  | nil => exact hes
  | cons d ds ih =>
    cases d with
    | take i value => exact ⟨leaves_append hds.1 es, ih hds.2⟩
    | _ => exact ih hds

theorem settles_acts (as : List (Action α)) : Settles (as.map .act) := by
  induction as with
  | nil => trivial
  | cons a as ih => exact ih

theorem settles_goingOn (p : Poller α) : Settles [goingOn s i p] := by
  unfold goingOn
  split
  · trivial
  split <;> trivial

theorem settles_receiving (after : List (Action α)) (p : Poller α) (outcome : Result (Option α)) :
    Settles (receiving s i after p outcome) := by
  cases outcome with
  | error e =>
    cases e with
    | fault f => exact settles_goingOn p
    | _ => trivial
  | ok value =>
    unfold receiving
    dsimp only
    split
    · trivial
    · exact ⟨leaves_acts _ (leaves_goingOn _), settles_append (settles_acts _) (settles_goingOn _)⟩

theorem settles_deeds (p : Poller α) (e : Event α) : Settles (deeds s p e) := by
  cases e with
  | act a => trivial
  | turn i t =>
    unfold deeds
    dsimp only
    split
    · trivial
    split
    · trivial
    split
    · trivial
    unfold turning
    split
    · exact settles_goingOn p
    · unfold waking
      split <;> trivial
    · exact settles_append (settles_acts _) (settles_receiving _ _ _)
    · trivial

theorem settles_history (es : List (Event α)) (p : Poller α) : Settles (history s es p) := by
  induction es generalizing p with
  | nil => trivial
  | cons e es ih => exact settles_append (settles_deeds p e) (ih _)

theorem settles_right {ds es : List (Deed α)} (h : Settles (ds ++ es)) : Settles es := by
  induction ds with
  | nil => exact h
  | cons d ds ih =>
    cases d with
    | take i value => exact ih h.2
    | _ => exact ih h

theorem leaves_of_settles {ds es : List (Deed α)} {value : Option α}
    (h : Settles (ds ++ .take i value :: es)) : Leaves i es := (settles_right h).1

theorem not_fetching_enter {phase : Phase} (hphase : phase ≠ .fetching) :
    ¬ (p.enter i phase).Fetching i := by
  rintro ⟨l, hl, hl'⟩
  rw [enter, loop?_setLoop, Option.map_eq_some_iff] at hl
  obtain ⟨l', -, rfl⟩ := hl
  rw [if_pos rfl] at hl'
  exact hphase hl'

theorem not_fetching_of_leaves {d : Deed α} {ds : List (Deed α)} (h : d.Allowed s fair p)
    (hd : ∀ a, d ≠ .act a) (hleaves : Leaves i (d :: ds)) : ¬ (d.perform s p).1.Fetching i := by
  cases d with
  | act a => exact absurd rfl (hd a)
  | sleep k =>
    obtain rfl : k = i := hleaves
    exact not_fetching_enter nofun
  | finish k =>
    obtain rfl : k = i := hleaves
    exact not_fetching_enter nofun
  | drop k phase =>
    obtain rfl : k = i := hleaves
    refine not_fetching_enter ?_
    rintro rfl
    cases h ⟨.fetching, false⟩
  | _ => cases hleaves

theorem issue_of_leaves {ds es : List (Deed α)} {value : Option α} (hfair : fair)
    (h : Lawful s fair (ds ++ .take j value :: es) p) (hleaves : Leaves i (ds ++ .take j value :: es))
    (hp : ∀ k, p.Awaits k → k = i) : .issue j ∈ ds := by
  induction ds generalizing p with
  | nil => cases hleaves
  | cons d ds ih =>
    have hstill : (∀ k, d ≠ .issue k) → ∀ k, (d.perform s p).1.Awaits k → k = i := by
      intro hd k hk
      have honly : Lawful s fair [d] p := ⟨h.1, trivial⟩
      rw [← performAll_singleton] at hk
      rcases awaits_of_performAll honly hk with hissue | hk
      · exact absurd (List.mem_singleton.mp hissue).symm (hd k)
      · exact hp k hk
    by_cases hact : ∃ a, d = .act a
    · obtain ⟨a, rfl⟩ := hact
      exact List.mem_cons_of_mem _ (ih h.2 hleaves (hstill nofun))
    · -- the loop has left here, so whatever waits later has issued a fetch since
      have hact : ∀ a, d ≠ .act a := fun a ha => hact ⟨a, ha⟩
      have hd : ∀ k, d ≠ .issue k := by
        rintro k rfl
        cases hleaves
      obtain ⟨hds, htake, -⟩ := lawful_append.mp h.2
      rcases awaits_of_performAll hds (awaits_of_take hfair htake) with hissue | hj
      · exact List.mem_cons_of_mem _ hissue
      · obtain rfl := hstill hd j hj
        exact absurd hj.2 (not_fetching_of_leaves h.1 hact hleaves)

theorem issue_between {ds es fs : List (Deed α)} {x y : Option α} (hfair : fair)
    (hlawful : Lawful s fair (ds ++ .take i x :: es ++ .take j y :: fs) p)
    (hsettles : Settles (ds ++ .take i x :: es ++ .take j y :: fs)) (hp : p.Single) :
    .issue j ∈ es := by
  rw [List.append_assoc, List.cons_append] at hlawful hsettles
  obtain ⟨hds, htake, hes⟩ := lawful_append.mp hlawful
  have hsingle : (performAll s ds p).1.Single := single_performAll hds hp
  exact issue_of_leaves hfair hes (leaves_of_settles hsettles)
    fun k hk => hsingle.awaits (awaits_of_take hfair htake) hk

theorem isActive_congr {q : Poller α} (h : q.latest = p.latest) : q.isActive s = p.isActive s := by
  unfold isActive
  rw [h]

/-- A poller whose latest value is no reason to go on issues no fetch before it takes a value, and
the first one it takes is that of a fetch under way. -/
theorem take_before_issue {ds es : List (Deed α)} (h : Lawful s fair (ds ++ .issue i :: es) p)
    (hds : ∀ d ∈ ds, ¬ d.Sets) (hp : p.isActive s = false) :
    ∃ j x, .take j x ∈ ds ∧ p.Fetching j := by
  induction ds generalizing p with
  | nil => exact absurd (h.1.2.1.symm.trans hp) nofun
  | cons d ds ih =>
    have hrest := fun e he => hds e (List.mem_cons_of_mem d he)
    by_cases htake : ∃ j x, d = .take j x
    · obtain ⟨j, x, rfl⟩ := htake
      obtain ⟨⟨-, l, hl, hphase, -⟩, -⟩ := h
      exact ⟨j, x, List.mem_cons_self, l, hl, hphase⟩
    have hlatest : (d.perform s p).1.latest = p.latest := by
      rw [latest_perform (hds d List.mem_cons_self)]
      cases d with
      | take j x => exact absurd ⟨j, x, rfl⟩ htake
      | _ => rfl
    obtain ⟨j, x, hmem, l, hl, hphase⟩ := ih h.2 hrest ((isActive_congr hlatest).trans hp)
    refine ⟨j, x, List.mem_cons_of_mem d hmem, ?_⟩
    rcases issue_of_perform h.1 hl hphase with rfl | hfetching
    · exact absurd (h.1.2.1.symm.trans hp) nofun
    · exact hfetching

/-- What comes of a value recorded by an update, before another call sets the latest value. It stays
the latest until a value is taken. A value that is taken belongs to a fetch issued since, or to the
one that was under way at the update and then it is the first. If the recorded value is inactive, no
fetch is issued before the value of the one under way was taken. -/
structure Overtaken (s : Setup α) (fair : Prop) (p : Poller α) (value : Option α)
    (ds : List (Deed α)) : Prop where
  latest : (performAll s ds (p.update value)).1.latest = (ds.filterMap Deed.taken?).getLastD value
  source : ∀ early i x late, ds = early ++ .take i x :: late →
    .issue i ∈ early ∨ p.Fetching i ∧ (fair → ∀ j y, .take j y ∉ early)
  quiet : (p.update value).isActive s = false → ∀ early i late, ds = early ++ .issue i :: late →
    ∃ j x, .take j x ∈ early ∧ p.Fetching j

theorem overtaken_of_lawful {value : Option α} {ds rest : List (Deed α)} (hp : p.Single)
    (hlawful : Lawful s fair (ds ++ rest) (p.update value)) (hsettles : Settles (ds ++ rest))
    (hds : ∀ d ∈ ds, ¬ d.Sets) : Overtaken s fair p value ds := by
  constructor
  case latest => exact latest_performAll hds (p.update value)
  case source =>
    intro early i x late hsplit
    subst hsplit
    rw [List.append_assoc, List.cons_append] at hlawful hsettles
    obtain ⟨hearly, ⟨-, l, hl, hphase, -⟩, -⟩ := lawful_append.mp hlawful
    by_cases hissue : .issue i ∈ early
    · exact .inl hissue
    refine .inr ⟨(issue_of_performAll hearly hl hphase).resolve_left hissue, ?_⟩
    intro hfair j y hmem
    obtain ⟨first, between, rfl⟩ := List.append_of_mem hmem
    have hsingle : (p.update value).Single := hp
    exact hissue (List.mem_append_right _ (List.mem_cons_of_mem _
      (issue_between hfair hlawful hsettles hsingle)))
  case quiet =>
    intro hidle early i late hsplit
    subst hsplit
    rw [List.append_assoc, List.cons_append] at hlawful
    exact take_before_issue (p := p.update value) hlawful
      (fun d hd => hds d (List.mem_append_left _ hd)) hidle

theorem turn_received (h : p.Awaits i) (outcome : Result (Option α)) :
    p.turn s i (.fetched [] outcome []) = p.receive s i [] outcome := by
  obtain ⟨⟨l, hl, hc, he⟩, l', hl', hphase⟩ := h
  obtain rfl : l = l' := Option.some.inj (hl.symm.trans hl')
  simp only [turn, hl, he, hc, takeTurn, hphase, actions, Move.andThen, Bool.false_eq_true,
    if_false, List.nil_append]

theorem turn_fetched (h : p.Awaits i) (hstopped : p.stopped = false) (x : Option α) :
    p.turn s i (.fetched [] (.ok x) []) = (p.tick s x).andThen (goOn s i) := by
  rw [turn_received h]
  simp only [receive, hstopped, ite_self, Bool.false_eq_true, if_false, actions, Move.andThen,
    List.append_nil]

theorem latest_goOn (p : Poller α) : (p.goOn s i).1.latest = p.latest := by
  unfold goOn
  split
  · rfl
  split <;> rfl

theorem goOn_sleeps (hgoes : p.Goes i) (hstopped : p.stopped = false)
    (hactive : p.isActive s = true) : p.goOn s i = (p.enter i .asleep, [.sleep i]) := by
  obtain ⟨l, hl, hc, -⟩ := hgoes
  unfold goOn isCancelled
  rw [hl, hstopped, hactive, Option.map_some, hc]
  rfl

theorem loop?_enter {l : Loop} (hl : p.loop? i = some l) (phase : Phase) :
    (p.enter i phase).loop? i = some (l.enter phase) := by
  rw [enter, loop?_setLoop, hl, Option.map_some, if_pos rfl]

theorem turn_awake {l : Loop} (hl : p.loop? i = some l) (hphase : l.phase = .asleep)
    (hc : l.cancelled = false) (hstopped : p.stopped = false) (hactive : p.isActive s = true) :
    p.turn s i .awake = (p.enter i .fetching, [.fetch i]) := by
  have he : l.hasEnded = false := by
    unfold Loop.hasEnded
    rw [hphase]
  simp only [turn, hl, he, hc, Bool.false_eq_true, if_false, hphase, takeTurn, wake, hstopped,
    hactive, Bool.not_true, Bool.or_self]

theorem goOn_fetches (hgoes : p.Goes i) (hstopped : p.stopped = false)
    (hactive : p.isActive s = true) :
    .fetch i ∈ ((p.goOn s i).andThen (turn s i .awake)).2 := by
  obtain ⟨l, hl, hc, -⟩ := id hgoes
  have hwakes : (p.enter i .asleep).turn s i .awake = _ :=
    turn_awake (loop?_enter hl .asleep) rfl hc hstopped hactive
  rw [goOn_sleeps hgoes hstopped hactive, Move.andThen, hwakes]
  exact List.mem_append_right _ List.mem_cons_self

theorem latest_turn_awake (p : Poller α) : (p.turn s i .awake).1.latest = p.latest := by
  have hwake : (p.wake s i).1.latest = p.latest := by
    unfold wake
    split <;> rfl
  unfold turn
  split
  · rfl
  split
  · rfl
  split
  · rfl
  rename_i l _ _ _
  cases l.phase with
  | asleep => exact hwake
  | _ => rfl

theorem fetched_overtakes (h : p.Awaits i) (hstopped : p.stopped = false) (value x : Option α) :
    let m := run s [.act (.update value), .turn i (.fetched [] (.ok x) []), .turn i .awake] p
    m.1.latest = x ∧ ((new.update x).isActive s = true → .fetch i ∈ m.2) := by
  have hturn : (p.update value).turn s i (.fetched [] (.ok x) []) =
      ((p.update value).tick s x).andThen (goOn s i) :=
    turn_fetched (p := p.update value) h hstopped x
  have hrun : run s [.act (.update value), .turn i (.fetched [] (.ok x) []), .turn i .awake] p =
      (((p.update value).tick s x).andThen (goOn s i)).andThen (turn s i .awake) := by
    simp only [run, step, act, hturn, Move.andThen, List.append_nil, List.nil_append]
  rw [hrun]
  constructor
  · exact (latest_turn_awake _).trans (latest_goOn _)
  · intro hactive
    have hfetch : Effect.fetch i ∈
        ((((p.update value).tick s x).1.goOn s i).andThen (turn s i .awake)).2 :=
      goOn_fetches h.1 hstopped hactive
    rw [Move.andThen_assoc]
    exact List.mem_append_right _ hfetch

/-- What becomes of updates in every run. The value of a fetch under way always takes the place of
the recorded one, however much newer that is, and if it is active the loop fetches again. -/
theorem update_overtaken (s : Setup α) (es : List (Event α)) :
    (∀ before value ds rest, history s es new = before ++ .act (.update value) :: ds ++ rest →
      (∀ d ∈ ds, ¬ d.Sets) →
      Overtaken s (∀ e ∈ es, e.NoRestart) (reached s before).1 value ds) ∧
    ∀ i value x, (run s es new).1.Awaits i → (run s es new).1.stopped = false →
      let m := run s [.act (.update value), .turn i (.fetched [] (.ok x) []), .turn i .awake]
        (run s es new).1
      m.1.latest = x ∧ ((new.update x).isActive s = true → .fetch i ∈ m.2) := by
  constructor
  · intro before value ds rest hsplit hds
    have hlawful := @lawful_history α s (∀ e ∈ es, e.NoRestart) es id new
    have hsettles := settles_history (s := s) es new
    rw [hsplit, List.append_assoc, List.cons_append] at hlawful hsettles
    obtain ⟨hbefore, -, hafter⟩ := lawful_append.mp hlawful
    have hsettled : Settles (.act (.update value) :: (ds ++ rest)) := settles_right hsettles
    exact overtaken_of_lawful (single_performAll hbefore single_new) hafter hsettled hds
  · intro i value x hawaits hstopped
    exact fetched_overtakes hawaits hstopped value x

def overtakingEvents : List (Event Nat) :=
  [.act (.start (some 1)), .turn 0 .begin, .turn 0 .awake, .act (.update (some 2)),
   .turn 0 (.fetched [] (.ok (some 1)) []), .turn 0 .awake]

def beforeUpdate : List (Deed Nat) := [.act (.start (some 1)), .sleep 0, .issue 0]

def afterUpdate : List (Deed Nat) := [.take 0 (some 1), .sleep 0, .issue 0]

theorem overtakingEvents_history : history benchSetup overtakingEvents new =
    beforeUpdate ++ .act (.update (some 2)) :: afterUpdate ++ [] := rfl

theorem afterUpdate_calls : ∀ d ∈ afterUpdate, ¬ d.Sets := by
  simp [afterUpdate, Deed.Sets]

theorem update_overtaken_bench :
    Overtaken benchSetup True (reached benchSetup beforeUpdate).1 (some 2) afterUpdate ∧
    (run benchSetup (overtakingEvents.take 3) new).1.Awaits 0 ∧
    (run benchSetup overtakingEvents new).1.latest = some 1 ∧
    .fetch 0 ∈ (run benchSetup (overtakingEvents.drop 3)
      (run benchSetup (overtakingEvents.take 3) new).1).2 := by
  have hfair : ∀ e ∈ overtakingEvents, e.NoRestart := by
    simp [overtakingEvents, Event.NoRestart]
  have hover := (update_overtaken benchSetup overtakingEvents).1 _ _ _ _ overtakingEvents_history
    afterUpdate_calls
  have hawaits : (run benchSetup (overtakingEvents.take 3) new).1.Awaits 0 :=
    ⟨⟨_, rfl, rfl, rfl⟩, _, rfl, rfl⟩
  obtain ⟨hlatest, hfetch⟩ := (update_overtaken benchSetup (overtakingEvents.take 3)).2 0 (some 2)
    (some 1) hawaits rfl
  rw [eq_true hfair] at hover
  exact ⟨hover, hawaits, hlatest, hfetch rfl⟩

/-- A value can be lost to a fetch that was issued before it was recorded, and a fetch can be issued
although the recorded value is inactive and no other fetch was issued since. -/
theorem update_not_kept :
    (¬ ∀ (es : List (Event Nat)) (before early late : List (Deed Nat)) (value x : Option Nat) i,
      history benchSetup es new = before ++ .act (.update value) :: early ++ .take i x :: late →
      (∀ d ∈ early, ¬ d.Sets) → .issue i ∈ early) ∧
    (¬ ∀ (es : List (Event Nat)) (before early late : List (Deed Nat)) (value : Option Nat) i,
      history benchSetup es new = before ++ .act (.update value) :: early ++ .issue i :: late →
      (∀ d ∈ early, ¬ d.Sets) → (new.update value).isActive benchSetup = false →
      ∃ j, .issue j ∈ early) := by
  constructor
  · intro hclaim
    have hissue := hclaim overtakingEvents beforeUpdate [] [.sleep 0, .issue 0] (some 2) (some 1) 0
      rfl nofun
    cases hissue
  · intro hclaim
    obtain ⟨j, hissue⟩ := hclaim overtakingEvents beforeUpdate [.take 0 (some 1), .sleep 0] []
      (some 2) 0 rfl (by simp [Deed.Sets]) rfl
    simp at hissue

end BomEngine.Poller
