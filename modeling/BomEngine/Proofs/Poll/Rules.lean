import BomEngine.Proofs.Poll.History
import BomEngine.Proofs.Poll.Loops

/-!
# What can come in the course of a run

A deed does not come at any time: a fetch is issued for a loop that goes on, by a poller that has
a reason for it, and a value is taken for a loop that has issued a fetch. That is so at every deed
of a history, whatever the order of the events. What the deeds preserve of the loops follows from
it.
-/

set_option autoImplicit false

namespace BomEngine.Poller

variable {α : Type} {s : Setup α} {p : Poller α} {i j : Nat}

/-- A fetch does not start its poller while it comes out. -/
def Event.NoRestart : Event α → Prop
  | .turn _ (.fetched before _ _) => ∀ x, .start x ∉ before
  | _ => True

/-- When a deed can come in the course of a run. A value is taken for a loop that was not cancelled
if the run is fair, that is if no fetch starts its poller while it comes out. -/
def Deed.Allowed (s : Setup α) (fair : Prop) : Deed α → Poller α → Prop
  | .act _, _ | .miss _, _ | .finish _, _ => True
  | .sleep i, p => p.Goes i
  | .issue i, p => p.stopped = false ∧ p.isActive s = true ∧ p.Goes i
  | .take i _, p => p.stopped = false ∧
      ∃ l, p.loop? i = some l ∧ l.phase = .fetching ∧ (fair → l.cancelled = false)
  | .drop _ phase, _ => ∀ l, (Loop.enter phase l).hasEnded = true

def Lawful (s : Setup α) (fair : Prop) : List (Deed α) → Poller α → Prop
  | [], _ => True
  | d :: ds, p => d.Allowed s fair p ∧ Lawful s fair ds (d.perform s p).1

variable {fair : Prop}

theorem lawful_append {ds es : List (Deed α)} :
    Lawful s fair (ds ++ es) p ↔
      Lawful s fair ds p ∧ Lawful s fair es (performAll s ds p).1 := by
  induction ds generalizing p with
  | nil => exact ⟨fun h => ⟨trivial, h⟩, And.right⟩
  | cons d ds ih =>
    show d.Allowed s fair p ∧ Lawful s fair (ds ++ es) (d.perform s p).1 ↔ _
    rw [ih, ← and_assoc]
    rfl

theorem lawful_acts (as : List (Action α)) (p : Poller α) : Lawful s fair (as.map .act) p := by
  induction as generalizing p with
  | nil => trivial
  | cons a as ih => exact ⟨trivial, ih _⟩

theorem goingOn_allowed {l : Loop} (h : p.loop? i = some l) (he : l.hasEnded = false) :
    (goingOn s i p).Allowed s fair p := by
  unfold goingOn
  split
  · trivial
  split
  · exact fun _ => rfl
  · rename_i hc
    unfold isCancelled at hc
    rw [h] at hc
    exact ⟨l, h, Bool.eq_false_of_not_eq_true hc, he⟩

theorem waking_allowed (h : p.Goes i) : (waking s i p).Allowed s fair p := by
  unfold waking
  split
  · trivial
  · rename_i hgo
    simp only [Bool.or_eq_true, Bool.not_eq_true', not_or, Bool.not_eq_true,
      Bool.not_eq_false] at hgo
    exact ⟨hgo.1, hgo.2, h⟩

theorem lawful_receiving {l : Loop} (h : p.loop? i = some l) (hphase : l.phase = .fetching)
    (hc : p.stopped = false → fair → l.cancelled = false) (after : List (Action α))
    (outcome : Result (Option α)) : Lawful s fair (receiving s i after p outcome) p := by
  have he : l.hasEnded = false := by
    unfold Loop.hasEnded
    rw [hphase]
  cases outcome with
  | error e =>
    cases e with
    | fault f => exact ⟨trivial, goingOn_allowed h he, trivial⟩
    | _ => exact ⟨fun _ => rfl, trivial⟩
  | ok value =>
    unfold receiving
    dsimp only
    split
    · exact ⟨fun _ => rfl, trivial⟩
    rename_i hstopped
    have hgo : p.stopped = false := Bool.eq_false_of_not_eq_true hstopped
    unfold taking
    dsimp only
    refine lawful_append.mpr ⟨⟨⟨hgo, l, h, hphase, hc hgo⟩, lawful_acts _ _⟩, ?_, trivial⟩
    obtain ⟨l', hl', hphase'⟩ := actions_keeps (s := s) (p := (p.tick s value).1) h
      (if s.delivers then after else [])
    rw [← performAll_acts] at hl'
    exact goingOn_allowed hl' ((Loop.hasEnded_congr hphase').trans he)

theorem lawful_turning {l : Loop} {t : Turn α} (h : p.loop? i = some l)
    (hc : l.cancelled = false) (he : l.hasEnded = false)
    (ht : fair → (Event.turn i t).NoRestart) : Lawful s fair (turning s i p l.phase t) p := by
  cases hphase : l.phase with
  | begun =>
    cases t with
    | begin => exact ⟨goingOn_allowed h he, trivial⟩
    | _ => trivial
  | asleep =>
    cases t with
    | awake => exact ⟨waking_allowed ⟨l, h, hc, he⟩, trivial⟩
    | _ => trivial
  | fetching =>
    cases t with
    | fetched before outcome after =>
      refine lawful_append.mpr ⟨lawful_acts before p, ?_⟩
      rw [performAll_acts]
      obtain ⟨l', hl', hphase'⟩ := actions_keeps (s := s) h before
      refine lawful_receiving hl' (hphase'.trans hphase) ?_ after outcome
      intro hstopped hfair
      have hloops := (loops_actions (ht hfair) hstopped).2
      unfold loop? at h hl'
      rw [hloops, h] at hl'
      exact Option.some.inj hl' ▸ hc
    | _ => trivial
  | ended => trivial
  | broken f => trivial

theorem lawful_deeds {e : Event α} (he : fair → e.NoRestart) (p : Poller α) :
    Lawful s fair (deeds s p e) p := by
  cases e with
  | act a => exact ⟨trivial, trivial⟩
  | turn i t =>
    unfold deeds
    dsimp only
    cases h : p.loop? i with
    | none => trivial
    | some l =>
      dsimp only
      split
      · trivial
      split
      · exact ⟨fun _ => rfl, trivial⟩
      · rename_i hended hcancelled
        exact lawful_turning h (Bool.eq_false_of_not_eq_true hcancelled)
          (Bool.eq_false_of_not_eq_true hended) he

theorem lawful_history {es : List (Event α)} (h : fair → ∀ e ∈ es, e.NoRestart) (p : Poller α) :
    Lawful s fair (history s es p) p := by
  induction es generalizing p with
  | nil => trivial
  | cons e es ih =>
    refine lawful_append.mpr ⟨lawful_deeds (fun hfair => h hfair e List.mem_cons_self) p, ?_⟩
    rw [performAll_deeds]
    exact ih (fun hfair e he => h hfair e (List.mem_cons_of_mem _ he)) _

theorem length_le_perform (d : Deed α) (p : Poller α) :
    p.loops.length ≤ (d.perform s p).1.loops.length := by
  cases d with
  | act a => exact length_le_act a
  | miss f => exact le_rfl
  | take i v => exact le_rfl
  | _ => exact (List.length_modify _ _ _).ge

theorem goes_of_perform {d : Deed α} (h : d.Allowed s fair p) (hj : j < p.loops.length)
    (hgoes : (d.perform s p).1.Goes j) : p.Goes j := by
  cases d with
  | act a => exact goes_of_act hj hgoes
  | sleep i => exact goes_of_enter (.inl h) hgoes
  | issue i => exact goes_of_enter (.inl h.2.2) hgoes
  | miss f => exact hgoes
  | take i v => exact hgoes
  | finish i => exact goes_of_enter (.inr fun _ => rfl) hgoes
  | drop i phase => exact goes_of_enter (.inr h) hgoes

theorem single_perform {d : Deed α} (h : d.Allowed s fair p) (hp : p.Single) :
    (d.perform s p).1.Single := by
  cases d with
  | act a => exact single_act hp a
  | sleep i => exact fun j hj => hp j (goes_of_enter (.inl h) hj)
  | issue i => exact fun j hj => hp j (goes_of_enter (.inl h.2.2) hj)
  | miss f => exact hp
  | take i v => exact hp
  | finish i => exact fun j hj => hp j (goes_of_enter (.inr fun _ => rfl) hj)
  | drop i phase => exact fun j hj => hp j (goes_of_enter (.inr h) hj)

theorem length_le_performAll (ds : List (Deed α)) (p : Poller α) :
    p.loops.length ≤ (performAll s ds p).1.loops.length := by
  induction ds generalizing p with
  | nil => exact le_rfl
  | cons d ds ih => exact (length_le_perform d p).trans (ih _)

theorem goes_of_performAll {ds : List (Deed α)} (h : Lawful s fair ds p) (hj : j < p.loops.length)
    (hgoes : (performAll s ds p).1.Goes j) : p.Goes j := by
  induction ds generalizing p with
  | nil => exact hgoes
  | cons d ds ih =>
    exact goes_of_perform h.1 hj (ih h.2 (hj.trans_le (length_le_perform d p)) hgoes)

theorem single_performAll {ds : List (Deed α)} (h : Lawful s fair ds p) (hp : p.Single) :
    (performAll s ds p).1.Single := by
  induction ds generalizing p with
  | nil => exact hp
  | cons d ds ih => exact ih h.2 (single_perform h.1 hp)

theorem issue_of_perform {d : Deed α} (h : d.Allowed s fair p) {l : Loop}
    (hl : (d.perform s p).1.loop? i = some l) (hphase : l.phase = .fetching) :
    d = .issue i ∨ ∃ l', p.loop? i = some l' ∧ l'.phase = .fetching := by
  have henter : ∀ (k : Nat) (phase : Phase), (p.enter k phase).loop? i = some l →
      k = i ∧ phase = .fetching ∨ ∃ l', p.loop? i = some l' ∧ l'.phase = .fetching := by
    intro k phase hk
    rw [enter, loop?_setLoop, Option.map_eq_some_iff] at hk
    obtain ⟨l', hl', rfl⟩ := hk
    by_cases hki : k = i
    · rw [if_pos hki] at hphase
      exact .inl ⟨hki, hphase⟩
    · rw [if_neg hki] at hphase
      exact .inr ⟨l', hl', hphase⟩
  cases d with
  | act a =>
    right
    by_cases hi : i < p.loops.length
    · obtain ⟨l', hl'⟩ := exists_loop? hi
      obtain ⟨l'', hl'', hsame, -⟩ := act_keeps (s := s) hl' a
      obtain rfl : l'' = l := Option.some.inj (hl''.symm.trans hl)
      exact ⟨l', hl', hsame.symm.trans hphase⟩
    · rw [begun_of_act hi hl] at hphase
      cases hphase
  | sleep k =>
    rcases henter k _ hl with ⟨-, hk⟩ | hk
    · cases hk
    · exact .inr hk
  | issue k =>
    rcases henter k _ hl with ⟨rfl, -⟩ | hk
    · exact .inl rfl
    · exact .inr hk
  | miss f => exact .inr ⟨l, hl, hphase⟩
  | take k v => exact .inr ⟨l, hl, hphase⟩
  | finish k =>
    rcases henter k _ hl with ⟨-, hk⟩ | hk
    · cases hk
    · exact .inr hk
  | drop k phase =>
    rcases henter k _ hl with ⟨-, rfl⟩ | hk
    · cases h ⟨.fetching, false⟩
    · exact .inr hk

theorem issue_of_performAll {ds : List (Deed α)} (h : Lawful s fair ds p) {l : Loop}
    (hl : (performAll s ds p).1.loop? i = some l) (hphase : l.phase = .fetching) :
    .issue i ∈ ds ∨ ∃ l', p.loop? i = some l' ∧ l'.phase = .fetching := by
  induction ds generalizing p with
  | nil => exact .inr ⟨l, hl, hphase⟩
  | cons d ds ih =>
    rcases ih h.2 hl with hmem | ⟨l', hl', hphase'⟩
    · exact .inl (List.mem_cons_of_mem d hmem)
    · rcases issue_of_perform h.1 hl' hphase' with rfl | hfetching
      · exact .inl List.mem_cons_self
      · exact .inr hfetching

end BomEngine.Poller
