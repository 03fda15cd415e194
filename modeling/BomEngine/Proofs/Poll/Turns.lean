import BomEngine.Proofs.Poll.Updates

/-!
# Turns without calls

In a turn in which nobody calls it, a poller does what its loops do by themselves. If there is no
reason to go on, and no loop is waiting for a fetch, then nothing comes of such turns, whichever
loops they are for and however many there are.
-/

set_option autoImplicit false

namespace BomEngine.Poller

variable {α : Type} {s : Setup α} {p : Poller α} {i : Nat} {t : Turn α} {fair : Prop}

def Turn.Plain : Turn α → Prop
  | .fetched before _ after => before = [] ∧ after = []
  | _ => True

theorem plain_begin : (.begin : Turn α).Plain := trivial

theorem plain_awake : (.awake : Turn α).Plain := trivial

theorem plain_fetched (outcome : Result (Option α)) : (Turn.fetched [] outcome []).Plain :=
  ⟨rfl, rfl⟩

theorem act_not_mem_goingOn (a : Action α) : .act a ∉ [goingOn s i p] := by
  unfold goingOn
  split
  · exact nofun
  split <;> exact nofun

theorem act_not_mem_receiving (a : Action α) (outcome : Result (Option α)) :
    .act a ∉ receiving s i [] p outcome := by
  cases outcome with
  | error e =>
    cases e with
    | fault f => exact fun h => act_not_mem_goingOn a ((List.mem_cons.mp h).resolve_left nofun)
    | _ => exact nofun
  | ok value =>
    unfold receiving taking
    simp only [ite_self, List.map_nil, List.cons_append, List.nil_append]
    split
    · exact nofun
    · exact fun h => act_not_mem_goingOn a ((List.mem_cons.mp h).resolve_left nofun)

theorem act_not_mem_deeds (ht : t.Plain) (a : Action α) : .act a ∉ deeds s p (.turn i t) := by
  unfold deeds
  dsimp only
  split
  · exact nofun
  split
  · exact nofun
  split
  · exact nofun
  unfold turning
  split
  · exact act_not_mem_goingOn a
  · unfold waking
    split <;> exact nofun
  · obtain ⟨rfl, rfl⟩ := ht
    exact act_not_mem_receiving a _
  · exact nofun

theorem rests_turn (ht : t.Plain) (hp : p.stopped = true) :
    (p.turn s i t).1.stopped = true ∧ Rests p (p.turn s i t) [] := by
  have hacts : ∀ a, .act a ∉ deeds s p (.turn i t) := act_not_mem_deeds ht
  have hlawful : Lawful s False (deeds s p (.turn i t)) p := lawful_deeds False.elim p
  have hnone : (deeds s p (.turn i t)).filterMap Deed.update? = [] := by
    refine List.filterMap_eq_nil_iff.mpr ?_
    intro d hd
    cases d with
    | act a => exact absurd hd (hacts a)
    | _ => rfl
  have hrests := rests_performAll hlawful hp fun x => hacts (.start x)
  rwa [hnone, performAll_deeds] at hrests

def Event.Quiet : Event α → Prop
  | .act _ => False
  | .turn _ t => t.Plain

theorem Event.Quiet.noRestart {e : Event α} (h : e.Quiet) : e.NoRestart := by
  cases e with
  | act a => exact h.elim
  | turn i t =>
    cases t with
    | fetched before outcome after =>
      obtain ⟨rfl, -⟩ := h
      exact nofun
    | _ => trivial

theorem act_not_mem_history {es : List (Event α)} (hes : ∀ e ∈ es, e.Quiet) (a : Action α)
    (p : Poller α) : .act a ∉ history s es p := by
  induction es generalizing p with
  | nil => exact nofun
  | cons e es ih =>
    rw [history, List.mem_append, not_or]
    refine ⟨?_, ih (fun e he => hes e (List.mem_cons_of_mem _ he)) _⟩
    have he := hes e List.mem_cons_self
    cases e with
    | act b => exact he.elim
    | turn i t => exact act_not_mem_deeds he a

def Effect.Silent (e : Effect α) : Prop := (∀ j, e ≠ .fetch j) ∧ ∀ v, e ≠ .deliver v

theorem start_silent (initial : Option α) (p : Poller α) :
    ∀ e ∈ (p.start s initial).2, e.Silent := by
  unfold start
  split
  · exact nofun
  dsimp only
  split <;> exact List.forall_mem_singleton.mpr ⟨nofun, nofun⟩

structure Inert (s : Setup α) (p : Poller α) : Prop where
  inactive : p.isActive s = false
  awaits : ∀ i, ¬ p.Awaits i

theorem inert_perform {d : Deed α} (hfair : fair) (h : d.Allowed s fair p)
    (hd : ∀ a, d ≠ .act a) (hp : p.Inert s) :
    (d.perform s p).1.Inert s ∧ Rests p (d.perform s p) [] := by
  have hissue : ∀ i, d ≠ .issue i := by
    rintro i rfl
    exact absurd (h.2.1.symm.trans hp.inactive) nofun
  have hawaits : ∀ i, ¬ (d.perform s p).1.Awaits i := by
    intro i hi
    have honly : Lawful s fair [d] p := ⟨h, trivial⟩
    rw [← performAll_singleton] at hi
    rcases awaits_of_performAll honly hi with hmem | hi
    · exact hissue i (List.mem_singleton.mp hmem).symm
    · exact hp.awaits i hi
  cases d with
  | act a => exact absurd rfl (hd a)
  | issue i => exact absurd rfl (hissue i)
  | take i value => exact absurd (awaits_of_take hfair h) (hp.awaits i)
  | sleep i =>
    exact ⟨⟨hp.inactive, hawaits⟩, List.forall_mem_singleton.mpr ⟨nofun, nofun⟩, rfl, rfl⟩
  | miss f =>
    exact ⟨⟨hp.inactive, hawaits⟩, List.forall_mem_singleton.mpr ⟨nofun, nofun⟩, rfl, rfl⟩
  | finish i =>
    refine ⟨⟨hp.inactive, hawaits⟩, ?_, rfl, rfl⟩
    show ∀ e ∈ if p.stopped then [] else [s.idle "polling stopped"], _
    split
    · exact nofun
    · exact List.forall_mem_singleton.mpr ⟨nofun, nofun⟩
  | drop i phase => exact ⟨⟨hp.inactive, hawaits⟩, nofun, rfl, rfl⟩

theorem inert_performAll {ds : List (Deed α)} (hfair : fair) (h : Lawful s fair ds p)
    (hds : ∀ a, .act a ∉ ds) (hp : p.Inert s) : Rests p (performAll s ds p) [] := by
  induction ds generalizing p with
  | nil => exact ⟨nofun, rfl, rfl⟩
  | cons d ds ih =>
    obtain ⟨hstill, hfirst⟩ := inert_perform hfair h.1
      (fun a ha => hds a (ha ▸ List.mem_cons_self)) hp
    exact hfirst.andThen (ih h.2 (fun a ha => hds a (List.mem_cons_of_mem d ha)) hstill)

theorem inert_run {es : List (Event α)} (hes : ∀ e ∈ es, e.Quiet) (hp : p.Inert s) :
    Rests p (run s es p) [] := by
  rw [← performAll_history]
  exact inert_performAll trivial (lawful_history (fun _ e he => (hes e he).noRestart) p)
    (fun a => act_not_mem_history hes a p) hp

end BomEngine.Poller
