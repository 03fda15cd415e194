import BomEngine.Poll.Monitor
import BomEngine.Proofs.Poll.Turns

/-!
# One watch at a time

Each watch of a monitor has a poller of its own. Whoever calls the monitor, from outside or as the
receiver of a campaign, stops the poller of a watch that is over, and nothing starts it again. So
fetches are issued for the watched campaign only, and what a fetch of an earlier watch comes to
reaches neither the current campaign nor a receiver.
-/

set_option autoImplicit false

namespace BomEngine

namespace Poller

variable {α : Type} {s : Setup α} {p : Poller α} {i : Nat}

theorem goOn_silent (p : Poller α) : ∀ e ∈ (p.goOn s i).2, e.Silent := by
  unfold goOn finish
  split
  · show ∀ e ∈ (if p.stopped then [] else [s.idle "polling stopped"]), e.Silent
    split
    · exact nofun
    · exact List.forall_mem_singleton.mpr ⟨nofun, nofun⟩
  split
  · exact nofun
  · exact List.forall_mem_singleton.mpr ⟨nofun, nofun⟩

theorem resume_silent (failure : Option Failure) (p : Poller α) :
    ∀ e ∈ (p.resume s i failure).2, e.Silent := by
  cases failure with
  | none => exact goOn_silent p
  | some f => exact nofun

theorem stopped_resume (failure : Option Failure) (p : Poller α) :
    (p.resume s i failure).1.stopped = p.stopped := by
  cases failure with
  | some f => rfl
  | none =>
    show (p.goOn s i).1.stopped = p.stopped
    unfold goOn
    split
    · rfl
    split <;> rfl

theorem takes_of_stopped (h : p.stopped = true) : p.takes i = false := by
  unfold takes
  rw [h]
  rfl

end Poller

namespace CampaignMonitor
open Poller

variable {m : CampaignMonitor} {k i : Nat}

section OnPoller

variable {f : String → Poller Campaign → Poller.Move Campaign}

theorem watched_onPoller : (m.onPoller k f).1.watched = m.watched := by
  unfold onPoller
  split <;> rfl

theorem get_onPoller (j : Nat) : (m.onPoller k f).1.pollers[j]? =
    if k = j then (m.pollers[k]?).map fun e => (e.1, (f e.1 e.2).1) else m.pollers[j]? := by
  unfold onPoller
  cases h : m.pollers[k]? with
  | none =>
    show m.pollers[j]? = _
    by_cases hj : k = j
    · rw [if_pos hj, ← hj, h]
      rfl
    · rw [if_neg hj]
  | some e =>
    show (m.pollers.set k (e.1, (f e.1 e.2).1))[j]? = _
    by_cases hj : k = j
    · subst hj
      rw [if_pos rfl, List.getElem?_set_self (List.getElem?_eq_some_iff.mp h).1]
      rfl
    · rw [if_neg hj, List.getElem?_set_ne hj]

theorem length_onPoller : (m.onPoller k f).1.pollers.length = m.pollers.length := by
  unfold onPoller
  split
  · rfl
  · exact List.length_set

theorem mem_onPoller {x : Nat × Effect Campaign} (h : x ∈ (m.onPoller k f).2) :
    x.1 = k ∧ ∃ id p, m.pollers[k]? = some (id, p) ∧ x.2 ∈ (f id p).2 := by
  unfold onPoller at h
  split at h
  · cases h
  · rename_i id p hp
    obtain ⟨e, he, rfl⟩ := List.mem_map.mp h
    exact ⟨rfl, id, p, hp, he⟩

theorem poller?_onPoller (h : m.watched ≠ some k) : (m.onPoller k f).1.poller? = m.poller? := by
  unfold poller?
  rw [watched_onPoller]
  cases hw : m.watched with
  | none => rfl
  | some j =>
    rw [Option.bind_some, Option.bind_some, get_onPoller, if_neg]
    rintro rfl
    exact h hw

theorem campaignId_of_watched {id : String} {p : Poller Campaign} (hw : m.watched = some k)
    (hp : m.pollers[k]? = some (id, p)) : m.campaignId = some id := by
  unfold campaignId poller?
  rw [hw, Option.bind_some, hp]
  rfl

theorem campaignId_onPoller : (m.onPoller k f).1.campaignId = m.campaignId := by
  unfold campaignId poller?
  rw [watched_onPoller]
  cases m.watched with
  | none => rfl
  | some j =>
    rw [Option.bind_some, Option.bind_some, get_onPoller]
    by_cases hj : k = j
    · rw [if_pos hj, hj, Option.map_map]
      rfl
    · rw [if_neg hj]

end OnPoller

def Retired (m : CampaignMonitor) : Prop :=
  ∀ k id p, m.pollers[k]? = some (id, p) → m.watched ≠ some k → p.stopped = true

def Watches (m : CampaignMonitor) (k : Nat) : Prop :=
  m.watched = some k ∧ ∃ id p, m.pollers[k]? = some (id, p)

/-- The watch of a poller is over. -/
def Over (m : CampaignMonitor) (k : Nat) : Prop := k < m.pollers.length ∧ m.watched ≠ some k

theorem retired_onPoller {f : String → Poller Campaign → Poller.Move Campaign} (h : m.Retired)
    (hf : m.watched ≠ some k → ∀ id p, p.stopped = true → (f id p).1.stopped = true) :
    (m.onPoller k f).1.Retired := by
  intro j id p hp hj
  rw [watched_onPoller] at hj
  rw [get_onPoller] at hp
  by_cases hkj : k = j
  · subst hkj
    rw [if_pos rfl, Option.map_eq_some_iff] at hp
    obtain ⟨⟨id', p'⟩, hp', heq⟩ := hp
    cases heq
    exact hf hj id' p' (h k id' p' hp' hj)
  · rw [if_neg hkj] at hp
    exact h j id p hp hj

theorem over_onPoller {f : String → Poller Campaign → Poller.Move Campaign} {j : Nat} :
    (m.onPoller k f).1.Over j ↔ m.Over j := by
  unfold Over
  rw [length_onPoller, watched_onPoller]

theorem stopped_stop (h : m.Retired) {id : String} {p : Poller Campaign}
    (hp : m.stop.pollers[k]? = some (id, p)) : p.stopped = true := by
  unfold stop at hp
  cases hw : m.watched with
  | none =>
    rw [hw] at hp
    exact h k id p hp (hw ▸ nofun)
  | some j =>
    rw [hw] at hp
    replace hp := (get_onPoller k).symm.trans hp
    by_cases hjk : j = k
    · rw [if_pos hjk, Option.map_eq_some_iff] at hp
      obtain ⟨e, -, heq⟩ := hp
      cases heq
      rfl
    · rw [if_neg hjk] at hp
      refine h k id p hp ?_
      rw [hw]
      exact fun heq => hjk (Option.some.inj heq)

theorem watched_stop (m : CampaignMonitor) : m.stop.watched = none := by
  unfold stop
  split
  · assumption
  · rfl

theorem length_stop (m : CampaignMonitor) : m.stop.pollers.length = m.pollers.length := by
  unfold stop
  split
  · rfl
  · exact length_onPoller

def opened (c : Campaign) (m : CampaignMonitor) : CampaignMonitor :=
  { watched := some m.stop.pollers.length, pollers := m.stop.pollers ++ [(c.id, Poller.new)] }

theorem length_opened (c : Campaign) (m : CampaignMonitor) :
    (m.opened c).pollers.length = m.pollers.length + 1 := by
  show (m.stop.pollers ++ [(c.id, Poller.new)]).length = _
  rw [List.length_append, length_stop]
  rfl

theorem watch_eq (c : Campaign) (m : CampaignMonitor) :
    m.watch c = (m.opened c).onPoller m.pollers.length fun id p =>
      p.start (setup id) (some c) := by
  rw [← length_stop m]
  rfl

theorem retired_opened (h : m.Retired) (c : Campaign) : (m.opened c).Retired := by
  intro k id p hp hk
  have hlt : k ≠ m.stop.pollers.length := fun heq => hk (heq ▸ rfl)
  have hold : k < m.stop.pollers.length := by
    have hbound : k < (m.stop.pollers ++ [(c.id, Poller.new)]).length :=
      (List.getElem?_eq_some_iff.mp hp).1
    rw [List.length_append, List.length_singleton] at hbound
    omega
  exact stopped_stop h ((List.getElem?_append_left hold).symm.trans hp)

theorem retired_call (h : m.Retired) (c : Call) : (m.call c).1.Retired := by
  cases c with
  | stop => exact fun k id p hp _ => stopped_stop h hp
  | watch c =>
    rw [call, watch_eq, ← length_stop m]
    exact retired_onPoller (retired_opened h c) fun hk => absurd rfl hk
  | update c =>
    show (m.update c).Retired
    unfold update
    split
    · exact h
    · rename_i k hk
      exact retired_onPoller h fun hne => absurd hk hne

/-- The calls that end a watch. -/
def Call.Ends : Call → Prop
  | .update _ => False
  | _ => True

theorem over_of_ends {c : Call} (hc : c.Ends) (hk : k < m.pollers.length) :
    (m.call c).1.Over k := by
  cases c with
  | update c => cases hc
  | stop =>
    refine ⟨?_, ?_⟩
    · show k < m.stop.pollers.length
      rw [length_stop]
      exact hk
    · show m.stop.watched ≠ some k
      rw [watched_stop]
      exact nofun
  | watch c =>
    rw [call, watch_eq, over_onPoller]
    refine ⟨?_, ?_⟩
    · rw [length_opened]
      omega
    · intro heq
      have hnew : m.stop.pollers.length = k := Option.some.inj heq
      rw [length_stop] at hnew
      omega

theorem over_call (h : m.Over k) (c : Call) : (m.call c).1.Over k := by
  cases c with
  | stop => exact over_of_ends (c := .stop) trivial h.1
  | watch c => exact over_of_ends (c := .watch c) trivial h.1
  | update c =>
    show (m.update c).Over k
    unfold update
    split
    · exact h
    · exact over_onPoller.mpr h

theorem retired_calls (h : m.Retired) (cs : List Call) : (m.calls cs).1.Retired := by
  induction cs generalizing m with
  | nil => exact h
  | cons c cs ih => exact ih (retired_call h c)

theorem over_calls (h : m.Over k) (cs : List Call) : (m.calls cs).1.Over k := by
  induction cs generalizing m with
  | nil => exact h
  | cons c cs ih => exact ih (over_call h c)

theorem length_le_call (m : CampaignMonitor) (c : Call) :
    m.pollers.length ≤ (m.call c).1.pollers.length := by
  cases c with
  | stop => exact (length_stop m).ge
  | watch c =>
    rw [call, watch_eq, length_onPoller, length_opened]
    exact Nat.le_succ _
  | update c =>
    show m.pollers.length ≤ (m.update c).pollers.length
    unfold update
    split
    · exact le_rfl
    · exact length_onPoller.ge

theorem over_of_calls {cs : List Call} (hcs : ∃ c ∈ cs, c.Ends) (hk : k < m.pollers.length) :
    (m.calls cs).1.Over k := by
  obtain ⟨c, hc, hends⟩ := hcs
  induction cs generalizing m with
  | nil => cases hc
  | cons d cs ih =>
    rcases List.mem_cons.mp hc with rfl | hc
    · exact over_calls (over_of_ends hends hk) cs
    · exact ih (hk.trans_le (length_le_call m d)) hc

theorem call_silent (c : Call) (m : CampaignMonitor) : ∀ x ∈ (m.call c).2, x.2.Silent := by
  cases c with
  | watch c =>
    intro x hx
    obtain ⟨-, id, p, -, he⟩ := mem_onPoller hx
    exact start_silent _ p x.2 he
  | _ => exact nofun

theorem calls_silent (cs : List Call) (m : CampaignMonitor) : ∀ x ∈ (m.calls cs).2, x.2.Silent := by
  induction cs generalizing m with
  | nil => exact nofun
  | cons c cs ih =>
    intro x hx
    rcases List.mem_append.mp hx with hx | hx
    · exact call_silent c m x hx
    · exact ih _ x hx

section Turns

variable {t : Turn Campaign}

theorem retired_turn (h : m.Retired) (ht : t.Plain) : (m.turn k i t).1.Retired :=
  retired_onPoller h fun _ _ _ hp => (rests_turn ht hp).1

theorem watches_of_turn (h : m.Retired) (ht : t.Plain) {x : Nat × Effect Campaign}
    (hx : x ∈ (m.turn k i t).2) (hseen : ¬ x.2.Silent) : m.Watches x.1 := by
  obtain ⟨rfl, id, p, hp, he⟩ := mem_onPoller hx
  refine ⟨by_contra fun hw => hseen ?_, id, p, hp⟩
  exact (rests_turn ht (h x.1 id p hp hw)).2.quiet x.2 he

theorem watched_of_takes (h : m.Retired) (htakes : m.takes k i = true) : m.watched = some k := by
  unfold CampaignMonitor.takes at htakes
  rw [Option.any_eq_true] at htakes
  obtain ⟨⟨id, p⟩, hp, htakes⟩ := htakes
  refine by_contra fun hw => ?_
  rw [takes_of_stopped (h k id p hp hw)] at htakes
  cases htakes

theorem fetched_of_not_watched (h : m.Retired) (hw : m.watched ≠ some k)
    (outcome : Result Campaign) (r : Reaction) :
    m.fetched k i outcome r = m.turn k i (.fetched [] (outcome.map some) []) := by
  cases outcome with
  | error e => rfl
  | ok c => exact if_neg fun htakes => hw (watched_of_takes h htakes)

end Turns

theorem retired_fetched (h : m.Retired) (outcome : Result Campaign) (r : Reaction) :
    (m.fetched k i outcome r).1.Retired := by
  by_cases hw : m.watched = some k
  · cases outcome with
    | error e => exact retired_turn h (plain_fetched _)
    | ok c =>
      unfold fetched
      dsimp only
      split
      · have htick : (m.onPoller k fun id p => p.tick (setup id) (some c)).1.Retired :=
          retired_onPoller h fun hne => absurd hw hne
        exact retired_onPoller (retired_calls htick r.calls)
          fun _ id p hp => (stopped_resume r.failure p).trans hp
      · exact retired_turn h (plain_fetched _)
  · rw [fetched_of_not_watched h hw]
    exact retired_turn h (plain_fetched _)

theorem over_fetched (h : m.Over k) (j : Nat) (outcome : Result Campaign) (r : Reaction) :
    (m.fetched j i outcome r).1.Over k := by
  cases outcome with
  | error e => exact over_onPoller.mpr h
  | ok c =>
    unfold fetched
    dsimp only
    split
    · exact over_onPoller.mpr (over_calls (over_onPoller.mpr h) r.calls)
    · exact over_onPoller.mpr h

theorem not_fetch_tick {s : Setup Campaign} {p : Poller Campaign} {c : Option Campaign} :
    .fetch i ∉ (p.tick s c).2 := by
  intro hfetch
  have hissue : Deed.take 0 c = .issue i := issue_of_fetch (s := s) hfetch
  cases hissue

theorem seen_of_fetched (h : m.Retired) {outcome : Result Campaign} {r : Reaction}
    {x : Nat × Effect Campaign} (hx : x ∈ (m.fetched k i outcome r).2) (hseen : ¬ x.2.Silent) :
    m.Watches x.1 ∧
      ((∃ j, x.2 = .fetch j) → (m.fetched k i outcome r).1.campaignId = m.campaignId) := by
  cases outcome with
  | error e => exact ⟨watches_of_turn h (plain_fetched _) hx hseen, fun _ => campaignId_onPoller⟩
  | ok c =>
    unfold fetched at hx ⊢
    dsimp only at hx ⊢
    split at hx
    · rename_i htakes
      rcases List.mem_append.mp hx with hx | hx
      · rcases List.mem_append.mp hx with hx | hx
        · obtain ⟨rfl, id, p, hp, he⟩ := mem_onPoller hx
          refine ⟨⟨watched_of_takes h htakes, id, p, hp⟩, ?_⟩
          rintro ⟨j, hj⟩
          exact absurd (hj ▸ he) not_fetch_tick
        · exact absurd (calls_silent _ _ x hx) hseen
      · obtain ⟨-, id, p, -, he⟩ := mem_onPoller hx
        exact absurd (resume_silent r.failure p x.2 he) hseen
    · rename_i htakes
      rw [if_neg htakes]
      exact ⟨watches_of_turn h (plain_fetched _) hx hseen, fun _ => campaignId_onPoller⟩

theorem retired_step (h : m.Retired) (e : Event) : (m.step e).1.Retired := by
  cases e with
  | call c => exact retired_call h c
  | begin k i => exact retired_turn h plain_begin
  | awake k i => exact retired_turn h plain_awake
  | fetched k i outcome r => exact retired_fetched h outcome r

theorem over_step (h : m.Over k) (e : Event) : (m.step e).1.Over k := by
  cases e with
  | call c => exact over_call h c
  | fetched j i outcome r => exact over_fetched h j outcome r
  | _ => exact over_onPoller.mpr h

theorem seen_of_step (h : m.Retired) {e : Event} {x : Nat × Effect Campaign}
    (hx : x ∈ (m.step e).2) (hseen : ¬ x.2.Silent) : m.Watches x.1 ∧
      ((∃ j, x.2 = .fetch j) → (m.step e).1.campaignId = m.campaignId) := by
  cases e with
  | call c => exact absurd (call_silent c m x hx) hseen
  | fetched k i outcome r => exact seen_of_fetched h hx hseen
  | begin k i => exact ⟨watches_of_turn h plain_begin hx hseen, fun _ => campaignId_onPoller⟩
  | awake k i => exact ⟨watches_of_turn h plain_awake hx hseen, fun _ => campaignId_onPoller⟩

theorem retired_run (h : m.Retired) (es : List Event) : (run es m).1.Retired := by
  induction es generalizing m with
  | nil => exact h
  | cons e es ih => exact ih (retired_step h e)

theorem over_run (h : m.Over k) (es : List Event) : (run es m).1.Over k := by
  induction es generalizing m with
  | nil => exact h
  | cons e es ih => exact ih (over_step h e)

theorem run_append (es fs : List Event) (m : CampaignMonitor) :
    (run (es ++ fs) m).1 = (run fs (run es m).1).1 := by
  induction es generalizing m with
  | nil => rfl
  | cons e es ih => exact ih _

theorem retired_new : new.Retired := by
  intro k id p hp
  cases hp

def reached (es : List Event) : CampaignMonitor := (run es new).1

/-- The events that end a watch: a call, or a reaction with such a call to a campaign that counts. -/
def Event.Ends (m : CampaignMonitor) : Event → Prop
  | .call c => c.Ends
  | .fetched k i (.ok _) r => m.takes k i = true ∧ ∃ c ∈ r.calls, c.Ends
  | _ => False

theorem over_of_event {e : Event} (he : e.Ends m) (hk : k < m.pollers.length) :
    (m.step e).1.Over k := by
  cases e with
  | call c => exact over_of_ends he hk
  | fetched j i outcome r =>
    cases outcome with
    | error f => cases he
    | ok c =>
      show (m.fetched j i (.ok c) r).1.Over k
      unfold fetched
      dsimp only
      rw [if_pos he.1]
      exact over_onPoller.mpr (over_of_calls he.2 (length_onPoller.symm ▸ hk))
  | _ => cases he

theorem update_other {c : Campaign} (h : m.campaignId ≠ some c.id) : m.update c = m := by
  unfold update
  split
  · rfl
  · rename_i k hk
    unfold onPoller
    split
    · rfl
    · rename_i id p hp
      have hother : id ≠ c.id := by
        rintro rfl
        exact h (campaignId_of_watched hk hp)
      have hsame : m.pollers.set k (id, p) = m.pollers := by
        obtain ⟨hlt, hget⟩ := List.getElem?_eq_some_iff.mp hp
        rw [← hget]
        exact List.set_getElem_self hlt
      simp only [if_neg hother, hsame]

/-- What comes next leaves all watches but the present one alone. A fetch is issued for the campaign
that is watched before and after it, and a campaign is delivered to the receiver of the present watch.
What a fetch of a watch that is over comes to leaves the watched poller, with its campaign and its
latest value, and reaches no receiver. -/
structure Isolated (m : CampaignMonitor) (e : Event) : Prop where
  fetches : ∀ k i, (k, .fetch i) ∈ (m.step e).2 → ∃ id p, m.pollers[k]? = some (id, p) ∧
    m.campaignId = some id ∧ (m.step e).1.campaignId = some id
  delivers : ∀ k c, (k, .deliver c) ∈ (m.step e).2 → m.watched = some k
  outcomes : ∀ k i outcome r, e = .fetched k i outcome r → m.Over k →
    (m.step e).1.poller? = m.poller? ∧ (m.step e).1.current = m.current ∧
      ∀ j c, (j, .deliver c) ∉ (m.step e).2

theorem isolated_of_retired (h : m.Retired) (e : Event) : Isolated m e := by
  constructor
  case fetches =>
    intro k i hx
    obtain ⟨⟨hw, id, p, hp⟩, hsame⟩ := seen_of_step h hx fun hsilent => hsilent.1 i rfl
    have hid : m.campaignId = some id := campaignId_of_watched hw hp
    exact ⟨id, p, hp, hid, (hsame ⟨i, rfl⟩).trans hid⟩
  case delivers =>
    intro k c hx
    exact (seen_of_step h hx fun hsilent => hsilent.2 c rfl).1.1
  case outcomes =>
    intro k i outcome r he hover
    subst he
    have hturn : m.step (.fetched k i outcome r) = m.turn k i _ :=
      fetched_of_not_watched h hover.2 outcome r
    have hpoller : (m.step (.fetched k i outcome r)).1.poller? = m.poller? := by
      rw [hturn]
      exact poller?_onPoller hover.2
    refine ⟨hpoller, congrArg (·.bind fun e => e.2.latest) hpoller, ?_⟩
    intro j c hx
    obtain ⟨rfl, -⟩ := mem_onPoller (hturn ▸ hx)
    exact hover.2 (seen_of_step h hx fun hsilent => hsilent.2 c rfl).1.1

/-- In every run the watches of a monitor are kept apart, whoever calls it and when: a watch that a
call has ended stays over, and nothing of it is heard of again. Updates of other campaigns are lost. -/
theorem run_isolated :
    (∀ before e, Isolated (reached before) e) ∧
    (∀ before e after k, k < (reached before).pollers.length → e.Ends (reached before) →
      (reached (before ++ e :: after)).Over k) ∧
    ∀ (m : CampaignMonitor) c, m.campaignId ≠ some c.id → m.call (.update c) = (m, []) := by
  refine ⟨?_, ?_, ?_⟩
  · intro before e
    exact isolated_of_retired (retired_run retired_new before) e
  · intro before e after k hk he
    unfold reached
    rw [run_append]
    exact over_run (over_of_event he hk) after
  · intro m c h
    exact congrArg (·, []) (update_other h)

def benchCampaign (id : String) : Campaign := ⟨id, "Rollout", none, "Running", 10, 4, 0, 6⟩

def switchEvents : List Event :=
  [.call (.watch (benchCampaign "FW-1")), .begin 0 0, .awake 0 0] ++
    .call (.watch (benchCampaign "FW-2")) :: [.begin 1 0]

def lateEvent : Event := .fetched 0 0 (.ok (benchCampaign "FW-1")) ⟨[.stop], none⟩

theorem run_isolated_bench :
    (reached switchEvents).Over 0 ∧
    (1, .fetch 0) ∈ ((reached switchEvents).step (.awake 1 0)).2 ∧
    ((reached switchEvents).step (.awake 1 0)).1.campaignId = some "FW-2" ∧
    ((reached switchEvents).step lateEvent).1.current = some (benchCampaign "FW-2") ∧
    (reached switchEvents).call (.update (benchCampaign "FW-1")) = (reached switchEvents, []) := by
  have hover : (reached switchEvents).Over 0 :=
    run_isolated.2.1 [.call (.watch (benchCampaign "FW-1")), .begin 0 0, .awake 0 0]
      (.call (.watch (benchCampaign "FW-2"))) [.begin 1 0] 0 (by decide +kernel) trivial
  have hissued : ((reached switchEvents).step (.awake 1 0)).2 = [(1, .fetch 0)] := rfl
  have hfetch : (1, .fetch 0) ∈ ((reached switchEvents).step (.awake 1 0)).2 :=
    hissued ▸ List.mem_singleton_self _
  have hcurrent : (reached switchEvents).current = some (benchCampaign "FW-2") := rfl
  obtain ⟨id, p, hp, -, hid⟩ := (run_isolated.1 switchEvents (.awake 1 0)).fetches 1 0 hfetch
  obtain ⟨-, hsame, -⟩ := (run_isolated.1 switchEvents lateEvent).outcomes 0 0 _ _ rfl hover
  obtain rfl : "FW-2" = id := congrArg (fun e => (e.map (·.1)).getD "") hp
  exact ⟨hover, hfetch, hid, hsame.trans hcurrent, run_isolated.2.2 _ _ (by decide +kernel)⟩

end CampaignMonitor
end BomEngine
