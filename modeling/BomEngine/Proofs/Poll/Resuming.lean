import BomEngine.Proofs.Poll.Watches

/-!
# A campaign that is paused and resumed

A monitor begins a loop for a campaign when it is watched, and never again in that watch. The loop
looks at the current campaign whenever its turn has come, and goes on only if that is active; what
was current in between does not matter. So an active campaign is polled exactly if it was active at
the watch and at each of these moments, and one that is resumed after its loop has ended is not
polled any more.
-/

set_option autoImplicit false

namespace BomEngine

namespace Poller

variable {α : Type} {s : Setup α} {p : Poller α} {i : Nat} {t : Turn α}

def Tended (p : Poller α) : Prop :=
  p.stopped = false ∧
    (p.task = none ∧ p.loops = [] ∨ p.task = some 0 ∧ ∃ phase, p.loops = [⟨phase, false⟩])

def Turn.phase : Turn α → Phase
  | .begin => .begun
  | .awake => .asleep
  | .fetched _ _ _ => .fetching

def Stands (p : Poller α) (i : Nat) (phase : Phase) : Prop :=
  ∃ l, p.loop? i = some l ∧ l.phase = phase

structure Follows (s : Setup α) (p : Poller α) (decides : Prop) (q : Poller α) : Prop where
  tended : q.Tended
  running : q.running = true ↔ p.running = true ∧ (decides → p.isActive s = true)

theorem Tended.follows (hp : p.Tended) {decides : Prop} (h : ¬ decides) : Follows s p decides p :=
  ⟨hp, (and_iff_left fun hd => absurd hd h).symm⟩

theorem Tended.loop? (hp : p.Tended) {l : Loop} (hl : p.loop? i = some l) :
    i = 0 ∧ p.task = some 0 ∧ p.loops = [l] ∧ l.cancelled = false := by
  unfold Poller.loop? at hl
  obtain ⟨-, ⟨-, hloops⟩ | ⟨htask, phase, hloops⟩⟩ := hp
  · rw [hloops] at hl
    cases hl
  · rw [hloops, List.getElem?_eq_some_iff] at hl
    obtain ⟨hlt, rfl⟩ := hl
    obtain rfl : i = 0 := Nat.lt_one_iff.mp hlt
    exact ⟨rfl, htask, hloops, rfl⟩

theorem Tended.running_eq (hp : p.Tended) {l : Loop} (hl : p.loop? i = some l) :
    p.running = !l.hasEnded := by
  obtain ⟨rfl, htask, -, -⟩ := hp.loop? hl
  unfold running
  rw [htask, Option.bind_some, hl]
  rfl

theorem Tended.enter (hp : p.Tended) {l : Loop} (hl : p.loop? i = some l) (phase : Phase) :
    (p.enter i phase).Tended := by
  obtain ⟨rfl, htask, hloops, hc⟩ := hp.loop? hl
  refine ⟨hp.1, .inr ⟨htask, phase, ?_⟩⟩
  show p.loops.modify 0 (Loop.enter phase) = _
  rw [hloops, ← hc]
  rfl

theorem follows_enter (hp : p.Tended) {l : Loop} (hl : p.loop? i = some l)
    (hgoes : l.hasEnded = false) {phase : Phase} {decides : Prop} (hdecides : decides)
    (hphase : (l.enter phase).hasEnded = !p.isActive s) :
    Follows s p decides (p.enter i phase) := by
  refine ⟨hp.enter hl phase, ?_⟩
  rw [(hp.enter hl phase).running_eq (loop?_enter hl phase), hp.running_eq hl, hgoes, hphase,
    Bool.not_not]
  exact ⟨fun h => ⟨rfl, fun _ => h⟩, fun h => h.2 hdecides⟩

theorem hasEnded_of_phase {l : Loop} (h : l.phase = t.phase) : l.hasEnded = false := by
  unfold Loop.hasEnded
  rw [h]
  cases t <;> rfl

theorem goOn_follows (hp : p.Tended) {l : Loop} (hl : p.loop? i = some l)
    (hgoes : l.hasEnded = false) {decides : Prop} (hdecides : decides) :
    Follows s p decides (p.goOn s i).1 := by
  obtain ⟨-, -, -, hc⟩ := hp.loop? hl
  have hcancelled : p.isCancelled i = false := by
    unfold isCancelled
    rw [hl]
    exact hc
  unfold goOn
  rw [hp.1, hcancelled, Bool.false_or]
  cases hactive : p.isActive s with
  | true => exact follows_enter hp hl hgoes hdecides (by rw [hactive]; rfl)
  | false => exact follows_enter hp hl hgoes hdecides (by rw [hactive]; rfl)

theorem wake_follows (hp : p.Tended) {l : Loop} (hl : p.loop? i = some l)
    (hgoes : l.hasEnded = false) {decides : Prop} (hdecides : decides) :
    Follows s p decides (p.wake s i).1 := by
  unfold wake
  rw [hp.1, Bool.false_or]
  cases hactive : p.isActive s with
  | true => exact follows_enter hp hl hgoes hdecides (by rw [hactive]; rfl)
  | false => exact follows_enter hp hl hgoes hdecides (by rw [hactive]; rfl)

theorem Tended.turn_lost (hp : p.Tended) (h : ¬ p.Stands i t.phase) : p.turn s i t = (p, []) := by
  unfold turn
  split
  · rfl
  rename_i l hl
  obtain ⟨-, -, -, hc⟩ := hp.loop? hl
  have hphase : l.phase ≠ t.phase := fun heq => h ⟨l, hl, heq⟩
  rw [hc]
  split
  · rfl
  · revert hphase
    cases l.phase <;> cases t <;> first | exact fun _ => rfl | exact fun hne => absurd rfl hne

theorem Tended.turn_taken (hp : p.Tended) {l : Loop} (hl : p.loop? i = some l)
    (hphase : l.phase = t.phase) : p.turn s i t = p.takeTurn s i t.phase t := by
  obtain ⟨-, -, -, hc⟩ := hp.loop? hl
  simp only [turn, hl, hasEnded_of_phase hphase, hc, hphase, Bool.false_eq_true, if_false]

def Turn.Bare (counts : Prop) : Turn α → Prop
  | .fetched before (.ok _) after => before = [] ∧ after = [] ∧ ¬ counts
  | .fetched before (.error e) after => before = [] ∧ after = [] ∧ ∃ f, e = .fault f
  | _ => True

theorem Tended.takes_iff (hp : p.Tended) : p.takes i = true ↔ p.Stands i .fetching := by
  unfold takes
  rw [hp.1, Bool.not_false, Bool.true_and, Option.any_eq_true]
  constructor
  · rintro ⟨l, hl, hfetching⟩
    refine ⟨l, hl, ?_⟩
    unfold Loop.isFetching at hfetching
    split at hfetching
    · assumption
    · cases hfetching
  · rintro ⟨l, hl, hphase⟩
    obtain ⟨-, -, -, hc⟩ := hp.loop? hl
    refine ⟨l, hl, ?_⟩
    unfold Loop.isFetching
    rw [hphase, hc]
    rfl

theorem turn_follows (hp : p.Tended) (ht : t.Bare (p.takes i = true)) :
    Follows s p (p.Stands i t.phase) (p.turn s i t).1 := by
  by_cases hstands : p.Stands i t.phase
  · obtain ⟨l, hl, hphase⟩ := id hstands
    have hgoes : l.hasEnded = false := hasEnded_of_phase hphase
    rw [hp.turn_taken hl hphase]
    cases t with
    | begin => exact goOn_follows hp hl hgoes hstands
    | awake => exact wake_follows hp hl hgoes hstands
    | fetched before outcome after =>
      cases outcome with
      | ok value => exact absurd (hp.takes_iff.mpr hstands) ht.2.2
      | error e =>
        obtain ⟨rfl, rfl, f, rfl⟩ := ht
        exact goOn_follows hp hl hgoes hstands
  · rw [hp.turn_lost hstands]
    exact hp.follows hstands

end Poller

namespace CampaignMonitor
open Poller

variable {m : CampaignMonitor} {k i : Nat}

/-- What happens to a monitor at one moment. A fetched campaign that counts is taken, then its
receiver calls the monitor, and then the loop resumes its turn. -/
inductive Moment where
  | call (c : Call)
  | turn (poller loop : Nat) (t : Turn Campaign)
  | take (poller : Nat) (c : Campaign)
  | resume (poller loop : Nat) (failure : Option Failure)

def Moment.perform (m : CampaignMonitor) : Moment → CampaignMonitor
  | .call c => (m.call c).1
  | .turn k i t => (m.turn k i t).1
  | .take k c => (m.onPoller k fun id p => p.tick (setup id) (some c)).1
  | .resume k i failure => (m.onPoller k fun id p => p.resume (setup id) i failure).1

def after (ds : List Moment) (m : CampaignMonitor) : CampaignMonitor := ds.foldl Moment.perform m

def moments (m : CampaignMonitor) : Event → List Moment
  | .call c => [.call c]
  | .begin k i => [.turn k i .begin]
  | .awake k i => [.turn k i .awake]
  | .fetched k i (.error e) _ => [.turn k i (.fetched [] (.error e) [])]
  | .fetched k i (.ok c) r =>
    if m.takes k i then .take k c :: (r.calls.map .call ++ [.resume k i r.failure])
    else [.turn k i (.fetched [] (.ok (some c)) [])]

def history : List Event → CampaignMonitor → List Moment
  | [], _ => []
  | e :: es, m => m.moments e ++ history es (m.step e).1

theorem after_append (ds ds' : List Moment) (m : CampaignMonitor) :
    after (ds ++ ds') m = after ds' (after ds m) := List.foldl_append

theorem after_calls (cs : List Call) (m : CampaignMonitor) :
    after (cs.map .call) m = (m.calls cs).1 := by
  induction cs generalizing m with
  | nil => rfl
  | cons c cs ih => exact ih _

theorem after_moments (m : CampaignMonitor) (e : Event) : after (m.moments e) m = (m.step e).1 := by
  cases e with
  | fetched k i outcome r =>
    cases outcome with
    | error f => rfl
    | ok c =>
      show after (if m.takes k i then _ else _) m = (m.fetched k i (.ok c) r).1
      unfold fetched
      dsimp only
      split
      · show after (r.calls.map .call ++ [.resume k i r.failure])
          (m.onPoller k fun id p => p.tick (setup id) (some c)).1 = _
        rw [after_append, after_calls]
        rfl
      · rfl
  | _ => rfl

def Event.Clean : Event → Prop
  | .fetched _ _ (.ok _) r => r.failure = none
  | .fetched _ _ (.error e) _ => ∃ f, e = .fault f
  | _ => True

/-- The moments that can come in a run without crashes. -/
def Moment.Allowed (m : CampaignMonitor) : Moment → Prop
  | .turn k i t => t.Bare (m.takes k i = true)
  | .resume k i failure => failure = none ∧ (m.watched = some k → m.takes k i = true)
  | _ => True

def Lawful : List Moment → CampaignMonitor → Prop
  | [], _ => True
  | d :: ds, m => d.Allowed m ∧ Lawful ds (d.perform m)

theorem lawful_append {ds ds' : List Moment} :
    Lawful (ds ++ ds') m ↔ Lawful ds m ∧ Lawful ds' (after ds m) := by
  induction ds generalizing m with
  | nil => exact (and_iff_right trivial).symm
  | cons d ds ih => exact (and_congr_right fun _ => ih).trans and_assoc.symm

theorem lawful_calls (cs : List Call) (m : CampaignMonitor) : Lawful (cs.map .call) m := by
  induction cs generalizing m with
  | nil => trivial
  | cons c cs ih => exact ⟨trivial, ih _⟩

theorem takes_onPoller {f : String → Poller Campaign → Poller.Move Campaign} (j : Nat)
    (hf : ∀ id p, (f id p).1.takes i = p.takes i) : (m.onPoller j f).1.takes k i = m.takes k i := by
  unfold CampaignMonitor.takes
  rw [get_onPoller]
  by_cases hjk : j = k
  · rw [if_pos hjk, hjk]
    cases m.pollers[k]? with
    | none => rfl
    | some e => exact hf e.1 e.2
  · rw [if_neg hjk]

theorem takes_update (c : Campaign) (m : CampaignMonitor) :
    (m.update c).takes k i = m.takes k i := by
  unfold update
  split
  · rfl
  · refine takes_onPoller _ fun id p => ?_
    dsimp only
    split <;> rfl

theorem takes_calls {cs : List Call} (hcs : ∀ c ∈ cs, ¬ c.Ends) (m : CampaignMonitor) :
    (m.calls cs).1.takes k i = m.takes k i := by
  induction cs generalizing m with
  | nil => rfl
  | cons c cs ih =>
    have hfirst : (m.call c).1.takes k i = m.takes k i := by
      cases c with
      | update c => exact takes_update c m
      | _ => exact absurd trivial (hcs _ List.mem_cons_self)
    exact (ih (fun d hd => hcs d (List.mem_cons_of_mem c hd)) _).trans hfirst

theorem lawful_moments {e : Event} (he : e.Clean) (m : CampaignMonitor) :
    Lawful (m.moments e) m := by
  cases e with
  | call c => exact ⟨trivial, trivial⟩
  | begin k i => exact ⟨trivial, trivial⟩
  | awake k i => exact ⟨trivial, trivial⟩
  | fetched k i outcome r =>
    cases outcome with
    | error e => exact ⟨⟨rfl, rfl, he⟩, trivial⟩
    | ok c =>
      show Lawful (if m.takes k i then _ else _) m
      split
      · rename_i htakes
        refine ⟨trivial, lawful_append.mpr ⟨lawful_calls r.calls _, ⟨he, ?_⟩, trivial⟩⟩
        rw [after_calls]
        intro hw
        -- a receiver that ends the watch leaves the loop of another poller to resume
        have hk : k < m.pollers.length := by
          unfold CampaignMonitor.takes at htakes
          obtain ⟨e, hget, -⟩ := (Option.any_eq_true _ _).mp htakes
          exact (List.getElem?_eq_some_iff.mp hget).1
        have hcalls : ∀ d ∈ r.calls, ¬ d.Ends := fun d hd hends =>
          (over_of_calls ⟨d, hd, hends⟩ (length_onPoller.symm ▸ hk)).2 hw
        rw [takes_calls hcalls]
        exact (takes_onPoller k fun id p => rfl).trans htakes
      · rename_i htakes
        exact ⟨⟨rfl, rfl, htakes⟩, trivial⟩

theorem lawful_history {es : List Event} (hes : ∀ e ∈ es, e.Clean) (m : CampaignMonitor) :
    Lawful (history es m) m := by
  induction es generalizing m with
  | nil => trivial
  | cons e es ih =>
    refine lawful_append.mpr ⟨lawful_moments (hes e List.mem_cons_self) m, ?_⟩
    rw [after_moments]
    exact ih (fun d hd => hes d (List.mem_cons_of_mem e hd)) _

def Active (m : CampaignMonitor) : Prop := ∃ c, m.current = some c ∧ c.isActive = true

def Stands (m : CampaignMonitor) (k i : Nat) (phase : Phase) : Prop :=
  m.watched = some k ∧ ∃ id p, m.pollers[k]? = some (id, p) ∧ p.Stands i phase

/-- A moment at which the loop of the present watch looks at the current campaign. -/
def Decides (m : CampaignMonitor) : Moment → Prop
  | .turn k i t => m.Stands k i t.phase
  | .resume k i _ => m.Stands k i .fetching
  | _ => False

/-- The current campaign was active whenever the loop looked at it. -/
def Kept : List Moment → CampaignMonitor → Prop
  | [], _ => True
  | d :: ds, m => (m.Decides d → m.Active) ∧ Kept ds (d.perform m)

def Moment.Ends : Moment → Prop
  | .call c => c.Ends
  | _ => False

def Tended (m : CampaignMonitor) : Prop :=
  ∀ k, m.watched = some k → ∃ id p, m.pollers[k]? = some (id, p) ∧ p.Tended

section Watched

variable {id : String} {p : Poller Campaign}

theorem poller?_of_watched (hw : m.watched = some k) (hp : m.pollers[k]? = some (id, p)) :
    m.poller? = some (id, p) := by
  unfold poller?
  rw [hw]
  exact hp

theorem polling_of_watched (hw : m.watched = some k) (hp : m.pollers[k]? = some (id, p)) :
    m.polling = p.running := by
  unfold polling
  rw [poller?_of_watched hw hp]
  rfl

theorem active_of_watched (hw : m.watched = some k) (hp : m.pollers[k]? = some (id, p)) :
    m.Active ↔ p.isActive (setup id) = true := by
  unfold Active current Poller.isActive
  rw [poller?_of_watched hw hp]
  show (∃ c, p.latest = some c ∧ _) ↔
    (p.latest.isSome && (p.latest.map Campaign.isActive).getD false) = true
  cases p.latest with
  | none => exact ⟨fun ⟨_, h, _⟩ => (nomatch h), nofun⟩
  | some c => exact ⟨fun ⟨_, h, hc⟩ => Option.some.inj h ▸ hc, fun hc => ⟨c, rfl, hc⟩⟩

theorem stands_of_watched {phase : Phase} (hw : m.watched = some k)
    (hp : m.pollers[k]? = some (id, p)) : m.Stands k i phase ↔ p.Stands i phase := by
  constructor
  · rintro ⟨-, id', p', hp', hstands⟩
    cases hp.symm.trans hp'
    exact hstands
  · exact fun hstands => ⟨hw, id, p, hp, hstands⟩

theorem takes_of_poller (hp : m.pollers[k]? = some (id, p)) : m.takes k i = p.takes i := by
  unfold CampaignMonitor.takes
  rw [hp]
  rfl

end Watched

/-- What one moment does to the present watch: it is polled if it was polled and, where its loop
looks at the current campaign, that is active. -/
structure Goes (m : CampaignMonitor) (decides : Prop) (n : CampaignMonitor) : Prop where
  tended : n.Tended
  polling : n.polling = true ↔ m.polling = true ∧ (decides → m.Active)

theorem goes_onPoller {f : String → Poller Campaign → Poller.Move Campaign} (hm : m.Tended)
    {decides : Prop} (hother : decides → m.watched = some k)
    (hf : m.watched = some k → ∀ id p, m.pollers[k]? = some (id, p) → p.Tended →
      Follows (setup id) p decides (f id p).1) : Goes m decides (m.onPoller k f).1 := by
  by_cases hw : m.watched = some k
  · obtain ⟨id, p, hp, htended⟩ := hm k hw
    obtain ⟨htended', hrunning⟩ := hf hw id p hp htended
    have hw' : (m.onPoller k f).1.watched = some k := watched_onPoller.trans hw
    have hp' : (m.onPoller k f).1.pollers[k]? = some (id, (f id p).1) := by
      rw [get_onPoller, if_pos rfl, hp]
      rfl
    refine ⟨?_, ?_⟩
    · intro j hj
      obtain rfl : k = j := Option.some.inj (hw'.symm.trans hj)
      exact ⟨id, _, hp', htended'⟩
    · rw [polling_of_watched hw' hp', polling_of_watched hw hp, active_of_watched hw hp]
      exact hrunning
  · have hsame : (m.onPoller k f).1.polling = m.polling :=
      congrArg (fun e => (e.map fun e => e.2.running).getD false) (poller?_onPoller hw)
    refine ⟨?_, ?_⟩
    · intro j hj
      rw [watched_onPoller] at hj
      obtain ⟨id, p, hp, htended⟩ := hm j hj
      have hkj : k ≠ j := by
        rintro rfl
        exact hw hj
      exact ⟨id, p, (get_onPoller j).trans ((if_neg hkj).trans hp), htended⟩
    · rw [hsame]
      exact (and_iff_left fun hd => absurd (hother hd) hw).symm

theorem goes_perform {d : Moment} (hm : m.Tended) (hd : d.Allowed m) (hends : ¬ d.Ends) :
    Goes m (m.Decides d) (d.perform m) := by
  cases d with
  | turn k i t =>
    refine goes_onPoller hm (fun h => h.1) fun hw id p hp htended => ?_
    have ht : t.Bare (p.takes i = true) := takes_of_poller hp ▸ hd
    rw [show m.Decides (.turn k i t) = m.Stands k i t.phase from rfl, stands_of_watched hw hp]
    exact turn_follows htended ht
  | resume k i failure =>
    refine goes_onPoller hm (fun h => h.1) fun hw id p hp htended => ?_
    obtain ⟨rfl, htakes⟩ := hd
    have hfetching : p.Stands i .fetching :=
      htended.takes_iff.mp ((takes_of_poller hp).symm.trans (htakes hw))
    have hdecides : m.Decides (.resume k i none) := (stands_of_watched hw hp).mpr hfetching
    obtain ⟨l, hl, hphase⟩ := hfetching
    have hgoes : l.hasEnded = false := by
      unfold Loop.hasEnded
      rw [hphase]
    exact goOn_follows htended hl hgoes hdecides
  | take k c =>
    exact goes_onPoller hm False.elim fun _ id p _ htended =>
      ⟨htended, (and_iff_left False.elim).symm⟩
  | call c =>
    cases c with
    | update c =>
      show Goes m False (m.update c)
      unfold update
      split
      · exact ⟨hm, (and_iff_left False.elim).symm⟩
      · refine goes_onPoller hm False.elim fun _ id p _ htended => ?_
        dsimp only
        split
        · exact ⟨htended, (and_iff_left False.elim).symm⟩
        · exact ⟨htended, (and_iff_left False.elim).symm⟩
    | _ => exact absurd trivial hends

/-- What is polled after some moments of a watch was polled before them, and its campaign was active
whenever the loop looked at it. -/
theorem goes_after {ds : List Moment} (hm : m.Tended) (hds : Lawful ds m)
    (hends : ∀ d ∈ ds, ¬ d.Ends) :
    (after ds m).polling = true ↔ m.polling = true ∧ Kept ds m := by
  induction ds generalizing m with
  | nil => exact (and_iff_left trivial).symm
  | cons d ds ih =>
    obtain ⟨htended, hpolling⟩ := goes_perform hm hds.1 (hends d List.mem_cons_self)
    have hrest := ih htended hds.2 fun e he => hends e (List.mem_cons_of_mem d he)
    exact hrest.trans ((and_congr_left fun _ => hpolling).trans and_assoc)

theorem goes_watch (c : Campaign) (m : CampaignMonitor) :
    (m.watch c).1.Tended ∧ ((m.watch c).1.polling = true ↔ c.isActive = true) := by
  rw [watch_eq]
  have hw : ((m.opened c).onPoller m.pollers.length fun id p =>
      p.start (setup id) (some c)).1.watched = some m.pollers.length := by
    rw [watched_onPoller, ← length_stop m]
    rfl
  have hnew : (m.opened c).pollers[m.pollers.length]? = some (c.id, Poller.new) := by
    rw [← length_stop m]
    exact List.getElem?_concat_length
  have hp : ((m.opened c).onPoller m.pollers.length fun id p =>
      p.start (setup id) (some c)).1.pollers[m.pollers.length]? =
        some (c.id, (Poller.new.start (setup c.id) (some c)).1) := by
    rw [get_onPoller, if_pos rfl, hnew]
    rfl
  have hstart : (Poller.new.start (setup c.id) (some c)).1.Tended ∧
      (Poller.new.start (setup c.id) (some c)).1.running = c.isActive := by
    show (if c.isActive then _ else _ : Poller.Move Campaign).1.Tended ∧
      (if c.isActive then _ else _ : Poller.Move Campaign).1.running = _
    cases hc : c.isActive with
    | true => exact ⟨⟨rfl, .inr ⟨rfl, .begun, rfl⟩⟩, rfl⟩
    | false => exact ⟨⟨rfl, .inl ⟨rfl, rfl⟩⟩, rfl⟩
  refine ⟨?_, ?_⟩
  · intro k hk
    obtain rfl : m.pollers.length = k := Option.some.inj (hw.symm.trans hk)
    exact ⟨c.id, _, hp, hstart.1⟩
  · rw [polling_of_watched hw hp, hstart.2]

theorem watched_perform {d : Moment} (hd : ¬ d.Ends) : (d.perform m).watched = m.watched := by
  cases d with
  | call c =>
    cases c with
    | update c =>
      show (m.update c).watched = m.watched
      unfold update
      split
      · rfl
      · exact watched_onPoller
    | _ => exact absurd trivial hd
  | _ => exact watched_onPoller

theorem exists_watch {ds : List Moment} (h : (after ds new).watched ≠ none) :
    ∃ before c since, ds = before ++ .call (.watch c) :: since ∧ ∀ d ∈ since, ¬ d.Ends := by
  induction ds using List.reverseRecOn with
  | nil => exact absurd rfl h
  | append_singleton ds d ih =>
    rw [after_append] at h
    by_cases hd : d.Ends
    · cases d with
      | call c =>
        cases c with
        | watch c => exact ⟨ds, c, [], rfl, nofun⟩
        | stop => exact absurd (watched_stop _) h
        | update c => cases hd
      | _ => cases hd
    · have hbefore : (after ds new).watched ≠ none := watched_perform hd ▸ h
      obtain ⟨before, c, since, rfl, hsince⟩ := ih hbefore
      refine ⟨before, c, since ++ [d], by rw [List.append_assoc]; rfl, ?_⟩
      exact List.forall_mem_append.mpr ⟨hsince, List.forall_mem_singleton.mpr hd⟩

/-- What is polled at any moment of any run without crashes. Without a watch nothing is. In a watch
the campaign is polled exactly if it was active at the watch and then whenever the loop looked. -/
theorem polling_kept {es : List Event} (hes : ∀ e ∈ es, e.Clean) {past rest : List Moment}
    (hpast : history es new = past ++ rest) :
    ((after past new).watched = none → (after past new).polling = false) ∧
    ((after past new).watched ≠ none →
      ∃ before c since, past = before ++ .call (.watch c) :: since ∧ ∀ d ∈ since, ¬ d.Ends) ∧
    ∀ before c since, past = before ++ .call (.watch c) :: since → (∀ d ∈ since, ¬ d.Ends) →
      ((after past new).polling = true ↔
        c.isActive = true ∧ Kept since ((after before new).watch c).1) := by
  refine ⟨?_, exists_watch, ?_⟩
  · intro hw
    unfold polling poller?
    rw [hw]
    rfl
  · intro before c since hsplit hsince
    subst hsplit
    have hlawful := lawful_history hes new
    rw [hpast, List.append_assoc, List.cons_append] at hlawful
    obtain ⟨-, -, hafter⟩ := lawful_append.mp hlawful
    obtain ⟨htended, hwatch⟩ := goes_watch c (after before new)
    rw [after_append]
    exact (goes_after htended (lawful_append.mp hafter).1 hsince).trans (and_congr_left' hwatch)

def benchIn (status : String) : Campaign := { benchCampaign "FW-1" with status := status }

def pauseEvents : List Event :=
  [.call (.watch (benchIn "running")), .begin 0 0, .call (.update (benchIn "paused")),
   .call (.update (benchIn "running")), .awake 0 0]

def resumeEvents : List Event :=
  [.call (.watch (benchIn "running")), .begin 0 0, .call (.update (benchIn "paused")), .awake 0 0,
   .call (.update (benchIn "running"))]

theorem polling_kept_bench :
    (reached pauseEvents).polling = true ∧ (reached resumeEvents).polling = false := by
  have hpause : ∀ e ∈ pauseEvents, e.Clean := by simp [pauseEvents, Event.Clean]
  have hresume : ∀ e ∈ resumeEvents, e.Clean := by simp [resumeEvents, Event.Clean]
  constructor
  · have hpast : history pauseEvents new = .call (.watch (benchIn "running")) ::
        [.turn 0 0 .begin, .call (.update (benchIn "paused")), .call (.update (benchIn "running")),
          .turn 0 0 .awake] := rfl
    have hwhole : history pauseEvents new = history pauseEvents new ++ [] :=
      (List.append_nil _).symm
    have hpolling := (polling_kept hpause hwhole).2.2 [] _ _ hpast
      (by simp [Moment.Ends, Call.Ends])
    refine hpolling.mpr ⟨by decide +kernel, ?_⟩
    exact ⟨fun _ => ⟨benchIn "running", rfl, by decide +kernel⟩, False.elim, False.elim,
      fun _ => ⟨benchIn "running", rfl, by decide +kernel⟩, trivial⟩
  · have hpast : history resumeEvents new = .call (.watch (benchIn "running")) ::
        [.turn 0 0 .begin, .call (.update (benchIn "paused")), .turn 0 0 .awake,
          .call (.update (benchIn "running"))] := rfl
    have hwhole : history resumeEvents new = history resumeEvents new ++ [] :=
      (List.append_nil _).symm
    have hpolling := (polling_kept hresume hwhole).2.2 [] _ _ hpast
      (by simp [Moment.Ends, Call.Ends])
    refine eq_false_of_ne_true fun htrue => ?_
    obtain ⟨-, -, -, hkept, -⟩ := hpolling.mp htrue
    obtain ⟨c, hc, hactive⟩ := hkept ⟨rfl, _, _, rfl, _, rfl, rfl⟩
    obtain rfl : benchIn "paused" = c := Option.some.inj hc
    revert hactive
    decide +kernel

/-- A campaign that is paused and resumed can be active and watched without being polled. -/
theorem active_unpolled : ¬ ∀ es : List Event, (∀ e ∈ es, e.Clean) →
    (∀ d ∈ history es new, d ≠ .call .stop) → (reached es).Active → (reached es).polling = true := by
  intro hclaim
  have hclean : ∀ e ∈ resumeEvents, e.Clean := by simp [resumeEvents, Event.Clean]
  have hnostop : ∀ d ∈ history resumeEvents new, d ≠ .call .stop := by
    show ∀ d ∈ [Moment.call (.watch _), .turn _ _ _, .call (.update _), .turn _ _ _,
      .call (.update _)], d ≠ .call .stop
    simp
  have hpolling := hclaim resumeEvents hclean hnostop ⟨benchIn "running", rfl, by decide +kernel⟩
  revert hpolling
  decide +kernel

end CampaignMonitor
end BomEngine
