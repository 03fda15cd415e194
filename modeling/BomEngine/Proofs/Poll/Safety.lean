import BomEngine.Proofs.Poll.Rules

/-!
# Safety of polling

Calls from outside, calls by the receiver of a value and turns of loops may come in any order.
Between a stop and the next start nothing is fetched or delivered; no two loops go on at any
time; and a value that was fetched for a loop is lost once the loop was stopped, even if the
poller has been started again meanwhile.
-/

set_option autoImplicit false

namespace BomEngine.Poller

variable {α : Type} {s : Setup α} {p : Poller α} {i : Nat} {fair : Prop}

def Effect.isDelivery : Effect α → Bool
  | .deliver _ => true
  | _ => false

theorem fetchCount_act (a : Action α) (p : Poller α) :
    (p.act s a).1.fetchCount = p.fetchCount ∧ (p.act s a).2.countP Effect.isDelivery = 0 := by
  cases a with
  | update value => exact ⟨rfl, rfl⟩
  | stop =>
    refine ⟨?_, rfl⟩
    show p.stop.fetchCount = p.fetchCount
    unfold stop
    split
    · split <;> rfl
    · rfl
  | start initial =>
    unfold act start
    dsimp only
    split
    · exact ⟨rfl, rfl⟩
    split <;> exact ⟨rfl, rfl⟩

theorem fetchCount_performAll (hs : s.delivers = true) (ds : List (Deed α)) (p : Poller α) :
    (performAll s ds p).1.fetchCount =
      p.fetchCount + (performAll s ds p).2.countP Effect.isDelivery := by
  have hstep : ∀ (d : Deed α) (q : Poller α), (d.perform s q).1.fetchCount =
      q.fetchCount + (d.perform s q).2.countP Effect.isDelivery := by
    intro d q
    cases d with
    | act a =>
      obtain ⟨hcount, heffects⟩ := fetchCount_act (s := s) a q
      show (q.act s a).1.fetchCount = q.fetchCount + (q.act s a).2.countP Effect.isDelivery
      rw [hcount, heffects, Nat.add_zero]
    | take i v =>
      show q.fetchCount + 1 = q.fetchCount + List.countP Effect.isDelivery
        (s.ticked (q.fetchCount + 1) :: if s.delivers then [.deliver v] else [])
      rw [if_pos hs]
      rfl
    | finish i =>
      show q.fetchCount = q.fetchCount +
        List.countP Effect.isDelivery (if q.stopped then [] else [s.idle "polling stopped"])
      split <;> rfl
    | _ => rfl
  induction ds generalizing p with
  | nil => rfl
  | cons d ds ih =>
    show (performAll s ds (d.perform s p).1).1.fetchCount = p.fetchCount +
      ((d.perform s p).2 ++ (performAll s ds (d.perform s p).1).2).countP Effect.isDelivery
    rw [ih, hstep, List.countP_append, Nat.add_assoc]

def Deed.update? : Deed α → Option (Option α)
  | .act (.update value) => some value
  | _ => none

/-- Nothing is fetched or delivered, and only updates change the latest value. -/
structure Rests (p : Poller α) (m : Move α) (updates : List (Option α)) : Prop where
  quiet : ∀ e ∈ m.2, (∀ i, e ≠ .fetch i) ∧ ∀ v, e ≠ .deliver v
  fetchCount : m.1.fetchCount = p.fetchCount
  latest : m.1.latest = updates.getLastD p.latest

theorem latest_stop (p : Poller α) : p.stop.latest = p.latest := by
  unfold stop
  split
  · split <;> rfl
  · rfl

theorem rests_perform {d : Deed α} (h : d.Allowed s fair p) (hstopped : p.stopped = true)
    (hd : ∀ x, d ≠ .act (.start x)) :
    (d.perform s p).1.stopped = true ∧ Rests p (d.perform s p) d.update?.toList := by
  cases d with
  | act a =>
    cases a with
    | start x => exact absurd rfl (hd x)
    | stop => exact ⟨rfl, nofun, (fetchCount_act (s := s) .stop p).1, latest_stop p⟩
    | update value => exact ⟨hstopped, nofun, rfl, rfl⟩
  | issue i => exact absurd (h.1.symm.trans hstopped) Bool.false_ne_true
  | take i v => exact absurd (h.1.symm.trans hstopped) Bool.false_ne_true
  | sleep i => exact ⟨hstopped, List.forall_mem_singleton.mpr ⟨nofun, nofun⟩, rfl, rfl⟩
  | miss f => exact ⟨hstopped, List.forall_mem_singleton.mpr ⟨nofun, nofun⟩, rfl, rfl⟩
  | finish i =>
    have hnone : ((Deed.finish i).perform s p).2 = [] := if_pos hstopped
    refine ⟨hstopped, ?_, rfl, rfl⟩
    rw [hnone]
    exact nofun
  | drop i phase => exact ⟨hstopped, nofun, rfl, rfl⟩

theorem getLastD_append {β : Type} (xs ys : List β) (b : β) :
    (xs ++ ys).getLastD b = ys.getLastD (xs.getLastD b) := by
  rw [List.getLastD_eq_getLast?, List.getLast?_append, List.getLastD_eq_getLast?,
    List.getLastD_eq_getLast?, Option.getD_or]

theorem Rests.andThen {m : Move α} {f : Poller α → Move α} {updates later : List (Option α)}
    (h : Rests p m updates) (hf : Rests m.1 (f m.1) later) :
    Rests p (m.andThen f) (updates ++ later) := by
  refine ⟨?_, hf.fetchCount.trans h.fetchCount, ?_⟩
  · intro e he
    rcases List.mem_append.mp he with he | he
    · exact h.quiet e he
    · exact hf.quiet e he
  · rw [getLastD_append, ← h.latest]
    exact hf.latest

theorem rests_performAll {ds : List (Deed α)} (h : Lawful s fair ds p) (hstopped : p.stopped = true)
    (hds : ∀ x, .act (.start x) ∉ ds) :
    (performAll s ds p).1.stopped = true ∧
      Rests p (performAll s ds p) (ds.filterMap Deed.update?) := by
  induction ds generalizing p with
  | nil => exact ⟨hstopped, nofun, rfl, rfl⟩
  | cons d ds ih =>
    obtain ⟨hstill, hfirst⟩ := rests_perform h.1 hstopped
      fun x hx => hds x (hx ▸ List.mem_cons_self)
    obtain ⟨hend, hrest⟩ := ih h.2 hstill fun x hx => hds x (List.mem_cons_of_mem d hx)
    have hsplit : (d :: ds).filterMap Deed.update? =
        d.update?.toList ++ ds.filterMap Deed.update? := by
      rw [List.filterMap_cons]
      cases d.update? <;> rfl
    exact ⟨hend, hsplit ▸ hfirst.andThen hrest⟩

def reached (s : Setup α) (before : List (Deed α)) : Move α := performAll s before new

/-- Between any two deeds of a run: at most one loop goes on, and as many values were counted as
were delivered. A fetch that comes next is issued because the poller is not stopped and its latest
value is active. After a stop that comes next the poller rests for as long as nobody starts it. -/
structure Safe (s : Setup α) (before rest : List (Deed α)) : Prop where
  single : ∀ i j, (reached s before).1.Goes i → (reached s before).1.Goes j → i = j
  counted : s.delivers = true →
    (reached s before).1.fetchCount = (reached s before).2.countP Effect.isDelivery
  issued : ∀ d rest' i, rest = d :: rest' → .fetch i ∈ (d.perform s (reached s before).1).2 →
    (reached s before).1.stopped = false ∧ (reached s before).1.isActive s = true
  stopped : ∀ between rest', rest = .act .stop :: between ++ rest' →
    (∀ x, .act (.start x) ∉ between) →
    Rests (reached s before).1 (performAll s between (reached s before).1.stop)
      (between.filterMap Deed.update?)

/-- A deed records or delivers a value other than by a call. -/
def Deed.Records (s : Setup α) (d : Deed α) (p : Poller α) : Prop :=
  (d.perform s p).1.fetchCount ≠ p.fetchCount ∨ (∃ v, .deliver v ∈ (d.perform s p).2) ∨
    (d.perform s p).1.latest ≠ p.latest ∧ ∀ a, d ≠ .act a

/-- A value that is recorded or delivered next belongs to a loop that has issued a fetch and that
was not stopped since. -/
def OwnValue (s : Setup α) (before rest : List (Deed α)) : Prop :=
  ∀ d rest', rest = d :: rest' → d.Records s (reached s before).1 →
    ∃ i v, d = .take i v ∧ .issue i ∈ before ∧
      ∀ first since, before = first ++ .issue i :: since → .act .stop ∉ since

theorem take_of_records {d : Deed α} (h : d.Records s p) : ∃ i v, d = .take i v := by
  rcases h with hne | ⟨v, hv⟩ | ⟨hne, hact⟩
  · cases d with
    | take i v => exact ⟨i, v, rfl⟩
    | act a => exact absurd (fetchCount_act a p).1 hne
    | _ => exact absurd rfl hne
  · cases d with
    | take i v => exact ⟨i, v, rfl⟩
    | act a => exact absurd rfl (List.countP_eq_zero.mp (fetchCount_act a p).2 _ hv)
    | finish i =>
      have hidle : Effect.deliver v ∈ if p.stopped then [] else [s.idle "polling stopped"] := hv
      split at hidle
      · cases hidle
      · cases List.mem_singleton.mp hidle
    | drop i phase => cases hv
    | _ => cases List.mem_singleton.mp hv
  · cases d with
    | take i v => exact ⟨i, v, rfl⟩
    | act a => exact absurd rfl (hact a)
    | _ => exact absurd rfl hne

theorem issue_of_fetch {d : Deed α} (h : .fetch i ∈ (d.perform s p).2) : d = .issue i := by
  cases d with
  | issue k => cases List.mem_singleton.mp h; rfl
  | act a =>
    cases a with
    | start x =>
      revert h
      show Effect.fetch i ∈ (p.start s x).2 → _
      unfold start
      split
      · exact nofun
      split
      · exact fun h => nomatch List.mem_singleton.mp h
      · exact fun h => nomatch List.mem_singleton.mp h
    | _ => cases h
  | take k v =>
    have hticked : Effect.fetch i ∈
        s.ticked (p.fetchCount + 1) :: if s.delivers then [Effect.deliver v] else [] := h
    split at hticked <;> simp [Setup.ticked] at hticked
  | finish k =>
    have hidle : Effect.fetch i ∈ if p.stopped then [] else [s.idle "polling stopped"] := h
    split at hidle
    · cases hidle
    · cases List.mem_singleton.mp hidle
  | drop k phase => cases h
  | _ => cases List.mem_singleton.mp h

theorem reached_append (ds es : List (Deed α)) :
    (reached s (ds ++ es)).1 = (performAll s es (reached s ds).1).1 := by
  unfold reached
  rw [performAll_append]
  rfl

theorem single_new : (new : Poller α).Single := by
  rintro i ⟨l, hl, -⟩
  cases hl

theorem not_stopped_since {first since : List (Deed α)}
    (h : Lawful s fair (first ++ .issue i :: since) new)
    (hgoes : (reached s (first ++ .issue i :: since)).1.Goes i) : .act .stop ∉ since := by
  intro hstop
  obtain ⟨early, late, rfl⟩ := List.append_of_mem hstop
  have hsplit : first ++ .issue i :: (early ++ .act .stop :: late) =
      (first ++ .issue i :: early) ++ .act .stop :: late := by
    rw [List.append_assoc, List.cons_append]
  rw [hsplit] at h hgoes
  obtain ⟨hbefore, hafter⟩ := lawful_append.mp h
  have hi : i < (reached s (first ++ .issue i :: early)).1.loops.length := by
    obtain ⟨-, hissue, -⟩ := lawful_append.mp hbefore
    rw [reached_append]
    exact hissue.2.2.lt.trans_le (length_le_performAll _ _)
  rw [reached_append] at hgoes
  exact not_goes_stop (single_performAll hbefore single_new) i
    (goes_of_performAll hafter.2 (hi.trans_le (length_le_act (s := s) .stop)) hgoes)

theorem safe_of_lawful {before rest : List (Deed α)}
    (h : Lawful s fair (before ++ rest) new) : Safe s before rest := by
  obtain ⟨hbefore, hrest⟩ := lawful_append.mp h
  have hsingle : (reached s before).1.Single := single_performAll hbefore single_new
  constructor
  case single =>
    intro i j hi hj
    exact Option.some.inj ((hsingle i hi).symm.trans (hsingle j hj))
  case counted =>
    intro hs
    exact (fetchCount_performAll hs before new).trans (Nat.zero_add _)
  case issued =>
    intro d rest' i hd hfetch
    subst hd
    obtain rfl := issue_of_fetch hfetch
    exact ⟨hrest.1.1, hrest.1.2.1⟩
  case stopped =>
    intro between rest' hd hstart
    subst hd
    obtain ⟨-, hbetween⟩ := hrest
    obtain ⟨-, hrests⟩ := rests_performAll (lawful_append.mp hbetween).1 rfl hstart
    exact ⟨hrests.quiet,
      hrests.fetchCount.trans (fetchCount_act (s := s) .stop (reached s before).1).1,
      hrests.latest.trans (congrArg _ (latest_stop _))⟩

theorem ownValue_of_lawful {before rest : List (Deed α)} (hfair : fair)
    (h : Lawful s fair (before ++ rest) new) : OwnValue s before rest := by
  intro d rest' hd hrecords
  subst hd
  obtain ⟨hbefore, hnext, -⟩ := lawful_append.mp h
  obtain ⟨i, v, rfl⟩ := take_of_records hrecords
  obtain ⟨-, l, hl, hphase, hc⟩ := hnext
  have hissue : .issue i ∈ before := by
    rcases issue_of_performAll hbefore hl hphase with hmem | ⟨l', hl', -⟩
    · exact hmem
    · cases hl'
  refine ⟨i, v, rfl, hissue, ?_⟩
  intro first since hb
  subst hb
  refine not_stopped_since hbefore ⟨l, hl, hc hfair, ?_⟩
  unfold Loop.hasEnded
  rw [hphase]

/-- Every run of a poller is safe between any two of its deeds, and what is recorded then is a value
of the loop's own, unless a fetch has started its poller again while it came out: its value is then
taken for one of the new loop. -/
theorem run_safe (s : Setup α) (es : List (Event α)) :
    performAll s (history s es new) new = run s es new ∧
      ∀ before rest, history s es new = before ++ rest →
        Safe s before rest ∧ ((∀ e ∈ es, e.NoRestart) → OwnValue s before rest) := by
  constructor
  · exact performAll_history es new
  · intro before rest hsplit
    have hlawful := @lawful_history α s (∀ e ∈ es, e.NoRestart) es id new
    rw [hsplit] at hlawful
    exact ⟨safe_of_lawful hlawful, fun hfair => ownValue_of_lawful hfair hlawful⟩

def benchSetup : Setup Nat := ⟨"bench", fun value => value == some 1, true⟩

def benchEvents : List (Event Nat) :=
  [.act (.start (some 1)), .turn 0 .begin, .turn 0 .awake, .act .stop, .act (.start (some 1)),
   .turn 0 (.fetched [] (.ok (some 2)) []), .turn 1 .begin, .turn 1 .awake,
   .turn 1 (.fetched [] (.ok (some 1)) [.stop, .start (some 1)]), .turn 2 .begin]

theorem run_safe_bench :
    (∀ e ∈ benchEvents, e.NoRestart) ∧ ∃ before rest,
      history benchSetup benchEvents new = before ++ .take 1 (some 1) :: rest ∧
      .issue 0 ∈ before ∧ .act .stop ∈ before ∧ .act .stop ∈ rest ∧
      Safe benchSetup before (.take 1 (some 1) :: rest) ∧
      OwnValue benchSetup before (.take 1 (some 1) :: rest) := by
  have hfair : ∀ e ∈ benchEvents, e.NoRestart := by
    simp [benchEvents, Event.NoRestart]
  have hsplit : history benchSetup benchEvents new =
      [.act (.start (some 1)), .sleep 0, .issue 0, .act .stop, .act (.start (some 1)),
        .drop 0 .ended, .sleep 1, .issue 1] ++
      .take 1 (some 1) :: [.act .stop, .act (.start (some 1)), .drop 1 .ended, .sleep 2] := rfl
  obtain ⟨hsafe, hown⟩ := (run_safe benchSetup benchEvents).2 _ _ hsplit
  exact ⟨hfair, _, _, hsplit, by simp, by simp, by simp, hsafe, hown hfair⟩

end BomEngine.Poller
