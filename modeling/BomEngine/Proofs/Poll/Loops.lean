import BomEngine.Poll.Poller
import Mathlib

/-!
# The loops of a poller

Calls of start, stop and update find the loops of a poller in any phase. They leave the phases as
they are, and a loop that was cancelled or that is over stays so. Only the loop of the last start
goes on, and a stop leaves none that does.
-/

set_option autoImplicit false

namespace BomEngine

theorem Loop.hasEnded_congr {l l' : Loop} (h : l'.phase = l.phase) : l'.hasEnded = l.hasEnded := by
  unfold hasEnded
  rw [h]

namespace Poller

variable {α : Type} {s : Setup α} {p : Poller α} {i j : Nat}

def Goes (p : Poller α) (i : Nat) : Prop :=
  ∃ l, p.loop? i = some l ∧ l.cancelled = false ∧ l.hasEnded = false

/-- Only the loop of the last start goes on. -/
def Single (p : Poller α) : Prop := ∀ i, p.Goes i → p.task = some i

theorem loop?_setLoop (p : Poller α) (i j : Nat) (f : Loop → Loop) :
    (p.setLoop i f).loop? j = (p.loop? j).map fun l => if i = j then f l else l :=
  List.getElem?_modify f i p.loops j

theorem exists_loop? (h : i < p.loops.length) : ∃ l, p.loop? i = some l :=
  ⟨p.loops[i], List.getElem?_eq_getElem h⟩

theorem lt_of_loop? {l : Loop} (h : p.loop? i = some l) : i < p.loops.length :=
  (List.getElem?_eq_some_iff.mp h).1

theorem Goes.lt (h : p.Goes i) : i < p.loops.length := by
  obtain ⟨l, hl, -⟩ := h
  exact lt_of_loop? hl

theorem goes_of_enter {phase : Phase} (hi : p.Goes i ∨ ∀ l, (Loop.enter phase l).hasEnded = true)
    (h : (p.enter i phase).Goes j) : p.Goes j := by
  obtain ⟨l', hl', hc, he⟩ := h
  rw [enter, loop?_setLoop, Option.map_eq_some_iff] at hl'
  obtain ⟨l, hl, rfl⟩ := hl'
  by_cases hij : i = j
  · subst hij
    rw [if_pos rfl] at hc he
    rcases hi with hi | hover
    · exact hi
    · rw [hover l] at he
      cases he
  · rw [if_neg hij] at hc he
    exact ⟨l, hl, hc, he⟩

theorem running_of_goes (h : p.Goes i) (ht : p.task = some i) : p.running = true := by
  obtain ⟨l, hl, -, he⟩ := h
  unfold running
  rw [ht, Option.bind_some, hl, Option.map_some, he]
  rfl

theorem loop?_stop (p : Poller α) (j : Nat) :
    p.stop.loop? j =
      (p.loop? j).map fun l => if p.task = some j ∧ p.running = true then l.cancel else l := by
  unfold stop
  cases ht : p.task with
  | none =>
    show p.loop? j = _
    simp
  | some i =>
    by_cases hr : p.running
    · simp only [hr, if_true]
      show (p.setLoop i Loop.cancel).loop? j = _
      rw [loop?_setLoop]
      simp
    · simp only [hr]
      show p.loop? j = _
      simp

theorem not_goes_stop (h : p.Single) (i : Nat) : ¬ p.stop.Goes i := by
  rintro ⟨l', hl', hc, he⟩
  rw [loop?_stop, Option.map_eq_some_iff] at hl'
  obtain ⟨l, hl, rfl⟩ := hl'
  by_cases hi : p.task = some i ∧ p.running = true
  · rw [if_pos hi] at hc
    cases hc
  · rw [if_neg hi] at hc he
    have hgoes : p.Goes i := ⟨l, hl, hc, he⟩
    exact hi ⟨h i hgoes, running_of_goes hgoes (h i hgoes)⟩

theorem act_keeps {l : Loop} (h : p.loop? j = some l) (a : Action α) :
    ∃ l', (p.act s a).1.loop? j = some l' ∧ l'.phase = l.phase ∧
      (l.cancelled = true → l'.cancelled = true) := by
  cases a with
  | update value => exact ⟨l, h, rfl, id⟩
  | stop =>
    refine ⟨_, (loop?_stop p j).trans (congrArg _ h), ?_⟩
    dsimp only
    by_cases hj : p.task = some j ∧ p.running = true
    · rw [if_pos hj]
      exact ⟨rfl, fun _ => rfl⟩
    · rw [if_neg hj]
      exact ⟨rfl, id⟩
  | start initial =>
    refine ⟨l, ?_, rfl, id⟩
    unfold act start
    dsimp only
    split
    · exact h
    split
    · exact (List.getElem?_append_left (lt_of_loop? h)).trans h
    · exact h

theorem actions_keeps {l : Loop} (h : p.loop? j = some l) (as : List (Action α)) :
    ∃ l', (p.actions s as).1.loop? j = some l' ∧ l'.phase = l.phase := by
  induction as generalizing p l with
  | nil => exact ⟨l, h, rfl⟩
  | cons a as ih =>
    obtain ⟨l₁, hl₁, hphase₁, -⟩ := act_keeps (s := s) h a
    obtain ⟨l₂, hl₂, hphase₂⟩ := ih hl₁
    exact ⟨l₂, hl₂, hphase₂.trans hphase₁⟩

theorem length_le_act (a : Action α) : p.loops.length ≤ (p.act s a).1.loops.length := by
  by_contra hlt
  obtain ⟨l, hl⟩ := exists_loop? (p := p) (i := (p.act s a).1.loops.length) (by omega)
  obtain ⟨l', hl', -⟩ := act_keeps (s := s) hl a
  exact absurd (lt_of_loop? hl') (lt_irrefl _)

theorem goes_of_act {a : Action α} (hj : j < p.loops.length) (h : (p.act s a).1.Goes j) :
    p.Goes j := by
  obtain ⟨l, hl⟩ := exists_loop? hj
  obtain ⟨l', hl', hphase, hcancelled⟩ := act_keeps (s := s) hl a
  obtain ⟨l'', hl'', hc, he⟩ := h
  obtain rfl : l' = l'' := Option.some.inj (hl'.symm.trans hl'')
  refine ⟨l, hl, ?_, (Loop.hasEnded_congr hphase).symm.trans he⟩
  cases hcl : l.cancelled with
  | false => rfl
  | true => exact (hcancelled hcl).symm.trans hc

theorem single_act (h : p.Single) (a : Action α) : (p.act s a).1.Single := by
  cases a with
  | update value => exact h
  | stop => exact fun i hi => absurd hi (not_goes_stop h i)
  | start initial =>
    intro i hi
    have hold : i < p.loops.length → p.Goes i := fun hlt => goes_of_act hlt hi
    by_cases hr : p.running = true
    · have hsame : (p.act s (.start initial)).1 = p := congrArg Prod.fst (if_pos hr)
      rw [hsame] at hi ⊢
      exact h i hi
    · have hnot : i < p.loops.length → False := fun hlt =>
        hr (running_of_goes (hold hlt) (h i (hold hlt)))
      have hlt := hi.lt
      revert hlt
      unfold act start
      dsimp only
      rw [if_neg hr]
      split
      · intro hlt
        rw [List.length_append, List.length_singleton] at hlt
        exact congrArg some (Nat.le_antisymm (Nat.le_of_not_lt hnot) (Nat.le_of_lt_succ hlt))
      · intro hlt
        exact absurd hlt hnot

theorem begun_of_act {a : Action α} {l : Loop} (hi : ¬ i < p.loops.length)
    (hl : (p.act s a).1.loop? i = some l) : l.phase = .begun := by
  cases a with
  | update value => exact absurd (lt_of_loop? (p := p) hl) hi
  | stop =>
    have hstop := (loop?_stop p i).symm.trans hl
    obtain ⟨l', hl', -⟩ := Option.map_eq_some_iff.mp hstop
    exact absurd (lt_of_loop? hl') hi
  | start initial =>
    revert hl
    unfold act start
    dsimp only
    split
    · exact fun hl => absurd (lt_of_loop? hl) hi
    split
    · intro hl
      have hnew := (List.getElem?_append_right (Nat.le_of_not_lt hi)).symm.trans hl
      have hmem := List.mem_of_getElem? hnew
      rw [List.mem_singleton.mp hmem]
    · exact fun hl => absurd (lt_of_loop? (p := p) hl) hi

theorem loops_actions {as : List (Action α)} (has : ∀ x, .start x ∉ as)
    (h : (p.actions s as).1.stopped = false) :
    p.stopped = false ∧ (p.actions s as).1.loops = p.loops := by
  induction as generalizing p with
  | nil => exact ⟨h, rfl⟩
  | cons a as ih =>
    obtain ⟨hstopped, hloops⟩ := ih (fun x hx => has x (List.mem_cons_of_mem a hx)) h
    cases a with
    | start x => exact absurd List.mem_cons_self (has x)
    | stop => cases hstopped
    | update value => exact ⟨hstopped, hloops⟩

end Poller
end BomEngine
