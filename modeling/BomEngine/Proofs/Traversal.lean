import BomEngine.Failure
import Mathlib

/-!
# Traversals that may fail

Going through a list with an action that may fail gives all results in order, or
the failure of the first item that has one.
-/

set_option autoImplicit false

namespace BomEngine.Traversal

variable {ε α β : Type}

theorem mapM_ok_iff {f : α → Except ε β} {as : List α} {bs : List β} :
    as.mapM f = .ok bs ↔ List.Forall₂ (fun a b => f a = .ok b) as bs := by
  induction as generalizing bs with
  | nil => cases bs <;> simp [pure, Except.pure]
  | cons a as ih =>
    rw [List.mapM_cons, List.forall₂_cons_left_iff]
    cases ha : f a with
    | error e => simp [bind, Except.bind]
    | ok b =>
      cases has : as.mapM f with
      | error e =>
        have hno : ∀ u, ¬ List.Forall₂ (fun a b => f a = .ok b) as u := fun u hu => by
          simpa [has] using ih.mpr hu
        simp [bind, Except.bind, hno]
      | ok cs =>
        have hcs : ∀ u, List.Forall₂ (fun a b => f a = .ok b) as u ↔ cs = u := by
          intro u
          rw [← ih, has, Except.ok.injEq]
        simp [bind, Except.bind, pure, Except.pure, hcs, eq_comm]

theorem mapM_total {f : α → Except ε β} {as : List α} (h : ∀ a ∈ as, ∃ b, f a = .ok b) :
    ∃ bs, as.mapM f = .ok bs := by
  induction as with
  | nil => exact ⟨[], rfl⟩
  | cons a as ih =>
    obtain ⟨b, hb⟩ := h a (by simp)
    obtain ⟨bs, hbs⟩ := ih fun x hx => h x (by simp [hx])
    exact ⟨b :: bs, by rw [List.mapM_cons, hb, hbs]; rfl⟩

theorem mapM_first_error {f : α → Except ε β} {before after : List α} {a : α} {e : ε}
    (hb : ∀ x ∈ before, ∃ b, f x = .ok b) (ha : f a = .error e) :
    (before ++ a :: after).mapM f = .error e := by
  obtain ⟨bs, hbs⟩ := mapM_total hb
  rw [List.mapM_append, hbs, List.mapM_cons, ha]
  rfl

theorem mapM_eq_error {f : α → Except ε β} {as : List α} {e : ε} (h : as.mapM f = .error e) :
    ∃ before a after, as = before ++ a :: after ∧ (∀ x ∈ before, ∃ b, f x = .ok b) ∧
      f a = .error e := by
  induction as with
  | nil => cases h
  | cons a as ih =>
    rw [List.mapM_cons] at h
    cases ha : f a with
    | error e' =>
      rw [ha] at h
      cases h
      exact ⟨[], a, as, rfl, nofun, ha⟩
    | ok b =>
      cases has : as.mapM f with
      | ok bs =>
        rw [ha, has] at h
        cases h
      | error e' =>
        rw [ha, has] at h
        cases h
        obtain ⟨before, a', after, rfl, hbefore, ha'⟩ := ih has
        refine ⟨a :: before, a', after, rfl, ?_, ha'⟩
        exact List.forall_mem_cons.mpr ⟨⟨b, ha⟩, hbefore⟩

theorem bind_eq_ok {x : Except ε α} {f : α → Except ε β} {b : β} :
    x >>= f = .ok b ↔ ∃ a, x = .ok a ∧ f a = .ok b := by
  cases x <;> simp [bind, Except.bind]

theorem map_eq_ok {x : Except ε α} {f : α → β} {b : β} :
    x.map f = .ok b ↔ ∃ a, x = .ok a ∧ f a = b := by
  cases x <;> simp [Except.map]

theorem ofArithmetic_eq_ok {x : Except Signal α} {a : α} :
    Result.ofArithmetic x = .ok a ↔ x = .ok a := by
  cases x <;> simp [Result.ofArithmetic]

theorem foldlM_ok_mem {f : β → α → Except ε β} {as : List α} {b c : β}
    (h : as.foldlM f b = .ok c) : ∀ a ∈ as, ∃ b' c', f b' a = .ok c' := by
  induction as generalizing b with
  | nil => simp
  | cons first rest ih =>
    rw [List.foldlM_cons] at h
    obtain ⟨next, hnext, hrest⟩ := bind_eq_ok.mp h
    intro a ha
    rcases List.mem_cons.mp ha with rfl | ha
    · exact ⟨b, next, hnext⟩
    · exact ih hrest a ha

theorem foldlM_error_iff {f : β → α → Except ε β} {as : List α} {b : β} {e : ε} :
    as.foldlM f b = .error e ↔ ∃ before a after b', as = before ++ a :: after ∧
      before.foldlM f b = .ok b' ∧ f b' a = .error e := by
  constructor
  · intro h
    induction as generalizing b with
    | nil => cases h
    | cons a as ih =>
      rw [List.foldlM_cons] at h
      cases ha : f b a with
      | error e' =>
        rw [ha] at h
        cases h
        exact ⟨[], a, as, b, rfl, rfl, ha⟩
      | ok next =>
        rw [ha] at h
        obtain ⟨before, a', after, b', rfl, hbefore, ha'⟩ := ih h
        refine ⟨a :: before, a', after, b', rfl, ?_, ha'⟩
        rw [List.foldlM_cons, ha]
        exact hbefore
  · rintro ⟨before, a, after, b', rfl, hbefore, ha⟩
    rw [List.foldlM_append, hbefore]
    change (a :: after).foldlM f b' = _
    rw [List.foldlM_cons, ha]
    rfl

theorem foldlM_congr {f g : β → α → Except ε β} {as : List α}
    (h : ∀ b, ∀ a ∈ as, f b a = g b a) {b : β} : as.foldlM f b = as.foldlM g b := by
  induction as generalizing b with
  | nil => rfl
  | cons a as ih =>
    rw [List.foldlM_cons, List.foldlM_cons, h b a (by simp)]
    exact congrArg _ (funext fun _ => ih fun b' x hx => h b' x (by simp [hx]))

theorem map_eq_of_forall₂ {γ : Type} {R : α → β → Prop} {f : α → γ} {g : β → γ} {as : List α}
    {bs : List β} (h : List.Forall₂ R as bs) (hfg : ∀ a b, R a b → g b = f a) :
    bs.map g = as.map f := by
  induction h with
  | nil => rfl
  | cons hab _ ih => rw [List.map_cons, List.map_cons, hfg _ _ hab, ih]

theorem mem_right {P : α → Prop} {R : α → β → Prop} {as : List α} {bs : List β}
    (h : List.Forall₂ (fun a b => P a ∧ R a b) as bs) {b : β} (hb : b ∈ bs) :
    ∃ a, P a ∧ R a b := by
  induction h with
  | nil => cases hb
  | cons hab _ ih =>
    rcases List.mem_cons.mp hb with rfl | hb
    · exact ⟨_, hab⟩
    · exact ih hb

theorem mem_left {R : α → β → Prop} {as : List α} {bs : List β} (h : List.Forall₂ R as bs) {a : α}
    (ha : a ∈ as) : ∃ b, R a b := by
  induction h with
  | nil => cases ha
  | cons hab _ ih =>
    rcases List.mem_cons.mp ha with rfl | ha
    · exact ⟨_, hab⟩
    · exact ih ha

theorem forall₂_join {γ : Type} {R : α → β → Prop} {S : α → γ → Prop} {T : β → γ → Prop}
    {as : List α} {bs : List β} {cs : List γ} (h : List.Forall₂ R as bs)
    (h' : List.Forall₂ S as cs) (hjoin : ∀ a b c, R a b → S a c → T b c) :
    List.Forall₂ T bs cs := by
  induction h generalizing cs with
  | nil =>
    cases h'
    exact .nil
  | cons hab _ ih =>
    cases h' with
    | cons hac h' => exact .cons (hjoin _ _ _ hab hac) (ih h')

def FailsWith (P : ε → Prop) (x : Except ε α) : Prop := ∀ e, x = .error e → P e

namespace FailsWith

variable {P : ε → Prop}

theorem of_ok (a : α) : FailsWith P (.ok a) := fun _ h => (nomatch h)

theorem of_error {e : ε} (he : P e) : FailsWith P (.error e : Except ε α) := by
  intro e' h
  cases h
  exact he

theorem bind {x : Except ε α} {f : α → Except ε β} (hx : FailsWith P x)
    (hf : ∀ a, FailsWith P (f a)) : FailsWith P (x >>= f) := by
  cases x with
  | error e => exact of_error (hx e rfl)
  | ok a => exact hf a

theorem foldlM {f : β → α → Except ε β} (hf : ∀ b a, FailsWith P (f b a)) (as : List α)
    (b : β) : FailsWith P (as.foldlM f b) := by
  induction as generalizing b with
  | nil => exact of_ok b
  | cons a as ih =>
    rw [List.foldlM_cons]
    exact (hf b a).bind fun b' => ih b'

theorem mapM {f : α → Except ε β} (hf : ∀ a, FailsWith P (f a)) (as : List α) :
    FailsWith P (as.mapM f) := by
  induction as with
  | nil => exact of_ok []
  | cons a as ih =>
    rw [List.mapM_cons]
    exact (hf a).bind fun _ => ih.bind fun _ => of_ok _

end FailsWith

def FailsOnly (e : ε) (x : Except ε α) : Prop := ∀ e', x = .error e' → e' = e

namespace FailsOnly

variable {e : ε}

theorem of_ok (a : α) : FailsOnly e (.ok a) := FailsWith.of_ok a

theorem bind {x : Except ε α} {f : α → Except ε β} (hx : FailsOnly e x)
    (hf : ∀ a, FailsOnly e (f a)) : FailsOnly e (x >>= f) := FailsWith.bind hx hf

theorem foldlM {f : β → α → Except ε β} (hf : ∀ b a, FailsOnly e (f b a)) (as : List α)
    (b : β) : FailsOnly e (as.foldlM f b) := FailsWith.foldlM hf as b

theorem mapM {f : α → Except ε β} (hf : ∀ a, FailsOnly e (f a)) (as : List α) :
    FailsOnly e (as.mapM f) := FailsWith.mapM hf as

theorem ofArithmetic {s : Signal} {x : Except Signal α} (hx : FailsOnly s x) :
    FailsOnly (.signal s) (Result.ofArithmetic x) := by
  cases x with
  | error s' =>
    intro e h
    cases h
    rw [hx s' rfl]
  | ok a => exact of_ok a

theorem mapM_append_cons {f : α → Except ε β} {before after : List α} {a : α}
    (hb : ∀ x ∈ before, FailsOnly e (f x)) (ha : f a = .error e) :
    (before ++ a :: after).mapM f = .error e := by
  rw [List.mapM_append]
  cases hbefore : before.mapM f with
  | error e' =>
    obtain ⟨_, x, _, rfl, -, hx⟩ := mapM_eq_error hbefore
    obtain rfl := hb x (by simp) e' hx
    rfl
  | ok bs =>
    rw [List.mapM_cons, ha]
    rfl

theorem result {x : Except ε α} (hx : FailsOnly e x) (h : x ≠ .error e) : ∃ a, x = .ok a := by
  cases x with
  | error e' => exact absurd (congrArg Except.error (hx e' rfl)) h
  | ok a => exact ⟨a, rfl⟩

end FailsOnly

end BomEngine.Traversal
