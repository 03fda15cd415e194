import BomEngine.Proofs.Schema.Acceptance
import BomEngine.Proofs.Schema.Unbroken

/-!
# Where the flaws are

A verdict that refuses a record has a path for each flaw that it found. The paths of a record are
those of its fields, one field after the other, and the paths of a list those of its items in turn.
So they come in the order of the fields and the items, depth first.
-/

set_option autoImplicit false

namespace BomEngine

variable {α β : Type}

namespace Verdict

def paths : Verdict α → List (List Step)
  | refused flaws => flaws.map Flaw.path
  | _ => []

@[simp] theorem paths_accepted (a : α) : (accepted a).paths = [] := rfl

@[simp] theorem paths_flaw (kind : FlawKind) : (flaw kind : Verdict α).paths = [[]] := rfl

@[simp] theorem paths_map (f : α → β) (v : Verdict α) : (f <$> v).paths = v.paths := by
  show (v.map f).paths = v.paths
  cases v <;> rfl

@[simp] theorem paths_under (step : Step) (v : Verdict α) :
    (v.under step).paths = v.paths.map (step :: ·) := by
  cases v with
  | refused flaws => simp [paths, under, Flaw.under]
  | _ => rfl

theorem paths_seq {f : Verdict (α → β)} {v : Verdict α} (hf : f ≠ .broken) (hv : v ≠ .broken) :
    (f <*> v).paths = f.paths ++ v.paths := by
  show (f.both v).paths = _
  cases f with
  | broken => exact absurd rfl hf
  | accepted g =>
    cases v with
    | broken => exact absurd rfl hv
    | _ => rfl
  | refused flaws =>
    cases v with
    | broken => exact absurd rfl hv
    | accepted a => exact (List.append_nil _).symm
    | refused flaws' => exact List.map_append

def FlawedAt (step : Step) (v : Verdict α) : Prop :=
  (∃ a, v = .accepted a) ∨ ∃ kind, v = .refused [⟨[step], kind⟩]

namespace FlawedAt

variable {step : Step} {v : Verdict α}

theorem mem_paths (h : FlawedAt step v) {p : List Step} :
    p ∈ v.paths ↔ p = [step] ∧ ¬ ∃ a, v = .accepted a := by
  rcases h with ⟨a, rfl⟩ | ⟨kind, rfl⟩
  · simp
  · simp [paths]

theorem pairwise (h : FlawedAt step v) (R : List Step → List Step → Prop) :
    v.paths.Pairwise R := by
  rcases h with ⟨a, rfl⟩ | ⟨kind, rfl⟩
  · exact .nil
  · exact List.pairwise_singleton R _

end FlawedAt
end Verdict

class Check.Plain (c : Check α) : Prop where
  accepted_or_flaw : ∀ j, (∃ a, c j = .accepted a) ∨ ∃ kind, c j = .flaw kind

namespace Check

export Plain (accepted_or_flaw)

variable {c : Check α}

theorem plain_flaw {kind : FlawKind} :
    (∃ a, (Verdict.flaw kind : Verdict α) = .accepted a) ∨
      ∃ kind', (Verdict.flaw kind : Verdict α) = .flaw kind' := .inr ⟨kind, rfl⟩

instance : Plain text where
  accepted_or_flaw j := by
    cases j with
    | str s => exact .inl ⟨s, rfl⟩
    | _ => exact plain_flaw

instance [Plain c] (p : α → Option FlawKind) : Plain (c.demand p) where
  accepted_or_flaw j := by
    rcases accepted_or_flaw (c := c) j with ⟨a, ha⟩ | ⟨kind, hkind⟩
    · rw [Check.demand, ha]
      cases hp : p a with
      | none => exact .inl ⟨a, by simp [Verdict.demand, hp]⟩
      | some kind => exact .inr ⟨kind, by simp [Verdict.demand, hp]⟩
    · rw [Check.demand, hkind]
      exact .inr ⟨kind, rfl⟩

instance : Plain nonempty := inferInstanceAs (Plain (text.demand _))

theorem plain_finiteOf (s : String) : (∃ d, finiteOf (numberOfText s) = .accepted d) ∨
    ∃ kind, finiteOf (numberOfText s) = .flaw kind := by
  unfold numberOfText
  cases Number.ofText? s with
  | none => exact plain_flaw
  | some n =>
    cases n with
    | finite d => exact .inl ⟨d, rfl⟩
    | _ => exact plain_flaw

instance : Plain decimal where
  accepted_or_flaw j := by
    cases j with
    | int n => exact .inl ⟨_, rfl⟩
    | double x => exact plain_finiteOf _
    | str s => exact plain_finiteOf _
    | _ => exact plain_flaw

instance : Plain positive := inferInstanceAs (Plain (decimal.demand _))

instance [Plain c] (a : α) : Plain (orNull a c) where
  accepted_or_flaw j := by
    cases j with
    | null => exact .inl ⟨a, rfl⟩
    | _ => exact accepted_or_flaw (c := c) _

instance [Plain c] : Plain (Check.optional c) where
  accepted_or_flaw j := by
    have hmap : ∀ j, (∃ b, (c j).map some = .accepted b) ∨ ∃ kind, (c j).map some = .flaw kind := by
      intro j
      rcases accepted_or_flaw (c := c) j with ⟨a, ha⟩ | ⟨kind, hkind⟩
      · exact .inl ⟨some a, by rw [ha]; rfl⟩
      · exact .inr ⟨kind, by rw [hkind]; rfl⟩
    cases j with
    | null => exact .inl ⟨none, rfl⟩
    | _ => exact hmap _

theorem flawedAt_under [Plain c] (step : Step) (j : Json) : ((c j).under step).FlawedAt step := by
  rcases accepted_or_flaw (c := c) j with ⟨a, ha⟩ | ⟨kind, hkind⟩
  · exact .inl ⟨a, by rw [ha]; rfl⟩
  · exact .inr ⟨kind, by rw [hkind]; rfl⟩

end Check

namespace Fields

variable {c : Check α} {fs : Fields} {name : String}

theorem required_flawedAt [Check.Plain c] :
    (fs.required name c).FlawedAt (.field name) := by
  unfold required
  split
  · exact Check.flawedAt_under _ _
  · exact .inr ⟨.missing, rfl⟩

theorem withDefault_flawedAt [Check.Plain c] (default : α) :
    (fs.withDefault name default c).FlawedAt (.field name) := by
  unfold withDefault
  split
  · exact Check.flawedAt_under _ _
  · exact .inl ⟨default, rfl⟩

def Absent (fs : Fields) (name : String) : Prop :=
  fs.lookup name = none ∨ fs.lookup name = some .null

theorem required_eq_accepted {a : α} : fs.required name c = .accepted a ↔
    ∃ j, fs.lookup name = some j ∧ c j = .accepted a := by
  unfold required
  cases fs.lookup name with
  | none => simp
  | some j => simp [Verdict.under_eq_accepted]

theorem withDefault_eq_accepted {default a : α} :
    fs.withDefault name default (Check.orNull default c) = .accepted a ↔
      fs.Absent name ∧ a = default ∨
        ∃ j, fs.lookup name = some j ∧ j ≠ .null ∧ c j = .accepted a := by
  unfold withDefault Absent
  cases fs.lookup name with
  | none => simp [eq_comm]
  | some j =>
    simp only [Verdict.under_eq_accepted]
    cases j <;> simp [Check.orNull, eq_comm]

theorem optional_eq_accepted {b : Option α} :
    Fields.optional fs name c = .accepted b ↔ fs.Absent name ∧ b = none ∨
      ∃ j a, fs.lookup name = some j ∧ j ≠ .null ∧ c j = .accepted a ∧ b = some a := by
  have hmap : ∀ j, (c j).map some = .accepted b ↔ ∃ a, c j = .accepted a ∧ b = some a := by
    intro j
    refine (Verdict.map_eq_accepted (f := some)).trans ?_
    simp only [eq_comm]
  unfold optional withDefault Absent
  cases fs.lookup name with
  | none => simp [@eq_comm _ none]
  | some j =>
    simp only [Verdict.under_eq_accepted]
    cases j <;> simp [Check.optional, hmap, @eq_comm _ none]

end Fields

namespace Step

def rank (names : List String) : Step → ℕ
  | field name => names.idxOf name
  | index i => i

/-- One path comes before another, depth first. -/
def Before (names : List String) (p q : List Step) : Prop :=
  p.map (rank names) < q.map (rank names)

variable {names : List String} {s t : Step} {p q : List Step}

theorem before_of_rank_lt (h : s.rank names < t.rank names) : Before names (s :: p) (t :: q) :=
  List.cons_lt_cons_iff.mpr (.inl h)

theorem Before.cons (h : Before names p q) : Before names (s :: p) (s :: q) :=
  List.cons_lt_cons_iff.mpr (.inr ⟨rfl, h⟩)

theorem Before.ne (h : Before names p q) : p ≠ q := by
  rintro rfl
  exact List.lt_irrefl _ h

theorem pairwise_cons_map {ps : List (List Step)} (s : Step) (h : ps.Pairwise (Before names)) :
    (ps.map (s :: ·)).Pairwise (Before names) :=
  List.pairwise_map.mpr (h.imp Before.cons)

end Step

namespace Check

open Step (Before)

variable {c : Check α} {items : List Json}

theorem each_eq_accepted {i : ℕ} {as : List α} :
    each c i items = .accepted as ↔ List.Forall₂ (fun j a => c j = .accepted a) items as := by
  induction items generalizing i as with
  | nil =>
    rw [each, List.forall₂_nil_left_iff, Verdict.accepted.injEq, eq_comm]
  | cons j rest ih =>
    simp only [each, Verdict.seq_eq_accepted, Verdict.map_eq_accepted, Verdict.under_eq_accepted,
      ih, List.forall₂_cons_left_iff]
    constructor
    · rintro ⟨_, as, ⟨a, ha, rfl⟩, has, rfl⟩
      exact ⟨a, as, ha, has, rfl⟩
    · rintro ⟨a, as, ha, has, rfl⟩
      exact ⟨_, as, ⟨a, ha, rfl⟩, has, rfl⟩

theorem exists_each_accepted {i : ℕ} :
    (∃ as, each c i items = .accepted as) ↔ ∀ j ∈ items, ∃ a, c j = .accepted a := by
  simp only [each_eq_accepted]
  induction items with
  | nil => simp
  | cons j rest ih =>
    rw [List.forall_mem_cons, ← ih]
    constructor
    · rintro ⟨_, _ | ⟨ha, has⟩⟩
      exact ⟨⟨_, ha⟩, _, has⟩
    · rintro ⟨⟨a, ha⟩, as, has⟩
      exact ⟨a :: as, .cons ha has⟩

theorem tuple_eq_accepted {j : Json} {as : List α} : tuple c j = .accepted as ↔
    ∃ items, j = .arr items ∧ List.Forall₂ (fun j a => c j = .accepted a) items as := by
  cases j with
  | arr items => simp [tuple, each_eq_accepted]
  | _ => simp [tuple, Verdict.flaw]

variable [Unbroken c]

theorem paths_each_cons (i : ℕ) (j : Json) : (each c i (j :: items)).paths =
    (c j).paths.map (.index i :: ·) ++ (each c (i + 1) items).paths := by
  rw [each, Verdict.paths_seq (by simp) (each_ne_broken _ _), Verdict.paths_map,
    Verdict.paths_under]

theorem mem_paths_each {i : ℕ} {p : List Step} : p ∈ (each c i items).paths ↔
    ∃ k j q, items[k]? = some j ∧ q ∈ (c j).paths ∧ p = .index (i + k) :: q := by
  induction items generalizing i with
  | nil => simp [each]
  | cons j rest ih =>
    rw [paths_each_cons, List.mem_append, List.mem_map, ih]
    constructor
    · rintro (⟨q, hq, rfl⟩ | ⟨k, j', q, hk, hq, rfl⟩)
      · exact ⟨0, j, q, rfl, hq, rfl⟩
      · exact ⟨k + 1, j', q, hk, hq, by rw [Nat.add_right_comm, Nat.add_assoc]⟩
    · rintro ⟨k, j', q, hk, hq, rfl⟩
      cases k with
      | zero =>
        obtain rfl : j = j' := Option.some.inj hk
        exact .inl ⟨q, hq, rfl⟩
      | succ k => exact .inr ⟨k, j', q, hk, hq, by rw [Nat.add_right_comm, Nat.add_assoc]⟩

theorem paths_each_ordered {names : List String} {i : ℕ}
    (h : ∀ j ∈ items, (c j).paths.Pairwise (Before names)) :
    (each c i items).paths.Pairwise (Before names) := by
  induction items generalizing i with
  | nil => exact .nil
  | cons j rest ih =>
    obtain ⟨hj, hrest⟩ := List.forall_mem_cons.mp h
    rw [paths_each_cons]
    refine List.pairwise_append.mpr ⟨Step.pairwise_cons_map _ hj, ih hrest, ?_⟩
    rintro p hp q hq
    obtain ⟨p, -, rfl⟩ := List.mem_map.mp hp
    obtain ⟨k, -, q, -, -, rfl⟩ := mem_paths_each.mp hq
    refine Step.before_of_rank_lt ?_
    show i < i + 1 + k
    omega

end Check
end BomEngine
