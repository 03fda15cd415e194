import BomEngine.Proofs.Schema.Flaws
import BomEngine.Proofs.Schema.Scalars

/-!
# The grammar of bills of materials

Which JSON values are trees, which tree such a value mirrors, and at which paths any other offends:
all three are told from the fields of a value and, in turn, of its children. The check of a tree
agrees with each of them. It accepts the values of the grammar as the trees that they mirror, and
finds in any other value just the offending fields, in their order.
-/

set_option autoImplicit false

namespace BomEngine

namespace BomNode

open Verdict Check

inductive NodeField where
  | ipn
  | description
  | qty
  | ref
  | children
  deriving DecidableEq

def NodeField.name : NodeField → String
  | ipn => "ipn"
  | description => "description"
  | qty => "qty"
  | ref => "ref"
  | children => "children"

def fieldNames : List String :=
  [NodeField.ipn, .description, .qty, .ref, .children].map NodeField.name

def Fits (fs : Fields) : NodeField → Prop
  | .ipn => ∃ s, fs.lookup "ipn" = some (.str s) ∧ s ≠ ""
  | .description => fs.Absent "description" ∨ ∃ s, fs.lookup "description" = some (.str s)
  | .qty => fs.Absent "qty" ∨ ∃ j, fs.lookup "qty" = some j ∧ j.IsPositive
  | .ref => fs.Absent "ref" ∨ ∃ s, fs.lookup "ref" = some (.str s)
  | .children => fs.Absent "children" ∨ ∃ items, fs.lookup "children" = some (.arr items)

/-- The values that are trees. -/
inductive IsTree : Json → Prop
  | node {fs : Fields} : (∀ f, Fits fs f) →
      (∀ items, fs.lookup "children" = some (.arr items) → ∀ c ∈ items, IsTree c) → IsTree (.obj fs)

/-- The paths at which a value is not what the grammar asks for. -/
inductive Offends : Json → List Step → Prop
  | record {v : Json} : (∀ fs, v ≠ .obj fs) → Offends v []
  | field {fs : Fields} {f : NodeField} : ¬ Fits fs f → Offends (.obj fs) [.field f.name]
  | child {fs : Fields} {items : List Json} {i : ℕ} {c : Json} {p : List Step} :
      fs.lookup "children" = some (.arr items) → items[i]? = some c → Offends c p →
      Offends (.obj fs) (.field "children" :: .index i :: p)

/-- What a node says beside its children is what the fields say. What is absent is empty, one or
none. -/
structure Says (fs : Fields) (n : BomNode) : Prop where
  ipn : fs.lookup "ipn" = some (.str n.ipn) ∧ n.ipn ≠ ""
  description : fs.Absent "description" ∧ n.description = "" ∨
    fs.lookup "description" = some (.str n.description)
  qty : fs.Absent "qty" ∧ n.qty = Decimal.one ∨ ∃ j, fs.lookup "qty" = some j ∧ j.IsQuantity n.qty
  ref : fs.Absent "ref" ∧ n.ref = none ∨ ∃ s, fs.lookup "ref" = some (.str s) ∧ n.ref = some s

/-- A tree that says at every depth what the value says, with the children in their order. -/
inductive Mirrors : Json → BomNode → Prop
  | leaf {fs : Fields} {n : BomNode} : Says fs n → fs.Absent "children" → n.children = [] →
      Mirrors (.obj fs) n
  | assembly {fs : Fields} {n : BomNode} {items : List Json} : Says fs n →
      fs.lookup "children" = some (.arr items) → List.Forall₂ Mirrors items n.children →
      Mirrors (.obj fs) n

theorem node_induction {P : Json → Prop} (other : ∀ v, (∀ fs, v ≠ .obj fs) → P v)
    (node : ∀ fs : Fields,
      (∀ items c, fs.lookup "children" = some (.arr items) → c ∈ items → P c) → P (.obj fs))
    (v : Json) : P v := by
  by_cases hrecord : ∃ fs, v = .obj fs
  · obtain ⟨fs, hfs⟩ := hrecord
    rw [hfs]
    exact node fs fun items c hitems hc => node_induction other node c
  · exact other v fun fs h => hrecord ⟨fs, h⟩
termination_by sizeOf v
decreasing_by
  rw [hfs]
  have hfield := List.sizeOf_lt_of_mem (mem_of_lookup hitems)
  have hitem := List.sizeOf_lt_of_mem hc
  simp only [Json.obj.sizeOf_spec, Json.arr.sizeOf_spec, Prod.mk.sizeOf_spec] at hfield ⊢
  omega

theorem checkEach_eq (i : ℕ) (items : List Json) :
    checkEach i items = Check.each check i items := by
  induction items generalizing i with
  | nil => rw [checkEach, Check.each]
  | cons j rest ih => rw [checkEach, Check.each, ih]

theorem checkIn_eq (fs : Fields) : checkIn fs =
    fs.withDefault "children" [] (Check.orNull [] (Check.tuple check)) := by
  induction fs with
  | nil => rw [checkIn]; rfl
  | cons f rest ih =>
    obtain ⟨k, j⟩ := f
    have hchildren : checkChildren j = Check.orNull [] (Check.tuple check) j := by
      cases j <;> simp [checkChildren, Check.orNull, Check.tuple, checkEach_eq]
    rw [checkIn]
    by_cases hk : k = "children"
    · subst hk
      rw [if_pos rfl, hchildren, Fields.withDefault, List.lookup_cons_self]
    · rw [if_neg hk, ih, Fields.withDefault, Fields.withDefault, List.lookup_cons,
        beq_false_of_ne (Ne.symm hk)]

theorem check_not_record {v : Json} (h : ∀ fs, v ≠ .obj fs) : check v = .flaw .recordExpected := by
  cases v with
  | obj fs => exact absurd rfl (h fs)
  | _ => rfl

variable {fs : Fields} {n : BomNode}

instance : Check.Unbroken check := ⟨check_ne_broken⟩

theorem checkIn_eq_accepted {ns : List BomNode} : checkIn fs = .accepted ns ↔
    fs.Absent "children" ∧ ns = [] ∨ ∃ items, fs.lookup "children" = some (.arr items) ∧
      List.Forall₂ (fun c n => check c = .accepted n) items ns := by
  rw [checkIn_eq, Fields.withDefault_eq_accepted]
  refine or_congr Iff.rfl ⟨?_, ?_⟩
  · rintro ⟨j, hj, -, h⟩
    obtain ⟨items, rfl, hitems⟩ := tuple_eq_accepted.mp h
    exact ⟨items, hj, hitems⟩
  · rintro ⟨items, hj, hitems⟩
    exact ⟨_, hj, nofun, tuple_eq_accepted.mpr ⟨items, rfl, hitems⟩⟩

theorem says_iff : Says fs n ↔ fs.required "ipn" nonempty = .accepted n.ipn ∧
    fs.withDefault "description" "" (Check.orNull "" text) = .accepted n.description ∧
    fs.withDefault "qty" Decimal.one (Check.orNull Decimal.one positive) = .accepted n.qty ∧
    Fields.optional fs "ref" text = .accepted n.ref := by
  simp only [Fields.required_eq_accepted, Fields.withDefault_eq_accepted,
    Fields.optional_eq_accepted, nonempty_eq_accepted, text_eq_accepted, positive_eq_accepted]
  constructor
  · rintro ⟨hipn, hdescription, hqty, href⟩
    refine ⟨⟨_, hipn.1, rfl, hipn.2⟩, ?_, ?_, ?_⟩
    · exact hdescription.imp_right fun h => ⟨.str n.description, h, nofun, rfl⟩
    · refine hqty.imp_right ?_
      rintro ⟨j, hj, hquantity⟩
      exact ⟨j, hj, hquantity.ne_null, hquantity⟩
    · refine href.imp_right ?_
      rintro ⟨s, hs, hsome⟩
      exact ⟨_, s, hs, nofun, rfl, hsome⟩
  · rintro ⟨⟨_, hipn, rfl, hne⟩, hdescription, hqty, href⟩
    refine ⟨⟨hipn, hne⟩, ?_, ?_, ?_⟩
    · refine hdescription.imp_right ?_
      rintro ⟨_, hj, -, rfl⟩
      exact hj
    · refine hqty.imp_right ?_
      rintro ⟨j, hj, -, hquantity⟩
      exact ⟨j, hj, hquantity⟩
    · refine href.imp_right ?_
      rintro ⟨_, s, hs, -, rfl, hsome⟩
      exact ⟨s, hs, hsome⟩

theorem check_obj_eq_accepted :
    check (.obj fs) = .accepted n ↔ Says fs n ∧ checkIn fs = .accepted n.children := by
  rw [check, says_iff]
  simp only [seq_eq_accepted, map_eq_accepted]
  constructor
  · rintro ⟨_, children, ⟨_, ref, ⟨_, qty, ⟨_, description, ⟨ipn, hipn, rfl⟩, hdescription, rfl⟩,
      hqty, rfl⟩, href, rfl⟩, hchildren, rfl⟩
    exact ⟨⟨hipn, hdescription, hqty, href⟩, hchildren⟩
  · rintro ⟨⟨hipn, hdescription, hqty, href⟩, hchildren⟩
    cases n
    exact ⟨_, _, ⟨_, _, ⟨_, _, ⟨_, _, ⟨_, hipn, rfl⟩, hdescription, rfl⟩, hqty, rfl⟩, href, rfl⟩,
      hchildren, rfl⟩

/-- A value is accepted as the tree that it mirrors, and as no other. -/
theorem check_eq_accepted {v : Json} : check v = .accepted n ↔ Mirrors v n := by
  induction v using node_induction generalizing n with
  | other v hnot =>
    rw [check_not_record hnot]
    refine iff_of_false (by simp [flaw]) ?_
    rintro (h | h)
    · exact absurd rfl (hnot _)
    · exact absurd rfl (hnot _)
  | node fs ih =>
    rw [check_obj_eq_accepted, checkIn_eq_accepted]
    have hitems : ∀ {items ns}, fs.lookup "children" = some (.arr items) →
        (List.Forall₂ (fun c n => check c = .accepted n) items ns ↔
          List.Forall₂ Mirrors items ns) := by
      intro items ns h
      have hsame : ∀ c ∈ items, ∀ n, check c = .accepted n ↔ Mirrors c n := fun c hc _ =>
        ih items c h hc
      constructor
      · intro hns
        exact ((List.forall₂_and_left _ _).mpr ⟨hsame, hns⟩).imp fun _ _ hc => (hc.1 _).mp hc.2
      · intro hns
        exact ((List.forall₂_and_left _ _).mpr ⟨hsame, hns⟩).imp fun _ _ hc => (hc.1 _).mpr hc.2
    constructor
    · rintro ⟨hown, ⟨habsent, hnil⟩ | ⟨items, h, hchildren⟩⟩
      · exact .leaf hown habsent hnil
      · exact .assembly hown h ((hitems h).mp hchildren)
    · rintro (⟨hown, habsent, hnil⟩ | ⟨hown, h, hchildren⟩)
      · exact ⟨hown, .inl ⟨habsent, hnil⟩⟩
      · exact ⟨hown, .inr ⟨_, h, (hitems h).mpr hchildren⟩⟩

def fieldPaths (fs : Fields) : NodeField → List (List Step)
  | .ipn => (fs.required "ipn" nonempty).paths
  | .description => (fs.withDefault "description" "" (Check.orNull "" text)).paths
  | .qty => (fs.withDefault "qty" Decimal.one (Check.orNull Decimal.one positive)).paths
  | .ref => (Fields.optional fs "ref" text).paths
  | .children => (checkIn fs).paths

theorem paths_obj (fs : Fields) : (check (.obj fs)).paths =
    [NodeField.ipn, .description, .qty, .ref, .children].flatMap (fieldPaths fs) := by
  rw [check, paths_seq (by simp) (checkIn_ne_broken fs), paths_seq (by simp) (by simp),
    paths_seq (by simp) (by simp), paths_seq (by simp) (by simp), paths_map]
  simp [fieldPaths]

theorem fits_ipn : (∃ s, fs.required "ipn" nonempty = .accepted s) ↔ Fits fs .ipn := by
  simp only [Fields.required_eq_accepted, nonempty_eq_accepted]
  constructor
  · rintro ⟨s, _, hj, rfl, hne⟩
    exact ⟨s, hj, hne⟩
  · rintro ⟨s, hj, hne⟩
    exact ⟨s, _, hj, rfl, hne⟩

theorem fits_description :
    (∃ s, fs.withDefault "description" "" (Check.orNull "" text) = .accepted s) ↔
      Fits fs .description := by
  simp only [Fields.withDefault_eq_accepted, text_eq_accepted]
  constructor
  · rintro ⟨s, ⟨habsent, -⟩ | ⟨_, hj, -, rfl⟩⟩
    · exact .inl habsent
    · exact .inr ⟨s, hj⟩
  · rintro (habsent | ⟨s, hj⟩)
    · exact ⟨"", .inl ⟨habsent, rfl⟩⟩
    · exact ⟨s, .inr ⟨.str s, hj, nofun, rfl⟩⟩

theorem fits_qty :
    (∃ d, fs.withDefault "qty" Decimal.one (Check.orNull Decimal.one positive) = .accepted d) ↔
      Fits fs .qty := by
  simp only [Fields.withDefault_eq_accepted, positive_eq_accepted]
  constructor
  · rintro ⟨d, ⟨habsent, -⟩ | ⟨j, hj, -, hquantity⟩⟩
    · exact .inl habsent
    · exact .inr ⟨j, hj, Json.isPositive_iff.mpr ⟨d, hquantity⟩⟩
  · rintro (habsent | ⟨j, hj, hpos⟩)
    · exact ⟨Decimal.one, .inl ⟨habsent, rfl⟩⟩
    · obtain ⟨d, hquantity⟩ := Json.isPositive_iff.mp hpos
      exact ⟨d, .inr ⟨j, hj, hquantity.ne_null, hquantity⟩⟩

theorem fits_ref : (∃ r, Fields.optional fs "ref" text = .accepted r) ↔ Fits fs .ref := by
  simp only [Fields.optional_eq_accepted, text_eq_accepted]
  constructor
  · rintro ⟨r, ⟨habsent, -⟩ | ⟨_, s, hj, -, rfl, -⟩⟩
    · exact .inl habsent
    · exact .inr ⟨s, hj⟩
  · rintro (habsent | ⟨s, hj⟩)
    · exact ⟨none, .inl ⟨habsent, rfl⟩⟩
    · exact ⟨some s, .inr ⟨_, s, hj, nofun, rfl, rfl⟩⟩

theorem checkIn_flawedAt (h : ∀ items, fs.lookup "children" ≠ some (.arr items)) :
    (checkIn fs).FlawedAt (.field "children") := by
  rw [checkIn_eq, Fields.withDefault]
  cases hj : fs.lookup "children" with
  | none => exact .inl ⟨[], rfl⟩
  | some j =>
    cases j with
    | arr items => exact absurd hj (h items)
    | null => exact .inl ⟨[], rfl⟩
    | _ => exact .inr ⟨.tupleExpected, rfl⟩

theorem fits_children (h : ∀ items, fs.lookup "children" ≠ some (.arr items)) :
    (∃ ns, checkIn fs = .accepted ns) ↔ Fits fs .children := by
  simp only [checkIn_eq_accepted]
  constructor
  · rintro ⟨ns, ⟨habsent, -⟩ | ⟨items, hitems, -⟩⟩
    · exact .inl habsent
    · exact absurd hitems (h items)
  · rintro (habsent | ⟨items, hitems⟩)
    · exact ⟨[], .inl ⟨habsent, rfl⟩⟩
    · exact absurd hitems (h items)

theorem paths_checkIn {items : List Json} (h : fs.lookup "children" = some (.arr items)) :
    (checkIn fs).paths = (Check.each check 0 items).paths.map (.field "children" :: ·) := by
  rw [checkIn_eq, Fields.withDefault, h]
  exact paths_under _ _

theorem mem_fieldPaths {f : NodeField} {p : List Step} :
    p ∈ fieldPaths fs f ↔ p = [.field f.name] ∧ ¬ Fits fs f ∨ f = .children ∧
      ∃ items i c q, fs.lookup "children" = some (.arr items) ∧ items[i]? = some c ∧
        q ∈ (check c).paths ∧ p = .field "children" :: .index i :: q := by
  cases f with
  | ipn =>
    rw [fieldPaths, Fields.required_flawedAt.mem_paths, fits_ipn]
    simp [NodeField.name]
  | description =>
    rw [fieldPaths, (Fields.withDefault_flawedAt _).mem_paths, fits_description]
    simp [NodeField.name]
  | qty =>
    rw [fieldPaths, (Fields.withDefault_flawedAt _).mem_paths, fits_qty]
    simp [NodeField.name]
  | ref =>
    rw [fieldPaths, Fields.optional, (Fields.withDefault_flawedAt _).mem_paths, ← Fields.optional,
      fits_ref]
    simp [NodeField.name]
  | children =>
    by_cases hitems : ∃ items, fs.lookup "children" = some (.arr items)
    · obtain ⟨items, h⟩ := hitems
      have hfits : Fits fs .children := .inr ⟨items, h⟩
      rw [fieldPaths, paths_checkIn h, List.mem_map]
      constructor
      · rintro ⟨_, hmem, rfl⟩
        obtain ⟨i, c, q, hc, hq, rfl⟩ := mem_paths_each.mp hmem
        rw [Nat.zero_add]
        exact .inr ⟨rfl, items, i, c, q, h, hc, hq, rfl⟩
      · rintro (⟨-, hnot⟩ | ⟨-, items', i, c, q, h', hc, hq, rfl⟩)
        · exact absurd hfits hnot
        · obtain rfl : items = items' := Json.arr.inj (Option.some.inj (h.symm.trans h'))
          exact ⟨_, mem_paths_each.mpr ⟨i, c, q, hc, hq, rfl⟩, by rw [Nat.zero_add]⟩
    · have hnone : ∀ items, fs.lookup "children" ≠ some (.arr items) := fun items h =>
        hitems ⟨items, h⟩
      rw [fieldPaths, (checkIn_flawedAt hnone).mem_paths, fits_children hnone]
      refine (or_iff_left ?_).symm
      rintro ⟨-, items, i, c, q, h, -⟩
      exact hitems ⟨items, h⟩

theorem head_fieldPaths {f : NodeField} {p : List Step} (h : p ∈ fieldPaths fs f) :
    ∃ q, p = .field f.name :: q := by
  rcases mem_fieldPaths.mp h with ⟨rfl, -⟩ | ⟨rfl, items, i, c, q, -, -, -, rfl⟩
  · exact ⟨[], rfl⟩
  · exact ⟨_, rfl⟩

/-- The flaws of a value are at the paths at which it offends. -/
theorem mem_paths_check {v : Json} {p : List Step} : p ∈ (check v).paths ↔ Offends v p := by
  induction v using node_induction generalizing p with
  | other v hnot =>
    rw [check_not_record hnot, paths_flaw, List.mem_singleton]
    constructor
    · rintro rfl
      exact .record hnot
    · rintro (h | h | h)
      · rfl
      · exact absurd rfl (hnot _)
      · exact absurd rfl (hnot _)
  | node fs ih =>
    rw [paths_obj, List.mem_flatMap]
    constructor
    · rintro ⟨f, -, hp⟩
      rcases mem_fieldPaths.mp hp with ⟨rfl, hnot⟩ | ⟨rfl, items, i, c, q, h, hc, hq, rfl⟩
      · exact .field hnot
      · exact .child h hc ((ih items c h (List.mem_of_getElem? hc)).mp hq)
    · rintro (h | ⟨hnot⟩ | ⟨h, hc, hq⟩)
      · exact absurd rfl (h fs)
      · rename_i f
        exact ⟨f, by cases f <;> simp, mem_fieldPaths.mpr (.inl ⟨rfl, hnot⟩)⟩
      · rename_i items i c q
        have hq' := (ih items c h (List.mem_of_getElem? hc)).mpr hq
        exact ⟨.children, by simp, mem_fieldPaths.mpr (.inr ⟨rfl, items, i, c, q, h, hc, hq', rfl⟩)⟩

theorem paths_check_ordered (v : Json) : (check v).paths.Pairwise (Step.Before fieldNames) := by
  induction v using node_induction with
  | other v hnot =>
    rw [check_not_record hnot]
    exact List.pairwise_singleton _ _
  | node fs ih =>
    rw [paths_obj, List.pairwise_flatMap]
    constructor
    · rintro f -
      cases f with
      | ipn => exact Fields.required_flawedAt.pairwise _
      | description => exact (Fields.withDefault_flawedAt _).pairwise _
      | qty => exact (Fields.withDefault_flawedAt _).pairwise _
      | ref => exact (Fields.withDefault_flawedAt _).pairwise _
      | children =>
        by_cases hitems : ∃ items, fs.lookup "children" = some (.arr items)
        · obtain ⟨items, h⟩ := hitems
          rw [fieldPaths, paths_checkIn h]
          exact Step.pairwise_cons_map _ (paths_each_ordered fun c hc => ih items c h hc)
        · exact (checkIn_flawedAt fun items h => hitems ⟨items, h⟩).pairwise _
    · have hnames : [NodeField.ipn, .description, .qty, .ref, .children].Pairwise fun f g =>
          fieldNames.idxOf f.name < fieldNames.idxOf g.name := by decide
      refine hnames.imp ?_
      rintro f g hlt p hp q hq
      obtain ⟨p', rfl⟩ := head_fieldPaths hp
      obtain ⟨q', rfl⟩ := head_fieldPaths hq
      exact Step.before_of_rank_lt hlt

/-- The offending paths of a value, each of them once, in the order of the fields, depth first. -/
structure Reports (v : Json) (paths : List (List Step)) : Prop where
  offending : ∀ p, p ∈ paths ↔ Offends v p
  once : paths.Nodup
  ordered : paths.Pairwise (Step.Before fieldNames)

theorem check_reports (v : Json) : Reports v (check v).paths where
  offending _ := mem_paths_check
  once := (paths_check_ordered v).imp Step.Before.ne
  ordered := paths_check_ordered v

theorem isTree_of_no_offence {v : Json} (h : ∀ p, ¬ Offends v p) : IsTree v := by
  induction v using node_induction with
  | other v hnot => exact absurd (.record hnot) (h [])
  | node fs ih =>
    refine .node (fun f => ?_) fun items hitems c hc => ?_
    · by_contra hnot
      exact h _ (.field hnot)
    · obtain ⟨i, hi⟩ := List.mem_iff_getElem?.mp hc
      exact ih items c hitems hc fun p hp => h _ (.child hitems hi hp)

theorem IsTree.exists_accepted {v : Json} (h : IsTree v) : ∃ n, check v = .accepted n := by
  induction h with
  | @node fs hfits _ ih =>
    obtain ⟨ipn, hipn⟩ := fits_ipn.mpr (hfits .ipn)
    obtain ⟨description, hdescription⟩ := fits_description.mpr (hfits .description)
    obtain ⟨qty, hqty⟩ := fits_qty.mpr (hfits .qty)
    obtain ⟨ref, href⟩ := fits_ref.mpr (hfits .ref)
    have hchildren : ∃ ns, checkIn fs = .accepted ns := by
      simp only [checkIn_eq_accepted]
      rcases hfits .children with habsent | ⟨items, hitems⟩
      · exact ⟨[], .inl ⟨habsent, rfl⟩⟩
      · obtain ⟨ns, hns⟩ := (exists_each_accepted (i := 0)).mpr (ih items hitems)
        exact ⟨ns, .inr ⟨items, hitems, each_eq_accepted.mp hns⟩⟩
    obtain ⟨ns, hns⟩ := hchildren
    exact ⟨mk ipn description qty ref ns,
      check_obj_eq_accepted.mpr ⟨says_iff.mpr ⟨hipn, hdescription, hqty, href⟩, hns⟩⟩

theorem isTree_iff {v : Json} : IsTree v ↔ ∃ n, Mirrors v n := by
  simp only [← check_eq_accepted]
  refine ⟨IsTree.exists_accepted, ?_⟩
  rintro ⟨n, hn⟩
  refine isTree_of_no_offence fun p hp => ?_
  rw [← mem_paths_check, hn] at hp
  cases hp

theorem check_refused {v : Json} (h : ¬ IsTree v) :
    ∃ flaws, check v = .refused flaws ∧ Reports v (flaws.map Flaw.path) := by
  have hreports := check_reports v
  cases hcheck : check v with
  | accepted n => exact absurd (isTree_iff.mpr ⟨n, check_eq_accepted.mp hcheck⟩) h
  | broken => exact absurd hcheck (check_ne_broken v)
  | refused flaws =>
    rw [hcheck] at hreports
    exact ⟨flaws, rfl, hreports⟩

end BomNode
end BomEngine
