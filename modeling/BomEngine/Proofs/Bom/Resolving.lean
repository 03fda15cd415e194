import BomEngine.Proofs.Bom.Explosion
import BomEngine.Proofs.Decimal.Limits
import BomEngine.Proofs.Service.Effects

/-!
# Resolving a bill of materials

A tree that cannot be fetched, or that has an occurrence no explosion can pass, is resolved to a
message. What a resolution does not answer is a quantity: quantities are multiplied up along the
routes of the tree, and the first product too large for 28 digits ends the resolving without one.
-/

set_option autoImplicit false

namespace BomEngine
open Service

namespace BomNode

/-- The quantity needed along a route becomes too large at one of its nodes. -/
def Overflows (needed : Decimal) (route : List BomNode) : Prop :=
  ∃ before n after q, route = before ++ n :: after ∧ quantityAlong needed before = .ok q ∧
    Decimal.TooLarge (q.value * n.qty.value)

theorem quantityAlong_overflow_iff {needed : Decimal} {route : List BomNode} :
    quantityAlong needed route = .error .overflow ↔ Overflows needed route := by
  simp only [quantityAlong, Traversal.foldlM_error_iff, Decimal.mul_overflow_iff, Overflows]

end BomNode

namespace Explosion
open BomNode

/-- Going through a tree in pre-order, a quantity becomes too large before any occurrence is bad. -/
def Overflows (limit : ℤ) (needed : Decimal) (root : BomNode) : Prop :=
  ∃ before o after, root.occurrences = before ++ o :: after ∧
    (∀ o' ∈ before ++ [o], ¬ o'.Bad limit) ∧ BomNode.Overflows needed o.route

theorem fault_isInvalidBom (limit : ℤ) (o : Occurrence) : (o.fault limit).isInvalidBom = true := by
  unfold Occurrence.fault
  split <;> rfl

theorem visit_good_error_iff {limit : ℤ} {root : BomNode} {o : Occurrence}
    (ho : o ∈ root.occurrences) (hb : ¬ o.Bad limit) {needed : Decimal} {e : Failure} :
    visit limit [] [] needed o = .error e ↔
      e = .signal .overflow ∧ BomNode.Overflows needed o.route := by
  rw [visit_good ho hb, ← quantityAlong_overflow_iff]
  cases hq : quantityAlong needed o.route with
  | ok d => exact iff_of_false nofun nofun
  | error s =>
    obtain rfl := failsOnly_quantityAlong needed o.route s hq
    simp [Result.ofArithmetic, Except.map, eq_comm]

theorem explode_error {limit : ℤ} {needed : Decimal} {root : BomNode} {e : Failure}
    (h : explode limit (.finite needed) root = .error e) :
    (e = .signal .overflow ∧ Overflows limit needed root) ∨
    ∃ o ∈ root.occurrences, o.Bad limit ∧ e = .fault (o.fault limit) := by
  obtain ⟨before, o, after, hsplit, hgood, ⟨hbad, rfl⟩ | ⟨hbad, rfl, hq⟩⟩ := explode_stops h
  · exact .inr ⟨o, by simp [hsplit], hbad, rfl⟩
  · refine .inl ⟨rfl, before, o, after, hsplit, fun o' ho' => ?_, ?_⟩
    · rcases List.mem_append.mp ho' with hbefore | ho'
      · exact hgood o' hbefore
      · rwa [List.mem_singleton.mp ho']
    · exact quantityAlong_overflow_iff.mp hq

theorem explode_overflow {limit : ℤ} {needed : Decimal} {root : BomNode}
    (h : Overflows limit needed root) :
    explode limit (.finite needed) root = .error (.signal .overflow) := by
  obtain ⟨before, o, after, hsplit, hgood, hq⟩ := h
  have hbegins : before ++ [o] <+: root.occurrences := ⟨after, by simp [hsplit]⟩
  have herror : ∀ o' ∈ before ++ [o], ∀ e, visit limit [] [] needed o' = .error e ↔
      e = .signal .overflow ∧ BomNode.Overflows needed o'.route := fun o' ho' _ =>
    visit_good_error_iff (hbegins.subset ho') (hgood o' ho')
  rw [explode_visits, hsplit]
  apply Traversal.FailsOnly.mapM_append_cons
  · exact fun o' ho' e he => ((herror o' (by simp [ho']) e).mp he).1
  · exact (herror o (by simp) _).mpr ⟨rfl, hq⟩

end Explosion

namespace BomResolution
open Explosion

/-- What a resolution says of what came of the fetch. -/
structure Answers (limit : ℤ) (ipn : String) (needed : Decimal) (fetched : Outcome BomNode)
    (r : BomResolution) : Prop where
  rootIpn : r.rootIpn = ipn
  buildQty : r.buildQty = needed
  isOk : r.isOk = true ↔ ∃ root, fetched = .ok root ∧ ∀ o ∈ root.occurrences, ¬ o.Bad limit
  resolved : r.isOk = true → r.error = none ∧ ∃ root, fetched = .ok root ∧ r.root = some root ∧
    explode limit (.finite needed) root = .ok r.nodes
  unresolved : r.isOk = false → r.root = none ∧ r.nodes = [] ∧ r.error.isSome = true

theorem answers_unresolved {limit : ℤ} {ipn : String} {needed : Decimal}
    {fetched : Outcome BomNode} (message : String)
    (h : ∀ root, fetched = .ok root → ∃ o ∈ root.occurrences, o.Bad limit) :
    Answers limit ipn needed fetched (unresolved ipn needed message) := by
  have hok : (unresolved ipn needed message).isOk = false := rfl
  refine ⟨rfl, rfl, ?_, fun hr => absurd hr (by simp [hok]), fun _ => ⟨rfl, rfl, rfl⟩⟩
  rw [hok]
  refine iff_of_false nofun ?_
  rintro ⟨root, hroot, hgood⟩
  obtain ⟨o, ho, hb⟩ := h root hroot
  exact hgood o ho hb

theorem ofOutcome_cases (limit : ℤ) (ipn : String) (needed : Decimal)
    (fetched : Outcome BomNode) :
    (∃ root, fetched = .ok root ∧ Overflows limit needed root ∧
      (ofOutcome limit ipn needed fetched).result = .error (.signal .overflow)) ∨
    (∀ root, fetched = .ok root → ¬ Overflows limit needed root) ∧
      ∃ r, (ofOutcome limit ipn needed fetched).result = .ok r ∧
        Answers limit ipn needed fetched r := by
  cases fetched with
  | error f => exact .inr ⟨nofun, _, rfl, answers_unresolved noData nofun⟩
  | ok root =>
    have hroot {P : BomNode → Prop} (h : P root) :
        ∀ root', (Except.ok root : Outcome BomNode) = .ok root' → P root' := by
      rintro _ ⟨⟩
      exact h
    cases h : explode limit (.finite needed) root with
    | ok nodes =>
      have hfits : ¬ Overflows limit needed root := fun hover => by
        simp [explode_overflow hover] at h
      have hgood : ∀ o ∈ root.occurrences, ¬ o.Bad limit :=
        ((List.forall₂_and_left _ _).mp ((explode_describes h).imp fun _ _ hd => ⟨hd.2.2, hd⟩)).1
      refine .inr ⟨hroot hfits, ⟨ipn, needed, some root, nodes, none⟩, ?_, rfl, rfl,
        iff_of_true rfl ⟨root, rfl, hgood⟩, fun _ => ⟨rfl, root, rfl, rfl, h⟩, nofun⟩
      rw [ofOutcome, ofTree, h]
      rfl
    | error e =>
      rcases explode_error h with ⟨rfl, hover⟩ | ⟨o, ho, hb, rfl⟩
      · refine .inl ⟨root, rfl, hover, ?_⟩
        rw [ofOutcome, ofTree, h]
        rfl
      · have hfits : ¬ Overflows limit needed root := fun hover => by
          simp [explode_overflow hover] at h
        refine .inr ⟨hroot hfits, unresolved ipn needed (o.fault limit).message, ?_,
          answers_unresolved _ (hroot ⟨o, ho, hb⟩)⟩
        rw [ofOutcome, ofTree, h]
        simp only [fault_isInvalidBom, if_true]
        rfl

theorem quantityOf_positive {j : Json} {n : Number} (hj : Result.number j = .ok n)
    (hpos : n.isPositive = .ok true) :
    (∃ d, n = .finite d ∧ quantityOf j = .ok d) ∨
    n = .infinite false ∧
      quantityOf j = .error (.flaws "BOMResolution" [⟨[.field "build_qty"], .notFinite⟩]) := by
  rw [quantityOf, hj]
  cases n with
  | finite d => exact .inl ⟨d, rfl, rfl⟩
  | infinite negative =>
    cases negative with
    | true => exact absurd hpos (by decide)
    | false => exact .inr ⟨rfl, rfl⟩
  | nan negative signaling payload => cases hpos

end BomResolution

namespace Loading

variable {c : OpsClient} {w : World}

theorem resolve_result {ipn : String} {qty : Result Decimal} {bom : Outcome BomNode} {limit : Int}
    (hbom : (Act.outcome (c.fetchBom ipn) w).1 = .ok bom) :
    (resolve c limit ipn qty w).1 =
      qty >>= fun q => (BomResolution.ofOutcome limit ipn q bom).result := by
  cases qty with
  | error e => rw [resolve, Act.bind_of_error (Act.ofResult_apply _ w)]; rfl
  | ok q =>
    have hfetch := Prod.ext (x := Act.outcome (c.fetchBom ipn) w) (y := (.ok bom, _)) hbom rfl
    rw [resolve, Act.bind_of_ok (Act.ofResult_apply _ w), Act.bind_of_ok hfetch]
    rfl

/-- For a quantity above zero and a fetch that gave a tree or a fault, resolving comes to a
resolution, and it is one of the tree exactly if no occurrence is bad. There are two exceptions: no
resolution can hold an infinite quantity, and a tree whose quantities become too large before an
occurrence is bad ends the resolving with an overflow, which no fault stands for. -/
theorem resolve_decided (limit : Int) {ipn : String} {j : Json} {n : Number}
    {fetched : Outcome BomNode} (hj : Result.number j = .ok n) (hpos : n.isPositive = .ok true)
    (hfetch : (Act.outcome (c.fetchBom ipn) w).1 = .ok fetched) :
    let result := (resolve c limit ipn (BomResolution.quantityOf j) w).1
    (n = .infinite false ∧
      result = .error (.flaws "BOMResolution" [⟨[.field "build_qty"], .notFinite⟩])) ∨
    ∃ needed, n = .finite needed ∧
      ((∃ root, fetched = .ok root ∧ Explosion.Overflows limit needed root ∧
        result = .error (.signal .overflow)) ∨
      (∀ root, fetched = .ok root → ¬ Explosion.Overflows limit needed root) ∧
        ∃ r, result = .ok r ∧ BomResolution.Answers limit ipn needed fetched r) := by
  rw [resolve_result hfetch]
  rcases BomResolution.quantityOf_positive hj hpos with ⟨needed, rfl, hq⟩ | ⟨rfl, hq⟩
  · rw [hq]
    exact .inr ⟨needed, rfl, BomResolution.ofOutcome_cases limit ipn needed fetched⟩
  · rw [hq]
    exact .inl ⟨rfl, rfl⟩

def benchBill (root : BomNode) : World :=
  .ofScript ⟨"/api", [("GET /parts/ASY-1/bom", [.response 200 (some root.shown)])]⟩

theorem resolve_decided_bench :
    ∃ r, (resolve benchClient 20 "ASY-1" (BomResolution.quantityOf (.str "5"))
        (benchBill Explosion.fixture)).1 = .ok r ∧
      r.isOk = true ∧ r.nodes = Explosion.fixtureNodes ∧
      BomResolution.Answers 20 "ASY-1" ⟨false, 5, 0⟩ (.ok Explosion.fixture) r := by
  have hj : Result.number (.str "5") = .ok (.finite ⟨false, 5, 0⟩) := by decide +kernel
  have hfetch : (Act.outcome (benchClient.fetchBom "ASY-1") (benchBill Explosion.fixture)).1 =
      .ok (.ok Explosion.fixture) := by with_unfolding_all rfl
  have hok : (resolve benchClient 20 "ASY-1" (BomResolution.quantityOf (.str "5"))
      (benchBill Explosion.fixture)).1.map (fun r => (r.isOk, r.nodes)) =
        .ok (true, Explosion.fixtureNodes) := by decide +kernel
  obtain ⟨r, hr, hshown⟩ := Traversal.map_eq_ok.mp hok
  obtain ⟨hisOk, hnodes⟩ := Prod.mk.inj hshown
  rcases resolve_decided 20 hj (by decide +kernel) hfetch with
    ⟨hn, -⟩ | ⟨needed, hn, ⟨-, -, -, hover⟩ | ⟨-, r', hr', hanswers⟩⟩
  · cases hn
  · simp [hr] at hover
  · cases hn
    obtain rfl : r = r' := Except.ok.inj (hr.symm.trans hr')
    exact ⟨r, hr, hisOk, hnodes, hanswers⟩

def benchVast : BomNode := .mk "ASY-1" "" ⟨false, 9, 999999⟩ none []

/-- A tree without a bad occurrence is fetched, and the resolving for two assemblies comes to no
resolution. -/
theorem resolve_without_resolution :
    (Act.outcome (benchClient.fetchBom "ASY-1") (benchBill benchVast)).1 = .ok (.ok benchVast) ∧
    (∀ o ∈ benchVast.occurrences, ¬ o.Bad 20) ∧
    (resolve benchClient 20 "ASY-1" (BomResolution.quantityOf (.str "2"))
      (benchBill benchVast)).1.map BomResolution.isOk = .error (.signal .overflow) := by
  refine ⟨by with_unfolding_all rfl, by decide +kernel, by decide +kernel⟩

end Loading
end BomEngine
