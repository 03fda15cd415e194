import BomEngine.Proofs.Cost.Rollup
import BomEngine.Proofs.View.Isolation

/-!
# The cost section of a part

The section is decided by two things: what came of fetching the cost, and whether the bill of
materials can be rolled up. A rollup takes the place of the cost that the service reports, and a
positive one keeps the section loaded where no cost could be fetched. What is known of the last
order comes from the fetched entry and from nowhere else.
-/

set_option autoImplicit false

namespace BomEngine
open Service

namespace CostCatalog

theorem ofParts_size (parts : List Part) :
    (ofParts parts).size ≠ 0 ↔ ∃ p ∈ parts, p.cost.isSome = true := by
  have hput {name : String} {n : Number} {es : List (String × Number)} :
      putEntry name n es ≠ [] := by
    intro h
    have hlookup := lookup_putEntry name n es
    rw [h] at hlookup
    cases hlookup
  rw [size, ne_eq, List.length_eq_zero_iff]
  induction parts using List.reverseRecOn with
  | nil => simp [ofParts]
  | append_singleton parts p ih =>
    rw [ofParts] at ih ⊢
    rw [List.foldl_append, List.foldl_cons, List.foldl_nil]
    cases hc : p.cost with
    | none => simp [ih, hc]
    | some c => simp [hc, hput]

end CostCatalog

namespace CostSummary

variable {ipn : String} {entry : Option CostEntry} {resolution : Option BomResolution}
  {catalog : Option CostCatalog}

/-- What a summary says, given the entry that was fetched and the rollup, if there are such. -/
structure Tells (ipn : String) (entry : Option CostEntry) (rolled : Option Decimal)
    (s : CostSummary) : Prop where
  ipn : s.ipn = ipn
  bomCost : s.bomCost = rolled.or (entry.bind CostEntry.bomCost)
  source : s.bomCostSource = (rolled.map fun _ => "rollup").or
    ((entry.bind CostEntry.bomCost).map fun _ => "server")
  showBomCost : s.showBomCost = true ↔ ∃ cost, s.bomCost = some cost ∧ 0 < cost.value
  lastUnitPrice : s.lastUnitPrice = entry.bind CostEntry.lastUnitPrice
  lastOrder : s.lastOrder = entry.bind CostEntry.lastOrder
  lastOrderedDate : s.lastOrderedDate = entry.bind CostEntry.lastOrderedDate

theorem finiteCost_chosen {rolled : Option Number} {bomCost : Option Decimal}
    (h : finiteCost (chosen rolled entry) = .ok bomCost) :
    ∃ r : Option Decimal, rolled = r.map .finite ∧
      bomCost = r.or (entry.bind CostEntry.bomCost) := by
  cases rolled with
  | none =>
    refine ⟨none, rfl, ?_⟩
    rw [chosen, reported] at h
    cases hc : entry.bind CostEntry.bomCost with
    | none =>
      rw [hc] at h
      exact (Except.ok.inj h).symm
    | some c =>
      rw [hc] at h
      exact (Except.ok.inj h).symm
  | some n =>
    cases n with
    | finite d => exact ⟨some d, rfl, (Except.ok.inj h).symm⟩
    | infinite negative => cases h
    | nan negative signaling payload => cases h

theorem chosen_finite (rolled : Option Decimal) (entry : Option CostEntry) :
    (chosen (rolled.map .finite) entry).map (fun c => c.1) =
        (rolled.or (entry.bind CostEntry.bomCost)).map .finite ∧
      (chosen (rolled.map .finite) entry).map (fun c => c.2) = (rolled.map fun _ => "rollup").or
        ((entry.bind CostEntry.bomCost).map fun _ => "server") := by
  cases rolled with
  | some d => exact ⟨rfl, rfl⟩
  | none =>
    rw [Option.map_none, chosen, reported]
    cases entry.bind CostEntry.bomCost <;> exact ⟨rfl, rfl⟩

theorem isWorthShowing_finite {cost : Option Decimal} {worth : Bool}
    (h : isWorthShowing (cost.map .finite) = .ok worth) :
    worth = true ↔ ∃ c, cost = some c ∧ 0 < c.value := by
  cases cost with
  | none =>
    cases h
    exact iff_of_false nofun nofun
  | some c =>
    rw [Option.map_some, isWorthShowing, Number.isPositive_finite] at h
    cases h
    rw [Decimal.isPositive_iff]
    exact ⟨fun h => ⟨c, rfl, h⟩, fun ⟨_, hc, h⟩ => Option.some.inj hc ▸ h⟩

theorem summarize_result : (summarize ipn entry resolution catalog).result = do
    let rolled ← Result.ofArithmetic (rolledUp resolution catalog)
    let cost := chosen rolled entry
    if entry.isNone && cost.isNone then return none
    let worth ← Result.ofArithmetic (isWorthShowing (cost.map fun c => c.1))
    let bomCost ← finiteCost cost
    return some ⟨ipn, entry.bind CostEntry.lastUnitPrice, entry.bind CostEntry.lastOrder,
      entry.bind CostEntry.lastOrderedDate, bomCost, cost.map fun c => c.2, worth⟩ := by
  rw [summarize, Noted.result_bind, Noted.result_ofResult]
  congr 1
  funext rolled
  dsimp only
  cases (entry.isNone && (chosen rolled entry).isNone) <;>
    cases differenceRecord? ipn rolled entry <;>
    simp only [Noted.result_bind, Noted.result_note, Noted.result_ofResult, Bool.false_eq_true,
      if_false] <;> rfl

theorem summarize_eq_ok {summary : Option CostSummary}
    (h : (summarize ipn entry resolution catalog).result = .ok summary) :
    ∃ rolled : Option Decimal, rolledUp resolution catalog = .ok (rolled.map .finite) ∧
      (summary = none ↔ entry = none ∧ rolled = none) ∧
      ∀ s ∈ summary, Tells ipn entry rolled s := by
  rw [summarize_result] at h
  obtain ⟨rolled, hrolled, h⟩ := Traversal.bind_eq_ok.mp h
  rw [Traversal.ofArithmetic_eq_ok] at hrolled
  dsimp only at h
  split at h
  · rename_i hnothing
    obtain ⟨hentry, hcost⟩ := Bool.and_eq_true_iff.mp hnothing
    rw [Option.isNone_iff_eq_none] at hentry hcost
    cases h
    subst hentry
    cases rolled with
    | none => exact ⟨none, hrolled, iff_of_true rfl ⟨rfl, rfl⟩, nofun⟩
    | some n => cases hcost
  · rename_i hsomething
    obtain ⟨worth, hworth, h⟩ := Traversal.bind_eq_ok.mp h
    rw [Traversal.ofArithmetic_eq_ok] at hworth
    obtain ⟨bomCost, hbomCost, h⟩ := Traversal.bind_eq_ok.mp h
    obtain ⟨r, rfl, rfl⟩ := finiteCost_chosen hbomCost
    obtain ⟨hcosts, hsources⟩ := chosen_finite r entry
    rw [hcosts] at hworth
    cases h
    refine ⟨r, hrolled, iff_of_false nofun ?_, ?_⟩
    · rintro ⟨rfl, rfl⟩
      exact hsomething rfl
    · rintro _ ⟨⟩
      exact ⟨rfl, rfl, hsources, isWorthShowing_finite hworth, rfl, rfl, rfl⟩

theorem Tells.hasAny_iff {rolled : Option Decimal} {s : CostSummary}
    (h : Tells ipn none rolled s) : s.hasAny = true ↔ ∃ r, rolled = some r ∧ 0 < r.value := by
  have hcost : s.bomCost = rolled := h.bomCost.trans Option.or_none
  have hprice : s.lastUnitPrice = none := h.lastUnitPrice
  rw [hasAny, hprice, Option.isSome_none, Bool.false_or, h.showBomCost, hcost]

end CostSummary

namespace PartView

variable {s : Settings} {ipn : String} {qty : Result Decimal} {depth : Option Int}
  {o : PartOutcomes} {rolled : Option Decimal}

/-- There is a rollup for a part: it is an assembly, its bill of materials is there without a bad
occurrence, and the catalog is there and knows a cost. -/
structure HasRollup (s : Settings) (ipn : String) (o : PartOutcomes) : Prop where
  isAssembly : isAssemblyOf s ipn o.part = true
  bom : ∃ root, o.bom = .ok root ∧ ∀ i ∈ root.occurrences, ¬ i.Bad s.bomMaxDepth
  catalog : ∃ parts, o.parts = .ok parts ∧ ∃ p ∈ parts, p.cost.isSome = true

/-- The cost for one assembly: that of the purchased components of the whole quantity, by the
costs of the catalog, divided by the quantity. -/
def RollsUp (s : Settings) (qty : Result Decimal) (o : PartOutcomes) (cost : Decimal) : Prop :=
  ∃ needed root nodes parts total, qty = .ok needed ∧ o.bom = .ok root ∧
    explode s.bomMaxDepth (.finite needed) root = .ok nodes ∧ o.parts = .ok parts ∧
    rollUp (CostCatalog.ofParts parts) nodes = .ok (.finite total) ∧ total.div needed = .ok cost

theorem perUnit_positive {total : Number} {needed cost : Decimal} (hneeded : 0 < needed.value)
    (h : CostSummary.perUnit total needed = .ok (.finite cost)) :
    ∃ t : Decimal, total = .finite t ∧ t.div needed = .ok cost := by
  rw [CostSummary.perUnit, if_pos ((Decimal.isPositive_iff needed).mpr hneeded)] at h
  cases total with
  | finite t =>
    obtain ⟨d, hd, hcost⟩ := Traversal.map_eq_ok.mp h
    cases hcost
    exact ⟨t, rfl, hd⟩
  | infinite negative => cases h
  | nan negative signaling payload => cases signaling <;> cases h

theorem hasRollup_iff {needed : Decimal} {r : BomResolution}
    (hassembly : isAssemblyOf s ipn o.part = true)
    (hr : BomResolution.Answers s.bomMaxDepth ipn needed o.bom r) :
    HasRollup s ipn o ↔
      r.isOk = true ∧ ∃ parts, o.parts = .ok parts ∧ (CostCatalog.ofParts parts).size ≠ 0 := by
  simp only [CostCatalog.ofParts_size, hr.isOk]
  exact ⟨fun h => ⟨h.bom, h.catalog⟩, fun h => ⟨hassembly, h.1, h.2⟩⟩

theorem rolledUp_none {r : BomResolution} (h : ¬ (r.isOk = true ∧
      ∃ parts, o.parts = .ok parts ∧ (CostCatalog.ofParts parts).size ≠ 0)) :
    CostSummary.rolledUp (some r) (o.parts.value?.map CostCatalog.ofParts) = .ok none := by
  cases hparts : o.parts with
  | error f => rfl
  | ok parts =>
    rw [hparts] at h
    refine if_neg fun hboth => h ?_
    obtain ⟨hok, hsize⟩ := Bool.and_eq_true_iff.mp hboth
    exact ⟨hok, parts, rfl, bne_iff_ne.mp hsize⟩

/-- The rollup of a view is there when the outcomes have one, and it is the one they have. -/
theorem rolledUp_decided {resolution : Option BomResolution} {parts : Option (List Part)}
    (hqty : ∀ needed, qty = .ok needed → 0 < needed.value)
    (ha : o.assembly s ipn qty = .ok (resolution, parts))
    (hrolled : CostSummary.rolledUp resolution (parts.map CostCatalog.ofParts) =
      .ok (rolled.map .finite)) :
    (rolled.isSome = true ↔ HasRollup s ipn o) ∧ ∀ cost ∈ rolled, RollsUp s qty o cost := by
  have hnone (h : rolled.map Number.finite = none) (hno : ¬ HasRollup s ipn o) :
      (rolled.isSome = true ↔ HasRollup s ipn o) ∧ ∀ cost ∈ rolled, RollsUp s qty o cost := by
    obtain rfl := Option.map_eq_none_iff.mp h
    exact ⟨iff_of_false nofun hno, nofun⟩
  unfold PartOutcomes.assembly at ha
  split at ha
  case isFalse hother =>
    cases ha
    exact hnone (Except.ok.inj hrolled).symm fun h => hother h.isAssembly
  case isTrue hassembly =>
    obtain ⟨needed, hneeded, ha⟩ := Traversal.bind_eq_ok.mp ha
    obtain ⟨r, hr, ha⟩ := Traversal.bind_eq_ok.mp ha
    cases ha
    obtain ⟨-, -, -, herror⟩ | ⟨-, r', hr', hanswers⟩ :=
      BomResolution.ofOutcome_cases s.bomMaxDepth ipn needed o.bom
    · rw [hr] at herror
      cases herror
    obtain rfl : r = r' := Except.ok.inj (hr.symm.trans hr')
    have hiff := hasRollup_iff hassembly hanswers
    by_cases hrollup : HasRollup s ipn o
    · obtain ⟨hok, catalog, hparts, hsize⟩ := hiff.mp hrollup
      obtain ⟨-, root, hroot, -, hnodes⟩ := hanswers.resolved hok
      rw [hparts] at hrolled
      rw [Outcome.value?, Option.map_some, CostSummary.rolledUp_resolved hok hsize] at hrolled
      obtain ⟨total, htotal, hrolled⟩ := Traversal.bind_eq_ok.mp hrolled
      obtain ⟨unit, hunit, hrolled⟩ := Traversal.bind_eq_ok.mp hrolled
      obtain ⟨cost, rfl, rfl⟩ := Option.map_eq_some_iff.mp (Except.ok.inj hrolled).symm
      rw [hanswers.buildQty] at hunit
      obtain ⟨t, rfl, hcost⟩ := perUnit_positive (hqty needed hneeded) hunit
      refine ⟨iff_of_true rfl hrollup, ?_⟩
      rintro _ ⟨⟩
      exact ⟨needed, root, r.nodes, catalog, t, hneeded, hroot, hnodes, hparts, htotal, hcost⟩
    · rw [rolledUp_none (mt hiff.mpr hrollup)] at hrolled
      exact hnone (Except.ok.inj hrolled).symm hrollup

/-- The section for a cost, decided by what came of fetching it and by the rollup. -/
structure CostDecided (ipn : String) (cost : Outcome CostEntry) (rolled : Option Decimal)
    (shown : Section CostSummary) : Prop where
  fetched : ∀ entry, cost = .ok entry → shown.state = .loaded ∧ shown.message = none
  failed : ∀ f, cost = .error f → shown.message = some noCost ∧
    (shown.state = .loaded ↔ ∃ r, rolled = some r ∧ 0 < r.value) ∧
    (shown.state ≠ .loaded → shown.data = none ∧
      shown.state = if f.isNotFound then .notFound else .failed)
  data : shown.state = .loaded →
    ∃ d, shown.data = some d ∧ CostSummary.Tells ipn cost.value? rolled d

theorem costSection_decided {cost : Outcome CostEntry} {summary : Option CostSummary}
    (hnone : summary = none ↔ cost.value? = none ∧ rolled = none)
    (htells : ∀ d ∈ summary, CostSummary.Tells ipn cost.value? rolled d) :
    CostDecided ipn cost rolled (costSection cost summary) := by
  cases cost with
  | ok entry =>
    cases summary with
    | none => cases (hnone.mp rfl).1
    | some d =>
      refine ⟨fun _ _ => ⟨rfl, rfl⟩, nofun, fun _ => ⟨d, rfl, htells d rfl⟩⟩
  | error f =>
    have hstate : Section.stateOfFault f ≠ .loaded := by
      unfold Section.stateOfFault
      split <;> exact nofun
    have hwithout (h : ¬ ∃ r, rolled = some r ∧ 0 < r.value) :
        CostDecided ipn (.error f) rolled (.without (Section.stateOfFault f) noCost) := by
      refine ⟨nofun, ?_, fun h => absurd h hstate⟩
      rintro _ ⟨⟩
      exact ⟨rfl, iff_of_false hstate h, fun _ => ⟨rfl, rfl⟩⟩
    cases summary with
    | none =>
      obtain ⟨-, rfl⟩ := hnone.mp rfl
      exact hwithout fun ⟨_, h, _⟩ => nomatch h
    | some d =>
      have hany := (htells d rfl).hasAny_iff
      by_cases h : d.hasAny = true
      · rw [costSection, if_pos h]
        refine ⟨nofun, ?_, fun _ => ⟨d, rfl, htells d rfl⟩⟩
        rintro _ ⟨⟩
        exact ⟨rfl, iff_of_true rfl (hany.mp h), fun h => absurd rfl h⟩
      · rw [costSection, if_neg h]
        exact hwithout (mt hany.mpr h)

end PartView

namespace Loading

variable {c : OpsClient} {s : Settings} {ipn : String} {depth : Option Int} {o : PartOutcomes}
  {w : World} {v : PartView}

/-- A view for a positive quantity has its cost section decided by what came of the fetches: there
is a rollup or not, it is the cost of the purchased components shared out, and together with the
fetched entry it gives the state, the message and the data of the section. -/
theorem partDetail_cost {j : Json} {n : Number} (hj : Result.number j = .ok n)
    (hpos : n.isPositive = .ok true)
    (h : PartFetches c s ipn (BomResolution.quantityOf j) o w)
    (hv : (partDetail c s ipn (BomResolution.quantityOf j) depth w).1 = .ok v) :
    ∃ rolled : Option Decimal, (rolled.isSome = true ↔ PartView.HasRollup s ipn o) ∧
      (∀ cost ∈ rolled, PartView.RollsUp s (BomResolution.quantityOf j) o cost) ∧
      PartView.CostDecided ipn o.cost rolled v.cost := by
  have hqty : ∀ needed, BomResolution.quantityOf j = .ok needed → 0 < needed.value := by
    intro needed hneeded
    obtain ⟨d, rfl, hd⟩ | ⟨-, herror⟩ := BomResolution.quantityOf_positive hj hpos
    · obtain rfl : d = needed := Except.ok.inj (hd.symm.trans hneeded)
      rw [Number.isPositive_finite] at hpos
      exact (Decimal.isPositive_iff d).mp (Except.ok.inj hpos)
    · rw [hneeded] at herror
      cases herror
  obtain ⟨resolution, parts, ha, hmade⟩ :=
    PartView.ofOutcomes_eq_ok ((partDetail_result h).symm.trans hv)
  obtain ⟨summary, hsummary, hcost⟩ := Traversal.map_eq_ok.mp hmade.cost
  obtain ⟨rolled, hrolled, hnone, htells⟩ := CostSummary.summarize_eq_ok hsummary
  obtain ⟨hiff, hvalue⟩ := PartView.rolledUp_decided hqty ha hrolled
  exact ⟨rolled, hiff, hvalue, hcost ▸ PartView.costSection_decided hnone htells⟩

theorem partDetail_cost_bench : ∃ v d,
    (partDetail benchClient benchSettings "ASY-1" (BomResolution.quantityOf (.str "1")) none
      benchFactory).1 = .ok v ∧
    v.cost.state = .loaded ∧ v.cost.message = some PartView.noCost ∧ v.cost.data = some d ∧
    d.bomCost = some ⟨false, 2, 0⟩ ∧ d.bomCostSource = some "rollup" := by
  have hj : Result.number (.str "1") = .ok (.finite Decimal.one) := by decide +kernel
  have hq : BomResolution.quantityOf (.str "1") = .ok Decimal.one := by decide +kernel
  obtain ⟨v, hv, hshown⟩ := Traversal.map_eq_ok.mp (by decide +kernel :
    (partDetail benchClient benchSettings "ASY-1" (BomResolution.quantityOf (.str "1")) none
      benchFactory).1.map (fun v => (v.cost.state, v.cost.data.bind CostSummary.bomCost)) =
        .ok (.loaded, some ⟨false, 2, 0⟩))
  obtain ⟨hloaded, hbomCost⟩ := Prod.mk.inj hshown
  obtain ⟨bom, hfetches⟩ := benchFactory_fetches
  obtain ⟨rolled, -, -, hdecided⟩ := partDetail_cost hj (by decide +kernel) (hq ▸ hfetches) hv
  obtain ⟨d, hd, htells⟩ := hdecided.data hloaded
  rw [hd, Option.bind_some] at hbomCost
  have hrolled : rolled = some ⟨false, 2, 0⟩ :=
    Option.or_none.symm.trans (htells.bomCost.symm.trans hbomCost)
  refine ⟨v, d, hv, hloaded, (hdecided.failed _ rfl).1, hd, hbomCost, ?_⟩
  rw [htells.source, hrolled]
  rfl

end Loading
end BomEngine
