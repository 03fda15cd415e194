import BomEngine.Proofs.Schema.Acceptance
import BomEngine.Proofs.Shortage.Monotone
import BomEngine.Proofs.Shortage.Reconciliation

/-!
# Drift

A line has drifted if its label or its shortage contradict its quantities. Of the label low less is
asked than it means: low is a short line with some stock, and passes on every short line. What a
reconciliation gives is never taken for drifted again: the lines on which it changes nothing are
those whose label and shortage are computed, and netting makes no others.
-/

set_option autoImplicit false

namespace BomEngine

/-- What a label says of the quantities. A line that is low is short, but some stock is there. -/
def ShortageStatus.Holds (required onHand : ℚ) : ShortageStatus → Prop
  | .ok => required ≤ onHand
  | .low => onHand < required ∧ 0 < onHand
  | .shortage => onHand < required

def ShortageStatus.implied (required onHand : ℚ) : ShortageStatus :=
  if onHand < required then .shortage else .ok

theorem ShortageStatus.fits_implied {required onHand : ℚ} (reported : ShortageStatus) :
    reported.fits (implied required onHand) = true ↔ reported.Holds required onHand ∨
      reported = .low ∧ onHand < required ∧ onHand ≤ 0 := by
  by_cases hshort : onHand < required
  · rw [implied, if_pos hshort]
    cases reported with
    | ok => simp [fits, Holds, hshort]
    | low => simp [fits, Holds, hshort, lt_or_ge]
    | shortage => simp [fits, Holds, hshort]
  · rw [implied, if_neg hshort]
    cases reported <;> simp [fits, Holds, hshort, not_lt.mp hshort]

namespace NettedLine

variable {given shown : NettedLine}

def ShortageHolds (l : NettedLine) : Prop :=
  l.shortage.value = max 0 (l.required.value - l.onHand.value)

theorem drifted_eq_false {computed : NettedLine} :
    given.hasDrifted computed = false ↔
      given.status.fits computed.status = true ∧
        given.shortage.value = computed.shortage.value := by
  rw [hasDrifted, Bool.or_eq_false_iff, Bool.not_eq_false', Bool.not_eq_false',
    Decimal.sameValue_iff]

theorem exists_recomputed (h : given.required.sub given.onHand ≠ .error .overflow) :
    ∃ computed, given.recomputed = .ok computed := by
  obtain ⟨d, hd⟩ := (Decimal.failsOnly_sub _ _).result h
  exact ⟨_, by rw [recomputed, lineShortage, hd]; rfl⟩

theorem recomputed_exact
    (h : Decimal.Representable (given.required.value - given.onHand.value)) :
    ∃ computed, given.recomputed = .ok computed ∧
      computed.shortage.value = max 0 (given.required.value - given.onHand.value) ∧
      computed.status = .implied given.required.value given.onHand.value := by
  obtain ⟨d, hd, hv⟩ := given.required.sub_exact given.onHand h
  have hfits : given.required.sub given.onHand ≠ .error .overflow := by rw [hd]; nofun
  obtain ⟨computed, hc⟩ := exists_recomputed hfits
  have hr := reconciles_recomputed hc
  obtain ⟨d', hd', -, hshort⟩ := hr.shortage
  cases hd.symm.trans hd'
  rw [hv] at hshort
  refine ⟨computed, hc, hshort, ?_⟩
  rw [hr.status, hshort, ShortageStatus.implied]
  simp

def Settled (l : NettedLine) : Prop := l.recomputed = .ok l

theorem settled_recomputed (h : given.recomputed = .ok shown) : shown.Settled := by
  obtain ⟨shortage, hshortage, h⟩ := Traversal.bind_eq_ok.mp h
  cases h
  have hagain : lineShortage { given with
      shortage := shortage, status := if shortage.isPositive then .shortage else .ok } =
        .ok shortage := hshortage
  rw [Settled, recomputed, hagain]
  rfl

theorem not_drifted_self (l : NettedLine) : l.hasDrifted l = false :=
  drifted_eq_false.mpr ⟨by simp [ShortageStatus.fits], rfl⟩

/-- Lines that differ in the writing of their decimals at most. -/
structure Equals (l m : NettedLine) : Prop where
  ipn : l.ipn = m.ipn
  description : l.description = m.description
  required : l.required.value = m.required.value
  onHand : l.onHand.value = m.onHand.value
  shortage : l.shortage.value = m.shortage.value
  status : l.status = m.status

theorem Reconciles.equals_iff (h : given.Reconciles shown) : shown.Equals given ↔
    (given.status = .ok ∨ given.status = .shortage) ∧ given.hasDrifted shown = false := by
  have hlow := h.not_low
  rw [drifted_eq_false]
  constructor
  · intro he
    rw [← he.status, he.shortage]
    refine ⟨?_, by simp [ShortageStatus.fits], rfl⟩
    cases hs : shown.status <;> simp_all
  · rintro ⟨hlabel, hfits, hshort⟩
    refine ⟨h.ipn, h.description, by rw [h.required], by rw [h.onHand], hshort.symm, ?_⟩
    rcases hlabel with hl | hl <;> rw [hl] at hfits ⊢ <;>
      cases hs : shown.status <;> simp_all [ShortageStatus.fits]

end NettedLine

namespace Reconciliation

variable {trust strict : Bool} {l computed : NettedLine}

theorem line_of_recomputed (h : l.recomputed = .ok computed) :
    line trust strict l =
      if l.hasDrifted computed then
        if strict then ⟨[], .error (.fault (.statusDrift l.ipn l.status.text computed.status.text))⟩
        else ⟨[driftRecord l computed], .ok (if trust then l else computed, true)⟩
      else ⟨[], .ok (if trust then l else computed, false)⟩ := by
  rw [line, h]
  cases hd : l.hasDrifted computed <;> cases strict <;>
    simp only [bind, Noted.bind, Result.ofArithmetic, Noted.ofResult, hd] <;> rfl

/-- A line has not drifted exactly if its shortage is that of its quantities and its label holds, or
is low on a line that is short without any stock. Whatever has drifted is refused where the
reconciliation is strict, and nothing else is. -/
theorem drifted_decided (trust : Bool) (l : NettedLine)
    (h : Decimal.Representable (l.required.value - l.onHand.value)) :
    ∃ shown drifted, (line trust false l).result = .ok (shown, drifted) ∧
      (drifted = false ↔ l.ShortageHolds ∧
        (l.status.Holds l.required.value l.onHand.value ∨
          l.status = .low ∧ l.onHand.value < l.required.value ∧ l.onHand.value ≤ 0)) ∧
      (line trust true l).result =
        if drifted then .error (.fault (.statusDrift l.ipn l.status.text
          (ShortageStatus.implied l.required.value l.onHand.value).text))
        else .ok (shown, false) := by
  obtain ⟨computed, hc, hshort, hlabel⟩ := NettedLine.recomputed_exact h
  refine ⟨if trust then l else computed, l.hasDrifted computed, ?_, ?_, ?_⟩
  · rw [line_of_recomputed hc]
    cases l.hasDrifted computed <;> rfl
  · rw [NettedLine.drifted_eq_false, hlabel, hshort, ShortageStatus.fits_implied, and_comm]
    rfl
  · rw [line_of_recomputed hc, ← hlabel]
    cases l.hasDrifted computed <;> rfl

def emptyShelf : NettedLine :=
  ⟨"R-1", "", ⟨false, 5, 0⟩, Decimal.zero, ⟨false, 5, 0⟩, .low⟩

theorem value_five : (Decimal.mk false 5 0).value = 5 := by norm_num [Decimal.value, Decimal.signed]

theorem emptyShelf_exact :
    Decimal.Representable (emptyShelf.required.value - emptyShelf.onHand.value) := by
  have hfive : emptyShelf.required.value - emptyShelf.onHand.value = (5 : ℕ) := by
    show (Decimal.mk false 5 0).value - Decimal.zero.value = _
    rw [value_five, Decimal.value_zero]
    norm_num
  rw [hfive]
  exact Decimal.representable_natCast (by decide)

theorem drifted_decided_bench :
    Decimal.Representable (emptyShelf.required.value - emptyShelf.onHand.value) ∧
    ∃ shown drifted, (line false false emptyShelf).result = .ok (shown, drifted) ∧
      (drifted = false ↔ emptyShelf.ShortageHolds ∧
        (emptyShelf.status.Holds emptyShelf.required.value emptyShelf.onHand.value ∨
          emptyShelf.status = .low ∧ emptyShelf.onHand.value < emptyShelf.required.value ∧
            emptyShelf.onHand.value ≤ 0)) := by
  obtain ⟨shown, drifted, hline, hiff, -⟩ := drifted_decided false emptyShelf emptyShelf_exact
  exact ⟨emptyShelf_exact, shown, drifted, hline, hiff⟩

/-- The line is one that the service may send, its shortage is right, and its label contradicts its
quantities, for there is no stock. It passes all the same, also where the reconciliation is
strict. -/
theorem low_without_stock :
    Record.parse (Record.dump emptyShelf) = .ok emptyShelf ∧
    Decimal.Representable (emptyShelf.required.value - emptyShelf.onHand.value) ∧
    emptyShelf.ShortageHolds ∧
    ¬ emptyShelf.status.Holds emptyShelf.required.value emptyShelf.onHand.value ∧
    (line false false emptyShelf).result = .ok ({ emptyShelf with status := .shortage }, false) ∧
    (line false true emptyShelf).result = .ok ({ emptyShelf with status := .shortage }, false) := by
  refine ⟨by decide +kernel, emptyShelf_exact, ?_, ?_, by decide +kernel, by decide +kernel⟩
  · show (Decimal.mk false 5 0).value = max 0 ((Decimal.mk false 5 0).value - Decimal.zero.value)
    rw [value_five, Decimal.value_zero]
    norm_num
  · rintro ⟨-, hstock⟩
    have hnone : emptyShelf.onHand.value = 0 := Decimal.value_zero
    rw [hnone] at hstock
    exact lt_irrefl 0 hstock

theorem settled_of_line {shown : NettedLine} {drifted : Bool}
    (h : (line false strict l).result = .ok (shown, drifted)) : shown.Settled := by
  cases hc : l.recomputed with
  | error s =>
    rw [line, hc] at h
    cases h
  | ok computed =>
    rw [line_of_recomputed hc] at h
    have hshown : shown = computed := by
      cases hd : l.hasDrifted computed <;> cases strict <;> rw [hd] at h <;> cases h <;> rfl
    rw [hshown]
    exact NettedLine.settled_recomputed hc

theorem line_settled (h : l.Settled) : line trust strict l = ⟨[], .ok (l, false)⟩ := by
  rw [line_of_recomputed h, NettedLine.not_drifted_self]
  cases trust <;> rfl

end Reconciliation

namespace NettedLine
open Verdict (seq_eq_accepted under_eq_accepted demand_eq_accepted)

theorem nonneg_of_ofNumbers {ipn description : String} {required : Decimal}
    {onHand shortage : Number} {status : ShortageStatus} {l : NettedLine}
    (h : ofNumbers ipn description (.finite required) onHand shortage status = .ok l) :
    0 ≤ required.value := by
  by_contra hneg
  have hn : required.isNegative = true := (Decimal.isNegative_iff _).mpr (not_le.mp hneg)
  rw [ofNumbers, Result.ofVerdict_eq_ok] at h
  obtain ⟨_, _, h₅, -, -⟩ := seq_eq_accepted.mp h
  obtain ⟨_, _, h₄, -, -⟩ := seq_eq_accepted.mp h₅
  obtain ⟨_, _, h₃, -, -⟩ := seq_eq_accepted.mp h₄
  obtain ⟨_, d, -, hrequired, -⟩ := seq_eq_accepted.mp h₃
  obtain ⟨hd, hleast⟩ := demand_eq_accepted.mp (under_eq_accepted.mp hrequired)
  cases hd
  rw [if_pos hn] at hleast
  cases hleast

theorem settled_of_requirement {stock : Stock} {r : Requirement} {l : NettedLine}
    (h : ofRequirement stock r = .ok l) : l.Settled := by
  obtain ⟨onHand, -, hrest⟩ := Traversal.bind_eq_ok.mp h
  obtain ⟨shortage, -, hrest⟩ := Traversal.bind_eq_ok.mp hrest
  obtain ⟨status, -, hrest⟩ := Traversal.bind_eq_ok.mp hrest
  obtain ⟨onHand, d, -, hd, rfl⟩ := ofRequirement_eq_ok (nonneg_of_ofNumbers hrest) h
  have hshort : lineShortage ⟨r.ipn, r.description, r.qty, onHand, d.atLeastZero,
      if d.atLeastZero.isPositive = true then .shortage else .ok⟩ = .ok d.atLeastZero := by
    rw [lineShortage, hd]
    rfl
  rw [Settled, recomputed, hshort]
  rfl

theorem settled_of_netted {nodes : List ExplodedNode} {stock : Stock} {lines : List NettedLine}
    (h : netRequirements nodes stock = .ok lines) : ∀ l ∈ lines, l.Settled := by
  obtain ⟨rs, -, hlines⟩ := Traversal.bind_eq_ok.mp h
  intro l hl
  obtain ⟨r, -, hr⟩ := Traversal.mem_right ((List.forall₂_and_left _ _).mpr
    ⟨fun r hr => hr, Traversal.mapM_ok_iff.mp hlines⟩) hl
  exact settled_of_requirement hr

end NettedLine

namespace ShortageView

variable {trust strict : Bool} {b : WorkOrderBom} {view : ShortageView}

theorem settled_of_view (h : (ofWorkOrderBom false strict b).result = .ok view) :
    (∀ l ∈ view.lines, l.Settled) ∧ ∃ drifted, ofLines view.lines drifted = .ok view := by
  rw [ofWorkOrderBom_result] at h
  obtain ⟨outcomes, houtcomes, h⟩ := Traversal.bind_eq_ok.mp h
  rw [Traversal.ofArithmetic_eq_ok] at h
  have hlines : view.lines = outcomes.map fun o => o.1 := by
    obtain ⟨summary, -, h⟩ := Traversal.bind_eq_ok.mp h
    cases h
    rfl
  refine ⟨fun l hl => ?_, _, hlines ▸ h⟩
  rw [hlines] at hl
  obtain ⟨outcome, ho, rfl⟩ := List.mem_map.mp hl
  obtain ⟨given, -, hg⟩ := Traversal.mem_right ((List.forall₂_and_left _ _).mpr
    ⟨fun r hr => hr, Traversal.mapM_ok_iff.mp houtcomes⟩) ho
  exact Reconciliation.settled_of_line hg

theorem mapM_settled {lines : List NettedLine} (h : ∀ l ∈ lines, l.Settled) :
    lines.mapM (Reconciliation.line trust strict) = ⟨[], .ok (lines.map fun l => (l, false))⟩ := by
  induction lines with
  | nil => rfl
  | cons l rest ih =>
    rw [List.mapM_cons, Reconciliation.line_settled (h l (by simp)),
      ih fun m hm => h m (by simp [hm])]
    rfl

theorem ofWorkOrderBom_settled (h : ∀ l ∈ b.lines, l.Settled) :
    ofWorkOrderBom trust strict b = ⟨[], Result.ofArithmetic (ofLines b.lines [])⟩ := by
  have hnone : ((b.lines.map fun l => (l, false)).filter fun o => o.2) = [] := by simp
  have hsame : (b.lines.map fun l => (l, false)).map (fun o => o.1) = b.lines := by
    rw [List.map_map]
    exact List.map_id _
  rw [ofWorkOrderBom, mapM_settled h]
  show Noted.bind ⟨[], .ok (b.lines.map fun l => (l, false))⟩ _ = _
  simp only [Noted.bind, hnone, hsame]
  rfl

theorem ofLines_drifted {lines : List NettedLine} {drifted : List String}
    (h : ofLines lines drifted = .ok view) (drifted' : List String) :
    ofLines lines drifted' = .ok ⟨lines, { view.summary with drifted := drifted' }⟩ := by
  obtain ⟨summary, hsummary, h⟩ := Traversal.bind_eq_ok.mp h
  obtain ⟨total, htotal, hsummary⟩ := Traversal.bind_eq_ok.mp hsummary
  cases hsummary
  cases h
  rw [ofLines, ShortageSummary.ofLines, htotal]
  rfl

end ShortageView

namespace Reconciliation

/-- Without trust in the service a reconciliation is a projection onto the settled lines: what it
gives is left alone by another one, it touches shortage and label alone, and it gives a line back
exactly if its label is not low and it has not drifted. Netted lines are settled, and so are those of
a view, so that a view built once more from its lines is the same, with nothing drifted. -/
theorem reconciliation_projects :
    (∀ l : NettedLine, l.required.sub l.onHand ≠ .error .overflow →
      ∃ shown drifted, (line false false l).result = .ok (shown, drifted) ∧
        (∀ strict, line false strict shown = ⟨[], .ok (shown, false)⟩) ∧
        shown = { l with shortage := shown.shortage, status := shown.status } ∧
        (shown.Equals l ↔ (l.status = .ok ∨ l.status = .shortage) ∧ drifted = false)) ∧
    (∀ nodes stock lines, netRequirements nodes stock = .ok lines → ∀ l ∈ lines, ∀ strict,
      line false strict l = ⟨[], .ok (l, false)⟩) ∧
    (∀ b strict view, (ShortageView.ofWorkOrderBom false strict b).result = .ok view →
      ∀ again : WorkOrderBom, again.lines = view.lines → ∀ strict',
        ShortageView.ofWorkOrderBom false strict' again =
          ⟨[], .ok ⟨view.lines, { view.summary with drifted := [] }⟩⟩) := by
  refine ⟨fun l h => ?_, fun nodes stock lines h l hl strict => ?_,
    fun b strict view h again hagain strict' => ?_⟩
  · obtain ⟨computed, hc⟩ := NettedLine.exists_recomputed h
    have hr := NettedLine.reconciles_recomputed hc
    refine ⟨computed, l.hasDrifted computed, ?_, fun strict => ?_, ?_, hr.equals_iff⟩
    · rw [line_of_recomputed hc]
      cases l.hasDrifted computed <;> rfl
    · exact line_settled (NettedLine.settled_recomputed hc)
    · obtain ⟨shortage, -, hc⟩ := Traversal.bind_eq_ok.mp hc
      cases hc
      rfl
  · exact line_settled (NettedLine.settled_of_netted h l hl)
  · obtain ⟨hsettled, drifted, hview⟩ := ShortageView.settled_of_view h
    rw [ShortageView.ofWorkOrderBom_settled (hagain ▸ hsettled), hagain,
      ShortageView.ofLines_drifted hview]
    rfl

def mislabelled : NettedLine :=
  ⟨"R-2", "", ⟨false, 8, 0⟩, ⟨false, 25, -1⟩, Decimal.zero, .ok⟩

def workbench : WorkOrderBom := ⟨some "WO-1", "KIT-1", Decimal.one, [emptyShelf, mislabelled]⟩

theorem reconciliation_projects_bench :
    (mislabelled.required.sub mislabelled.onHand ≠ .error .overflow ∧
      ∃ shown, (line false false mislabelled).result = .ok (shown, true) ∧
        line false true shown = ⟨[], .ok (shown, false)⟩) ∧
    (∃ lines, netRequirements kitNodes kitStock = .ok lines ∧
      lines.map NettedLine.ipn = ["R-1", "SCR-1"] ∧
      ∀ l ∈ lines, line false true l = ⟨[], .ok (l, false)⟩) ∧
    ∃ view, (ShortageView.ofWorkOrderBom false false workbench).result = .ok view ∧
      view.summary.drifted = ["R-2"] ∧
      ShortageView.ofWorkOrderBom false true { workbench with lines := view.lines } =
        ⟨[], .ok ⟨view.lines, { view.summary with drifted := [] }⟩⟩ := by
  obtain ⟨hline, hnetted, hview⟩ := reconciliation_projects
  have hfits : mislabelled.required.sub mislabelled.onHand ≠ .error .overflow := by decide +kernel
  have hflag : (line false false mislabelled).result.map Prod.snd = .ok true := by decide +kernel
  have hipns : (netRequirements kitNodes kitStock).map (List.map NettedLine.ipn) =
      .ok ["R-1", "SCR-1"] := by decide +kernel
  have hdrifted : (ShortageView.ofWorkOrderBom false false workbench).result.map
      (fun view => view.summary.drifted) = .ok ["R-2"] := by decide +kernel
  obtain ⟨lines, hlines, hl⟩ := Traversal.map_eq_ok.mp hipns
  obtain ⟨view, hv, hd⟩ := Traversal.map_eq_ok.mp hdrifted
  obtain ⟨shown, drifted, hshown, hagain, -⟩ := hline mislabelled hfits
  rw [hshown] at hflag
  cases hflag
  exact ⟨⟨hfits, shown, hshown, hagain true⟩,
    ⟨lines, hlines, hl, fun l hm => hnetted kitNodes kitStock lines hlines l hm true⟩,
    view, hv, hd, hview workbench false view hv _ rfl true⟩

end Reconciliation
end BomEngine
