import BomEngine.Proofs.Decimal.Rounding
import BomEngine.Shortage.Reconciliation

/-!
# Reconciled lines

Where the service is not trusted, its labels and shortages count for nothing: a line of
the view has the quantities of the service, and the rest follows from them. So the
summary of a view depends on quantities alone, and its counts and totals tell the same
story about whether anything is short, however the total was rounded.
-/

set_option autoImplicit false

namespace BomEngine
open Traversal (FailsOnly)

namespace NettedLine

/-- A line of a view beside the line of the service: texts and quantities are kept, shortage
and label are computed. -/
structure Reconciles (given shown : NettedLine) : Prop where
  ipn : shown.ipn = given.ipn
  description : shown.description = given.description
  required : shown.required = given.required
  onHand : shown.onHand = given.onHand
  shortage : ∃ d, given.required.sub given.onHand = .ok d ∧
    shown.shortage = d.atLeastZero ∧ shown.shortage.value = max 0 d.value
  status : shown.status = if 0 < shown.shortage.value then .shortage else .ok

variable {given shown : NettedLine}

theorem failsOnly_recomputed (l : NettedLine) : FailsOnly .overflow l.recomputed :=
  ((Decimal.failsOnly_sub _ _).bind fun _ => .of_ok _).bind fun _ => .of_ok _

theorem reconciles_recomputed (h : given.recomputed = .ok shown) : given.Reconciles shown := by
  obtain ⟨shortage, hshortage, h⟩ := Traversal.bind_eq_ok.mp h
  obtain ⟨d, hd, hmax⟩ := Traversal.bind_eq_ok.mp hshortage
  cases hmax
  cases h
  refine ⟨rfl, rfl, rfl, rfl, ⟨d, hd, rfl, Decimal.value_atLeastZero d⟩, ?_⟩
  simp only [Decimal.isPositive_iff]

theorem Reconciles.plain (h : given.Reconciles shown) : Decimal.Plain shown.shortage := by
  obtain ⟨d, hd, hs, -⟩ := h.shortage
  rw [hs]
  exact Decimal.plain_sub hd

theorem Reconciles.short_iff (h : given.Reconciles shown) :
    shown.status = .shortage ↔ 0 < shown.shortage.value := by
  rw [h.status]
  split
  · next hpos => simp [hpos]
  · next hpos => simp [hpos]

theorem Reconciles.not_low (h : given.Reconciles shown) : shown.status ≠ .low := by
  rw [h.status]
  split <;> simp

theorem exists_reconciles {lines computed : List NettedLine}
    (h : List.Forall₂ Reconciles lines computed) :
    ∀ l ∈ computed, ∃ given, Reconciles given l := by
  intro l hl
  obtain ⟨given, -, hr⟩ := Traversal.mem_right
    ((List.forall₂_and_left _ _).mpr ⟨fun given hg => hg, h⟩) hl
  exact ⟨given, hr⟩

end NettedLine

namespace ShortageSummary

/-- What a summary says about lines: how many are covered and how many short, none being
anything else, and how many of the short ones have some stock. -/
structure Describes (s : ShortageSummary) (lines : List NettedLine) : Prop where
  counts : ∃ covered short, s.statusCounts.lookup "ok" = some covered ∧
    s.statusCounts.lookup "shortage" = some short ∧ s.totalLines = covered + short
  low : s.statusCounts.lookup "low" = some 0
  partlyAvailable : s.partlyAvailable =
    lines.countP fun l => l.status = .shortage ∧ 0 < l.onHand.value

variable {lines : List NettedLine} {drifted : List String} {s : ShortageSummary}

theorem failsOnly_ofLines (lines : List NettedLine) (drifted : List String) :
    FailsOnly .overflow (ofLines lines drifted) :=
  (Decimal.failsOnly_sum _).bind fun _ => .of_ok _

theorem countOf_covered_add_short (h : ∀ l ∈ lines, l.status ≠ .low) :
    countOf .ok lines + countOf .shortage lines = lines.length := by
  induction lines with
  | nil => rfl
  | cons l rest ih =>
    have hrest := ih fun m hm => h m (by simp [hm])
    have hl := h l (by simp)
    simp only [countOf, List.countP_cons, List.length_cons] at hrest ⊢
    cases hs : l.status with
    | ok => simp; omega
    | low => exact absurd hs hl
    | shortage => simp; omega

theorem describes_ofLines (h : ofLines lines drifted = .ok s)
    (hlow : ∀ l ∈ lines, l.status ≠ .low)
    (hshort : ∀ l ∈ lines, l.status = .shortage ↔ 0 < l.shortage.value) : s.Describes lines := by
  obtain ⟨total, -, h⟩ := Traversal.bind_eq_ok.mp h
  cases h
  refine ⟨⟨_, _, rfl, rfl, ?_⟩, ?_, ?_⟩
  · show (lines.length : ℤ) = _
    rw [← countOf_covered_add_short hlow, Nat.cast_add]
  · have hnone : countOf .low lines = 0 := by
      rw [countOf, List.countP_eq_zero]
      intro l hl
      simpa using hlow l hl
    show some ((countOf .low lines : ℕ) : ℤ) = some 0
    rw [hnone]
    rfl
  · show ((lines.countP NettedLine.isPartlyAvailable : ℕ) : ℤ) = _
    rw [List.countP_congr fun l hl => ?_]
    rw [NettedLine.isPartlyAvailable, Bool.and_eq_true, Decimal.isPositive_iff,
      Decimal.isPositive_iff, ← hshort l hl]
    simp

theorem short_tfae (h : ofLines lines drifted = .ok s)
    (hplain : ∀ l ∈ lines, Decimal.Plain l.shortage)
    (hshort : ∀ l ∈ lines, l.status = .shortage ↔ 0 < l.shortage.value) :
    List.TFAE [s.hasShortage = true, 0 < s.totalShortage.value,
      ∃ l ∈ lines, l.status = .shortage] := by
  obtain ⟨total, htotal, h⟩ := Traversal.bind_eq_ok.mp h
  cases h
  have hcount : decide (0 < countOf .shortage lines) = true ↔
      ∃ l ∈ lines, l.status = .shortage := by
    rw [decide_eq_true_eq, countOf, List.countP_pos_iff]
    simp
  have hsum : 0 < total.value ↔ ∃ l ∈ lines, l.status = .shortage := by
    rw [Decimal.sum_plain (by simpa using hplain) htotal]
    simp only [List.mem_map, exists_exists_and_eq_and]
    exact exists_congr fun l => and_congr_right fun hl => (hshort l hl).symm
  tfae_have 1 ↔ 3 := hcount
  tfae_have 2 ↔ 3 := hsum
  tfae_finish

end ShortageSummary

namespace Reconciliation

variable {trust : Bool}

theorem line_result (l : NettedLine) : (line trust false l).result =
    Result.ofArithmetic l.recomputed >>= fun computed =>
      .ok (if trust then l else computed, l.hasDrifted computed) := by
  simp only [line, Noted.result_bind, Noted.result_ofResult]
  cases Result.ofArithmetic l.recomputed with
  | error e => rfl
  | ok computed =>
    show Noted.result _ = .ok (if trust then l else computed, l.hasDrifted computed)
    cases l.hasDrifted computed <;> rfl

theorem reconciles_line {given : NettedLine} {outcome : NettedLine × Bool}
    (h : (line false false given).result = .ok outcome) : given.Reconciles outcome.1 := by
  rw [line_result] at h
  obtain ⟨computed, hcomputed, h⟩ := Traversal.bind_eq_ok.mp h
  cases h
  exact NettedLine.reconciles_recomputed (Traversal.ofArithmetic_eq_ok.mp hcomputed)

theorem line_trusted {given : NettedLine} {outcome : NettedLine × Bool}
    (h : (line true false given).result = .ok outcome) : outcome.1 = given := by
  rw [line_result] at h
  obtain ⟨computed, -, h⟩ := Traversal.bind_eq_ok.mp h
  cases h
  rfl

end Reconciliation

namespace ShortageView

variable {trust : Bool}

theorem ofWorkOrderBom_result {strict : Bool} (b : WorkOrderBom) :
    (ofWorkOrderBom trust strict b).result =
    (b.lines.mapM fun l => (Reconciliation.line trust strict l).result) >>= fun outcomes =>
      Result.ofArithmetic (ofLines (outcomes.map fun o => o.1)
        ((outcomes.filter fun o => o.2).map fun o => o.1.ipn)) := by
  rw [ofWorkOrderBom, Noted.result_bind, Noted.result_mapM]
  refine bind_congr fun outcomes => ?_
  dsimp only
  split <;> rfl

theorem failsOnly_ofWorkOrderBom (b : WorkOrderBom) :
    FailsOnly (.signal .overflow) (ofWorkOrderBom trust false b).result := by
  rw [ofWorkOrderBom_result]
  refine .bind (.mapM (fun l => ?_) _) fun outcomes => .ofArithmetic ?_
  · rw [Reconciliation.line_result]
    exact .bind (.ofArithmetic (NettedLine.failsOnly_recomputed l)) fun _ => .of_ok _
  · exact .bind (ShortageSummary.failsOnly_ofLines _ _) fun _ => .of_ok _

theorem ofWorkOrderBom_lines {b : WorkOrderBom} {view : ShortageView}
    (h : (ofWorkOrderBom trust false b).result = .ok view) :
    List.Forall₂ (fun given l => if trust then l = given else given.Reconciles l)
      b.lines view.lines := by
  rw [ofWorkOrderBom_result] at h
  obtain ⟨outcomes, houtcomes, h⟩ := Traversal.bind_eq_ok.mp h
  obtain ⟨summary, -, h⟩ := Traversal.bind_eq_ok.mp (Traversal.ofArithmetic_eq_ok.mp h)
  cases h
  rw [List.forall₂_map_right_iff]
  apply (Traversal.mapM_ok_iff.mp houtcomes).imp
  intro given outcome hline
  cases trust with
  | true => exact Reconciliation.line_trusted hline
  | false => exact Reconciliation.reconciles_line hline

/-- Where the service is not trusted, every line of the view is computed from one of the service,
and the summary is one of these lines. -/
theorem ofWorkOrderBom_reconciles {b : WorkOrderBom} {view : ShortageView}
    (h : (ofWorkOrderBom false false b).result = .ok view) :
    List.Forall₂ NettedLine.Reconciles b.lines view.lines ∧
      view.summary.Describes view.lines ∧
      List.TFAE [view.summary.hasShortage = true, 0 < view.summary.totalShortage.value,
        ∃ l ∈ view.lines, l.status = .shortage] := by
  have hlines : List.Forall₂ NettedLine.Reconciles b.lines view.lines := by
    simpa using ofWorkOrderBom_lines h
  rw [ofWorkOrderBom_result] at h
  obtain ⟨outcomes, houtcomes, h⟩ := Traversal.bind_eq_ok.mp h
  obtain ⟨summary, hsummary, h⟩ := Traversal.bind_eq_ok.mp (Traversal.ofArithmetic_eq_ok.mp h)
  cases h
  have hgiven := NettedLine.exists_reconciles hlines
  have hshort : ∀ l ∈ outcomes.map fun o => o.1, l.status = .shortage ↔ 0 < l.shortage.value :=
    fun l hl => (hgiven l hl).elim fun _ h => h.short_iff
  refine ⟨hlines, ShortageSummary.describes_ofLines hsummary ?_ hshort,
    ShortageSummary.short_tfae hsummary ?_ hshort⟩
  · exact fun l hl => (hgiven l hl).elim fun _ h => h.not_low
  · exact fun l hl => (hgiven l hl).elim fun _ h => h.plain

end ShortageView
end BomEngine
