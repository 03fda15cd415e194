import BomEngine.Proofs.Decimal.Value
import BomEngine.Proofs.Traversal
import BomEngine.Purchase.Request
import BomEngine.Shortage.Reconciliation

/-!
# Requests for short lines

Whether a request can be made is asked of the labels of the lines and of the vendor, and
making it also asks each quantity to be above zero. The two agree on every line whose
label goes with its quantity. A line that is called short with nothing short on it passes
the first test and fails the second, and then the refusal is no fault of the engine.
-/

set_option autoImplicit false

namespace BomEngine

theorem mem_shortLines {lines : List NettedLine} {l : NettedLine} :
    l ∈ shortLines lines ↔ l ∈ lines ∧ l.status = .shortage := by
  rw [shortLines, List.mem_filter, NettedLine.isShort, beq_iff_eq]

def RequestLine.ordering (l : NettedLine) : RequestLine :=
  ⟨l.ipn, l.shortage, none, none, none, none⟩

namespace RequestLine

def unordered : Failure := .flaws "POLineCreate" [⟨[.field "qty_ordered"], .notAbove⟩]

theorem ofShort_pos {l : NettedLine} (h : 0 < l.shortage.value) : ofShort l = .ok (ordering l) :=
  if_pos ((Decimal.isPositive_iff _).mpr h)

theorem ofShort_not_pos {l : NettedLine} (h : l.shortage.value ≤ 0) :
    ofShort l = .error unordered :=
  if_neg (mt (Decimal.isPositive_iff _).mp (not_lt.mpr h))

end RequestLine

namespace PurchaseRequest

section
variable {lines : List NettedLine} {vendor : String}

theorem ofShort_all (h : ∀ l ∈ lines, 0 < l.shortage.value) :
    lines.mapM RequestLine.ofShort = .ok (lines.map RequestLine.ordering) := by
  rw [Traversal.mapM_ok_iff, List.forall₂_map_right_iff, List.forall₂_same]
  intro l hl
  exact RequestLine.ofShort_pos (h l hl)

theorem ofShort_some (h : ∃ l ∈ lines, l.shortage.value ≤ 0) :
    lines.mapM RequestLine.ofShort = .error RequestLine.unordered := by
  induction lines with
  | nil => simp at h
  | cons l rest ih =>
    rw [List.mapM_cons]
    by_cases hl : 0 < l.shortage.value
    · have hrest : ∃ m ∈ rest, m.shortage.value ≤ 0 := by simpa [not_le.mpr hl] using h
      rw [RequestLine.ofShort_pos hl, ih hrest]
      rfl
    · rw [RequestLine.ofShort_not_pos (not_lt.mp hl)]
      rfl

theorem ofLines_short (hvendor : vendor ≠ "") (hshort : ∃ l ∈ lines, l.status = .shortage)
    (h : ∀ l ∈ shortLines lines, 0 < l.shortage.value) (notes : Option String) :
    ofLines lines (some vendor) notes =
      .ok ⟨vendor, notes, (shortLines lines).map RequestLine.ordering⟩ := by
  have hchosen : ¬ vendor.isEmpty = true := by simpa [String.isEmpty_iff] using hvendor
  have hsome : ¬ (shortLines lines).isEmpty = true := by
    obtain ⟨l, hl, hs⟩ := hshort
    rw [List.isEmpty_iff]
    exact List.ne_nil_of_mem (mem_shortLines.mpr ⟨hl, hs⟩)
  rw [ofLines]
  simp only [Option.getD_some, if_neg hchosen, if_neg hsome, ofShort_all h]
  rfl

theorem ofLines_none (hvendor : vendor ≠ "") (hnone : ¬ ∃ l ∈ lines, l.status = .shortage)
    (notes : Option String) : ofLines lines (some vendor) notes =
      .error (.fault (.validation "No shortage lines to order" none)) := by
  have hchosen : ¬ vendor.isEmpty = true := by simpa [String.isEmpty_iff] using hvendor
  have hempty : (shortLines lines).isEmpty = true := by
    rw [List.isEmpty_iff, List.eq_nil_iff_forall_not_mem]
    intro l hl
    exact hnone ⟨l, mem_shortLines.mp hl⟩
  rw [ofLines]
  simp only [Option.getD_some, if_neg hchosen, if_pos hempty]

end

variable {lines : List NettedLine} {vendor notes : Option String}

theorem canGenerate_iff : canGenerate lines vendor = true ↔
    ∃ v, vendor = some v ∧ v ≠ "" ∧ shortLines lines ≠ [] := by
  cases vendor with
  | none => simp [canGenerate]
  | some v => simp [canGenerate]

theorem ofLines_of_not (h : canGenerate lines vendor = false) :
    ∃ f : Fault, f.kind = .validation ∧ ofLines lines vendor notes = .error (.fault f) := by
  rw [ofLines]
  by_cases hchosen : (vendor.getD "").isEmpty = true
  · simp only [if_pos hchosen]
    exact ⟨_, rfl, rfl⟩
  · have hempty : (shortLines lines).isEmpty = true := by
      by_contra hsome
      have hv : vendor = some (vendor.getD "") := by
        cases vendor with
        | none => simp at hchosen
        | some v => rfl
      have hcan := canGenerate_iff.mpr ⟨_, hv, by simpa [String.isEmpty_iff] using hchosen,
        by simpa using hsome⟩
      rw [h] at hcan
      cases hcan
    simp only [if_neg hchosen, if_pos hempty]
    exact ⟨_, rfl, rfl⟩

theorem ofLines_of_can (h : canGenerate lines vendor = true) :
    ofLines lines vendor notes = (shortLines lines).mapM RequestLine.ofShort >>= fun ordered =>
      .ok ⟨vendor.getD "", notes, ordered⟩ := by
  obtain ⟨v, rfl, hv, hsome⟩ := canGenerate_iff.mp h
  have hchosen : ¬ v.isEmpty = true := by simpa [String.isEmpty_iff] using hv
  have hlines : ¬ (shortLines lines).isEmpty = true := by simpa using hsome
  rw [ofLines]
  simp only [Option.getD_some, if_neg hchosen, if_neg hlines]
  rfl

/-- When there is a request, and what there is else. A request needs more than the test does:
something must be short on every line that is called short. A fault says why there is none exactly
where the test fails; a line with nothing short on it is refused in another way. -/
theorem ofLines_decided (lines : List NettedLine) (vendor notes : Option String) :
    ((∃ r, ofLines lines vendor notes = .ok r) ↔
      canGenerate lines vendor = true ∧ ∀ l ∈ shortLines lines, 0 < l.shortage.value) ∧
    ((∃ f, ofLines lines vendor notes = .error (.fault f)) ↔ canGenerate lines vendor = false) ∧
    (∀ f, ofLines lines vendor notes = .error (.fault f) → f.kind = .validation) ∧
    (ofLines lines vendor notes = .error RequestLine.unordered ↔
      canGenerate lines vendor = true ∧ ∃ l ∈ shortLines lines, l.shortage.value ≤ 0) := by
  cases hcan : canGenerate lines vendor with
  | false =>
    obtain ⟨f, hf, hrefused⟩ := @ofLines_of_not lines vendor notes hcan
    simp [hrefused, hf, RequestLine.unordered]
  | true =>
    rw [ofLines_of_can hcan]
    by_cases hall : ∀ l ∈ shortLines lines, 0 < l.shortage.value
    · have hnone : ¬ ∃ l ∈ shortLines lines, l.shortage.value ≤ 0 := by simpa using hall
      rw [ofShort_all hall]
      simp only [bind, Except.bind, hnone]
      simpa using hall
    · have hsome : ∃ l ∈ shortLines lines, l.shortage.value ≤ 0 := by simpa using hall
      rw [ofShort_some hsome]
      simp only [bind, Except.bind, hall, hsome]
      simp [RequestLine.unordered]

def contradictory : NettedLine :=
  ⟨"R-1", "", ⟨false, 5, 0⟩, ⟨false, 5, 0⟩, Decimal.zero, .shortage⟩

/-- A line as the service may send it, and as it stays where the service is trusted, passes the
test without there being a request for it, and without a fault that says so. -/
theorem canGenerate_without_request :
    Record.parse (Record.dump contradictory) = .ok contradictory ∧
    (Reconciliation.line true false contradictory).result = .ok (contradictory, true) ∧
    canGenerate [contradictory] (some "V-1") = true ∧
    (¬ ∃ r, ofLines [contradictory] (some "V-1") none = .ok r) ∧
    ¬ ∃ f, ofLines [contradictory] (some "V-1") none = .error (.fault f) := by
  have hrefused : ofLines [contradictory] (some "V-1") none = .error RequestLine.unordered := rfl
  refine ⟨by decide +kernel, by decide +kernel, rfl, ?_, ?_⟩ <;>
    simp [hrefused, RequestLine.unordered]

end PurchaseRequest
end BomEngine
