import BomEngine.Proofs.Purchase.Session

/-!
# Entering quantities for several lines

On an order with distinct ids a session takes a quantity exactly for the lines that it
shows. Quantities for other ids are refused with a reason, and the first of them ends
the entering. What is taken is clamped line by line, in the order of the lines.
-/

set_option autoImplicit false

namespace BomEngine

namespace PurchaseOrder

/-- Why no quantity is taken for an id: no line has it, or the line accepts no receipt. -/
def Refuses (o : PurchaseOrder) (id : Int) (f : Fault) : Prop :=
  (id ∉ o.lines.map OrderLine.id ∧ f = .notFound "PO line" (some (toString id))) ∨
    (id ∈ o.lines.map OrderLine.id ∧ f.kind = .invalidState)

end PurchaseOrder

namespace ReceivingSession

variable {s : ReceivingSession}

def dueIds (s : ReceivingSession) : List Int := s.dueLines.map fun l => l.1.id

theorem dueIds_sublist (s : ReceivingSession) :
    s.dueIds.Sublist (s.order.lines.map OrderLine.id) := by
  unfold dueIds dueLines
  split
  · exact PurchaseOrder.dues_ids s.order.lines
  · exact List.nil_sublist _

theorem mem_dueIds {id : Int} : id ∈ s.dueIds ↔ s.isReceivable = true ∧
    ∃ l ∈ s.order.lines, l.id = id ∧ 0 < l.due.value := by
  unfold dueIds dueLines
  constructor
  · intro h
    obtain ⟨⟨l, due⟩, hl, rfl⟩ := List.mem_map.mp h
    split at hl
    · next hr =>
      obtain ⟨hm, hdue, hpos⟩ := PurchaseOrder.mem_dues.mp hl
      exact ⟨hr, l, hm, rfl, hdue ▸ hpos⟩
    · cases hl
  · rintro ⟨hr, l, hm, rfl, hpos⟩
    rw [if_pos hr]
    exact List.mem_map.mpr ⟨(l, l.due), PurchaseOrder.mem_dues.mpr ⟨hm, rfl, hpos⟩, rfl⟩

theorem dueLines_pos (s : ReceivingSession) {l : OrderLine × Decimal} (h : l ∈ s.dueLines) :
    0 < l.2.value := by
  unfold dueLines at h
  split at h
  · exact (PurchaseOrder.mem_dues.mp h).2.2
  · cases h

theorem find_line (hids : (s.order.lines.map OrderLine.id).Nodup) {l : OrderLine}
    (hl : l ∈ s.order.lines) : s.order.lines.find? (fun m => m.id == l.id) = some l := by
  cases hf : s.order.lines.find? fun m => m.id == l.id with
  | none => simpa using List.find?_eq_none.mp hf l hl
  | some m =>
    have hm : m ∈ s.order.lines := List.mem_of_find?_eq_some hf
    have he : m.id = l.id := by simpa using List.find?_some hf
    exact congrArg some (List.inj_on_of_nodup_map hids hm hl he)

theorem enter_due (hs : s.order.Measured) (hids : (s.order.lines.map OrderLine.id).Nodup)
    {id : Int} (h : id ∈ s.dueIds) (typed : String) :
    s.enter id typed = .ok { s with entered := putEntry id typed s.entered } := by
  obtain ⟨hr, l, hl, rfl, hpos⟩ := mem_dueIds.mp h
  have hp : (l.due.isPositive && s.isReceivable) = true := by
    rw [hr, Bool.and_true]
    exact (Decimal.isPositive_iff _).mpr hpos
  rw [enter, find_line hids hl]
  simp only [OrderLine.pending_due (hs l hl), if_pos hp]

theorem enter_refused (hs : s.order.Measured) {id : Int} (h : id ∉ s.dueIds) (typed : String) :
    ∃ f, s.order.Refuses id f ∧ s.enter id typed = .error (.fault f) := by
  cases hf : s.order.lines.find? fun l => l.id == id with
  | none =>
    have hunknown : id ∉ s.order.lines.map OrderLine.id := fun hid => by
      obtain ⟨l, hl, he⟩ := List.mem_map.mp hid
      simpa [he] using List.find?_eq_none.mp hf l hl
    exact ⟨_, .inl ⟨hunknown, rfl⟩, by rw [enter, hf]⟩
  | some l =>
    have hl : l ∈ s.order.lines := List.mem_of_find?_eq_some hf
    have he : l.id = id := by simpa using List.find?_some hf
    have hp : (l.due.isPositive && s.isReceivable) ≠ true := fun hp => by
      obtain ⟨hpos, hr⟩ := (Bool.and_eq_true _ _).mp hp
      exact h (mem_dueIds.mpr ⟨hr, l, hl, he, (Decimal.isPositive_iff _).mp hpos⟩)
    have hrefused : s.enter id typed =
        .error (s.notReceivable ("Line " ++ toString id ++ " is not receivable")) := by
      rw [enter, hf]
      simp only [OrderLine.pending_due (hs l hl), if_neg hp]
    exact ⟨.invalidState _ _ _, .inr ⟨List.mem_map.mpr ⟨l, hl, he⟩, rfl⟩, hrefused⟩

theorem enterAll_due (hs : s.order.Measured) (hids : (s.order.lines.map OrderLine.id).Nodup)
    {quantities : Entered} (h : ∀ e ∈ quantities, e.1 ∈ s.dueIds)
    (hnew : ((s.entered ++ quantities).map Prod.fst).Nodup) :
    s.enterAll quantities = .ok { s with entered := s.entered ++ quantities } := by
  induction quantities generalizing s with
  | nil => simp [enterAll, pure, Except.pure]
  | cons e rest ih =>
    have he : e.1 ∉ s.entered.map Prod.fst := by
      rw [List.map_append, List.map_cons] at hnew
      exact fun hm => (List.nodup_append.mp hnew).2.2 _ hm _ (by simp) rfl
    have hfirst : s.enter e.1 e.2 = .ok { s with entered := s.entered ++ [e] } := by
      rw [enter_due hs hids (h e (by simp)), putEntry_of_new he]
    have hrest := @ih { s with entered := s.entered ++ [e] } hs hids
      (fun x hx => h x (by simp [hx])) (by simpa using hnew)
    rw [enterAll, List.foldlM_cons, hfirst]
    refine Eq.trans hrest ?_
    simp

theorem enterAll_refused (hs : s.order.Measured) (hids : (s.order.lines.map OrderLine.id).Nodup)
    {before after : Entered} {e : Int × String} (h : ∀ x ∈ before, x.1 ∈ s.dueIds)
    (he : e.1 ∉ s.dueIds) (hnew : ((s.entered ++ before).map Prod.fst).Nodup) :
    ∃ f, s.order.Refuses e.1 f ∧ s.enterAll (before ++ e :: after) = .error (.fault f) := by
  have hbefore := enterAll_due hs hids h hnew
  obtain ⟨f, hf, hrefused⟩ :=
    @enter_refused { s with entered := s.entered ++ before } hs e.1 he e.2
  refine ⟨f, hf, ?_⟩
  rw [enterAll] at hbefore ⊢
  rw [List.foldlM_append, hbefore]
  simp only [bind, Except.bind]
  rw [List.foldlM_cons, hrefused]
  rfl

theorem clampedOn_of_nodup {entered : Entered} {lines : List (OrderLine × Decimal)}
    (h : (lines.map fun l => l.1.id).Nodup) :
    clampedOn entered lines = lines.filterMap fun l => (entered.lookup l.1.id).map fun typed =>
      (l.1.id, Quantity.clamp l.2 (Quantity.ofText typed)) := by
  induction lines using List.reverseRecOn with
  | nil => rfl
  | append_singleton lines l ih =>
    rw [List.map_append, List.nodup_append] at h
    have hnew : l.1.id ∉ (clampedOn entered lines).map Prod.fst := fun hm => by
      obtain ⟨⟨id, qty⟩, hq, he⟩ := List.mem_map.mp hm
      obtain ⟨m, hm, hid, -⟩ := mem_clampedOn hq
      exact h.2.2 _ (List.mem_map_of_mem hm) l.1.id (by simp) (hid.trans he)
    rw [clampedOn_append, List.filterMap_append, ← ih h.1]
    cases hl : entered.lookup l.1.id with
    | none => simp [hl]
    | some typed =>
      simp only [putEntry_of_new hnew]
      simp [hl]

end ReceivingSession

end BomEngine
