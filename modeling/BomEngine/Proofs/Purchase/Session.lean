import BomEngine.Proofs.Purchase.Order
import BomEngine.Proofs.Service.Effects

/-!
# Receiving sessions in any run

A session is followed through any calls of its user and any answers of the service.
What one call can do is said once: nothing but an error noted, one quantity entered
for a line with something due, or the order of an answer in place of the old one with
nothing entered any more. From this follows what holds after any run: what is entered
belongs to lines that are due, a receipt asks for no more than is due, the order is the
one last answered, and what went into an accepted receipt does not go into another.
-/

set_option autoImplicit false

namespace BomEngine
open Service

namespace ReceivingSession

inductive Call where
  | enter (line : Int) (typed : String)
  | submit (skipInspection : Bool) (answer : Result PurchaseOrder)

def Call.answered : Call → Option PurchaseOrder
  | .submit _ (.ok o) => some o
  | _ => none

def after (s : ReceivingSession) : Call → ReceivingSession
  | .enter line typed =>
    match s.enter line typed with
    | .ok t => t
    | .error _ => s
  | .submit skipInspection answer =>
    match s.request with
    | .ok lines => (s.settle skipInspection lines answer).2.2
    | .error _ => s

def afterAll (s : ReceivingSession) : List Call → ReceivingSession
  | [] => s
  | call :: calls => (s.after call).afterAll calls

theorem afterAll_append (s : ReceivingSession) (calls more : List Call) :
    s.afterAll (calls ++ more) = (s.afterAll calls).afterAll more := by
  induction calls generalizing s with
  | nil => rfl
  | cons call calls ih => exact ih _

def accepted (s : ReceivingSession) : Call → Option PurchaseOrder
  | .submit _ (.ok o) => s.request.toOption.map fun _ => o
  | _ => none

def receipts (s : ReceivingSession) : List Call → List PurchaseOrder
  | [] => []
  | call :: calls => (s.accepted call).toList ++ (s.after call).receipts calls

def dueLines (s : ReceivingSession) : List (OrderLine × Decimal) :=
  if s.isReceivable then PurchaseOrder.dues s.order.lines else []

theorem lines_eq {s : ReceivingSession} (h : s.order.Measured) : s.lines = .ok s.dueLines :=
  PurchaseOrder.receivable_eq h s.openStatuses

def payload (s : ReceivingSession) : List ReceiptLine :=
  ((clampedOn s.entered s.dueLines).filter fun q => q.2.isPositive).map fun q => ⟨q.1, q.2⟩

theorem receiptLines_eq {s : ReceivingSession} (h : s.order.Measured) :
    s.receiptLines = .ok s.payload := by
  rw [receiptLines, clamped, lines_eq h]
  rfl

theorem canSubmit_eq {s : ReceivingSession} (h : s.order.Measured) :
    s.canSubmit = .ok (s.isReceivable && !s.payload.isEmpty) := by
  rw [canSubmit, receiptLines_eq h]
  cases s.isReceivable <;> rfl

theorem payload_of_request {s : ReceivingSession} {sent : List ReceiptLine}
    (hs : s.order.Measured) (h : s.request = .ok sent) :
    sent = s.payload ∧ s.isReceivable = true ∧ s.payload ≠ [] := by
  rw [request, receiptLines_eq hs] at h
  split at h
  · next hr =>
    cases hp : s.payload with
    | nil =>
      rw [hp] at h
      cases h
    | cons q rest =>
      rw [hp] at h
      cases h
      exact ⟨rfl, hr, by simp⟩
  · cases h

theorem measured_of_request {s : ReceivingSession} {sent : List ReceiptLine}
    (h : s.request = .ok sent) : s.order.Measured := by
  unfold request at h
  split at h
  · next hopen =>
    have hreceivable : s.order.receivable s.openStatuses =
        PurchaseOrder.pendingLines s.order.lines := if_pos hopen
    cases hp : PurchaseOrder.pendingLines s.order.lines with
    | ok due => exact PurchaseOrder.measured_of_pendingLines hp
    | error e =>
      rw [receiptLines, clamped, lines, hreceivable, hp] at h
      cases h
  · cases h

theorem request_cases {s : ReceivingSession} (hs : s.order.Measured) :
    (s.canSubmit = .ok true ∧ s.request = .ok s.payload) ∨
    (s.canSubmit = .ok false ∧ ∃ f : Fault, s.request = .error (.fault f) ∧
      (f.kind = .invalidState ∨ f.kind = .validation)) := by
  rw [canSubmit_eq hs, request, receiptLines_eq hs]
  cases hr : s.isReceivable with
  | false => exact .inr ⟨rfl, _, rfl, .inl rfl⟩
  | true =>
    cases s.payload with
    | nil => exact .inr ⟨rfl, _, rfl, .inr rfl⟩
    | cons q rest => exact .inl ⟨rfl, rfl⟩

theorem clampedOn_append (entered : Entered) (lines : List (OrderLine × Decimal))
    (l : OrderLine × Decimal) : clampedOn entered (lines ++ [l]) =
      match entered.lookup l.1.id with
      | some typed => putEntry l.1.id (Quantity.clamp l.2 (Quantity.ofText typed))
          (clampedOn entered lines)
      | none => clampedOn entered lines := by
  unfold clampedOn
  rw [List.foldl_append]
  rfl

theorem nodup_clampedOn (entered : Entered) (lines : List (OrderLine × Decimal)) :
    ((clampedOn entered lines).map Prod.fst).Nodup := by
  induction lines using List.reverseRecOn with
  | nil => exact List.nodup_nil
  | append_singleton lines l ih =>
    rw [clampedOn_append]
    cases entered.lookup l.1.id with
    | none => exact ih
    | some typed => exact nodup_putEntry ih _ _

theorem mem_clampedOn {entered : Entered} {lines : List (OrderLine × Decimal)} {id : Int}
    {qty : Decimal} (h : (id, qty) ∈ clampedOn entered lines) : ∃ l ∈ lines, l.1.id = id ∧
      ∃ typed, entered.lookup id = some typed ∧
        qty = Quantity.clamp l.2 (Quantity.ofText typed) := by
  induction lines using List.reverseRecOn with
  | nil => cases h
  | append_singleton lines l ih =>
    rw [clampedOn_append] at h
    have hbefore : (id, qty) ∈ clampedOn entered lines → ∃ m ∈ lines ++ [l], m.1.id = id ∧
        ∃ typed, entered.lookup id = some typed ∧
          qty = Quantity.clamp m.2 (Quantity.ofText typed) := fun hq => by
      obtain ⟨m, hm, hrest⟩ := ih hq
      exact ⟨m, List.mem_append_left _ hm, hrest⟩
    cases hl : entered.lookup l.1.id with
    | none =>
      simp only [hl] at h
      exact hbefore h
    | some typed =>
      simp only [hl] at h
      rcases mem_putEntry h with he | h
      · obtain ⟨rfl, hqty⟩ := Prod.mk.inj he
        exact ⟨l, by simp, rfl, typed, hl, hqty⟩
      · exact hbefore h

/-- Lines of a receipt that a session may send: each for a line of the order, with the
quantity entered for it as far as that is due. -/
structure Covers (s : ReceivingSession) (sent : List ReceiptLine) : Prop where
  nonempty : sent ≠ []
  nodup : (sent.map ReceiptLine.line).Nodup
  due : ∀ q ∈ sent, ∃ typed l p, (q.line, typed) ∈ s.entered ∧ l ∈ s.order.lines ∧
    l.id = q.line ∧ l.pending = .ok p ∧ q.qty = Quantity.clamp p (Quantity.ofText typed) ∧
    0 < q.qty.value ∧ q.qty.value ≤ p.value

theorem covers_payload {s : ReceivingSession} (hs : s.order.Measured) (hp : s.payload ≠ []) :
    s.Covers s.payload := by
  refine ⟨hp, ?_, fun q hq => ?_⟩
  · have hids : (s.payload.map ReceiptLine.line).Sublist
        ((clampedOn s.entered s.dueLines).map Prod.fst) := by
      rw [payload, List.map_map]
      exact List.filter_sublist.map _
    exact hids.nodup (nodup_clampedOn _ _)
  · obtain ⟨⟨id, qty⟩, hr, rfl⟩ := List.mem_map.mp hq
    obtain ⟨hr, hpos⟩ := List.mem_filter.mp hr
    obtain ⟨l, hl, hid, typed, htyped, hqty⟩ := mem_clampedOn hr
    unfold dueLines at hl
    split at hl
    · obtain ⟨hmem, hdue, hdpos⟩ := PurchaseOrder.mem_dues.mp hl
      refine ⟨typed, l.1, l.2, mem_of_lookup htyped, hmem, hid, ?_, hqty, ?_, ?_⟩
      · rw [hdue]
        exact OrderLine.pending_due (hs l.1 hmem)
      · exact (Decimal.isPositive_iff _).mp hpos
      · have hle := Quantity.clamp_le hdpos.le (Quantity.ofText typed)
        rwa [← hqty] at hle
    · cases hl

theorem submit_refused {s : ReceivingSession} {e : Failure} (h : s.request = .error e)
    (c : OpsClient) (skipInspection : Bool) (w : World) :
    s.submit c skipInspection w = (.ok (.error e, s), w) := by
  rw [submit, h]
  rfl

theorem submit_sent {s : ReceivingSession} {sent : List ReceiptLine} (h : s.request = .ok sent)
    {c : OpsClient} {skipInspection : Bool} {w w' : World} {answer : Result PurchaseOrder}
    (ha : c.submitReceipt s.order.id sent skipInspection w = (answer, w')) :
    s.submit c skipInspection w =
      (.ok ((s.settle skipInspection sent answer).2.1, s.after (.submit skipInspection answer)),
        w'.noting (s.settle skipInspection sent answer).1) := by
  rw [submit, h, after, h]
  simp only
  rw [Act.bind_of_ok (Act.attempt_apply ha), Act.settled_apply]

theorem enter_ok {s t : ReceivingSession} {id : Int} {typed : String}
    (h : s.enter id typed = .ok t) : ∃ l p, s.order.lines.find? (fun l => l.id == id) = some l ∧
      l.pending = .ok p ∧ 0 < p.value ∧ s.isReceivable = true ∧
      t = { s with entered := putEntry id typed s.entered } := by
  unfold enter at h
  split at h
  · cases h
  · next l hl =>
    split at h
    · cases h
    · next p hp =>
      split at h
      · next hc =>
        obtain ⟨hpos, hr⟩ := (Bool.and_eq_true _ _).mp hc
        cases h
        exact ⟨l, p, hl, hp, (Decimal.isPositive_iff p).mp hpos, hr, rfl⟩
      · cases h

theorem settle_answered (s : ReceivingSession) (skipInspection : Bool) (sent : List ReceiptLine)
    {answer : Result PurchaseOrder} (h : ∀ o, answer = .ok o → o.Measured) :
    (s.settle skipInspection sent answer).2.1 = answer := by
  cases answer with
  | error e => cases e <;> rfl
  | ok o =>
    obtain ⟨status, hs⟩ := PurchaseOrder.expectedStatus_ok (h o rfl)
    rw [settle, hs]

theorem answer_of_settle {s : ReceivingSession} {skipInspection : Bool} {sent : List ReceiptLine}
    {answer : Result PurchaseOrder} {o : PurchaseOrder}
    (h : (s.settle skipInspection sent answer).2.1 = .ok o) : answer = .ok o := by
  cases answer with
  | error e => cases e <;> cases h
  | ok o' =>
    rw [settle] at h
    split at h
    · cases h
    · exact h

theorem settle_accepted (s : ReceivingSession) (skipInspection : Bool) (sent : List ReceiptLine)
    {o : PurchaseOrder} (h : o.Measured) :
    (s.settle skipInspection sent (.ok o)).2.2 = s.refreshed o := by
  obtain ⟨status, hs⟩ := PurchaseOrder.expectedStatus_ok h
  rw [settle, hs]

theorem settle_rejected (s : ReceivingSession) (skipInspection : Bool) (sent : List ReceiptLine)
    (e : Failure) : ∃ error, (s.settle skipInspection sent (.error e)).2.2 =
      { s with error := error } := by
  cases e <;> exact ⟨_, rfl⟩

theorem accepted_eq_some {s : ReceivingSession} {call : Call} {o : PurchaseOrder} :
    s.accepted call = some o ↔ (∃ sent, s.request = .ok sent) ∧ call.answered = some o := by
  cases call with
  | enter id typed => simp [accepted, Call.answered]
  | submit skip answer =>
    cases answer with
    | error e => simp [accepted, Call.answered]
    | ok o' => cases hq : s.request <;> simp [accepted, hq, Except.toOption, Call.answered]

/-- What a call can do: nothing but a change of the error, a quantity entered, or an order
brought in. -/
theorem after_cases (s : ReceivingSession) (call : Call)
    (h : ∀ o, s.accepted call = some o → o.Measured) :
    (s.accepted call = none ∧ ∃ error, s.after call = { s with error := error }) ∨
    (s.accepted call = none ∧ ∃ id typed l p, call = .enter id typed ∧
      s.order.lines.find? (fun l => l.id == id) = some l ∧ l.pending = .ok p ∧ 0 < p.value ∧
      s.isReceivable = true ∧ s.after call = { s with entered := putEntry id typed s.entered }) ∨
    ∃ o, s.accepted call = some o ∧ s.after call = s.refreshed o := by
  cases call with
  | enter id typed =>
    rw [after]
    cases he : s.enter id typed with
    | error e => exact .inl ⟨rfl, s.error, rfl⟩
    | ok t =>
      obtain ⟨l, p, hl, hp, hpos, hr, rfl⟩ := enter_ok he
      exact .inr (.inl ⟨rfl, id, typed, l, p, rfl, hl, hp, hpos, hr, rfl⟩)
  | submit skip answer =>
    rw [after]
    cases hq : s.request with
    | error e =>
      refine .inl ⟨?_, s.error, rfl⟩
      cases answer <;> simp [accepted, hq, Except.toOption]
    | ok sent =>
      cases answer with
      | error e => exact .inl ⟨rfl, s.settle_rejected skip sent e⟩
      | ok o =>
        have ho : s.accepted (.submit skip (.ok o)) = some o := by
          simp [accepted, hq, Except.toOption]
        exact .inr (.inr ⟨o, ho, s.settle_accepted skip sent (h o ho)⟩)

theorem measured_accepted {s : ReceivingSession} {call : Call}
    (h : ∀ o ∈ call.answered, o.Measured) (o : PurchaseOrder) (ho : s.accepted call = some o) :
    o.Measured :=
  h o (accepted_eq_some.mp ho).2

/-- What is entered belongs to lines of an open order that have something due. -/
structure Consistent (s : ReceivingSession) : Prop where
  due : ∀ e ∈ s.entered, ∃ l p, s.order.lines.find? (fun l => l.id == e.1) = some l ∧
    l.pending = .ok p ∧ 0 < p.value
  receivable : s.entered ≠ [] → s.isReceivable = true

theorem consistent_after {s : ReceivingSession} {call : Call} (hs : s.Consistent)
    (h : ∀ o, s.accepted call = some o → o.Measured) : (s.after call).Consistent := by
  rcases s.after_cases call h with ⟨-, error, ha⟩ |
    ⟨-, id, typed, l, p, -, hl, hp, hpos, hr, ha⟩ | ⟨o, -, ha⟩ <;> rw [ha]
  · exact ⟨hs.due, hs.receivable⟩
  · refine ⟨fun e he => ?_, fun _ => hr⟩
    rcases mem_putEntry he with rfl | he
    · exact ⟨l, p, hl, hp, hpos⟩
    · exact hs.due e he
  · exact ⟨fun e he => (nomatch he), fun hne => absurd rfl hne⟩

theorem measured_after {s : ReceivingSession} {call : Call} (hs : s.order.Measured)
    (h : ∀ o, s.accepted call = some o → o.Measured) : (s.after call).order.Measured := by
  rcases s.after_cases call h with ⟨-, error, ha⟩ |
    ⟨-, id, typed, l, p, -, hl, hp, hpos, hr, ha⟩ | ⟨o, ho, ha⟩ <;> rw [ha]
  · exact hs
  · exact hs
  · exact h o ho

theorem consistent_afterAll {s : ReceivingSession} {calls : List Call} (hs : s.Consistent)
    (hm : s.order.Measured) (h : ∀ call ∈ calls, ∀ o ∈ call.answered, o.Measured) :
    (s.afterAll calls).Consistent ∧ (s.afterAll calls).order.Measured := by
  induction calls generalizing s with
  | nil => exact ⟨hs, hm⟩
  | cons call calls ih =>
    have hcall : ∀ o, s.accepted call = some o → o.Measured :=
      measured_accepted (h call (by simp))
    exact ih (consistent_after hs hcall) (measured_after hm hcall)
      fun c hc => h c (by simp [hc])

theorem order_afterAll {s : ReceivingSession} {calls : List Call}
    (h : ∀ call ∈ calls, ∀ o ∈ call.answered, o.Measured) :
    (s.afterAll calls).order = (s.receipts calls).getLastD s.order := by
  induction calls generalizing s with
  | nil => rfl
  | cons call calls ih =>
    rw [afterAll, receipts, ih fun c hc => h c (by simp [hc])]
    rcases s.after_cases call (measured_accepted (h call (by simp))) with ⟨hn, error, ha⟩ |
      ⟨hn, id, typed, l, p, -, -, -, -, -, ha⟩ | ⟨o, hn, ha⟩ <;> rw [hn, ha]
    · rfl
    · rfl
    · exact (List.getLastD_cons ..).symm

theorem entered_afterAll {s : ReceivingSession} {calls : List Call}
    (h : ∀ call ∈ calls, ∀ o ∈ call.answered, o.Measured) :
    ∀ e ∈ (s.afterAll calls).entered, e ∈ s.entered ∨ Call.enter e.1 e.2 ∈ calls := by
  induction calls generalizing s with
  | nil => exact fun e he => .inl he
  | cons call calls ih =>
    intro e he
    rcases ih (fun c hc => h c (by simp [hc])) e he with hin | hin
    · rcases s.after_cases call (measured_accepted (h call (by simp))) with ⟨-, error, ha⟩ |
        ⟨-, id, typed, l, p, rfl, -, -, -, -, ha⟩ | ⟨o, -, ha⟩ <;> rw [ha] at hin
      · exact .inl hin
      · rcases mem_putEntry hin with rfl | hin
        · exact .inr (by simp)
        · exact .inl hin
      · cases hin
    · exact .inr (by simp [hin])

theorem consistent_start (configured : List String) (given : Option (List String))
    (order : PurchaseOrder) : (start configured given order).Consistent :=
  ⟨fun _ he => (nomatch he), fun h => absurd rfl h⟩

/-- After any calls and answers: what is entered belongs to lines with something due, on an open
order. A submission sends a receipt exactly if one can be submitted, and then lines that the
session covers; otherwise it fails and leaves world and session as they are. The order is the one
that was last answered. What is entered after an accepted receipt was entered since, and a failed
one changes neither order nor entries. -/
theorem afterAll_receives (configured : List String) (given : Option (List String))
    (order : PurchaseOrder) (calls : List Call) (horder : order.Measured)
    (hanswers : ∀ call ∈ calls, ∀ o ∈ call.answered, o.Measured) :
    let first := start configured given order
    let s := first.afterAll calls
    ((∀ e ∈ s.entered, ∃ l p, s.order.lines.find? (fun l => l.id == e.1) = some l ∧
        l.pending = .ok p ∧ 0 < p.value) ∧
      (s.entered ≠ [] → s.isReceivable = true)) ∧
    ((s.canSubmit = .ok true ∧ ∃ sent, s.Covers sent ∧
        ∀ (c : OpsClient) (skipInspection : Bool) (w w' : World) (answer : Result PurchaseOrder),
          c.submitReceipt s.order.id sent skipInspection w = (answer, w') →
          (∀ o, answer = .ok o → o.Measured) →
          ∃ records, s.submit c skipInspection w =
            (.ok (answer, s.after (.submit skipInspection answer)), w'.noting records)) ∨
      (s.canSubmit = .ok false ∧ ∃ f : Fault, (f.kind = .invalidState ∨ f.kind = .validation) ∧
        ∀ (c : OpsClient) (skipInspection : Bool) (w : World) (answer : Result PurchaseOrder),
          s.submit c skipInspection w = (.ok (.error (.fault f), s), w) ∧
          s.after (.submit skipInspection answer) = s)) ∧
    s.order = (first.receipts calls).getLastD order ∧
    (∀ before call between, calls = before ++ call :: between →
      ((first.afterAll before).accepted call).isSome = true →
      ∀ e ∈ s.entered, Call.enter e.1 e.2 ∈ between) ∧
    ∀ (skipInspection : Bool) (e : Failure),
      (s.after (.submit skipInspection (.error e))).order = s.order ∧
      (s.after (.submit skipInspection (.error e))).entered = s.entered := by
  intro first s
  obtain ⟨hs, hm⟩ := consistent_afterAll (consistent_start configured given order) horder hanswers
  refine ⟨⟨hs.due, hs.receivable⟩, ?_, order_afterAll hanswers, ?_, ?_⟩
  · rcases request_cases hm with ⟨hcan, hsent⟩ | ⟨hcan, f, hrefused, hf⟩
    · refine .inl ⟨hcan, _, covers_payload hm (payload_of_request hm hsent).2.2, ?_⟩
      intro c skip w w' answer ha hanswer
      refine ⟨(s.settle skip s.payload answer).1, ?_⟩
      rw [submit_sent hsent ha, settle_answered _ _ _ hanswer]
    · refine .inr ⟨hcan, f, hf, fun c skip w answer => ⟨submit_refused hrefused c skip w, ?_⟩⟩
      rw [after, hrefused]
  · intro before call between hcalls haccepted e he
    subst hcalls
    have hbefore := fun c hc => hanswers c (List.mem_append_left _ hc)
    have hrest := fun c hc => hanswers c (List.mem_append_right before hc)
    simp only [s, afterAll_append, afterAll] at he
    rcases after_cases (first.afterAll before) call
      (measured_accepted (hrest call (by simp))) with ⟨hn, -⟩ | ⟨hn, -⟩ | ⟨o, -, ha⟩
    · simp [hn] at haccepted
    · simp [hn] at haccepted
    · rw [ha] at he
      rcases entered_afterAll (fun c hc => hrest c (by simp [hc])) e he with hin | hin
      · cases hin
      · exact hin
  · intro skip e
    rcases after_cases s (.submit skip (.error e)) (fun o ho => nomatch ho) with
      ⟨-, error, ha⟩ | ⟨-, id, typed, l, p, hc, -⟩ | ⟨o, ho, -⟩
    · rw [ha]
      exact ⟨rfl, rfl⟩
    · cases hc
    · cases ho

def benchLine (id : Int) (ordered received : Nat) : OrderLine :=
  ⟨id, "R-1", none, none, ⟨false, ordered, 0⟩, ⟨false, received, 0⟩, none, none⟩

def benchOrder (status : String) (received : Nat) : PurchaseOrder :=
  ⟨"PO-1", none, status, none, none, none, none, [benchLine 1 10 received, benchLine 2 5 0]⟩

def benchCalls : List Call :=
  [.enter 1 "8", .submit false (.error (.fault (.unavailable "Operations API" "timed out"))),
    .submit false (.ok (benchOrder "partial" 10)), .enter 2 " 2.5 "]

theorem afterAll_receives_bench :
    (benchOrder "submitted" 4).Measured ∧
    (∀ call ∈ benchCalls, ∀ o ∈ call.answered, o.Measured) ∧
    let s := (start ["submitted", "partial"] none (benchOrder "submitted" 4)).afterAll benchCalls
    s.entered = [(2, " 2.5 ")] ∧ s.isReceivable = true ∧ s.order = benchOrder "partial" 10 := by
  have horder : (benchOrder "submitted" 4).Measured := by decide +kernel
  have hanswers : ∀ call ∈ benchCalls, ∀ o ∈ call.answered, o.Measured := by
    have ho : (benchOrder "partial" 10).Measured := by decide +kernel
    simp [benchCalls, Call.answered, ho]
  have hentered : ((start ["submitted", "partial"] none (benchOrder "submitted" 4)).afterAll
      benchCalls).entered = [(2, " 2.5 ")] := by decide +kernel
  obtain ⟨⟨-, hopen⟩, -, hlast, -⟩ :=
    afterAll_receives ["submitted", "partial"] none _ benchCalls horder hanswers
  refine ⟨horder, hanswers, hentered, hopen (by simp [hentered]), hlast.trans ?_⟩
  decide +kernel

end ReceivingSession
end BomEngine
