import BomEngine.Proofs.Purchase.Dialog
import BomEngine.Proofs.Purchase.Session

/-!
# Submissions made again

A submission that the service rejects leaves everything as it was but for the error, so that it
can be made again. However often it is rejected, the same request is sent each time, and the
first success leads to the state that it would have led to at once. What fails before anything
is sent changes nothing at all. Receiving sessions and order dialogs have this in common.
-/

set_option autoImplicit false

namespace BomEngine
open Service

namespace Act

variable {α σ : Type}

/-- Makes a submission so many times, each time from the state that the one before has left: what
each of them gives, with the state after it. -/
def again (submit : σ → Act (Result α × σ)) : ℕ → σ → Act (List (Result α × σ))
  | 0, _ => pure []
  | n + 1, s => do
    let made ← submit s
    let rest ← again submit n made.2
    return made :: rest

def answers (send : Act α) (submit : σ → Act (Result α × σ)) : ℕ → σ → World → List (Result α)
  | 0, _, _ => []
  | n + 1, s, w => (send w).1 ::
      match submit s w with
      | (.ok made, w') => answers send submit n made.2 w'
      | (.error _, _) => []

def rejection (f : Fault) : Result α := .error (.fault f)

/-- Submissions from states that are alike: they send the same, an answer leads to one state from
all of them, and a rejection to one that is alike again. -/
structure Repeats (send : Act α) (submit : σ → Act (Result α × σ)) (alike : σ → Prop)
    (settled : Result α → Result α × σ) (success : α) : Prop where
  rejected : ∀ {s w w' f}, alike s → send w = (rejection f, w') →
    ∃ records, submit s w = (.ok (settled (rejection f)), w'.noting records)
  accepted : ∀ {s w w'}, alike s → send w = (.ok success, w') →
    ∃ records, submit s w = (.ok (settled (.ok success)), w'.noting records)
  alike_settled : ∀ f, alike (settled (rejection f)).2

variable {send : Act α} {submit : σ → Act (Result α × σ)} {alike : σ → Prop}
  {settled : Result α → Result α × σ} {success : α}

theorem sent_noting {q : Request} (hsend : Sends send [q]) {w w' : World} {answer : Result α}
    (ha : send w = (answer, w')) (records : List LogRecord) :
    (w'.noting records).sent = w.sent ++ [q] := by
  have hw := hsend w
  rwa [ha] at hw

/-- Any number of rejections and then a success: each of them is settled as if it were the only
one, and the same request is sent each time. -/
theorem again_answered (h : Repeats send submit alike settled success) {q : Request}
    (hsend : Sends send [q]) {faults : List Fault} {s : σ} {w : World} (hs : alike s)
    (ha : answers send submit (faults.length + 1) s w =
      faults.map rejection ++ [Except.ok success]) :
    ∃ w', again submit (faults.length + 1) s w =
        (.ok ((faults.map rejection ++ [Except.ok success]).map settled), w') ∧
      w'.sent = w.sent ++ List.replicate (faults.length + 1) q := by
  induction faults generalizing s w with
  | nil =>
    have hanswer := (List.cons.inj ha).1
    have hsent := Prod.ext (x := send w) (y := (_, _)) hanswer rfl
    obtain ⟨records, hmade⟩ := h.accepted hs hsent
    refine ⟨_, ?_, sent_noting hsend hsent records⟩
    rw [again, bind_of_ok hmade]
    rfl
  | cons f faults ih =>
    obtain ⟨hanswer, hrest⟩ := List.cons.inj ha
    have hsent := Prod.ext (x := send w) (y := (_, _)) hanswer rfl
    obtain ⟨records, hmade⟩ := h.rejected hs hsent
    rw [hmade] at hrest
    obtain ⟨w', hagain, hw'⟩ := ih (h.alike_settled f) hrest
    refine ⟨w', ?_, ?_⟩
    · rw [List.length_cons, again, bind_of_ok hmade, bind_of_ok hagain]
      rfl
    · rw [hw', sent_noting hsend hsent, List.append_assoc]
      rfl

/-- Rejected any number of times before it succeeds, a submission sends the same request each time.
Every rejection is given back and leaves the state for its message, and the success leads to a
state in which no rejection has left a trace. -/
def Retried (c : OpsClient) (r : OpsClient.Resource) (send : Act α)
    (submit : σ → Act (Result α × σ)) (s : σ) (rejected : String → σ) (success : α)
    (done : σ) : Prop :=
  ∀ (faults : List Fault) (w : World),
    answers send submit (faults.length + 1) s w = faults.map rejection ++ [Except.ok success] →
    ∃ q w', c.requestFor r = .ok q ∧ w'.sent = w.sent ++ List.replicate (faults.length + 1) q ∧
      again submit (faults.length + 1) s w =
        (.ok (faults.map (fun f => (rejection f, rejected f.message)) ++ [(.ok success, done)]), w')

theorem requestFor_of_answered {c : OpsClient} {r : OpsClient.Resource} {read : Json → Act α}
    {faults : List Fault} {s : σ} {w : World}
    (h : answers (c.fetch r >>= read) submit (faults.length + 1) s w =
      faults.map rejection ++ [Except.ok success]) :
    ∃ q, c.requestFor r = .ok q := by
  cases faults with
  | nil =>
    have hsent := Prod.ext (x := (c.fetch r >>= read) w) (y := (_, _)) (List.cons.inj h).1 rfl
    exact OpsClient.requestFor_of_outcome (congrArg Prod.fst (outcome_of_ok hsent))
  | cons f faults =>
    have hsent := Prod.ext (x := (c.fetch r >>= read) w) (y := (_, _)) (List.cons.inj h).1 rfl
    exact OpsClient.requestFor_of_outcome (congrArg Prod.fst (outcome_of_fault hsent))

theorem retried_of_repeats {c : OpsClient} {r : OpsClient.Resource} {read : Json → Act α}
    (h : Repeats (c.fetch r >>= read) submit alike settled success)
    (hsend : Sends (c.fetch r >>= read) (c.requests r)) {s : σ} (hs : alike s)
    {rejected : String → σ}
    (hrejected : ∀ f, settled (rejection f) = (rejection f, rejected f.message))
    {done : σ} (hdone : settled (.ok success) = (.ok success, done)) :
    Retried c r (c.fetch r >>= read) submit s rejected success done := by
  intro faults w ha
  obtain ⟨q, hq⟩ := requestFor_of_answered ha
  rw [OpsClient.requests_of_requestFor hq] at hsend
  obtain ⟨w', hagain, hsent⟩ := again_answered h hsend hs ha
  refine ⟨q, w', hq, hsent, hagain.trans ?_⟩
  rw [List.map_append, List.map_map, List.map_singleton, hdone]
  congr 4
  exact funext hrejected

end Act

namespace ReceivingSession

def Alike (s t : ReceivingSession) : Prop := ∃ error, t = { s with error := error }

theorem submit_settles {s t : ReceivingSession} (ht : s.Alike t) {sent : List ReceiptLine}
    (hs : s.request = .ok sent) {c : OpsClient} {skipInspection : Bool} {w w' : World}
    {answer : Result PurchaseOrder}
    (ha : c.submitReceipt s.order.id sent skipInspection w = (answer, w')) :
    t.submit c skipInspection w = (.ok (t.settle skipInspection sent answer).2,
      w'.noting (t.settle skipInspection sent answer).1) := by
  obtain ⟨error, rfl⟩ := ht
  have hrequest : ({ s with error := error } : ReceivingSession).request = .ok sent := hs
  rw [submit_sent hrequest ha, after, hrequest]

theorem repeats_submit {s : ReceivingSession} {sent : List ReceiptLine} (hs : s.request = .ok sent)
    {o : PurchaseOrder} {status : String} (ho : o.expectedStatus = .ok status) (c : OpsClient)
    (skipInspection : Bool) :
    Act.Repeats (c.submitReceipt s.order.id sent skipInspection) (submit c skipInspection) s.Alike
      (fun answer => (s.settle skipInspection sent answer).2) o := by
  constructor
  case rejected =>
    rintro _ w w' f ⟨error, rfl⟩ ha
    exact ⟨_, submit_settles ⟨error, rfl⟩ hs ha⟩
  case accepted =>
    rintro _ w w' ⟨error, rfl⟩ ha
    have hsettle : (({ s with error := error } : ReceivingSession).settle skipInspection sent
        (.ok o)).2 = (s.settle skipInspection sent (.ok o)).2 := by
      simp only [settle, ho]
      rfl
    rw [submit_settles ⟨error, rfl⟩ hs ha, hsettle]
    exact ⟨_, rfl⟩
  case alike_settled => exact fun f => ⟨some f.message, rfl⟩

end ReceivingSession

namespace OrderDialog

def Alike (d t : OrderDialog) : Prop := ∃ error, t = { d with error := error }

theorem repeats_submit {d : OrderDialog} {r : PurchaseRequest} (hd : d.request = .ok r)
    (o : CreatedOrder) (c : OpsClient) :
    Act.Repeats (c.createOrder r) (submit c) d.Alike (fun answer => (d.settle r answer).2) o := by
  constructor
  case rejected =>
    rintro _ w w' f ⟨error, rfl⟩ ha
    have hrequest : ({ d with error := error } : OrderDialog).request = .ok r := hd
    exact ⟨_, submit_sent hrequest ha⟩
  case accepted =>
    rintro _ w w' ⟨error, rfl⟩ ha
    have hrequest : ({ d with error := error } : OrderDialog).request = .ok r := hd
    exact ⟨_, submit_sent hrequest ha⟩
  case alike_settled => exact fun f => ⟨some f.message, rfl⟩

end OrderDialog

/-- Whatever state a session or a dialog is in: a call that fails before anything is sent leaves it,
and the world, as it was. Where a submission sends something, it can be rejected any number of
times: the same request is sent each time, each rejection is given back and changes nothing but the
error, and a success leads to the state that it would have led to at once. An answer that a session
cannot look through, because its quantities are too large, changes nothing. -/
theorem submissions_retried (c : OpsClient) :
    (∀ (skipInspection : Bool) (s : ReceivingSession),
      (∀ id typed e, s.enter id typed = .error e → s.after (.enter id typed) = s) ∧
      (∀ e, s.request = .error e →
        ∀ w, s.submit c skipInspection w = (.ok (.error e, s), w)) ∧
      ∀ sent, s.request = .ok sent → ∀ o : PurchaseOrder,
        (∀ e, o.expectedStatus = .error e → s.after (.submit skipInspection (.ok o)) = s) ∧
        ∀ status, o.expectedStatus = .ok status →
          Act.Retried c (OpsClient.receiptResource s.order.id sent skipInspection)
            (c.submitReceipt s.order.id sent skipInspection)
            (ReceivingSession.submit c skipInspection) s
            (fun message => { s with error := some message }) o
            { s with order := o, entered := [], error := none, isOpen := false }) ∧
    ∀ d : OrderDialog,
      (∀ e, d.request = .error e → ∀ w, d.submit c w = (.ok (.error e, d), w)) ∧
      ∀ r, d.request = .ok r → ∀ o,
        Act.Retried c (OpsClient.orderResource r) (c.createOrder r) (OrderDialog.submit c) d
          (fun message => { d with error := some message }) o
          { d with error := none, result := some o, isOpen := false } := by
  refine ⟨fun skip s => ⟨?_, ?_, ?_⟩, fun d => ⟨?_, ?_⟩⟩
  · intro id typed e he
    rw [ReceivingSession.after, he]
  · intro e he w
    exact ReceivingSession.submit_refused he c skip w
  · intro sent hs o
    constructor
    · intro e he
      rw [ReceivingSession.after, hs]
      simp only [ReceivingSession.settle, he]
    · intro status ho
      refine Act.retried_of_repeats (ReceivingSession.repeats_submit hs ho c skip)
        (OpsClient.sends_submitReceipt c s.order.id sent skip) ⟨s.error, rfl⟩ (fun f => rfl) ?_
      rw [ReceivingSession.settle, ho]
      rfl
  · intro e he w
    exact OrderDialog.submit_refused he c w
  · intro r hd o
    exact Act.retried_of_repeats (OrderDialog.repeats_submit hd o c)
      (OpsClient.sends_createOrder c r) ⟨d.error, rfl⟩ (fun f => rfl) rfl

def ReceivingSession.benchEntered : ReceivingSession :=
  (start ["submitted", "partial"] none (benchOrder "submitted" 4)).afterAll [.enter 1 "8"]

def OrderDialog.benchChosen : OrderDialog :=
  (start benchShort (some "WO-1")).choose (some "V-1")

def benchRecovering : World :=
  .ofScript ⟨"/api",
    [("POST /pos/PO-1/receive", [.response 503 none, .timedOut,
      .response 200 (some (Record.dump (ReceivingSession.benchOrder "partial" 10)))]),
     ("POST /pos", [.response 503 none, .timedOut,
      .response 200 (some (.obj [("po_id", .str "PO-2"), ("lines", .int 1)]))])]⟩

def benchFaults : List Fault :=
  [.integration "Operations API" "Service Unavailable" (some 503),
    .unavailable "Operations API" "timed out"]

theorem submissions_retried_bench :
    (∃ sent q w', ReceivingSession.benchEntered.request = .ok sent ∧
      w'.sent = List.replicate 3 q ∧
      Act.again (ReceivingSession.submit benchClient false) 3 ReceivingSession.benchEntered
        benchRecovering = (.ok (benchFaults.map (fun f => (Act.rejection f,
          { ReceivingSession.benchEntered with error := some f.message })) ++
          [(.ok (ReceivingSession.benchOrder "partial" 10),
            ReceivingSession.benchEntered.refreshed (ReceivingSession.benchOrder "partial" 10))]),
          w')) ∧
    ∃ r q w', OrderDialog.benchChosen.request = .ok r ∧ w'.sent = List.replicate 3 q ∧
      Act.again (OrderDialog.submit benchClient) 3 OrderDialog.benchChosen benchRecovering =
        (.ok (benchFaults.map (fun f => (Act.rejection f,
          { OrderDialog.benchChosen with error := some f.message })) ++
          [(.ok ⟨"PO-2", 1⟩, { OrderDialog.benchChosen with
            error := none, result := some ⟨"PO-2", 1⟩, isOpen := false })]), w') := by
  obtain ⟨hsession, hdialog⟩ := submissions_retried benchClient
  constructor
  · have hs : ReceivingSession.benchEntered.request = .ok [⟨1, ⟨false, 6, 0⟩⟩] := by decide +kernel
    have ho : (ReceivingSession.benchOrder "partial" 10).expectedStatus = .ok "partial" := by
      decide +kernel
    obtain ⟨q, w', -, hsent, hagain⟩ :=
      ((hsession false _).2.2 _ hs _).2 _ ho benchFaults benchRecovering (by decide +kernel)
    exact ⟨_, q, w', hs, hsent, hagain⟩
  · have hd : OrderDialog.benchChosen.request =
        .ok ⟨"V-1", some "Generated from work order WO-1",
          [⟨"R-1", ⟨false, 2, 0⟩, none, none, none, none⟩]⟩ := by decide +kernel
    obtain ⟨q, w', -, hsent, hagain⟩ :=
      (hdialog _).2 _ hd ⟨"PO-2", 1⟩ benchFaults benchRecovering (by decide +kernel)
    exact ⟨_, q, w', hd, hsent, hagain⟩

end BomEngine
