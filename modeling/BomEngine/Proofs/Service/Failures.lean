import BomEngine.Proofs.Schema.Unbroken
import BomEngine.Proofs.Service.Operations
import BomEngine.Proofs.Traversal
import Mathlib

/-!
# How operations fail

What goes wrong with the service is put down to it: something is missing, it refuses, its answer is
of no use, or it is silent. Two answers get past that: an order with something else than a text for
its status, and a new order with an id or a count that the record of it does not take. Only 404 and
the statuses from 400 to 599 count as refusals, so that a redirection is read like a success.
-/

set_option autoImplicit false

namespace BomEngine
open Service

/-- A failure that is put down to the service: something is missing there, it refuses or answers
with nothing of use, or it is silent. -/
def Failure.IsUpstream (e : Failure) : Prop :=
  ∃ f, e = .fault f ∧ (f.kind = .notFound ∨ f.kind = .integration ∨ f.kind = .unavailable)

theorem Failure.not_upstream {e : Failure} (h : ∀ f, e ≠ .fault f) : ¬ e.IsUpstream := by
  rintro ⟨f, he, -⟩
  exact h f he

/-- The reply has an answer in its body, and its status is not one of those that count as
refusals. -/
def Service.Reply.Carries (reply : Reply) (j : Json) : Prop :=
  ∃ status body, reply = .response status (some body) ∧ status ≠ 404 ∧
    ¬ (400 ≤ status ∧ status < 600) ∧ OpsClient.unwrap body = j

namespace OpsClient

open Failure (IsUpstream)
open Traversal (FailsWith)

variable {α : Type}

theorem refused_upstream (message : String) (status : Option Int) :
    (refused message status).IsUpstream := ⟨_, rfl, .inr (.inl rfl)⟩

theorem answered_response (r : Resource) (status : Int) (body : Option Json) :
    answered r (.response status body) =
      if status = 404 then .error (.fault (.notFound r.name r.id))
      else if 400 ≤ status ∧ status < 600 then
        .error (refused (refusal status body) (some status))
      else
        match body with
        | some j => .ok (unwrap j)
        | none => .error (refused ("invalid JSON from " ++ r.address) none) := rfl

theorem answered_eq_ok {r : Resource} {reply : Reply} {j : Json} :
    answered r reply = .ok j ↔ reply.Carries j := by
  constructor
  · intro h
    cases reply with
    | timedOut => cases h
    | unreachable reason => cases h
    | response status body =>
      rw [answered_response] at h
      split_ifs at h with hmissing hrefused
      cases body with
      | none => cases h
      | some body => exact ⟨status, body, rfl, hmissing, hrefused, Except.ok.inj h⟩
  · rintro ⟨status, body, rfl, hmissing, hrefused, rfl⟩
    rw [answered_response, if_neg hmissing, if_neg hrefused]

theorem answered_upstream (r : Resource) (reply : Reply) :
    FailsWith IsUpstream (answered r reply) := by
  cases reply with
  | timedOut => exact FailsWith.of_error ⟨_, rfl, .inr (.inr rfl)⟩
  | unreachable reason => exact FailsWith.of_error ⟨_, rfl, .inr (.inr rfl)⟩
  | response status body =>
    rw [answered_response]
    split_ifs
    · exact FailsWith.of_error ⟨_, rfl, .inl rfl⟩
    · exact FailsWith.of_error (refused_upstream _ _)
    cases body with
    | some j => exact FailsWith.of_ok _
    | none => exact FailsWith.of_error (refused_upstream _ _)

section Reading

variable [Record α] [Check.Unbroken (Record.check : Check α)]

theorem readAnswer_upstream (address : String) (j : Json) :
    FailsWith IsUpstream (readAnswer α address j) := by
  unfold readAnswer
  cases h : (Record.check j : Verdict α) with
  | accepted a => exact FailsWith.of_ok a
  | refused flaws => exact FailsWith.of_error (refused_upstream _ _)
  | broken => exact absurd h (Check.ne_broken j)

theorem readAnswers_upstream (address : String) (j : Json) :
    FailsWith IsUpstream (readAnswers α address j) := by
  cases j with
  | null => exact FailsWith.of_ok []
  | arr items => exact FailsWith.mapM (readAnswer_upstream address) items
  | _ => exact FailsWith.of_error (refused_upstream _ _)

end Reading

theorem orderAnswer_escapes {address : String} {j : Json} {e : Failure} (he : ¬ e.IsUpstream) :
    readAnswer PurchaseOrder address j = .error e ↔
      PurchaseOrder.HasBrokenStatus j ∧ e = .noText := by
  rw [← PurchaseOrder.check_eq_broken]
  unfold readAnswer
  cases (Record.check j : Verdict PurchaseOrder) with
  | accepted a => simp
  | broken => simp [eq_comm]
  | refused flaws =>
    have hne : refused ("malformed response from " ++ address) none ≠ e := fun h =>
      he (h ▸ refused_upstream _ _)
    simpa using hne

theorem createdAnswer_escapes {r : PurchaseRequest} {j : Json} {e : Failure}
    (he : ¬ e.IsUpstream) :
    createdAnswer r j = .error e ↔ (createdId j).isTruthy ∧ ∃ flaws,
      (Record.check (createdForm r j) : Verdict CreatedOrder) = .refused flaws ∧
      e = .flaws "PurchaseOrderCreated" flaws := by
  unfold createdAnswer
  by_cases hid : (createdId j).isTruthy
  · rw [if_pos hid, Record.parse]
    cases hc : (Record.check (createdForm r j) : Verdict CreatedOrder) with
    | accepted o => simp [Result.ofVerdict]
    | broken => exact absurd hc (Check.ne_broken _)
    | refused flaws =>
      show Except.error (Failure.flaws "PurchaseOrderCreated" flaws) = .error e ↔ _
      simp [hid, eq_comm]
  · rw [if_neg hid]
    have hne : refused "order creation returned no id" none ≠ e := fun h =>
      he (h ▸ refused_upstream _ _)
    simpa [hid] using hne

namespace Operation

/-- The failures of an operation over an answer that are not put down to the service. -/
def Escapes : Operation → Json → Failure → Prop
  | order _, j, e => PurchaseOrder.HasBrokenStatus j ∧ e = .noText
  | receipt .., j, e => PurchaseOrder.HasBrokenStatus j ∧ e = .noText
  | newOrder r, j, e => (createdId j).isTruthy ∧ ∃ flaws,
      (Record.check (createdForm r j) : Verdict CreatedOrder) = .refused flaws ∧
      e = .flaws "PurchaseOrderCreated" flaws
  | _, _, _ => False

theorem meaning_escapes {o : Operation} {j : Json} {e : Failure} (he : ¬ e.IsUpstream) :
    o.meaning j = .error e ↔ o.Escapes j e := by
  have hnever : ∀ {α : Type} {x : Result α}, FailsWith IsUpstream x → (x = .error e ↔ False) :=
    fun hx => iff_of_false (fun h => he (hx e h)) id
  cases o with
  | part ipn => exact hnever (readAnswer_upstream (α := Part) _ _)
  | parts => exact hnever (readAnswers_upstream (α := Part) _ _)
  | bom ipn => exact hnever (readAnswer_upstream (α := BomNode) _ _)
  | cost ipn => exact hnever (readAnswer_upstream (α := CostEntry) _ _)
  | whereUsed ipn => exact hnever (readAnswers_upstream (α := WhereUsed) _ _)
  | prices ipn => exact hnever (readAnswers_upstream (α := PriceRecord) _ _)
  | workOrder id => exact hnever (readAnswer_upstream (α := WorkOrder) _ _)
  | workOrderBom id => exact hnever (readAnswer_upstream (α := WorkOrderBom) _ _)
  | quote id => exact hnever (readAnswer_upstream (α := Quote) _ _)
  | campaign id => exact hnever (readAnswer_upstream (α := Campaign) _ _)
  | vendors activeOnly =>
    exact hnever ((readAnswers_upstream (α := Vendor) _ _).bind fun _ => FailsWith.of_ok _)
  | order id => exact orderAnswer_escapes he
  | newOrder r => exact createdAnswer_escapes he
  | receipt id lines skipInspection => exact orderAnswer_escapes he

/-- A failure that is not put down to the service leaves an operation for just those answers that
escape it. -/
theorem perform_escapes {c : OpsClient} {o : Operation} {q : Request}
    (h : c.requestFor o.resource = .ok q) (w : World) {e : Failure} (he : ¬ e.IsUpstream) :
    (o.perform c w).1 = .error e ↔ ∃ j, (w.script.next q).1.Carries j ∧ o.Escapes j e := by
  rw [perform_result h]
  cases hr : answered o.resource (w.script.next q).1 with
  | error e' =>
    have hnone : ∀ j, ¬ (w.script.next q).1.Carries j := fun j hj => by
      rw [answered_eq_ok.mpr hj] at hr
      cases hr
    have hup : e'.IsUpstream := answered_upstream _ _ e' hr
    apply iff_of_false
    · intro h
      cases h
      exact he hup
    · rintro ⟨j, hj, -⟩
      exact hnone j hj
  | ok j =>
    have hj : (w.script.next q).1.Carries j := answered_eq_ok.mp hr
    have hsame : ∀ j', (w.script.next q).1.Carries j' → j' = j := fun j' hj' =>
      Except.ok.inj ((answered_eq_ok.mpr hj').symm.trans hr)
    refine (meaning_escapes he).trans ⟨fun h => ⟨j, hj, h⟩, ?_⟩
    rintro ⟨j', hj', h⟩
    rwa [hsame j' hj'] at h

def benchReplying (route : String) (reply : Reply) : World := .ofScript ⟨"/api", [(route, [reply])]⟩

def benchRequest : PurchaseRequest :=
  ⟨"V-1", none, [⟨"R-1", ⟨false, 2, 0⟩, none, none, none, none⟩]⟩

def benchOddOrder : World :=
  benchReplying "GET /pos/P-1" (.response 200 (some (.obj [("id", .str "P-1"), ("status", .int 5)])))

def benchOddId : World :=
  benchReplying "POST /pos" (.response 200 (some (.obj [("id", .int 7)])))

theorem perform_escapes_bench : ∃ q, benchClient.requestFor (order "P-1").resource = .ok q ∧
    ¬ Failure.noText.IsUpstream ∧
    (benchClient.fetchOrder "P-1" benchOddOrder).1 = .error .noText := by
  have hq : benchClient.requestFor (order "P-1").resource =
      .ok ⟨.get, ⟨"/api/pos/P-1".toList, none⟩, none⟩ := by rfl
  have hfailure : ¬ Failure.noText.IsUpstream := Failure.not_upstream nofun
  refine ⟨_, hq, hfailure, (perform_escapes hq benchOddOrder hfailure).mpr ?_⟩
  refine ⟨_, ⟨200, _, rfl, by decide, by decide, rfl⟩, ⟨.int 5, rfl, rfl, nofun⟩, rfl⟩

/-- Two failures that are not put down to the service, although the addresses and bodies can be
written: from the status of an order, and from the id of a new one. -/
theorem operations_fail_unmapped :
    (benchClient.fetchOrder "P-1" benchOddOrder).1 = .error .noText ∧
    (benchClient.createOrder benchRequest benchOddId).1 =
      .error (.flaws "PurchaseOrderCreated" [⟨[.field "po_id"], .textExpected⟩]) ∧
    ¬ Failure.noText.IsUpstream ∧
    ¬ (Failure.flaws "PurchaseOrderCreated" [⟨[.field "po_id"], .textExpected⟩]).IsUpstream ∧
    (benchClient.requests (order "P-1").resource).length = 1 ∧
    (benchClient.requests (newOrder benchRequest).resource).length = 1 := by
  exact ⟨by decide +kernel, by decide +kernel, Failure.not_upstream nofun,
    Failure.not_upstream nofun, by decide +kernel, by decide +kernel⟩

/-- The status of a reply decides: a missing resource and a refusal are faults of their own, and with
any status outside their range the operation goes on as with a success. -/
theorem perform_by_status {c : OpsClient} {o : Operation} {q : Request} {w : World} {status : Int}
    {body : Option Json} (h : c.requestFor o.resource = .ok q)
    (hreply : (w.script.next q).1 = .response status body) :
    (status = 404 → (o.perform c w).1 =
      .error (.fault (.notFound o.resource.name o.resource.id))) ∧
    (status ≠ 404 → 400 ≤ status → status < 600 → (o.perform c w).1 =
      .error (.fault (.integration service (refusal status body) (some status)))) ∧
    (status < 400 ∨ 600 ≤ status → ∀ w', (w'.script.next q).1 = .response 200 body →
      (o.perform c w).1 = (o.perform c w').1) := by
  rw [perform_result h, hreply]
  refine ⟨?_, ?_, ?_⟩
  · rintro rfl
    rfl
  · intro hmissing hlow hhigh
    rw [answered_response, if_neg hmissing, if_pos ⟨hlow, hhigh⟩]
    rfl
  · intro hother w' hreply'
    have hmissing : status ≠ 404 := by omega
    have hrefused : ¬ (400 ≤ status ∧ status < 600) := by omega
    rw [perform_result h, hreply', answered_response, if_neg hmissing, if_neg hrefused]
    rfl

def benchRedirected (status : Int) : World :=
  benchReplying "GET /parts/R-1" (.response status (some (.obj [("ipn", .str "R-1")])))

theorem perform_by_status_bench : ∃ q, benchClient.requestFor (part "R-1").resource = .ok q ∧
    (((benchRedirected 302).script.next q).1 =
      .response 302 (some (.obj [("ipn", .str "R-1")]))) ∧
    (benchClient.fetchPart "R-1" (benchRedirected 302)).1 =
      (benchClient.fetchPart "R-1" (benchRedirected 200)).1 := by
  have hq : benchClient.requestFor (part "R-1").resource =
      .ok ⟨.get, ⟨"/api/parts/R-1".toList, none⟩, none⟩ := by rfl
  have hreply : ∀ status, ((benchRedirected status).script.next
      ⟨.get, ⟨"/api/parts/R-1".toList, none⟩, none⟩).1 =
        .response status (some (.obj [("ipn", .str "R-1")])) := by
    intro status
    cbv
  refine ⟨_, hq, hreply 302, ?_⟩
  exact (perform_by_status hq (hreply 302)).2.2 (by decide) (benchRedirected 200) (hreply 200)

/-- A redirection is no success, but what comes with it is read as the part that was asked for. -/
theorem redirection_read : ¬ (200 ≤ (302 : Int) ∧ (302 : Int) ≤ 299) ∧
    (benchClient.fetchPart "R-1" (benchRedirected 302)).1.map Part.ipn = .ok "R-1" := by
  decide +kernel

end Operation
end OpsClient
end BomEngine
