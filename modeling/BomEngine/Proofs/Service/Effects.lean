import BomEngine.Proofs.Traversal
import BomEngine.Service.Loading

/-!
# What programs do to the world

A program is followed from one world to the next. Notes only add records; what it
sends is known beforehand for each operation of the client: one request, if its
address and body can be written, and no second one after the answer has come. Only
two of the operations ask the service to change anything.
-/

set_option autoImplicit false

namespace BomEngine
open Service

def Service.World.noting (w : World) (records : List LogRecord) : World :=
  { w with records := w.records ++ records }

def Service.World.mutations (w : World) : List Request := w.sent.filter fun r => r.method == .post

namespace Service.World

@[simp] theorem mutations_noting (w : World) (records : List LogRecord) :
    (w.noting records).mutations = w.mutations := rfl

@[simp] theorem noting_nil (w : World) : w.noting [] = w := by simp [noting]

theorem noting_noting (w : World) (first rest : List LogRecord) :
    (w.noting first).noting rest = w.noting (first ++ rest) := by
  simp [noting]

end Service.World

namespace Act

variable {α β σ : Type}

theorem bind_of_ok {x : Act α} {w w' : World} {a : α} (h : x w = (.ok a, w')) (f : α → Act β) :
    (x >>= f) w = f a w' := by
  show (ExceptT.bind x f) w = f a w'
  simp only [ExceptT.bind, ExceptT.mk, bind, StateT.bind]
  rw [h]
  rfl

theorem bind_of_error {x : Act α} {w w' : World} {e : Failure} (h : x w = (.error e, w'))
    (f : α → Act β) : (x >>= f) w = (.error e, w') := by
  show (ExceptT.bind x f) w = (.error e, w')
  simp only [ExceptT.bind, ExceptT.mk, bind, StateT.bind]
  rw [h]
  rfl

theorem pure_apply (a : α) (w : World) : (pure a : Act α) w = (.ok a, w) := rfl

theorem ofResult_apply (r : Result α) (w : World) : ofResult r w = (r, w) := rfl

theorem lift_result_apply (r : Result α) (w : World) : (liftM r : Act α) w = (r, w) := rfl

theorem lift_noted_apply (x : Noted α) (w : World) :
    (liftM x : Act α) w = (x.result, w.noting x.records) := rfl

theorem note_apply (record : LogRecord) (w : World) :
    note record w = (.ok (), w.noting [record]) := rfl

theorem attempt_apply {x : Act α} {w w' : World} {r : Result α} (h : x w = (r, w')) :
    attempt x w = (.ok r, w') := by
  unfold attempt
  rw [h]

theorem records_apply (records : List LogRecord) (w : World) :
    (records.forM note : Act Unit) w = (.ok (), w.noting records) := by
  induction records generalizing w with
  | nil => simp [pure_apply]
  | cons r rest ih =>
    show (note r >>= fun _ => rest.forM note) w = _
    rw [bind_of_ok (note_apply r w), ih, World.noting_noting]
    rfl

theorem settled_apply (records : List LogRecord) (r : Result α) (state : σ) (w : World) :
    settled (records, r, state) w = (.ok (r, state), w.noting records) := by
  rw [settled, bind_of_ok (records_apply records w), pure_apply]

theorem outcome_of_ok {x : Act α} {w w' : World} {a : α} (h : x w = (.ok a, w')) :
    outcome x w = (.ok (.ok a), w') := by
  unfold outcome
  rw [h]

theorem outcome_of_fault {x : Act α} {w w' : World} {f : Fault}
    (h : x w = (.error (.fault f), w')) : outcome x w = (.ok (.error f), w') := by
  unfold outcome
  rw [h]

theorem outcome_of_failure {x : Act α} {w w' : World} {e : Failure} (h : x w = (.error e, w'))
    (he : ∀ f, e ≠ .fault f) : outcome x w = (.error e, w') := by
  unfold outcome
  rw [h]
  cases e <;> first | rfl | exact absurd rfl (he _)

theorem labelled_of_ok {x : Act α} {w w' : World} {a : α} (h : x w = (.ok a, w'))
    (label : String) (context : List (String × Json)) :
    labelled label context x w = (.ok (.ok a), w') := by
  rw [labelled, bind_of_ok (outcome_of_ok h)]
  rfl

theorem labelled_of_fault {x : Act α} {w w' : World} {f : Fault} (h : x w = (.error (.fault f), w'))
    (label : String) (context : List (String × Json)) :
    labelled label context x w =
      (.ok (.error f), w'.noting [faultRecord label context f]) := by
  rw [labelled, bind_of_ok (outcome_of_fault h)]
  rfl

theorem labelled_of_failure {x : Act α} {w w' : World} {e : Failure} (h : x w = (.error e, w'))
    (he : ∀ f, e ≠ .fault f) (label : String) (context : List (String × Json)) :
    labelled label context x w = (.error e, w') := by
  rw [labelled, bind_of_error (outcome_of_failure h he)]

theorem labelled_result (label : String) (context : List (String × Json)) (x : Act α) (w : World) :
    (labelled label context x w).1 = (outcome x w).1 := by
  rcases ho : outcome x w with ⟨r, w'⟩
  cases r with
  | error e => rw [labelled, bind_of_error ho]
  | ok a =>
    rw [labelled, bind_of_ok ho]
    cases a <;> rfl

theorem held_apply {x : Act α} {w w' : World} {label : String} {context : List (String × Json)}
    {r : Result (Outcome α)} (h : labelled label context x w = (r, w')) :
    held label context x w = (.ok r, w') := attempt_apply h

def Sends (x : Act α) (requests : List Request) : Prop :=
  ∀ w, (x w).2.sent = w.sent ++ requests

theorem sends_pure (a : α) : Sends (pure a : Act α) [] := fun w => (List.append_nil w.sent).symm

theorem sends_ofResult (r : Result α) : Sends (ofResult r) [] := fun w =>
  (List.append_nil w.sent).symm

theorem sends_throw (e : Failure) : Sends (throw e : Act α) [] := fun w =>
  (List.append_nil w.sent).symm

theorem sends_note (record : LogRecord) : Sends (note record) [] := fun w =>
  (List.append_nil w.sent).symm

theorem sends_bind {x : Act α} {f : α → Act β} {requests : List Request} (hx : Sends x requests)
    (hf : ∀ a, Sends (f a) []) : Sends (x >>= f) requests := by
  intro w
  have hw := hx w
  rcases hxw : x w with ⟨r, w'⟩
  rw [hxw] at hw
  cases r with
  | error e => rwa [bind_of_error hxw]
  | ok a =>
    rw [bind_of_ok hxw, hf a w', List.append_nil]
    exact hw

theorem sends_mapM {f : α → Act β} (hf : ∀ a, Sends (f a) []) (as : List α) :
    Sends (as.mapM f) [] := by
  induction as with
  | nil => exact sends_pure []
  | cons a as ih =>
    rw [List.mapM_cons]
    exact sends_bind (hf a) fun _ => sends_bind ih fun _ => sends_pure _

theorem sends_outcome {x : Act α} {requests : List Request} (hx : Sends x requests) :
    Sends (outcome x) requests := by
  intro w
  rw [← hx w]
  unfold outcome
  split <;> rename_i h <;> rw [h]

theorem sends_labelled {x : Act α} {requests : List Request} (hx : Sends x requests)
    (label : String) (context : List (String × Json)) :
    Sends (labelled label context x) requests := by
  intro w
  have hw := hx w
  rcases hxw : x w with ⟨r, w'⟩
  rw [hxw] at hw
  cases r with
  | ok a => rwa [labelled_of_ok hxw]
  | error e =>
    by_cases hf : ∃ f, e = .fault f
    · obtain ⟨f, rfl⟩ := hf
      rwa [labelled_of_fault hxw]
    · rwa [labelled_of_failure hxw fun f he => hf ⟨f, he⟩]

end Act

namespace OpsClient

variable {α : Type}

def requests (c : OpsClient) (r : Resource) : List Request := (c.requestFor r).toOption.toList

theorem requests_of_requestFor {c : OpsClient} {r : Resource} {q : Request}
    (h : c.requestFor r = .ok q) : c.requests r = [q] := by
  rw [requests, h]
  rfl

theorem requestFor_ok {c : OpsClient} {r : Resource} {q : Request} (h : c.requestFor r = .ok q) :
    q.method = r.method ∧ q.body = r.body ∧ r.body.any hasUnwritable = false := by
  unfold requestFor at h
  obtain ⟨target, -, h⟩ := Traversal.bind_eq_ok.mp h
  dsimp only at h
  split at h
  · cases h
  · next hbody =>
    cases h
    exact ⟨rfl, rfl, Bool.eq_false_of_not_eq_true hbody⟩

theorem method_of_mem {c : OpsClient} {r : Resource} {q : Request} (h : q ∈ c.requests r) :
    q.method = r.method := by
  unfold requests at h
  cases hq : c.requestFor r with
  | error e =>
    rw [hq] at h
    cases h
  | ok q' =>
    rw [hq] at h
    rw [List.mem_singleton.mp h]
    exact (requestFor_ok hq).1

theorem not_fault_of_requestFor {c : OpsClient} {r : Resource} {e : Failure}
    (h : c.requestFor r = .error e) : ∀ f, e ≠ .fault f := by
  rintro f rfl
  unfold requestFor Target.below at h
  simp only [bind, Except.bind, throw, throwThe, MonadExceptOf.throw, pure, Except.pure] at h
  split at h <;> rename_i ht
  · cases h
    split at ht
    · cases ht
    · split at ht <;> cases ht
  · split at h <;> cases h

theorem requestFor_of_outcome {c : OpsClient} {r : Resource} {f : Json → Act α} {w : World}
    {a : Outcome α} (h : (Act.outcome (c.fetch r >>= f) w).1 = .ok a) :
    ∃ q, c.requestFor r = .ok q := by
  cases hq : c.requestFor r with
  | ok q => exact ⟨q, rfl⟩
  | error e =>
    have hfetch : c.fetch r w = (.error e, w) := by
      rw [fetch, hq, Act.bind_of_error (Act.ofResult_apply _ w)]
    rw [Act.outcome_of_failure (Act.bind_of_error hfetch f) (not_fault_of_requestFor hq)] at h
    cases h

theorem sends_warn (message : String) (context : List (String × Json)) :
    Act.Sends (warn message context) [] := Act.sends_note _

theorem sends_answer (r : Resource) (reply : Reply) : Act.Sends (answer r reply) [] := by
  unfold answer
  split
  · exact Act.sends_bind (sends_warn _ _) fun _ => Act.sends_throw _
  · exact Act.sends_bind (sends_warn _ _) fun _ => Act.sends_throw _
  split
  · exact Act.sends_throw _
  split
  · exact Act.sends_bind (sends_warn _ _) fun _ => Act.sends_throw _
  split
  · exact Act.sends_pure _
  · exact Act.sends_throw _

theorem sends_fetch (c : OpsClient) (r : Resource) : Act.Sends (c.fetch r) (c.requests r) := by
  unfold fetch requests
  intro w
  cases hq : c.requestFor r with
  | error e =>
    rw [Act.bind_of_error (Act.ofResult_apply _ w)]
    exact (List.append_nil w.sent).symm
  | ok q =>
    have hone : Act.Sends (Act.exchange q) [q] := fun _ => rfl
    rw [Act.bind_of_ok (Act.ofResult_apply _ w)]
    exact Act.sends_bind hone (sends_answer r) w

theorem sends_read [Record α] (address : String) (j : Json) :
    Act.Sends (read α address j) [] := by
  unfold read
  split
  · exact Act.sends_pure _
  · exact Act.sends_throw _
  · exact Act.sends_bind (sends_warn _ _) fun _ => Act.sends_throw _

theorem sends_readList [Record α] (address : String) (j : Json) :
    Act.Sends (readList α address j) [] := by
  unfold readList
  split
  · exact Act.sends_pure _
  · exact Act.sends_mapM (sends_read address) _
  · exact Act.sends_throw _

theorem sends_fetchRecord [Record α] (c : OpsClient) (address name id : String) :
    Act.Sends (c.fetchRecord α address name id)
      (c.requests (reading address name (some id))) :=
  Act.sends_bind (sends_fetch _ _) (sends_read address)

theorem sends_fetchRecords [Record α] (c : OpsClient) (address name id : String) :
    Act.Sends (c.fetchRecords α address name id)
      (c.requests (reading address name (some id))) :=
  Act.sends_bind (sends_fetch _ _) (sends_readList address)

def catalogResource : Resource :=
  { reading "/parts" "Parts" none with query := some "limit=0" }

theorem sends_fetchParts (c : OpsClient) :
    Act.Sends c.fetchParts (c.requests catalogResource) :=
  Act.sends_bind (sends_fetch _ _) (sends_readList "/parts")

theorem sends_fetchVendors (c : OpsClient) (activeOnly : Bool) :
    Act.Sends (c.fetchVendors activeOnly) (c.requests (reading "/vendors" "Vendors" none)) :=
  Act.sends_bind (sends_fetch _ _) fun j =>
    Act.sends_bind (sends_readList _ j) fun _ => Act.sends_pure _

def receiptResource (id : String) (lines : List ReceiptLine) (skipInspection : Bool) : Resource :=
  ⟨.post, "/pos/" ++ id ++ "/receive", "Purchase order", some id, none,
    some (receiptForm lines skipInspection)⟩

theorem sends_submitReceipt (c : OpsClient) (id : String) (lines : List ReceiptLine)
    (skipInspection : Bool) : Act.Sends (c.submitReceipt id lines skipInspection)
      (c.requests (receiptResource id lines skipInspection)) :=
  Act.sends_bind (sends_fetch _ _) (sends_read _)

def orderResource (r : PurchaseRequest) : Resource :=
  ⟨.post, "/pos", "Purchase order", none, none, some (sentForm r)⟩

theorem sends_createdOrder (r : PurchaseRequest) (j : Json) :
    Act.Sends (createdOrder r j) [] := by
  unfold createdOrder
  dsimp only
  split
  · exact Act.sends_bind (Act.sends_throw _) fun _ => Act.sends_ofResult _
  · exact Act.sends_ofResult _

theorem sends_createOrder (c : OpsClient) (r : PurchaseRequest) :
    Act.Sends (c.createOrder r) (c.requests (orderResource r)) :=
  Act.sends_bind (sends_fetch _ _) (sends_createdOrder r)

end OpsClient

namespace Act

variable {α : Type}

theorem mutations_of_reading {x : Act α} {c : OpsClient} {r : OpsClient.Resource}
    (hx : Sends x (c.requests r)) (hr : r.method = .get) (w : World) :
    (x w).2.mutations = w.mutations := by
  have hnone : (c.requests r).filter (fun q => q.method == .post) = [] := by
    apply List.filter_eq_nil_iff.mpr
    intro q hq
    rw [OpsClient.method_of_mem hq, hr]
    decide
  rw [World.mutations, hx w, List.filter_append, hnone, List.append_nil]
  rfl

theorem mutations_of_fetchRecord [Record α] {c : OpsClient} {address name id : String}
    {r : Result α} {w w' : World} (h : c.fetchRecord α address name id w = (r, w')) :
    w'.mutations = w.mutations := by
  have hsends : Sends (c.fetchRecord α address name id) _ := OpsClient.sends_fetchRecord c _ _ _
  have hsame := mutations_of_reading hsends rfl w
  rwa [h] at hsame

theorem mutations_of_posting {x : Act α} {c : OpsClient} {r : OpsClient.Resource}
    (hx : Sends x (c.requests r)) (hr : r.method = .post) (w : World) :
    (x w).2.mutations = w.mutations ++ c.requests r := by
  have hall : (c.requests r).filter (fun q => q.method == .post) = c.requests r := by
    apply List.filter_eq_self.mpr
    intro q hq
    rw [OpsClient.method_of_mem hq, hr]
    decide
  rw [World.mutations, hx w, List.filter_append, hall]
  rfl

end Act

def benchSettings : Settings :=
  ⟨"ZRP BOM Engine", "1.0.0", "/api/v1", false, "development", "http://ops/api", none,
    Settings.seconds 10, Settings.defaultOrigins, ["ASY-", "PCA-"], 25, 2, false,
    ["submitted", "partial"], Settings.seconds 5, "INFO", "text", none⟩

def benchClient : OpsClient := .ofSettings benchSettings none none none

end BomEngine
