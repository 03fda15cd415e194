import BomEngine.Proofs.Purchase.Session
import BomEngine.Proofs.Traversal

/-!
# Receiving against a correct service

The service keeps the order. A receipt that it accepts adds just what is listed for a
line to what was received on it, and may change the status; one that it rejects changes
nothing. Only the clamping in the session keeps a line from being received more than it
was ordered, and it works on the order as it was last answered. It does so in any run,
because session and service never hold different orders.

All quantities are whole multiples of one decimal place, which decimals can have, and so
small that no difference of them is rounded.
-/

set_option autoImplicit false

namespace BomEngine
open Decimal (Representable leastExponent topExponent)

/-- A whole multiple of a decimal place. -/
def OnGrid (place : ℤ) (q : ℚ) : Prop := ∃ k : ℤ, q = k * 10 ^ place

namespace OnGrid

variable {place : ℤ} {p q : ℚ}

theorem zero : OnGrid place 0 := ⟨0, by simp⟩

theorem add (hp : OnGrid place p) (hq : OnGrid place q) : OnGrid place (p + q) := by
  obtain ⟨j, rfl⟩ := hp
  obtain ⟨k, rfl⟩ := hq
  exact ⟨j + k, by push_cast; ring⟩

theorem sub (hp : OnGrid place p) (hq : OnGrid place q) : OnGrid place (p - q) := by
  obtain ⟨j, rfl⟩ := hp
  obtain ⟨k, rfl⟩ := hq
  exact ⟨j - k, by push_cast; ring⟩

theorem clamp {pending entered : Decimal} (hp : OnGrid place pending.value)
    (he : OnGrid place entered.value) : OnGrid place (Quantity.clamp pending entered).value := by
  unfold Quantity.clamp
  split
  · rw [Decimal.value_zero]
    exact zero
  split
  · exact hp
  · exact he

theorem representable (h : OnGrid place q) (hq : |q| < 10 ^ (28 + place))
    (hlow : leastExponent ≤ place) (htop : place ≤ topExponent) : Representable q := by
  obtain ⟨k, rfl⟩ := h
  refine ⟨k, place, rfl, ?_, hlow, htop⟩
  have hp : (0 : ℚ) < 10 ^ place := by positivity
  rw [abs_mul, abs_of_pos hp, zpow_add₀ (by norm_num)] at hq
  have hk : |(k : ℚ)| < 10 ^ (28 : ℤ) := lt_of_mul_lt_mul_right hq hp.le
  have hk' : |(k : ℚ)| < 10 ^ 28 := by exact_mod_cast hk
  exact_mod_cast hk'

end OnGrid

/-- A line received no more than ordered, in few enough multiples of a decimal place. -/
structure OrderLine.InRange (place : ℤ) (l : OrderLine) : Prop where
  nonneg : 0 ≤ l.received.value
  le : l.received.value ≤ l.ordered.value
  received : OnGrid place l.received.value
  ordered : OnGrid place l.ordered.value
  bound : l.ordered.value < 10 ^ (28 + place)

def listed (sent : List ReceiptLine) (id : Int) : ℚ :=
  ((sent.filter fun q => q.line == id).map fun q => q.qty.value).sum

theorem listed_of_not_mem {sent : List ReceiptLine} {id : Int}
    (h : id ∉ sent.map ReceiptLine.line) : listed sent id = 0 := by
  have hnone : sent.filter (fun q => q.line == id) = [] := by
    apply List.filter_eq_nil_iff.mpr
    intro q hq he
    exact h (List.mem_map.mpr ⟨q, hq, by simpa using he⟩)
  rw [listed, hnone]
  rfl

theorem listed_of_mem {sent : List ReceiptLine} (h : (sent.map ReceiptLine.line).Nodup)
    {q : ReceiptLine} (hq : q ∈ sent) : listed sent q.line = q.qty.value := by
  induction sent with
  | nil => cases hq
  | cons first rest ih =>
    obtain ⟨hfirst, hrest⟩ := List.nodup_cons.mp h
    rcases List.mem_cons.mp hq with rfl | hq
    · have hothers := listed_of_not_mem hfirst
      rw [listed] at hothers ⊢
      simp [hothers]
    · have hne : first.line ≠ q.line := fun he =>
        hfirst (List.mem_map.mpr ⟨q, hq, he.symm⟩)
      have hothers := ih hrest hq
      rw [listed] at hothers ⊢
      simpa [hne] using hothers

namespace PurchaseOrder

/-- The order after an accepted receipt: what is listed for a line is received on it, and
apart from the status nothing else is different. -/
def Receives (o : PurchaseOrder) (sent : List ReceiptLine) (next : PurchaseOrder) : Prop :=
  next = { o with status := next.status, lines := next.lines } ∧
  List.Forall₂ (fun l l' => l' = { l with received := l'.received } ∧
    l'.received.value = l.received.value + listed sent l.id) o.lines next.lines

/-- The same order later on: nothing on its lines has changed but that more was received. -/
def Advances (o next : PurchaseOrder) : Prop :=
  List.Forall₂ (fun l l' => l' = { l with received := l'.received } ∧
    l.received.value ≤ l'.received.value) o.lines next.lines

theorem Advances.refl (o : PurchaseOrder) : o.Advances o :=
  List.forall₂_same.mpr fun _ _ => ⟨rfl, le_rfl⟩

theorem Advances.trans {o next last : PurchaseOrder} (h : o.Advances next)
    (h' : next.Advances last) : o.Advances last := by
  unfold Advances at *
  generalize o.lines = ls₀ at h ⊢
  generalize next.lines = ls at h h'
  generalize last.lines = ls' at h' ⊢
  induction h generalizing ls' with
  | nil =>
    cases h'
    exact .nil
  | cons hl _ ih =>
    cases h' with
    | cons hl' hrest =>
      refine .cons ⟨?_, hl.2.trans hl'.2⟩ (ih _ hrest)
      rw [hl'.1, hl.1]

theorem Receives.ids {o next : PurchaseOrder} {sent : List ReceiptLine}
    (h : o.Receives sent next) : next.lines.map OrderLine.id = o.lines.map OrderLine.id :=
  Traversal.map_eq_of_forall₂ h.2 fun l l' hl => by rw [hl.1]

end PurchaseOrder

namespace OrderLine

variable {place : ℤ} {l : OrderLine}

theorem InRange.due (h : l.InRange place) (hlow : leastExponent ≤ place)
    (htop : place ≤ topExponent) :
    l.Measured ∧ l.due.value = l.ordered.value - l.received.value ∧
      OnGrid place l.due.value := by
  have hnonneg := h.nonneg
  have hle := h.le
  have hbound := h.bound
  have hgrid := h.ordered.sub h.received
  obtain ⟨hm, hd⟩ := pending_exact (hgrid.representable
    (abs_lt.mpr ⟨by linarith, by linarith⟩) hlow htop)
  rw [max_eq_right (by linarith)] at hd
  exact ⟨hm, hd, hd ▸ hgrid⟩

theorem InRange.receive (h : l.InRange place) {l' : OrderLine} {q : ℚ}
    (hl : l' = { l with received := l'.received }) (hv : l'.received.value = l.received.value + q)
    (hq : 0 ≤ q) (hle : q ≤ l.ordered.value - l.received.value) (hgrid : OnGrid place q) :
    l'.InRange place := by
  have ho : l'.ordered = l.ordered := by rw [hl]
  have hnonneg := h.nonneg
  refine ⟨?_, ?_, ?_, ?_, ?_⟩
  · linarith
  · rw [ho]
    linarith
  · rw [hv]
    exact h.received.add hgrid
  · rw [ho]
    exact h.ordered
  · rw [ho]
    exact h.bound

end OrderLine

namespace ReceivingSession

/-- A correct answer: if a receipt is accepted, the order of the service after it. -/
def Correct (kept : PurchaseOrder) (s : ReceivingSession) (call : Call) : Prop :=
  ∀ sent next, s.request = .ok sent → call.answered = some next → kept.Receives sent next

def keptAfter (kept : PurchaseOrder) (s : ReceivingSession) : List Call → PurchaseOrder
  | [] => kept
  | call :: calls => keptAfter ((s.accepted call).getD kept) (s.after call) calls

def Served (kept : PurchaseOrder) (s : ReceivingSession) : List Call → Prop
  | [] => True
  | call :: calls =>
    Correct kept s call ∧ Served ((s.accepted call).getD kept) (s.after call) calls

/-- What a run against a correct service keeps. -/
structure Sound (s : ReceivingSession) (place : ℤ) : Prop where
  ids : (s.order.lines.map OrderLine.id).Nodup
  lines : ∀ l ∈ s.order.lines, l.InRange place
  typed : ∀ id typed, (id, typed) ∈ s.entered → OnGrid place (Quantity.ofText typed).value

section
variable {place : ℤ} (hlow : leastExponent ≤ place) (htop : place ≤ topExponent)
include hlow htop

theorem Sound.measured {s : ReceivingSession} (h : s.Sound place) : s.order.Measured :=
  fun l hl => ((h.lines l hl).due hlow htop).1

theorem Sound.listed_le {s : ReceivingSession} (h : s.Sound place) {sent : List ReceiptLine}
    (hsent : s.Covers sent) {l : OrderLine} (hl : l ∈ s.order.lines) :
    0 ≤ listed sent l.id ∧ listed sent l.id ≤ l.ordered.value - l.received.value ∧
      OnGrid place (listed sent l.id) := by
  obtain ⟨-, hdue, hgrid⟩ := (h.lines l hl).due hlow htop
  -- The line that the quantity was clamped on is `l` itself only because ids are distinct.
  by_cases hid : l.id ∈ sent.map ReceiptLine.line
  · obtain ⟨q, hq, he⟩ := List.mem_map.mp hid
    obtain ⟨typed, m, p, htyped, hm, hmid, hp, hqty, hpos, hle⟩ := hsent.due q hq
    obtain rfl : m = l := List.inj_on_of_nodup_map h.ids hm hl (hmid.trans he)
    obtain rfl : m.due = p := OrderLine.due_of_pending hp
    have hqgrid : OnGrid place q.qty.value := by
      rw [hqty]
      exact hgrid.clamp (h.typed _ _ htyped)
    rw [hdue] at hle
    rw [← he, listed_of_mem hsent.nodup hq]
    exact ⟨hpos.le, hle, hqgrid⟩
  · rw [listed_of_not_mem hid]
    have := (h.lines l hl).le
    exact ⟨le_rfl, by linarith, .zero⟩

theorem Sound.receives {s : ReceivingSession} (h : s.Sound place) {sent : List ReceiptLine}
    (hsent : s.request = .ok sent) {next : PurchaseOrder} (hnext : s.order.Receives sent next) :
    List.Forall₂ (fun l l' => l ∈ s.order.lines ∧ l'.InRange place ∧
      l' = { l with received := l'.received } ∧ l.received.value ≤ l'.received.value ∧
      l'.due.value = l.due.value - listed sent l.id) s.order.lines next.lines := by
  obtain ⟨rfl, -, hne⟩ := payload_of_request (h.measured hlow htop) hsent
  have hcovers := covers_payload (h.measured hlow htop) hne
  refine ((List.forall₂_and_left _ _).mpr ⟨fun l hl => hl, hnext.2⟩).imp ?_
  rintro l l' ⟨hl, hsame, hv⟩
  obtain ⟨h0, hle, hgrid⟩ := h.listed_le hlow htop hcovers hl
  have hrange := (h.lines l hl).receive hsame hv h0 hle hgrid
  obtain ⟨-, hdue, -⟩ := (h.lines l hl).due hlow htop
  obtain ⟨-, hdue', -⟩ := hrange.due hlow htop
  have hordered : l'.ordered = l.ordered := by rw [hsame]
  refine ⟨hl, hrange, hsame, by linarith, ?_⟩
  rw [hdue', hdue, hordered, hv]
  ring

theorem Sound.accepts {s : ReceivingSession} (h : s.Sound place) {call : Call}
    (hcall : Correct s.order s call) {next : PurchaseOrder} (hnext : s.accepted call = some next) :
    (s.refreshed next).Sound place ∧ s.order.Advances next := by
  obtain ⟨⟨sent, hsent⟩, hanswer⟩ := accepted_eq_some.mp hnext
  have hreceives := hcall sent next hsent hanswer
  have hpairs := h.receives hlow htop hsent hreceives
  refine ⟨⟨?_, fun l' hl' => ?_, fun _ _ he => (nomatch he)⟩, ?_⟩
  · exact hreceives.ids ▸ h.ids
  · obtain ⟨l, -, hrange, -⟩ := Traversal.mem_right hpairs hl'
    exact hrange
  · exact hpairs.imp fun l l' hl => ⟨hl.2.2.1, hl.2.2.2.1⟩

/-- One call, answered correctly: session and service still hold one order. -/
theorem Sound.after {s : ReceivingSession} (h : s.Sound place) {call : Call}
    (htyped : ∀ id typed, call = .enter id typed → OnGrid place (Quantity.ofText typed).value)
    (hcall : Correct s.order s call) :
    (s.after call).Sound place ∧ s.order.Advances (s.after call).order ∧
      (s.accepted call).getD s.order = (s.after call).order := by
  have hmeasured : ∀ o, s.accepted call = some o → o.Measured := fun o ho =>
    (h.accepts hlow htop hcall ho).1.measured hlow htop
  rcases s.after_cases call hmeasured with ⟨hn, error, ha⟩ |
    ⟨hn, id, typed, l, p, rfl, -, -, -, -, ha⟩ | ⟨o, hn, ha⟩ <;> rw [hn, ha]
  · exact ⟨⟨h.ids, h.lines, h.typed⟩, .refl _, rfl⟩
  · refine ⟨⟨h.ids, h.lines, fun id' typed' he => ?_⟩, .refl _, rfl⟩
    rcases mem_putEntry he with he | he
    · obtain ⟨rfl, rfl⟩ := Prod.mk.inj he
      exact htyped _ _ rfl
    · exact h.typed _ _ he
  · obtain ⟨hs, hadvances⟩ := h.accepts hlow htop hcall hn
    exact ⟨hs, hadvances, rfl⟩

/-- Any calls, answered correctly: session and service still hold one order. -/
theorem Sound.afterAll {s : ReceivingSession} (h : s.Sound place) {calls : List Call}
    (htyped : ∀ id typed, Call.enter id typed ∈ calls → OnGrid place (Quantity.ofText typed).value)
    (hcalls : Served s.order s calls) :
    (s.afterAll calls).Sound place ∧ s.order.Advances (s.afterAll calls).order ∧
      keptAfter s.order s calls = (s.afterAll calls).order := by
  induction calls generalizing s with
  | nil => exact ⟨h, .refl _, rfl⟩
  | cons call calls ih =>
    obtain ⟨hs, hadvances, hkept⟩ := h.after hlow htop
      (fun id typed he => htyped id typed (by simp [he])) hcalls.1
    have hrest := hcalls.2
    rw [hkept] at hrest
    obtain ⟨hs', hadvances', hkept'⟩ :=
      ih hs (fun id typed he => htyped id typed (by simp [he])) hrest
    refine ⟨hs', hadvances.trans hadvances', ?_⟩
    rw [keptAfter, hkept]
    exact hkept'

theorem Sound.shown {s : ReceivingSession} (h : s.Sound place) (hopen : s.isReceivable = true) :
    ∃ shown, s.lines = .ok shown ∧ ∀ l ∈ s.order.lines,
      l ∉ shown.map Prod.fst ↔ l.due.value = 0 := by
  refine ⟨PurchaseOrder.dues s.order.lines, ?_, fun l hl => ?_⟩
  · rw [lines_eq (h.measured hlow htop), dueLines, if_pos hopen]
  · have hnonneg : 0 ≤ l.due.value := by
      have hle := (h.lines l hl).le
      rw [((h.lines l hl).due hlow htop).2.1]
      linarith
    have hmem : l ∈ (PurchaseOrder.dues s.order.lines).map Prod.fst ↔ 0 < l.due.value := by
      constructor
      · intro hm
        obtain ⟨m, hdues, rfl⟩ := List.mem_map.mp hm
        obtain ⟨-, hdue, hpos⟩ := PurchaseOrder.mem_dues.mp hdues
        rwa [hdue] at hpos
      · intro hpos
        exact List.mem_map.mpr ⟨(l, l.due), PurchaseOrder.mem_dues.mpr ⟨hl, rfl, hpos⟩, rfl⟩
    rw [hmem, not_lt]
    exact ⟨fun hle => le_antisymm hle hnonneg, le_of_eq⟩

end

end ReceivingSession
end BomEngine
