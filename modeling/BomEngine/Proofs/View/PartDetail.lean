import BomEngine.Proofs.Bom.Resolving
import BomEngine.Proofs.Shortage.Reconciliation

/-!
# The view of a part and what it is made from

The view of a part is made from the outcomes of five fetches. Each of its sections is made
from some of them only, so that a fetch that comes out otherwise leaves the sections alone
that are not made from it. The bill of materials and the catalog are fetched for an assembly
and for nothing else.
-/

set_option autoImplicit false

namespace BomEngine
open Service

def Section.map {α β : Type} (f : α → β) (s : Section α) : Section β :=
  ⟨s.state, s.data.map f, s.message⟩

theorem Section.map_map {α β γ : Type} (f : α → β) (g : β → γ) (s : Section α) :
    (s.map f).map g = s.map fun a => g (f a) := by
  unfold Section.map
  rw [Option.map_map]
  rfl

namespace BomSection

def withStock (stock : List NettedLine × Option ShortageSummary) (b : BomSection) : BomSection :=
  { b with availability := stock.1, summary := stock.2 }

def withoutStock (b : BomSection) : BomSection := b.withStock ([], none)

def withoutRows (b : BomSection) : BomSection := { b with rows := [] }

end BomSection

def PartOutcomes.assembly (s : Settings) (ipn : String) (qty : Result Decimal)
    (o : PartOutcomes) : Result (Option BomResolution × Option (List Part)) :=
  if PartView.isAssemblyOf s ipn o.part then do
    let resolution ← (BomResolution.ofOutcome s.bomMaxDepth ipn (← qty) o.bom).result
    return (some resolution, o.parts.value?)
  else return (none, none)

namespace PartView

variable {s : Settings} {ipn : String} {qty : Result Decimal} {depth depth' : Option Int}

def bomFrame (s : Settings) (depth : Option Int) : Option BomResolution → Section BomSection
  | none => .without .skipped "Not an assembly"
  | some r =>
    if r.isOk then .loaded ⟨r.buildQty,
      (TreeView.ofNodes r.nodes (depth.getD s.bomExpandedDepth)).visibleRows, [], none⟩
    else .without .failed
      (if (r.error.getD "").isEmpty then BomResolution.noData else r.error.getD "")

def stock (parts : Option (List Part)) :
    Option BomResolution → Result (List NettedLine × Option ShortageSummary)
  | none => .ok ([], none)
  | some r => if r.isOk then availability r.nodes parts else .ok ([], none)

theorem bomFrame_ok {r : BomResolution} (hr : r.isOk = true) :
    bomFrame s depth (some r) = .loaded ⟨r.buildQty,
      (TreeView.ofNodes r.nodes (depth.getD s.bomExpandedDepth)).visibleRows, [], none⟩ :=
  if_pos hr

theorem bomFrame_failed {r : BomResolution} (hr : ¬ r.isOk = true) :
    bomFrame s depth (some r) = .without .failed
      (if (r.error.getD "").isEmpty then BomResolution.noData else r.error.getD "") :=
  if_neg hr

theorem bomSection_eq_ok {parts : Option (List Part)} {r : Option BomResolution}
    {b : Section BomSection} (h : bomSection s depth parts r = .ok b) :
    ∃ a, stock parts r = .ok a ∧ b = (bomFrame s depth r).map (BomSection.withStock a) := by
  cases r with
  | none => exact ⟨_, rfl, (Except.ok.inj h).symm⟩
  | some r =>
    by_cases hr : r.isOk
    · have hload := (if_pos hr).symm.trans h
      obtain ⟨a, ha, hb⟩ := Traversal.bind_eq_ok.mp hload
      refine ⟨a, (if_pos hr).trans ha, ?_⟩
      rw [bomFrame_ok hr]
      exact (Except.ok.inj hb).symm
    · have hfail := (if_neg hr).symm.trans h
      refine ⟨_, if_neg hr, ?_⟩
      rw [bomFrame_failed hr]
      exact (Except.ok.inj hfail).symm

theorem bomFrame_withoutRows (s : Settings) (depth depth' : Option Int)
    (r : Option BomResolution) :
    (bomFrame s depth' r).map BomSection.withoutRows =
      (bomFrame s depth r).map BomSection.withoutRows := by
  cases r with
  | none => rfl
  | some r =>
    by_cases hr : r.isOk
    · rw [bomFrame_ok hr, bomFrame_ok hr]
      rfl
    · rw [bomFrame_failed hr, bomFrame_failed hr]

theorem bomFrame_skipped {r : Option BomResolution} :
    (bomFrame s depth r).state = .skipped ↔ r = none := by
  cases r with
  | none => exact iff_of_true rfl rfl
  | some r =>
    by_cases hr : r.isOk
    · rw [bomFrame_ok hr]
      exact iff_of_false nofun nofun
    · rw [bomFrame_failed hr]
      exact iff_of_false nofun nofun

def ofOutcomes (s : Settings) (ipn : String) (qty : Result Decimal) (depth : Option Int)
    (o : PartOutcomes) : Result PartView := do
  let (resolution, parts) ← o.assembly s ipn qty
  (assemble s ipn depth resolution parts o.part o.cost o.whereUsed).result

structure MadeFrom (s : Settings) (ipn : String) (depth : Option Int) (o : PartOutcomes)
    (resolution : Option BomResolution) (parts : Option (List Part)) (v : PartView) : Prop where
  address : v.ipn = ipn
  state : v.state = ViewState.ofOutcome o.part
  message : v.message = o.part.message?
  part : v.part = o.part.value?
  isAssembly : v.isAssembly = isAssemblyOf s ipn o.part
  bom : bomSection s depth parts resolution = .ok v.bom
  cost : (CostSummary.summarize ipn o.cost.value? resolution
    (parts.map CostCatalog.ofParts)).result.map (costSection o.cost) = .ok v.cost
  whereUsed : v.whereUsed = Section.ofOutcome noWhereUsed o.whereUsed

theorem ofOutcomes_eq_ok {o : PartOutcomes} {v : PartView}
    (h : ofOutcomes s ipn qty depth o = .ok v) :
    ∃ resolution parts, o.assembly s ipn qty = .ok (resolution, parts) ∧
      MadeFrom s ipn depth o resolution parts v := by
  obtain ⟨⟨resolution, parts⟩, hassembly, hv⟩ := Traversal.bind_eq_ok.mp h
  refine ⟨resolution, parts, hassembly, ?_⟩
  dsimp only at hv
  rw [assemble, Noted.result_bind, Noted.result_ofResult] at hv
  obtain ⟨bom, hbom, hv⟩ := Traversal.bind_eq_ok.mp hv
  rw [Noted.result_bind] at hv
  obtain ⟨summary, hsummary, hv⟩ := Traversal.bind_eq_ok.mp hv
  cases hv
  exact ⟨rfl, rfl, rfl, rfl, rfl, hbom, by rw [hsummary]; rfl, rfl⟩

/-- Views made from outcomes that differ in one place differ only in what is made from that
place. The catalog changes what is in stock of a bill of materials and the cost, the depth to
which rows are open changes the rows. -/
structure Isolated (s : Settings) (ipn : String) (depth depth' : Option Int)
    (o o' : PartOutcomes) (v v' : PartView) : Prop where
  whereUsed : depth' = depth → o' = { o with whereUsed := o'.whereUsed } →
    v' = { v with whereUsed := v'.whereUsed }
  cost : depth' = depth → o' = { o with cost := o'.cost } → v' = { v with cost := v'.cost }
  bom : depth' = depth → o' = { o with bom := o'.bom } →
    v' = { v with bom := v'.bom, cost := v'.cost }
  parts : depth' = depth → o' = { o with parts := o'.parts } →
    v' = { v with bom := v'.bom, cost := v'.cost } ∧
      v'.bom.map BomSection.withoutStock = v.bom.map BomSection.withoutStock
  part : depth' = depth → o' = { o with part := o'.part } →
    isAssemblyOf s ipn o'.part = isAssemblyOf s ipn o.part →
    v' = { v with part := v'.part, state := v'.state, message := v'.message }
  depth : o' = o → v' = { v with bom := v'.bom } ∧
    v'.bom.map BomSection.withoutRows = v.bom.map BomSection.withoutRows

variable {o o' : PartOutcomes} {v v' : PartView} {r r' : Option BomResolution}
  {parts parts' : Option (List Part)}

namespace MadeFrom

theorem part_eq (hm : MadeFrom s ipn depth o r parts v)
    (hm' : MadeFrom s ipn depth' o' r' parts' v') (h : o'.part = o.part) :
    v'.state = v.state ∧ v'.message = v.message ∧ v'.part = v.part := by
  rw [hm'.state, hm'.message, hm'.part, hm.state, hm.message, hm.part, h]
  exact ⟨rfl, rfl, rfl⟩

theorem isAssembly_eq (hm : MadeFrom s ipn depth o r parts v)
    (hm' : MadeFrom s ipn depth' o' r' parts' v')
    (h : isAssemblyOf s ipn o'.part = isAssemblyOf s ipn o.part) :
    v'.isAssembly = v.isAssembly := by
  rw [hm'.isAssembly, hm.isAssembly, h]

theorem bom_eq (hm : MadeFrom s ipn depth o r parts v)
    (hm' : MadeFrom s ipn depth o' r parts v') : v'.bom = v.bom :=
  Except.ok.inj (hm'.bom.symm.trans hm.bom)

theorem cost_eq (hm : MadeFrom s ipn depth o r parts v)
    (hm' : MadeFrom s ipn depth' o' r parts v') (h : o'.cost = o.cost) : v'.cost = v.cost := by
  have hc := hm'.cost
  rw [h, hm.cost] at hc
  exact (Except.ok.inj hc).symm

theorem whereUsed_eq (hm : MadeFrom s ipn depth o r parts v)
    (hm' : MadeFrom s ipn depth' o' r' parts' v') (h : o'.whereUsed = o.whereUsed) :
    v'.whereUsed = v.whereUsed := by
  rw [hm'.whereUsed, hm.whereUsed, h]

theorem bom_withoutStock (hm : MadeFrom s ipn depth o r parts v)
    (hm' : MadeFrom s ipn depth o' r parts' v') :
    v'.bom.map BomSection.withoutStock = v.bom.map BomSection.withoutStock := by
  obtain ⟨a, -, hb⟩ := bomSection_eq_ok hm.bom
  obtain ⟨a', -, hb'⟩ := bomSection_eq_ok hm'.bom
  rw [hb, hb', Section.map_map, Section.map_map]
  rfl

theorem bom_withoutRows (hm : MadeFrom s ipn depth o r parts v)
    (hm' : MadeFrom s ipn depth' o' r parts v') :
    v'.bom.map BomSection.withoutRows = v.bom.map BomSection.withoutRows := by
  obtain ⟨a, ha, hb⟩ := bomSection_eq_ok hm.bom
  obtain ⟨a', ha', hb'⟩ := bomSection_eq_ok hm'.bom
  obtain rfl : a' = a := Except.ok.inj (ha'.symm.trans ha)
  have hfill : ∀ x : Section BomSection,
      (x.map (BomSection.withStock a')).map BomSection.withoutRows =
        (x.map BomSection.withoutRows).map (BomSection.withStock a') := fun x => by
    rw [Section.map_map, Section.map_map]
    rfl
  rw [hb, hb', hfill, hfill, bomFrame_withoutRows s depth depth' r]

end MadeFrom

theorem resolution_eq (ha : o.assembly s ipn qty = .ok (r, parts))
    (ha' : o'.assembly s ipn qty = .ok (r', parts'))
    (hpart : isAssemblyOf s ipn o'.part = isAssemblyOf s ipn o.part) (hbom : o'.bom = o.bom) :
    r' = r := by
  unfold PartOutcomes.assembly at ha ha'
  rw [hpart, hbom] at ha'
  split at ha
  · rename_i h
    rw [if_pos h] at ha'
    obtain ⟨q, hq, ha⟩ := Traversal.bind_eq_ok.mp ha
    obtain ⟨q', hq', ha'⟩ := Traversal.bind_eq_ok.mp ha'
    obtain rfl : q' = q := Except.ok.inj (hq'.symm.trans hq)
    obtain ⟨x, hx, ha⟩ := Traversal.bind_eq_ok.mp ha
    obtain ⟨x', hx', ha'⟩ := Traversal.bind_eq_ok.mp ha'
    obtain rfl : x' = x := Except.ok.inj (hx'.symm.trans hx)
    cases ha
    cases ha'
    rfl
  · rename_i h
    rw [if_neg h] at ha'
    cases ha
    cases ha'
    rfl

theorem assembly_eq (hpart : isAssemblyOf s ipn o'.part = isAssemblyOf s ipn o.part)
    (hbom : o'.bom = o.bom) (hparts : o'.parts = o.parts) :
    o'.assembly s ipn qty = o.assembly s ipn qty := by
  unfold PartOutcomes.assembly
  rw [hpart, hbom, hparts]

attribute [ext] PartView PartOutcomes

theorem isolated (hv : ofOutcomes s ipn qty depth o = .ok v)
    (hv' : ofOutcomes s ipn qty depth' o' = .ok v') : Isolated s ipn depth depth' o o' v v' := by
  obtain ⟨r, parts, ha, hm⟩ := ofOutcomes_eq_ok hv
  obtain ⟨r', parts', ha', hm'⟩ := ofOutcomes_eq_ok hv'
  have haddress : v'.ipn = v.ipn := hm'.address.trans hm.address.symm
  have hsame : isAssemblyOf s ipn o'.part = isAssemblyOf s ipn o.part → o'.bom = o.bom →
      o'.parts = o.parts → r' = r ∧ parts' = parts := fun hpart hbom hparts => by
    rw [assembly_eq hpart hbom hparts, ha] at ha'
    cases ha'
    exact ⟨rfl, rfl⟩
  constructor
  case whereUsed =>
    intro hd ho
    obtain ⟨hpart, hbom, hparts, hcost, hwhereUsed⟩ := PartOutcomes.ext_iff.mp ho
    obtain ⟨rfl, rfl⟩ := hsame (by rw [hpart]) hbom hparts
    obtain ⟨hstate, hmessage, hrecord⟩ := hm.part_eq hm' hpart
    subst hd
    exact PartView.ext haddress hstate hmessage hrecord (hm.isAssembly_eq hm' (by rw [hpart]))
      (hm.bom_eq hm') (hm.cost_eq hm' hcost) rfl
  case cost =>
    intro hd ho
    obtain ⟨hpart, hbom, hparts, hcost, hwhereUsed⟩ := PartOutcomes.ext_iff.mp ho
    obtain ⟨rfl, rfl⟩ := hsame (by rw [hpart]) hbom hparts
    obtain ⟨hstate, hmessage, hrecord⟩ := hm.part_eq hm' hpart
    subst hd
    exact PartView.ext haddress hstate hmessage hrecord (hm.isAssembly_eq hm' (by rw [hpart]))
      (hm.bom_eq hm') rfl (hm.whereUsed_eq hm' hwhereUsed)
  case bom =>
    intro hd ho
    obtain ⟨hpart, hbom, hparts, hcost, hwhereUsed⟩ := PartOutcomes.ext_iff.mp ho
    obtain ⟨hstate, hmessage, hrecord⟩ := hm.part_eq hm' hpart
    exact PartView.ext haddress hstate hmessage hrecord (hm.isAssembly_eq hm' (by rw [hpart]))
      rfl rfl (hm.whereUsed_eq hm' hwhereUsed)
  case parts =>
    intro hd ho
    obtain ⟨hpart, hbom, hparts, hcost, hwhereUsed⟩ := PartOutcomes.ext_iff.mp ho
    obtain ⟨hstate, hmessage, hrecord⟩ := hm.part_eq hm' hpart
    obtain rfl := resolution_eq ha ha' (by rw [hpart]) hbom
    subst hd
    constructor
    · exact PartView.ext haddress hstate hmessage hrecord
        (hm.isAssembly_eq hm' (by rw [hpart])) rfl rfl (hm.whereUsed_eq hm' hwhereUsed)
    · exact hm.bom_withoutStock hm'
  case part =>
    intro hd ho hclass
    obtain ⟨-, hbom, hparts, hcost, hwhereUsed⟩ := PartOutcomes.ext_iff.mp ho
    obtain ⟨rfl, rfl⟩ := hsame hclass hbom hparts
    subst hd
    exact PartView.ext haddress rfl rfl rfl (hm.isAssembly_eq hm' hclass) (hm.bom_eq hm')
      (hm.cost_eq hm' hcost) (hm.whereUsed_eq hm' hwhereUsed)
  case depth =>
    intro ho
    subst ho
    obtain ⟨rfl, rfl⟩ := hsame rfl rfl rfl
    obtain ⟨hstate, hmessage, hrecord⟩ := hm.part_eq hm' rfl
    constructor
    · exact PartView.ext haddress hstate hmessage hrecord (hm.isAssembly_eq hm' rfl) rfl
        (hm.cost_eq hm' rfl) (hm.whereUsed_eq hm' rfl)
    · exact hm.bom_withoutRows hm'

end PartView

namespace OpsClient

def bomResource (ipn : String) : Resource := reading ("/parts/" ++ ipn ++ "/bom") "BOM" (some ipn)

def partRequests (c : OpsClient) (ipn : String) : List Request :=
  c.requests (reading ("/parts/" ++ ipn) "Part" (some ipn)) ++
    c.requests (reading ("/parts/" ++ ipn ++ "/cost") "Cost" (some ipn)) ++
    c.requests (reading ("/parts/" ++ ipn ++ "/where-used") "Part" (some ipn))

end OpsClient

namespace Loading

open OpsClient

def partFetch (c : OpsClient) (ipn : String) : Act (Outcome Part) :=
  Act.labelled "Part fetch" [("ipn", .str ipn)] (c.fetchPart ipn)

def costFetch (c : OpsClient) (ipn : String) : Act (Outcome CostEntry) :=
  Act.labelled "Cost fetch" [("ipn", .str ipn)] (c.fetchCost ipn)

def whereUsedFetch (c : OpsClient) (ipn : String) : Act (Outcome (List WhereUsed)) :=
  Act.labelled "Where-used fetch" [("ipn", .str ipn)] (c.fetchWhereUsed ipn)

def catalogFetch (c : OpsClient) (ipn : String) : Act (Outcome (List Part)) :=
  Act.labelled "Parts catalog fetch" [("ipn", .str ipn)] c.fetchParts

def afterPart (c : OpsClient) (ipn : String) (w : World) : World :=
  (whereUsedFetch c ipn (costFetch c ipn (partFetch c ipn w).2).2).2

/-- Made one after another, the fetches for a part come to these outcomes. The last two are
asked for only for an assembly. -/
structure PartFetches (c : OpsClient) (s : Settings) (ipn : String) (qty : Result Decimal)
    (o : PartOutcomes) (w : World) : Prop where
  part : (partFetch c ipn w).1 = .ok o.part
  cost : (costFetch c ipn (partFetch c ipn w).2).1 = .ok o.cost
  whereUsed : (whereUsedFetch c ipn (costFetch c ipn (partFetch c ipn w).2).2).1 = .ok o.whereUsed
  bom : PartView.isAssemblyOf s ipn o.part = true →
    (Act.outcome (c.fetchBom ipn) (afterPart c ipn w)).1 = .ok o.bom
  parts : PartView.isAssemblyOf s ipn o.part = true →
    (catalogFetch c ipn (resolve c s.bomMaxDepth ipn qty (afterPart c ipn w)).2).1 = .ok o.parts

variable {c : OpsClient} {s : Settings} {ipn : String} {qty : Result Decimal}
  {depth : Option Int} {o : PartOutcomes} {w : World} {v : PartView}

theorem sends_afterPart (c : OpsClient) (ipn : String) (w : World) :
    (afterPart c ipn w).sent = w.sent ++ c.partRequests ipn := by
  have hpart : Act.Sends (partFetch c ipn) _ :=
    Act.sends_labelled (sends_fetchRecord c _ _ _) _ _
  have hcost : Act.Sends (costFetch c ipn) _ :=
    Act.sends_labelled (Act.sends_bind (sends_fetch c _) fun _ => sends_read _ _) _ _
  have hwhereUsed : Act.Sends (whereUsedFetch c ipn) _ :=
    Act.sends_labelled (sends_fetchRecords c _ _ _) _ _
  rw [afterPart, hwhereUsed, hcost, hpart, partRequests, List.append_assoc, List.append_assoc,
    List.append_assoc]

theorem resolve_sent (c : OpsClient) (limit : Int) (ipn : String) (q : Decimal) (w : World) :
    (resolve c limit ipn (.ok q) w).2.sent = w.sent ++ c.requests (bomResource ipn) := by
  have hfetch : Act.Sends (c.fetchBom ipn) (c.requests (bomResource ipn)) :=
    sends_fetchRecord c _ _ _
  rw [resolve, Act.bind_of_ok (Act.ofResult_apply _ w)]
  exact Act.sends_bind (Act.sends_outcome hfetch)
    (fun x w => (List.append_nil w.sent).symm) w

theorem bomAndParts_assembly (h : PartFetches c s ipn qty o w)
    (hassembly : PartView.isAssemblyOf s ipn o.part = true) :
    bomAndParts c s ipn qty o.part (afterPart c ipn w) = (o.assembly s ipn qty,
      (catalogFetch c ipn (resolve c s.bomMaxDepth ipn qty (afterPart c ipn w)).2).2) := by
  have hresolve := Prod.ext (x := resolve c s.bomMaxDepth ipn qty (afterPart c ipn w))
    (y := (_, _)) (resolve_result (h.bom hassembly)) rfl
  have hparts := Prod.ext (x := catalogFetch c ipn _) (y := (_, _)) (h.parts hassembly) rfl
  rw [bomAndParts, if_pos hassembly, Act.bind_of_ok (Act.attempt_apply hresolve),
    Act.bind_of_ok (Act.held_apply hparts), PartOutcomes.assembly, if_pos hassembly]
  cases qty with
  | error e => rfl
  | ok q =>
    simp only [bind, Except.bind]
    cases (BomResolution.ofOutcome s.bomMaxDepth ipn q o.bom).result <;> rfl

theorem bomAndParts_other (hother : PartView.isAssemblyOf s ipn o.part = false) :
    bomAndParts c s ipn qty o.part w = (o.assembly s ipn qty, w) := by
  rw [bomAndParts, PartOutcomes.assembly, if_neg (ne_true_of_eq_false hother),
    if_neg (ne_true_of_eq_false hother)]
  rfl

theorem partDetail_apply (h : PartFetches c s ipn qty o w) (depth : Option Int) {w' : World}
    (hbom : bomAndParts c s ipn qty o.part (afterPart c ipn w) = (o.assembly s ipn qty, w')) :
    (partDetail c s ipn qty depth w).1 = PartView.ofOutcomes s ipn qty depth o ∧
      (partDetail c s ipn qty depth w).2.sent = w'.sent := by
  have hpart := Prod.ext (x := partFetch c ipn w) (y := (_, _)) h.part rfl
  have hcost := Prod.ext (x := costFetch c ipn _) (y := (_, _)) h.cost rfl
  have hwhereUsed : whereUsedFetch c ipn _ = (.ok o.whereUsed, afterPart c ipn w) :=
    Prod.ext h.whereUsed rfl
  rw [partDetail, Act.bind_of_ok (Act.held_apply hpart), Act.bind_of_ok (Act.held_apply hcost),
    Act.bind_of_ok (Act.held_apply hwhereUsed), Act.bind_of_ok (Act.ofResult_apply (.ok o.part) _),
    Act.bind_of_ok (Act.attempt_apply hbom), Act.bind_of_ok (Act.ofResult_apply (.ok o.cost) _),
    Act.bind_of_ok (Act.ofResult_apply (.ok o.whereUsed) _), PartView.ofOutcomes]
  cases hassembly : o.assembly s ipn qty with
  | error e =>
    rw [Act.bind_of_error (Act.ofResult_apply _ w')]
    exact ⟨rfl, rfl⟩
  | ok a =>
    rw [Act.bind_of_ok (Act.ofResult_apply _ w')]
    exact ⟨rfl, rfl⟩

theorem partDetail_result (h : PartFetches c s ipn qty o w) :
    (partDetail c s ipn qty depth w).1 = PartView.ofOutcomes s ipn qty depth o := by
  cases hassembly : PartView.isAssemblyOf s ipn o.part with
  | true => exact (partDetail_apply h depth (bomAndParts_assembly h hassembly)).1
  | false => exact (partDetail_apply h depth (bomAndParts_other hassembly)).1

theorem assembly_of_ok {a : Option BomResolution × Option (List Part)}
    (hassembly : PartView.isAssemblyOf s ipn o.part = true)
    (ha : o.assembly s ipn qty = .ok a) :
    ∃ q r, qty = .ok q ∧ a = (some r, o.parts.value?) := by
  rw [PartOutcomes.assembly, if_pos hassembly] at ha
  obtain ⟨q, hq, ha⟩ := Traversal.bind_eq_ok.mp ha
  obtain ⟨r, -, ha⟩ := Traversal.bind_eq_ok.mp ha
  exact ⟨q, r, hq, (Except.ok.inj ha).symm⟩

/-- For a view of an assembly the bill of materials and the catalog are asked for, once each and
after the rest; for another view they are not. The view says which it is, and its section for the
bill of materials is skipped for the others. -/
structure Asks (c : OpsClient) (s : Settings) (ipn : String) (o : PartOutcomes) (w w' : World)
    (v : PartView) : Prop where
  isAssembly : v.isAssembly = PartView.isAssemblyOf s ipn o.part
  skipped : v.bom.state ≠ .skipped ↔ v.isAssembly = true
  assembly : v.isAssembly = true → ∃ bom catalog, c.requestFor (bomResource ipn) = .ok bom ∧
    c.requestFor catalogResource = .ok catalog ∧
    w'.sent = w.sent ++ c.partRequests ipn ++ [bom, catalog]
  other : v.isAssembly = false → w'.sent = w.sent ++ c.partRequests ipn

theorem asks (h : PartFetches c s ipn qty o w)
    (hv : (partDetail c s ipn qty depth w).1 = .ok v) :
    Asks c s ipn o w (partDetail c s ipn qty depth w).2 v := by
  obtain ⟨r, parts, ha, hm⟩ := PartView.ofOutcomes_eq_ok ((partDetail_result h).symm.trans hv)
  obtain ⟨a, -, hb⟩ := PartView.bomSection_eq_ok hm.bom
  have hstate : v.bom.state = (PartView.bomFrame s depth r).state := by
    rw [hb]
    rfl
  have hclass := hm.isAssembly
  cases hassembly : PartView.isAssemblyOf s ipn o.part with
  | true =>
    obtain ⟨q, x, rfl, hx⟩ := assembly_of_ok hassembly ha
    obtain rfl : r = some x := congrArg Prod.fst hx
    obtain ⟨bom, hbom⟩ : ∃ q, c.requestFor (bomResource ipn) = .ok q :=
      requestFor_of_outcome (h.bom hassembly)
    have hparts := h.parts hassembly
    rw [catalogFetch, Act.labelled_result] at hparts
    obtain ⟨catalog, hcatalog⟩ : ∃ q, c.requestFor catalogResource = .ok q :=
      requestFor_of_outcome hparts
    have hsent := (partDetail_apply h depth (bomAndParts_assembly h hassembly)).2
    have hlast : Act.Sends (catalogFetch c ipn) (c.requests catalogResource) :=
      Act.sends_labelled (sends_fetchParts c) _ _
    rw [hlast, resolve_sent, sends_afterPart, requests_of_requestFor hbom,
      requests_of_requestFor hcatalog, List.append_assoc _ [bom]] at hsent
    constructor
    · exact hclass
    · rw [hstate, hclass, hassembly, ne_eq, PartView.bomFrame_skipped]
      exact iff_of_true nofun rfl
    · intro hv
      exact ⟨bom, catalog, hbom, hcatalog, hsent⟩
    · intro hv
      rw [hclass, hassembly] at hv
      cases hv
  | false =>
    rw [PartOutcomes.assembly, if_neg (ne_true_of_eq_false hassembly)] at ha
    obtain rfl : none = r := congrArg Prod.fst (Except.ok.inj ha)
    have hsent := (partDetail_apply h depth (bomAndParts_other hassembly)).2
    rw [sends_afterPart] at hsent
    constructor
    · exact hclass
    · rw [hstate, hclass, hassembly, ne_eq, PartView.bomFrame_skipped]
      exact iff_of_false (fun h => h rfl) Bool.false_ne_true
    · intro hv
      rw [hclass, hassembly] at hv
      cases hv
    · intro hv
      exact hsent

end Loading
end BomEngine
