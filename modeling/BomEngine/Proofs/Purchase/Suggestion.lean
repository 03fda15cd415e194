import BomEngine.Proofs.Decimal.Value
import BomEngine.View.WorkOrderShortages

/-!
# Suggested orders share out what is short

A part is ordered from the vendor of the first of the cheapest records in its price
history. Short lines are grouped by these vendors while they are gone through, so that a
group holds the lines for its vendor in their order, groups stand in the order of their
first lines, and no line is in two groups. Lines without a vendor are listed apart.
-/

set_option autoImplicit false

namespace BomEngine

namespace PriceRecord

theorem namesVendor_iff {p : PriceRecord} :
    p.namesVendor = true ↔ ∃ v, p.vendor = some v ∧ v ≠ "" := by
  cases hv : p.vendor <;> simp [namesVendor, hv]

/-- The record of a history that a part is ordered by: none with a vendor is cheaper, and the
earlier ones cost more. -/
def Leads (p : PriceRecord) (history : List PriceRecord) : Prop :=
  ∃ before after, history = before ++ p :: after ∧ p.namesVendor = true ∧
    (∀ q ∈ before, q.namesVendor = true → p.unitPrice.value < q.unitPrice.value) ∧
    ∀ q ∈ after, q.namesVendor = true → p.unitPrice.value ≤ q.unitPrice.value

variable {p q : PriceRecord} {history : List PriceRecord}

theorem Leads.le (h : p.Leads history) :
    ∀ q ∈ history, q.namesVendor = true → p.unitPrice.value ≤ q.unitPrice.value := by
  obtain ⟨before, after, rfl, -, hbefore, hafter⟩ := h
  intro q hq hv
  rcases List.mem_append.mp hq with hq | hq
  · exact (hbefore q hq hv).le
  rcases List.mem_cons.mp hq with rfl | hq
  · exact le_rfl
  · exact hafter q hq hv

theorem Leads.cons (h : p.Leads history)
    (hq : q.namesVendor = true → p.unitPrice.value < q.unitPrice.value) :
    p.Leads (q :: history) := by
  obtain ⟨before, after, rfl, hp, hbefore, hafter⟩ := h
  refine ⟨q :: before, after, rfl, hp, ?_, hafter⟩
  intro r hr hv
  rcases List.mem_cons.mp hr with rfl | hr
  · exact hq hv
  · exact hbefore r hr hv

theorem leads_head (hq : q.namesVendor = true)
    (h : ∀ r ∈ history, r.namesVendor = true → q.unitPrice.value ≤ r.unitPrice.value) :
    q.Leads (q :: history) :=
  ⟨[], history, rfl, hq, fun _ hr => (nomatch hr), h⟩

end PriceRecord

/-- What a price history says about where to order: a record that leads it, or nothing if it could
not be fetched or no record in it names a vendor. -/
def Sourced (history : Outcome (List PriceRecord)) : Option PriceRecord → Prop
  | some p => ∃ records, history = .ok records ∧ p.Leads records
  | none => ∀ records, history = .ok records → ∀ p ∈ records, p.namesVendor = false

namespace PreferredSource

def best (history : List PriceRecord) : Option PriceRecord :=
  cheapest? (history.filter PriceRecord.namesVendor)

theorem best_none {history : List PriceRecord} (h : best history = none) :
    ∀ p ∈ history, p.namesVendor = false := by
  have hempty : history.filter PriceRecord.namesVendor = [] := by
    unfold best at h
    cases hf : history.filter PriceRecord.namesVendor with
    | nil => rfl
    | cons p rest =>
      rw [hf, cheapest?] at h
      split at h
      · cases h
      · split_ifs at h
  intro p hp
  simpa using List.filter_eq_nil_iff.mp hempty p hp

theorem best_leads {history : List PriceRecord} {p : PriceRecord} (h : best history = some p) :
    p.Leads history := by
  induction history generalizing p with
  | nil => cases h
  | cons q rest ih =>
    by_cases hq : q.namesVendor = true
    · rw [best, List.filter_cons_of_pos hq, cheapest?] at h
      cases hrest : best rest with
      | none =>
        have hnone := best_none hrest
        rw [best] at hrest
        rw [hrest] at h
        cases h
        apply PriceRecord.leads_head hq
        intro r hr hv
        rw [hnone r hr] at hv
        cases hv
      | some r =>
        have hr := ih hrest
        rw [best] at hrest
        simp only [hrest] at h
        by_cases hlt : r.unitPrice.lt q.unitPrice = true
        · rw [if_pos hlt] at h
          cases h
          exact hr.cons fun _ => (Decimal.lt_iff _ _).mp hlt
        · rw [if_neg hlt] at h
          cases h
          apply PriceRecord.leads_head hq
          intro x hx hv
          exact (not_lt.mp (mt (Decimal.lt_iff _ _).mpr hlt)).trans (hr.le x hx hv)
    · rw [best, List.filter_cons_of_neg hq] at h
      exact (ih h).cons fun hv => absurd hv hq

theorem sourced_best (history : Outcome (List PriceRecord)) :
    Sourced history (best (history.value?.getD [])) := by
  cases history with
  | error f =>
    intro records h
    cases h
  | ok records =>
    show Sourced (.ok records) (best records)
    cases hb : best records with
    | none =>
      intro other h
      cases h
      exact best_none hb
    | some p => exact ⟨records, rfl, best_leads hb⟩

end PreferredSource

namespace SuggestionSet

variable {sources : Sources} {lines : List NettedLine}

def vendorOf (sources : Sources) (l : NettedLine) : Option String :=
  (sources.lookup l.ipn).map PreferredSource.vendor

def offerOf (sources : Sources) (l : NettedLine) : Option SuggestedLine :=
  (sources.lookup l.ipn).map (SuggestedLine.ofSource l)

def offerFrom (sources : Sources) (vendor : String) (l : NettedLine) : Option SuggestedLine :=
  (sources.lookup l.ipn).bind fun s =>
    if s.vendor = vendor then some (SuggestedLine.ofSource l s) else none

theorem grouped_append (sources : Sources) (lines : List NettedLine) (l : NettedLine) :
    grouped sources (lines ++ [l]) = match sources.lookup l.ipn with
      | some s => addTo s.vendor (SuggestedLine.ofSource l s) (grouped sources lines)
      | none => grouped sources lines := by
  unfold grouped
  rw [List.foldl_append]
  rfl

theorem grouped_nodup (sources : Sources) (lines : List NettedLine) :
    ((grouped sources lines).map Prod.fst).Nodup := by
  induction lines using List.reverseRecOn with
  | nil => exact List.nodup_nil
  | append_singleton lines l ih =>
    rw [grouped_append]
    cases sources.lookup l.ipn with
    | none => exact ih
    | some s => exact nodup_putEntry ih _ _

theorem grouped_lookup (sources : Sources) (lines : List NettedLine) (vendor : String) :
    ((grouped sources lines).lookup vendor).getD [] =
      lines.filterMap (offerFrom sources vendor) := by
  induction lines using List.reverseRecOn with
  | nil => rfl
  | append_singleton lines l ih =>
    rw [grouped_append, List.filterMap_append, ← ih]
    cases hs : sources.lookup l.ipn with
    | none => simp [offerFrom, hs]
    | some s =>
      by_cases hv : s.vendor = vendor
      · subst hv
        simp [addTo, lookup_putEntry, offerFrom, hs]
      · simp [addTo, lookup_putEntry_of_ne _ _ _ _ (Ne.symm hv), offerFrom, hs, hv]

theorem eraseDups_concat (vendors : List String) (vendor : String) :
    (vendors ++ [vendor]).eraseDups =
      if vendor ∈ vendors then vendors.eraseDups else vendors.eraseDups ++ [vendor] := by
  rw [List.eraseDups_append]
  by_cases hv : vendor ∈ vendors <;> simp [List.removeAll, List.eraseDups_cons, hv]

theorem grouped_vendors (sources : Sources) (lines : List NettedLine) :
    (grouped sources lines).map Prod.fst = (lines.filterMap (vendorOf sources)).eraseDups := by
  induction lines using List.reverseRecOn with
  | nil => rfl
  | append_singleton lines l ih =>
    rw [grouped_append, List.filterMap_append]
    cases hs : sources.lookup l.ipn with
    | none => simpa [vendorOf, hs] using ih
    | some s =>
      have hl : [l].filterMap (vendorOf sources) = [s.vendor] := by simp [vendorOf, hs]
      rw [hl, eraseDups_concat]
      simp only [addTo, keys_putEntry, ih, List.mem_eraseDups]

theorem grouped_nonempty {sources : Sources} {lines : List NettedLine} :
    ∀ g ∈ grouped sources lines, g.2 ≠ [] := by
  induction lines using List.reverseRecOn with
  | nil => intro g hg; cases hg
  | append_singleton lines l ih =>
    rw [grouped_append]
    cases sources.lookup l.ipn with
    | none => exact ih
    | some s =>
      intro g hg
      rcases mem_putEntry hg with rfl | hg
      · simp
      · exact ih g hg

theorem addTo_perm (vendor : String) (line : SuggestedLine)
    (groups : List (String × List SuggestedLine)) :
    ((addTo vendor line groups).flatMap Prod.snd).Perm (groups.flatMap Prod.snd ++ [line]) := by
  unfold addTo
  induction groups with
  | nil => simp [putEntry]
  | cons g rest ih =>
    obtain ⟨v, ls⟩ := g
    by_cases hv : v = vendor
    · subst hv
      simp only [putEntry, if_true, List.lookup_cons_self, Option.getD_some, List.flatMap_cons,
        List.append_assoc]
      exact List.Perm.append_left ls List.perm_append_comm
    · have hv' : (vendor == v) = false := by simpa using Ne.symm hv
      rw [putEntry, if_neg hv, List.lookup_cons, hv']
      simp only [List.flatMap_cons, List.append_assoc]
      exact List.Perm.append_left ls ih

theorem grouped_perm (sources : Sources) (lines : List NettedLine) :
    ((grouped sources lines).flatMap Prod.snd).Perm (lines.filterMap (offerOf sources)) := by
  induction lines using List.reverseRecOn with
  | nil => exact .refl _
  | append_singleton lines l ih =>
    rw [grouped_append, List.filterMap_append]
    cases hs : sources.lookup l.ipn with
    | none => simpa [offerOf, hs] using ih
    | some s =>
      have hl : [l].filterMap (offerOf sources) = [SuggestedLine.ofSource l s] := by
        simp [offerOf, hs]
      rw [hl]
      exact (addTo_perm _ _ _).trans (ih.append_right _)

theorem sourcesOf_append (histories : List (String × Outcome (List PriceRecord)))
    (h : String × Outcome (List PriceRecord)) : sourcesOf (histories ++ [h]) =
      match PreferredSource.ofPrices h.1 (h.2.value?.getD []) with
      | some s => putEntry h.1 s (sourcesOf histories)
      | none => sourcesOf histories := by
  unfold sourcesOf
  rw [List.foldl_append]
  rfl

theorem lookup_sourcesOf (prices : String → Outcome (List PriceRecord)) (ipns : List String)
    (ipn : String) : (sourcesOf (ipns.map fun i => (i, prices i))).lookup ipn =
      if ipn ∈ ipns then PreferredSource.ofPrices ipn ((prices ipn).value?.getD []) else none := by
  induction ipns using List.reverseRecOn with
  | nil => rfl
  | append_singleton ipns i ih =>
    rw [List.map_append, List.map_singleton, sourcesOf_append]
    by_cases hi : ipn = i
    · subst hi
      cases hs : PreferredSource.ofPrices ipn ((prices ipn).value?.getD []) with
      | none => simp [ih, hs]
      | some s => simp [lookup_putEntry]
    · have hmem : ipn ∈ ipns ++ [i] ↔ ipn ∈ ipns := by simp [hi]
      simp only [hmem, ← ih]
      cases PreferredSource.ofPrices i ((prices i).value?.getD []) with
      | none => rfl
      | some s => exact lookup_putEntry_of_ne _ _ _ _ hi

def orderedBy (l : NettedLine) (p : PriceRecord) : SuggestedLine :=
  ⟨l.ipn, none, none, l.shortage, p.unitPrice⟩

/-- How a set shares out short lines, where `best` is the record that each part is ordered by. -/
structure Shares (set : SuggestionSet) (short : List NettedLine)
    (best : String → Option PriceRecord) : Prop where
  /-- Without a record a line is listed apart. -/
  unassigned : set.unassigned = (short.filter fun l => (best l.ipn).isNone).map NettedLine.ipn
  /-- Vendors stand in the order of their first lines. -/
  vendors : set.suggestions.map SuggestedOrder.vendor =
    (short.filterMap fun l => (best l.ipn).bind PriceRecord.vendor).eraseDups
  nodup : (set.suggestions.map SuggestedOrder.vendor).Nodup
  /-- An order has the lines for its vendor, in their order. -/
  lines : ∀ o ∈ set.suggestions, o.lines = short.filterMap fun l => (best l.ipn).bind fun p =>
    if p.vendor = some o.vendor then some (orderedBy l p) else none
  nonempty : ∀ o ∈ set.suggestions, o.lines ≠ []
  /-- Over all orders each line with a record is there once. -/
  complete : (set.suggestions.flatMap SuggestedOrder.lines).Perm
    (short.filterMap fun l => (best l.ipn).map (orderedBy l))

theorem shares_ofShort {short : List NettedLine} {best : String → Option PriceRecord}
    (hsources : ∀ l ∈ short, sources.lookup l.ipn = (best l.ipn).map fun p =>
      ⟨l.ipn, p.vendor.getD "", none, none, p.unitPrice⟩)
    (hbest : ∀ l ∈ short, ∀ p ∈ best l.ipn, p.namesVendor = true) :
    (ofShort sources short).Shares short best := by
  have hvendor : ∀ l ∈ short, vendorOf sources l = (best l.ipn).bind PriceRecord.vendor := by
    intro l hl
    rw [vendorOf, hsources l hl]
    cases hp : best l.ipn with
    | none => rfl
    | some p =>
      obtain ⟨v, hv, -⟩ := PriceRecord.namesVendor_iff.mp (hbest l hl p hp)
      simp [hv]
  have hfrom : ∀ vendor, ∀ l ∈ short, offerFrom sources vendor l = (best l.ipn).bind fun p =>
      if p.vendor = some vendor then some (orderedBy l p) else none := by
    intro vendor l hl
    rw [offerFrom, hsources l hl]
    cases hp : best l.ipn with
    | none => rfl
    | some p =>
      obtain ⟨v, hv, -⟩ := PriceRecord.namesVendor_iff.mp (hbest l hl p hp)
      simp [hv, SuggestedLine.ofSource, orderedBy]
  have hoffer : ∀ l ∈ short, offerOf sources l = (best l.ipn).map (orderedBy l) := by
    intro l hl
    rw [offerOf, hsources l hl, Option.map_map]
    rfl
  constructor
  · show withoutSource sources short = _
    rw [withoutSource]
    congr 1
    apply List.filter_congr
    intro l hl
    rw [hsources l hl, Option.isNone_map]
  · show (List.map _ (List.map _ (grouped sources short))) = _
    rw [List.map_map, ← List.filterMap_congr hvendor, ← grouped_vendors]
    rfl
  · show (List.map _ (List.map _ (grouped sources short))).Nodup
    rw [List.map_map]
    exact grouped_nodup sources short
  · intro o ho
    obtain ⟨g, hg, rfl⟩ := List.mem_map.mp ho
    have hlookup := grouped_lookup sources short g.1
    rw [lookup_of_mem (grouped_nodup sources short) hg, List.filterMap_congr (hfrom g.1)] at hlookup
    exact hlookup
  · intro o ho
    obtain ⟨g, hg, rfl⟩ := List.mem_map.mp ho
    exact grouped_nonempty g hg
  · show (List.flatMap _ (List.map _ (grouped sources short))).Perm _
    rw [List.flatMap_map, ← List.filterMap_congr hoffer]
    exact grouped_perm sources short

end SuggestionSet
end BomEngine
