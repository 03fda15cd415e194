import BomEngine.Proofs.Purchase.Suggestion
import BomEngine.Proofs.View.WorkOrderShortages

/-!
# Suggestions for the shortages of a work order

The short lines of a work order are looked up one after another in the price histories of
their parts. As long as the same part gets the same history, what is suggested depends on
these alone: every short line goes to the vendor of the first of the cheapest records of
its part, or is listed apart, whether or not other histories could be fetched.
-/

set_option autoImplicit false

namespace BomEngine
open Service

namespace SuggestionSet

theorem ofLines_result (sources : Sources) (lines : List NettedLine) :
    (ofLines sources lines).result = .ok (ofShort sources (shortLines lines)) := by
  rw [ofLines]
  dsimp only
  split <;> rfl

/-- The sources that histories give share out the lines that the histories were fetched for. -/
theorem shares_sourcesOf (prices : String → Outcome (List PriceRecord)) (short : List NettedLine) :
    (ofShort (sourcesOf (short.map fun l => (l.ipn, prices l.ipn))) short).Shares short
      fun ipn => PreferredSource.best ((prices ipn).value?.getD []) := by
  have hmap : (short.map fun l => (l.ipn, prices l.ipn)) =
      (short.map NettedLine.ipn).map fun i => (i, prices i) := by
    rw [List.map_map]
    rfl
  apply shares_ofShort
  · intro l hl
    have hmem : l.ipn ∈ short.map NettedLine.ipn := List.mem_map_of_mem hl
    rw [hmap, lookup_sourcesOf, if_pos hmem]
    rfl
  · intro l hl p hp
    obtain ⟨before, after, -, hv, -⟩ := PreferredSource.best_leads hp
    exact hv

end SuggestionSet

namespace Loading

variable {c : OpsClient} {s : Settings} {id : String}

def priceHistory (c : OpsClient) (ipn : String) : Act (Outcome (List PriceRecord)) :=
  Act.labelled "Price history fetch" [("ipn", .str ipn)] (c.fetchPrices ipn)

/-- Asked for the histories of these parts one after another, the service answers as given, or
with the fault that is given; the same for the same part. -/
def Histories (c : OpsClient) (prices : String → Outcome (List PriceRecord)) :
    List String → World → Prop
  | [], _ => True
  | ipn :: rest, w => (priceHistory c ipn w).1 = .ok (prices ipn) ∧
      Histories c prices rest (priceHistory c ipn w).2

theorem histories_apply {prices : String → Outcome (List PriceRecord)} {short : List NettedLine}
    {w : World} (h : Histories c prices (short.map NettedLine.ipn) w) :
    ∃ w', (short.mapM fun l => do
        return (l.ipn, ← Act.held "Price history fetch" [("ipn", .str l.ipn)]
          (c.fetchPrices l.ipn)) : Act (List (String × Result (Outcome (List PriceRecord))))) w =
      (.ok (short.map fun l => (l.ipn, .ok (prices l.ipn))), w') := by
  induction short generalizing w with
  | nil => exact ⟨w, rfl⟩
  | cons l rest ih =>
    obtain ⟨hfirst, hrest⟩ := h
    obtain ⟨w', hw'⟩ := ih hrest
    have hheld := Act.held_apply (Prod.ext (x := priceHistory c l.ipn w) (y := (_, _)) hfirst rfl)
    have hone : (do return (l.ipn, ← Act.held "Price history fetch" [("ipn", .str l.ipn)]
        (c.fetchPrices l.ipn)) : Act (String × Result (Outcome (List PriceRecord)))) w =
        (.ok (l.ipn, .ok (prices l.ipn)), (priceHistory c l.ipn w).2) := by
      rw [Act.bind_of_ok hheld]
      rfl
    refine ⟨w', ?_⟩
    rw [List.mapM_cons, Act.bind_of_ok hone, Act.bind_of_ok hw']
    rfl

theorem suggestions_result {prices : String → Outcome (List PriceRecord)} {shown : ShortageView}
    {w w₁ : World} (hshown : shortageView c s id w = (.ok shown, w₁))
    (h : Histories c prices (shown.shortages.map NettedLine.ipn) w₁) :
    (suggestions c s id w).1 = .ok (SuggestionSet.ofShort
      (SuggestionSet.sourcesOf (shown.shortages.map fun l => (l.ipn, prices l.ipn)))
      shown.shortages) := by
  obtain ⟨w₂, hw₂⟩ := histories_apply h
  have hall : ((shown.shortages.map fun l => (l.ipn, .ok (prices l.ipn))).mapM
      fun h => do return (h.1, ← h.2) : Result (List (String × Outcome (List PriceRecord)))) =
      .ok (shown.shortages.map fun l => (l.ipn, prices l.ipn)) := by
    rw [Traversal.mapM_ok_iff, List.forall₂_map_left_iff, List.forall₂_map_right_iff,
      List.forall₂_same]
    intro l hl
    rfl
  rw [suggestions, Act.bind_of_ok hshown, Act.bind_of_ok hw₂, hall,
    Act.bind_of_ok (Act.ofResult_apply _ w₂), Act.lift_noted_apply]
  exact SuggestionSet.ofLines_result _ _

/-- Suggestions neither lose nor invent a shortage. The lines of the bill are reconciled, or taken
over from a service that is trusted; then each line that is called short is suggested once to the
vendor of the first of the cheapest records of its part, in the quantity that is short and at that
price, or is listed apart if its history could not be fetched or names no vendor. -/
theorem suggestions_share (c : OpsClient) (s : Settings) (id : String) (b : WorkOrderBom)
    (w w₁ : World) (hfetch : c.fetchWorkOrderBom id w = (.ok b, w₁))
    (hb : (ShortageView.ofWorkOrderBom s.trustServerStatus false b).result ≠
      .error (.signal .overflow)) :
    ∃ shown, (shortageView c s id w).1 = .ok shown ∧
      List.Forall₂ (fun given l => if s.trustServerStatus then l = given else given.Reconciles l)
        b.lines shown.lines ∧
      ∀ prices, Histories c prices ((shortLines shown.lines).map NettedLine.ipn)
          (shortageView c s id w).2 →
        ∃ set best, (suggestions c s id w).1 = .ok set ∧
          (∀ ipn, Sourced (prices ipn) (best ipn)) ∧
          set.Shares (shortLines shown.lines) best := by
  obtain ⟨shown, hshown⟩ := (ShortageView.failsOnly_ofWorkOrderBom b).result hb
  have hloaded := @shortageView_apply c s id w w₁ b hfetch
  rw [hshown] at hloaded
  refine ⟨shown, by rw [hloaded], ShortageView.ofWorkOrderBom_lines hshown, ?_⟩
  intro prices hprices
  rw [hloaded] at hprices
  exact ⟨_, _, suggestions_result hloaded hprices,
    fun ipn => PreferredSource.sourced_best (prices ipn), SuggestionSet.shares_sourcesOf prices _⟩

def benchParts : WorkOrderBom :=
  ⟨some "WO-2", "ASY-1", Decimal.one,
    [⟨"R-1", "", ⟨false, 5, 0⟩, ⟨false, 2, 0⟩, Decimal.zero, .ok⟩,
     ⟨"R-3", "", ⟨false, 2, 0⟩, ⟨false, 1, 0⟩, ⟨false, 1, 0⟩, .low⟩,
     ⟨"R-2", "", ⟨false, 4, 0⟩, Decimal.zero, ⟨false, 4, 0⟩, .shortage⟩,
     ⟨"R-1", "", ⟨false, 1, 0⟩, Decimal.zero, ⟨false, 1, 0⟩, .shortage⟩]⟩

def benchPrice (ipn : String) (vendor : Option String) (price : Nat) : PriceRecord :=
  ⟨none, ipn, vendor, none, ⟨false, price, 0⟩, "USD", 0, none, none, none⟩

def benchRecords : List PriceRecord :=
  [benchPrice "R-1" (some "V-3") 4, benchPrice "R-1" (some "V-2") 3, benchPrice "R-1" none 1,
   benchPrice "R-1" (some "V-1") 3]

def benchHistories (ipn : String) : Outcome (List PriceRecord) :=
  if ipn = "R-1" then .ok benchRecords
  else if ipn = "R-2" then .ok [benchPrice ipn (some "V-2") 7]
  else .error (.integration "Operations API" "Internal Server Error" (some 500))

def benchCatalog : World :=
  .ofScript ⟨"/api",
    [("GET /workorders/WO-2/bom", [.response 200 (some (Record.dump benchParts))]),
     ("GET /prices/R-1", [.response 200 (some (Record.dumpList benchRecords))]),
     ("GET /prices/R-2",
      [.response 200 (some (Record.dumpList [benchPrice "R-2" (some "V-2") 7]))]),
     ("GET /prices/R-3", [.response 500 none])]⟩

def benchShort : List NettedLine :=
  [⟨"R-1", "", ⟨false, 5, 0⟩, ⟨false, 2, 0⟩, ⟨false, 3, 0⟩, .shortage⟩,
   ⟨"R-3", "", ⟨false, 2, 0⟩, ⟨false, 1, 0⟩, ⟨false, 1, 0⟩, .shortage⟩,
   ⟨"R-2", "", ⟨false, 4, 0⟩, Decimal.zero, ⟨false, 4, 0⟩, .shortage⟩,
   ⟨"R-1", "", ⟨false, 1, 0⟩, Decimal.zero, ⟨false, 1, 0⟩, .shortage⟩]

theorem suggestions_share_bench :
    benchClient.fetchWorkOrderBom "WO-2" benchCatalog =
      (.ok benchParts, (benchClient.fetchWorkOrderBom "WO-2" benchCatalog).2) ∧
    (ShortageView.ofWorkOrderBom benchSettings.trustServerStatus false benchParts).result ≠
      .error (.signal .overflow) ∧
    Histories benchClient benchHistories (benchShort.map NettedLine.ipn)
      (shortageView benchClient benchSettings "WO-2" benchCatalog).2 ∧
    ∃ set best, (suggestions benchClient benchSettings "WO-2" benchCatalog).1 = .ok set ∧
      (∀ ipn, Sourced (benchHistories ipn) (best ipn)) ∧ set.Shares benchShort best ∧
      set.unassigned = ["R-3"] ∧ set.suggestions.map SuggestedOrder.vendor = ["V-2"] := by
  have hfetched : (benchClient.fetchWorkOrderBom "WO-2" benchCatalog).1 = .ok benchParts := by
    decide +kernel
  have hfetch := Prod.ext (x := benchClient.fetchWorkOrderBom "WO-2" benchCatalog)
    (y := (.ok benchParts, _)) hfetched rfl
  have hb : (ShortageView.ofWorkOrderBom benchSettings.trustServerStatus false benchParts).result ≠
      .error (.signal .overflow) := by decide +kernel
  have hhistories : Histories benchClient benchHistories (benchShort.map NettedLine.ipn)
      (shortageView benchClient benchSettings "WO-2" benchCatalog).2 :=
    ⟨by decide +kernel, by decide +kernel, by decide +kernel, by decide +kernel, trivial⟩
  have hshort : (shortageView benchClient benchSettings "WO-2" benchCatalog).1.map
      (fun shown => shortLines shown.lines) = .ok benchShort := by decide +kernel
  have hset : (suggestions benchClient benchSettings "WO-2" benchCatalog).1.map (fun set =>
      (set.unassigned, set.suggestions.map SuggestedOrder.vendor)) = .ok (["R-3"], ["V-2"]) := by
    decide +kernel
  obtain ⟨shown, hshown, -, hshares⟩ := suggestions_share benchClient benchSettings "WO-2"
    benchParts benchCatalog _ hfetch hb
  rw [hshown] at hshort
  have hlines : shortLines shown.lines = benchShort := Except.ok.inj hshort
  rw [hlines] at hshares
  obtain ⟨set, best, hresult, hsourced, hshares⟩ := hshares benchHistories hhistories
  rw [hresult] at hset
  obtain ⟨hunassigned, hvendors⟩ := Prod.mk.inj (Except.ok.inj hset)
  exact ⟨hfetch, hb, hhistories, set, best, hresult, hsourced, hshares, hunassigned, hvendors⟩

end Loading
end BomEngine
