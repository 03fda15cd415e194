import BomEngine.Proofs.Bom.Grammar
import BomEngine.Proofs.Service.Failures

/-!
# Fetching a bill of materials

An answer in an envelope is fetched as the tree that it mirrors. If it is no tree the fetch fails,
and what is logged before that names every offending field by its path.
-/

set_option autoImplicit false

namespace BomEngine
open Service

namespace OpsClient

variable {α : Type} {c : OpsClient} {w : World}

def malformed (address : String) (flaws : List Flaw) : LogRecord :=
  .warning logger ("Malformed response from " ++ address)
    [("path", .str address), ("errors", .arr (flaws.map Flaw.json))]

theorem carries_envelope (v : Json) : (Reply.response 200 (some (.obj [("data", v)]))).Carries v :=
  ⟨200, _, rfl, by decide, by decide, rfl⟩

theorem fetch_carried {r : Resource} {q : Request} {v : Json} (hq : c.requestFor r = .ok q)
    (h : (w.script.next q).1.Carries v) :
    c.fetch r w = (.ok v, { w with script := (w.script.next q).2, sent := w.sent ++ [q] }) := by
  have hsent : Act.exchange q w = (.ok (w.script.next q).1,
      { w with script := (w.script.next q).2, sent := w.sent ++ [q] }) := rfl
  obtain ⟨status, body, hreply, hmissing, hrefused, hbody⟩ := h
  rw [fetch, Act.bind_of_ok (Act.ofResult_apply _ w |>.trans (by rw [hq])), Act.bind_of_ok hsent,
    hreply, answer, if_neg hmissing, if_neg hrefused, hbody]
  rfl

theorem read_accepted [Record α] (address : String) {v : Json} {a : α}
    (h : Record.check v = .accepted a) (w : World) : read α address v w = (.ok a, w) := by
  rw [read, h]
  rfl

theorem read_refused [Record α] (address : String) {v : Json} {flaws : List Flaw}
    (h : (Record.check v : Verdict α) = .refused flaws) (w : World) :
    read α address v w =
      (.error (refused ("malformed response from " ++ address) none),
        w.noting [malformed address flaws]) := by
  rw [read, h]
  exact Act.bind_of_ok (Act.note_apply _ w) _

open BomNode (IsTree Mirrors Reports)

/-- Whatever is answered in an envelope is fetched if and only if it is a tree, as the tree that it
mirrors. Otherwise the fetch fails with the paths of the offending fields in its log. -/
theorem fetchBom_grammar {ipn : String} {q : Request} {v : Json}
    (hq : c.requestFor (reading ("/parts/" ++ ipn ++ "/bom") "BOM" (some ipn)) = .ok q)
    (hreply : (w.script.next q).1 = .response 200 (some (.obj [("data", v)]))) :
    (IsTree v ↔ ∃ n, (c.fetchBom ipn w).1 = .ok n) ∧
    (∀ n, (c.fetchBom ipn w).1 = .ok n ↔ Mirrors v n) ∧
    (IsTree v → (c.fetchBom ipn w).2.records = w.records) ∧
    (¬ IsTree v →
      (c.fetchBom ipn w).1 =
        .error (refused ("malformed response from " ++ ("/parts/" ++ ipn ++ "/bom")) none) ∧
      ∃ flaws, Reports v (flaws.map Flaw.path) ∧
        (c.fetchBom ipn w).2.records =
          w.records ++ [malformed ("/parts/" ++ ipn ++ "/bom") flaws]) := by
  have hfetch := fetch_carried hq (hreply ▸ carries_envelope v)
  generalize hw' : ({ w with script := _, sent := _ } : World) = w' at hfetch
  have hrecords : w'.records = w.records := hw' ▸ rfl
  have hread : c.fetchBom ipn w = read BomNode ("/parts/" ++ ipn ++ "/bom") v w' :=
    Act.bind_of_ok hfetch _
  rw [hread]
  by_cases htree : IsTree v
  · obtain ⟨n, hn⟩ := BomNode.isTree_iff.mp htree
    rw [read_accepted (α := BomNode) _ (BomNode.check_eq_accepted.mpr hn) w']
    refine ⟨iff_of_true htree ⟨n, rfl⟩, fun m => ?_, fun _ => hrecords, fun h => absurd htree h⟩
    rw [← BomNode.check_eq_accepted, BomNode.check_eq_accepted.mpr hn]
    exact ⟨fun h => congrArg _ (Except.ok.inj h), fun h => congrArg _ (Verdict.accepted.inj h)⟩
  · obtain ⟨flaws, hflaws, hreports⟩ := BomNode.check_refused htree
    rw [read_refused (α := BomNode) _ hflaws w']
    refine ⟨iff_of_false htree nofun, fun m => iff_of_false nofun fun hm => ?_,
      fun h => absurd h htree, fun _ => ⟨rfl, flaws, hreports, ?_⟩⟩
    · exact htree (BomNode.isTree_iff.mpr ⟨m, hm⟩)
    · rw [← hrecords]
      rfl

def benchAnswering (v : Json) : World :=
  Operation.benchReplying "GET /parts/A-1/bom" (.response 200 (some (.obj [("data", v)])))

def benchTree : Json :=
  .obj [("ipn", .str "A-1"), ("qty", .null), ("note", .int 7), ("children", .arr
    [.obj [("ipn", .str "R-1"), ("qty", .str " 1_0 ")],
      .obj [("ipn", .str "C-1"), ("children", .null)]])]

def benchScrap : Json :=
  .obj [("children", .arr [.obj [("ref", .int 5)], .int 3]), ("ipn", .str "A-1"),
    ("qty", .bool true)]

theorem fetchBom_grammar_bench :
    (∃ n, (benchClient.fetchBom "A-1" (benchAnswering benchTree)).1 = .ok n ∧ Mirrors benchTree n) ∧
    (∃ flaws, Reports benchScrap (flaws.map Flaw.path) ∧
      (benchClient.fetchBom "A-1" (benchAnswering benchScrap)).2.records =
        [malformed "/parts/A-1/bom" flaws]) ∧
    (BomNode.check benchScrap).paths = [[.field "qty"], [.field "children", .index 0, .field "ipn"],
      [.field "children", .index 0, .field "ref"], [.field "children", .index 1]] := by
  have hq : benchClient.requestFor (reading ("/parts/" ++ "A-1" ++ "/bom") "BOM" (some "A-1")) =
      .ok ⟨.get, ⟨"/api/parts/A-1/bom".toList, none⟩, none⟩ := by rfl
  have hreply : ∀ v, ((benchAnswering v).script.next
      ⟨.get, ⟨"/api/parts/A-1/bom".toList, none⟩, none⟩).1 =
        .response 200 (some (.obj [("data", v)])) := by
    intro v
    cbv
  have hpaths : (BomNode.check benchScrap).paths = [[.field "qty"],
      [.field "children", .index 0, .field "ipn"], [.field "children", .index 0, .field "ref"],
      [.field "children", .index 1]] := by decide +kernel
  refine ⟨?_, ?_, hpaths⟩
  · have haccepted : (BomNode.check benchTree).isAccepted = true := by decide +kernel
    cases hcheck : BomNode.check benchTree with
    | accepted n =>
      have hn := BomNode.check_eq_accepted.mp hcheck
      exact ⟨n, ((fetchBom_grammar hq (hreply benchTree)).2.1 n).mpr hn, hn⟩
    | _ =>
      rw [hcheck] at haccepted
      cases haccepted
  · have hscrap : ¬ IsTree benchScrap := by
      intro h
      obtain ⟨n, hn⟩ := BomNode.isTree_iff.mp h
      rw [BomNode.check_eq_accepted.mpr hn] at hpaths
      cases hpaths
    obtain ⟨flaws, hreports, hrecords⟩ := ((fetchBom_grammar hq (hreply benchScrap)).2.2.2 hscrap).2
    exact ⟨flaws, hreports, hrecords⟩

end OpsClient
end BomEngine
