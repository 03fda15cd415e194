import BomEngine.Proofs.Service.Addresses
import BomEngine.Proofs.Service.Operations
import BomEngine.Proofs.Traversal

/-!
# What an identifier addresses

The address of a record has its identifier in it as it is. So a request keeps to the path of its
operation exactly if no sign of the identifier means something in an address: a question mark or a
number sign ends the path there, and dots that stand for a step take steps away. Identifiers
without such signs go to one place exactly if they are escaped alike, which without percent signs
only equal ones are.
-/

set_option autoImplicit false

namespace BomEngine
open Service

namespace OpsClient
open Operation

/-- What stands around the identifier in the addresses of an operation. -/
structure Frame where
  kind : String
  suffix : String
  deriving DecidableEq, Repr

namespace Frame

def inside (f : Frame) (id : String) : List Char :=
  f.kind.toList ++ '/' :: (id.toList ++ f.suffix.toList)

/-- The path that an address stands for as long as its identifier has no say in it. -/
def path (f : Frame) (id : String) : List Char :=
  f.kind.toList ++ '/' :: (escape pathSafe id.toList ++ f.suffix.toList)

/-- What stands around the identifier has no other meaning in an address. -/
structure Plain (f : Frame) : Prop where
  kind : ∀ c ∈ f.kind.toList, pathSafe c = true ∧ c ∉ ['/', '?', '#']
  suffix : ∀ c ∈ f.suffix.toList, pathSafe c = true ∧ c ∉ ['?', '#']
  nonempty : f.kind.toList ≠ []
  stroke : ∀ c ∈ f.suffix.toList.head?, c = '/'
  dotless : Dotless f.kind.toList ∧ Dotless f.suffix.toList

end Frame

namespace Operation

def frame : Operation → Option (Frame × String)
  | part ipn => some (⟨"parts", ""⟩, ipn)
  | bom ipn => some (⟨"parts", "/bom"⟩, ipn)
  | cost ipn => some (⟨"parts", "/cost"⟩, ipn)
  | whereUsed ipn => some (⟨"parts", "/where-used"⟩, ipn)
  | prices ipn => some (⟨"prices", ""⟩, ipn)
  | workOrder id => some (⟨"workorders", ""⟩, id)
  | workOrderBom id => some (⟨"workorders", "/bom"⟩, id)
  | quote id => some (⟨"quotes", ""⟩, id)
  | campaign id => some (⟨"firmware", ""⟩, id)
  | order id => some (⟨"pos", ""⟩, id)
  | receipt id _ _ => some (⟨"pos", "/receive"⟩, id)
  | parts | vendors _ | newOrder _ => none

variable {o o' : Operation} {f : Frame} {id id' : String}

theorem frame_plain (h : o.frame = some (f, id)) : f.Plain := by
  cases o <;> cases h <;> exact ⟨by simp [pathSafe, querySafe], by simp [pathSafe, querySafe],
    by simp, by simp, by decide +kernel⟩

theorem resource_of_frame (h : o.frame = some (f, id)) :
    o.resource.address.toList = '/' :: f.inside id ∧ o.resource.query = none := by
  cases o <;> cases h <;> simp [resource, reading, receiptResource, Frame.inside]

end Operation

/-- No sign of an identifier means anything in an address. -/
structure Addressable (id : String) : Prop where
  query : '?' ∉ id.toList
  fragment : '#' ∉ id.toList
  dotless : Dotless id.toList

namespace Frame

variable {f : Frame} {id id' : String}

theorem escape_inside (hf : f.Plain) (id : String) :
    escape pathSafe (f.inside id) = f.path id := by
  have hkind : escape pathSafe f.kind.toList = f.kind.toList :=
    escape_of_safe fun c hc => (hf.kind c hc).1
  have hsuffix : escape pathSafe f.suffix.toList = f.suffix.toList :=
    escape_of_safe fun c hc => (hf.suffix c hc).1
  rw [inside, path, escape_append, escape_cons_safe (by decide), escape_append, hkind, hsuffix]

theorem dotless_path (hf : f.Plain) (id : String) : Dotless (f.path id) ↔ Dotless id.toList := by
  rw [path, dotless_append_stroke, dotless_append hf.stroke, dotless_escape]
  exact ⟨fun h => h.2.1, fun h => ⟨hf.dotless.1, h, hf.dotless.2⟩⟩

theorem mem_path_sign {c : Char} (hc : c ∈ ['?', '#']) (h : c ∈ id.toList) : c ∈ f.path id := by
  simp [path, mark_mem_escape hc, h]

theorem no_marks_inside (hf : f.Plain) (h : Addressable id) {c : Char} (hc : c ∈ ['?', '#']) :
    c ∉ f.inside id := by
  have hkind : c ∉ f.kind.toList := fun hm => (hf.kind c hm).2 (List.mem_cons_of_mem _ hc)
  have hsuffix : c ∉ f.suffix.toList := fun hm => (hf.suffix c hm).2 hc
  have hid : c ∉ id.toList := by
    fin_cases hc
    · exact h.query
    · exact h.fragment
  have hstroke : c ≠ '/' := by fin_cases hc <;> decide
  simp [inside, hkind, hsuffix, hid, hstroke]

theorem path_inj : f.path id = f.path id' ↔
    escape pathSafe id.toList = escape pathSafe id'.toList := by
  simp [path]

end Frame

section Targets

variable {c : OpsClient} {o o' : Operation} {f : Frame} {id id' : String} {q q' : Request}

theorem target_of_requestFor {r : Resource} (h : c.requestFor r = .ok q) (hr : r.query = none) :
    Target.below c.base.path r.address = .ok q.target := by
  unfold requestFor at h
  obtain ⟨t, ht, h⟩ := Traversal.bind_eq_ok.mp h
  rw [hr] at h
  dsimp only at h
  split at h
  · cases h
  · cases h
    rw [ht, Option.map_none, Option.or_none]

/-- The target of a request: its path ends where the path of the address does, and it has no dots
for steps. -/
theorem target_eq (hbase : PlainBase c.base.path) (ho : o.frame = some (f, id))
    (hq : c.requestFor o.resource = .ok q) :
    q.target = ⟨normalized (c.base.path ++ escape pathSafe (splitAddress (f.inside id)).1),
      (splitAddress (f.inside id)).2.map fun q => escape querySafe (escape querySafe q)⟩ := by
  have hf := Operation.frame_plain ho
  obtain ⟨haddress, hquery⟩ := Operation.resource_of_frame ho
  obtain ⟨x, xs, hx⟩ := List.exists_cons_of_ne_nil hf.nonempty
  have hinside : f.inside id = x :: (xs ++ '/' :: (id.toList ++ f.suffix.toList)) := by
    rw [Frame.inside, hx]
    rfl
  obtain ⟨hsafe, hplain⟩ := hf.kind x (by simp [hx])
  rw [hinside] at haddress ⊢
  rw [below_eq hbase.marks.1 (target_of_requestFor hq hquery) haddress hplain hsafe]
  congr 1
  refine escape_of_safe fun d hd => ?_
  rcases mem_normalized hd with hd | rfl
  · rcases List.mem_append.mp hd with hd | hd
    · exact hbase.safe d hd
    · exact pathSafe_escape hd
  · decide

theorem target_eq_iff (hbase : PlainBase c.base.path) (ho : o.frame = some (f, id))
    (hq : c.requestFor o.resource = .ok q) :
    q.target = ⟨c.base.path ++ f.path id, none⟩ ↔ Addressable id := by
  have hf := Operation.frame_plain ho
  rw [target_eq hbase ho hq]
  constructor
  · intro h
    have hpath := (Target.mk.inj h).1
    have hmark {m : Char} (hm : m ∈ ['?', '#']) : m ∉ id.toList := by
      intro hid
      have hin := List.mem_append_right c.base.path (Frame.mem_path_sign (f := f) hm hid)
      rw [← hpath] at hin
      exact no_mark_below hbase _ hm hin
    refine ⟨hmark (by simp), hmark (by simp), ?_⟩
    have hdots := dotless_normalized
      (c.base.path ++ escape pathSafe (splitAddress (f.inside id)).1)
    rw [hpath, dotless_below hbase, Frame.dotless_path hf] at hdots
    exact hdots
  · intro h
    rw [splitAddress_of_no_marks (Frame.no_marks_inside hf h (by simp))
      (Frame.no_marks_inside hf h (by simp)), Frame.escape_inside hf]
    have hdots : Dotless (c.base.path ++ f.path id) := by
      rw [dotless_below hbase, Frame.dotless_path hf]
      exact h.dotless
    rw [normalized_of_dotless hdots]
    rfl

/-- Below a base path as texts of addresses give it, the request of an operation keeps to the path
around its identifier, and takes no query from it, exactly if the identifier has no question mark,
no number sign and no step of dots. Two such identifiers lead the same operation to one place
exactly if they are escaped alike; without percent signs only equal ones are. -/
theorem targets_decided (hbase : PlainBase c.base.path) (ho : o.frame = some (f, id))
    (ho' : o'.frame = some (f, id')) (hq : c.requestFor o.resource = .ok q)
    (hq' : c.requestFor o'.resource = .ok q') :
    (q.target = ⟨c.base.path ++ f.path id, none⟩ ↔ Addressable id) ∧
    (Addressable id → Addressable id' →
      (q.target = q'.target ↔ escape pathSafe id.toList = escape pathSafe id'.toList) ∧
      ('%' ∉ id.toList → '%' ∉ id'.toList → q.target = q'.target → id = id')) := by
  refine ⟨target_eq_iff hbase ho hq, fun h h' => ?_⟩
  have hsame : q.target = q'.target ↔
      escape pathSafe id.toList = escape pathSafe id'.toList := by
    rw [(target_eq_iff hbase ho hq).mpr h, (target_eq_iff hbase ho' hq').mpr h',
      Target.mk.injEq, and_iff_left rfl, List.append_right_inj, Frame.path_inj]
  refine ⟨hsame, fun hp hp' heq => String.toList_inj.mp ?_⟩
  rw [← unescape_escape pathSafe hp, hsame.mp heq, unescape_escape pathSafe hp']

end Targets

theorem benchClient_plain : PlainBase benchClient.base.path :=
  plainBase_ofText (by decide +kernel) (by decide +kernel)

theorem targets_decided_bench : ∃ q q', benchClient.requestFor (part "R-1").resource = .ok q ∧
    benchClient.requestFor (part "R-1A").resource = .ok q' ∧
    q.target = ⟨"/api/parts/R-1".toList, none⟩ ∧ q.target ≠ q'.target := by
  have hq : benchClient.requestFor (part "R-1").resource =
      .ok ⟨.get, ⟨"/api/parts/R-1".toList, none⟩, none⟩ := by rfl
  have hq' : benchClient.requestFor (part "R-1A").resource =
      .ok ⟨.get, ⟨"/api/parts/R-1A".toList, none⟩, none⟩ := by rfl
  have hid : Addressable "R-1" := ⟨by decide, by decide, by decide⟩
  have hid' : Addressable "R-1A" := ⟨by decide, by decide, by decide⟩
  obtain ⟨hkeeps, hdiffer⟩ := targets_decided benchClient_plain rfl rfl hq hq'
  refine ⟨_, _, hq, hq', hkeeps.mpr hid, fun h => ?_⟩
  exact absurd ((hdiffer hid hid').2 (by decide) (by decide) h) (by decide)

/-- Different identifiers lead an operation to one place, and one of them takes the end off the path
of a receipt. -/
theorem targets_collide :
    ((benchClient.requestFor (part "R-1").resource).map Request.target =
        (benchClient.requestFor (part "R-1#A").resource).map Request.target ∧
      (benchClient.requestFor (part "R-1").resource).isOk = true) ∧
    (benchClient.requestFor (part "R 1").resource).map Request.target =
      (benchClient.requestFor (part "R%201").resource).map Request.target ∧
    (benchClient.requestFor (part "../vendors?all=1").resource).map (fun q => q.target.text) =
      .ok "/api/vendors?all=1" ∧
    (benchClient.requestFor (receipt "P-1#" [] false).resource).map (fun q => q.target.text) =
      .ok "/api/pos/P-1" := by
  decide +kernel

end OpsClient
end BomEngine
