import BomEngine.Settings
import BomEngine.Proofs.Schema.Flaws
import BomEngine.Proofs.Schema.Scalars
import BomEngine.Proofs.Traversal

/-!
# List settings

Three settings are lists of texts, each with a change of letters of its own. Where two sources of
settings only differ in what they give for one of them, so do the settings that are read from them.
-/

set_option autoImplicit false

namespace BomEngine.Settings

open Verdict

theorem textList_eq_accepted {j : Json} {items : List String} :
    textList j = .accepted items ↔ j = Json.strs items := by
  cases j with
  | arr js =>
    rw [textList, Check.list, Check.each_eq_accepted, Json.strs, Json.arr.injEq]
    simp only [Check.text_eq_accepted]
    constructor
    · intro h
      induction h with
      | nil => rfl
      | cons hj _ ih => rw [hj, ih, List.map_cons]
    · rintro rfl
      exact List.forall₂_map_left_iff.mpr (List.forall₂_same.mpr fun _ _ => rfl)
  | _ => exact iff_of_false nofun nofun

theorem itemsBy_strs (f : String → String) (items : List String) :
    itemsBy f (Json.strs items) = Json.strs (items.map f) := by
  rw [Json.strs, itemsBy, List.map_map, Json.strs, List.map_map]
  rfl

inductive ListSetting where
  | allowedOrigins
  | assemblyPrefixes
  | openOrderStatuses
  deriving DecidableEq, Repr

namespace ListSetting

def name : ListSetting → String
  | allowedOrigins => "ALLOWED_ORIGINS"
  | assemblyPrefixes => "ASSEMBLY_IPN_PREFIXES"
  | openOrderStatuses => "OPEN_PO_STATUSES"

def change : ListSetting → String → String
  | allowedOrigins => id
  | assemblyPrefixes => Text.upper
  | openOrderStatuses => Text.lower

def default : ListSetting → List String
  | allowedOrigins => defaultOrigins
  | assemblyPrefixes => ["ASY-", "PCA-"]
  | openOrderStatuses => ["submitted", "partial"]

def check : ListSetting → Check (List String)
  | allowedOrigins => fun j => textList (listed j)
  | assemblyPrefixes => fun j => textList (itemsBy Text.upper (listed j))
  | openOrderStatuses => fun j => textList (itemsBy Text.lower (listed j))

def get : ListSetting → Settings → List String
  | allowedOrigins => Settings.allowedOrigins
  | assemblyPrefixes => Settings.assemblyPrefixes
  | openOrderStatuses => Settings.openOrderStatuses

def put : ListSetting → Settings → List String → Settings
  | allowedOrigins => fun s items => { s with allowedOrigins := items }
  | assemblyPrefixes => fun s items => { s with assemblyPrefixes := items }
  | openOrderStatuses => fun s items => { s with openOrderStatuses := items }

variable (l : ListSetting) {j : Json} {items : List String}

@[simp] theorem get_put (s : Settings) (items : List String) : l.get (l.put s items) = items := by
  cases l <;> rfl

theorem name_mem : l.name ∈ names := by
  cases l <;> decide

theorem isList_name : isList l.name = true := by
  cases l <;> decide

theorem check_strs (items : List String) :
    l.check (Json.strs items) = .accepted (items.map l.change) := by
  cases l with
  | allowedOrigins => exact textList_eq_accepted.mpr (by rw [change, List.map_id]; rfl)
  | assemblyPrefixes => exact textList_eq_accepted.mpr (itemsBy_strs _ items)
  | openOrderStatuses => exact textList_eq_accepted.mpr (itemsBy_strs _ items)

theorem check_str (text : String) :
    l.check (.str text) = .accepted ((commaItems text).map l.change) := by
  rw [← check_strs]
  cases l <;> rfl

theorem check_arr {js : List Json} (h : l.check (.arr js) = .accepted items) :
    items = js.map fun j => l.change j.shown := by
  have hshown : ∀ ss : List String, ss = (ss.map Json.str).map Json.shown := by
    intro ss
    rw [List.map_map]
    exact (List.map_id ss).symm
  have hitems : ∀ f : String → String, itemsBy f (.arr js) = Json.strs items →
      items = js.map fun j => f j.shown := by
    intro f hf
    obtain hf := Json.arr.inj hf
    rw [hshown items, ← hf, List.map_map]
    rfl
  cases l with
  | allowedOrigins =>
    have hjs := Json.arr.inj (textList_eq_accepted.mp h)
    rw [hjs]
    exact hshown items
  | assemblyPrefixes => exact hitems _ (textList_eq_accepted.mp h)
  | openOrderStatuses => exact hitems _ (textList_eq_accepted.mp h)

theorem check_eq_accepted (h : l.check j = .accepted items) :
    (∃ text, j = .str text ∧ items = (commaItems text).map l.change) ∨
      ∃ js, j = .arr js ∧ items = js.map fun j => l.change j.shown := by
  cases j with
  | str text =>
    rw [check_str] at h
    cases h
    exact .inl ⟨text, rfl, rfl⟩
  | arr js => exact .inr ⟨js, rfl, l.check_arr h⟩
  | _ => cases l <;> cases h

end ListSetting

def entry (env : Environment) (direct : Fields) (name : String) : Result (Option Json) :=
  (fromEnvironment env name).map (given? name direct).or

variable {env env' : Environment} {direct fs fs' : Fields} {ns : List String} {n : String}
  {e : Failure}

def withEntry (n : String) (given : Option Json) (others : Fields) : Fields :=
  match given with
  | some j => (n, j) :: others
  | none => others

theorem lookup_withEntry_of_ne {m : String} (h : m ≠ n) (given : Option Json) (others : Fields) :
    (withEntry n given others).lookup m = others.lookup m := by
  cases given with
  | none => rfl
  | some j => rw [withEntry, List.lookup_cons, beq_eq_false_iff_ne.mpr h]

theorem lookup_withEntry {others : Fields} (h : others.lookup n = none) (given : Option Json) :
    (withEntry n given others).lookup n = given := by
  cases given with
  | none => exact h
  | some j => exact List.lookup_cons_self

theorem gather_cons (env : Environment) (direct : Fields) (n : String) (ns : List String) :
    gather env direct (n :: ns) = entry env direct n >>= fun given =>
      gather env direct ns >>= fun others => .ok (withEntry n given others) := by
  rw [gather, entry]
  cases fromEnvironment env n <;> rfl

theorem lookup_gather (hns : ns.Nodup) (h : gather env direct ns = .ok fs) :
    (∀ m ∈ ns, entry env direct m = .ok (fs.lookup m)) ∧ ∀ m ∉ ns, fs.lookup m = none := by
  induction ns generalizing fs with
  | nil =>
    cases h
    exact ⟨nofun, fun _ _ => rfl⟩
  | cons n ns ih =>
    obtain ⟨hn, hns⟩ := List.nodup_cons.mp hns
    rw [gather_cons] at h
    obtain ⟨given, hgiven, h⟩ := Traversal.bind_eq_ok.mp h
    obtain ⟨others, hothers, h⟩ := Traversal.bind_eq_ok.mp h
    obtain ⟨hin, hout⟩ := ih hns hothers
    cases h
    constructor
    · intro m hm
      by_cases hmn : m = n
      · rw [hmn, lookup_withEntry (hout n hn), hgiven]
      · rw [lookup_withEntry_of_ne hmn]
        exact hin m ((List.mem_cons.mp hm).resolve_left hmn)
    · intro m hm
      obtain ⟨hmn, hm⟩ := not_or.mp (List.mem_cons.not.mp hm)
      rw [lookup_withEntry_of_ne hmn, hout m hm]

theorem gather_total (h : ∀ m ∈ ns, ∃ given, entry env direct m = .ok given) :
    ∃ fs, gather env direct ns = .ok fs := by
  induction ns with
  | nil => exact ⟨[], rfl⟩
  | cons n ns ih =>
    obtain ⟨⟨given, hgiven⟩, hns⟩ := List.forall_mem_cons.mp h
    obtain ⟨others, hothers⟩ := ih hns
    exact ⟨withEntry n given others, by rw [gather_cons, hgiven, hothers]; rfl⟩

theorem gather_eq_error (hn : n ∈ ns) (he : entry env direct n = .error e)
    (h : ∀ m ∈ ns, m ≠ n → ∃ given, entry env direct m = .ok given) :
    gather env direct ns = .error e := by
  induction ns with
  | nil => cases hn
  | cons m ns ih =>
    obtain ⟨hm, hns⟩ := List.forall_mem_cons.mp h
    rw [gather_cons]
    by_cases hmn : m = n
    · rw [hmn, he]
      rfl
    · obtain ⟨given, hgiven⟩ := hm hmn
      rw [hgiven, ih ((List.mem_cons.mp hn).resolve_left (Ne.symm hmn)) hns]
      rfl

namespace ListSetting

variable (l : ListSetting) {s : Settings}

def read : Option Json → Verdict (List String)
  | some j => (l.check j).under (.field l.name)
  | none => .accepted l.default

theorem ofFields_put (hs : ofFields fs = .accepted s)
    (h : ∀ m ∈ names, m ≠ l.name → fs'.lookup m = fs.lookup m) :
    ofFields fs' = l.put s <$> l.read (fs'.lookup l.name) := by
  have hsame : ∀ {α : Type} (m : String) (a : α) (c : Check α), m ∈ names → m ≠ l.name →
      fs'.withDefault m a c = fs.withDefault m a c := by
    intro α m a c hm hne
    rw [Fields.withDefault, h m hm hne]
    rfl
  have hall : ∃ s', ofFields fs = .accepted s' ∧ s' = s := ⟨s, hs, rfl⟩
  simp only [ofFields, Fields.optional, exists_seq, exists_map] at hall
  obtain ⟨_, h1, _, h2, _, h3, _, h4, _, h5, _, h6, _, h7, _, h8, _, h9, _, h10, _, h11, _, h12,
    _, h13, _, h14, _, h15, _, h16, _, h17, _, h18, rfl⟩ := hall
  generalize hv : l.read (fs'.lookup l.name) = v
  have hlist : fs'.withDefault l.name l.default l.check = v := by
    rw [← hv, Fields.withDefault]
    cases fs'.lookup l.name <;> rfl
  cases l
  all_goals
    dsimp only [name, ListSetting.default, check] at hlist
    simp (disch := decide) only [ofFields, Fields.optional, hsame, hlist, h1, h2, h3, h4, h5, h6,
      h7, h8, h9, h10, h11, h12, h13, h14, h15, h16, h17, h18]
    cases v <;> rfl

theorem load_eq_ok : load env direct = .ok s ↔
    ∃ fs, gather env direct names = .ok fs ∧ ofFields fs = .accepted s := by
  rw [load, Traversal.bind_eq_ok]
  exact exists_congr fun fs => and_congr_right fun _ => Result.ofVerdict_eq_ok

/-- Settings that come from elsewhere, but for what is given for one of them, are the same settings
but for that one. They cannot be read where that one cannot. -/
theorem load_put (hs : ofEnvironment env = .ok s)
    (h : ∀ m ∈ names, m ≠ l.name → entry env' direct m = entry env [] m) :
    load env' direct = entry env' direct l.name >>= fun given =>
      Result.ofVerdict "Settings" (l.put s <$> l.read given) := by
  have hnames : names.Nodup := by decide
  obtain ⟨fs, hfs, hs⟩ := load_eq_ok.mp hs
  have hentry := (lookup_gather hnames hfs).1
  have hothers : ∀ m ∈ names, m ≠ l.name → entry env' direct m = .ok (fs.lookup m) :=
    fun m hm hne => (h m hm hne).trans (hentry m hm)
  rw [load]
  cases hl : entry env' direct l.name with
  | error e =>
    rw [gather_eq_error l.name_mem hl fun m hm hne => ⟨_, hothers m hm hne⟩]
    rfl
  | ok given =>
    have hall : ∀ m ∈ names, ∃ given, entry env' direct m = .ok given := by
      intro m hm
      by_cases hne : m = l.name
      · exact ⟨given, hne ▸ hl⟩
      · exact ⟨_, hothers m hm hne⟩
    obtain ⟨fs', hfs'⟩ := gather_total hall
    have hentry' := (lookup_gather hnames hfs').1
    have hlookup : ∀ m ∈ names, m ≠ l.name → fs'.lookup m = fs.lookup m := fun m hm hne =>
      Except.ok.inj ((hentry' m hm).symm.trans (hothers m hm hne))
    have hlist : fs'.lookup l.name = given :=
      Except.ok.inj ((hentry' l.name l.name_mem).symm.trans hl)
    have hput := l.ofFields_put hs hlookup
    rw [hlist] at hput
    rw [hfs']
    exact congrArg (Result.ofVerdict "Settings") hput

end ListSetting

/-- One environment has a text for a variable, and is like the other in what it has for others. -/
structure Sets (env : Environment) (name text : String) (env' : Environment) : Prop where
  text : given? name env' = some text
  others : ∀ other, Text.lower other ≠ Text.lower name → given? other env' = given? other env

theorem sets_append {name : String} (h : Text.lower n = Text.lower name) (env : Environment)
    (text : String) : Sets env name text (env ++ [(n, text)]) := by
  constructor
  · rw [given?, List.reverse_append]
    simp [h]
  · intro other hother
    rw [given?, List.reverse_append]
    simp [h, Ne.symm hother, given?]

theorem lower_injective : ∀ m ∈ names, ∀ n ∈ names, Text.lower m = Text.lower n → m = n := by
  decide +kernel

theorem entry_of_given? {m : String} (h : given? m env' = given? m env)
    (hdirect : given? m direct = none) : entry env' direct m = entry env [] m := by
  rw [entry, entry, fromEnvironment, h, hdirect]
  rfl

namespace ListSetting

variable (l : ListSetting) {s : Settings} {text : String}

theorem load_direct (hs : ofEnvironment env = .ok s) (j : Json) : load env [(l.name, j)] =
    Result.ofVerdict "Settings" (l.put s <$> l.read (some j)) := by
  have hothers : ∀ m ∈ names, m ≠ l.name → entry env [(l.name, j)] m = entry env [] m := by
    intro m hm hne
    apply entry_of_given? rfl
    have hlower : Text.lower l.name ≠ Text.lower m :=
      fun h => hne (lower_injective _ l.name_mem m hm h).symm
    simp [given?, hlower]
  have hentry : entry env [(l.name, j)] l.name = .ok (some j) := by
    obtain ⟨fs, hfs, -⟩ := load_eq_ok.mp hs
    have hread := (lookup_gather (by decide) hfs).1 l.name l.name_mem
    obtain ⟨below, hbelow, -⟩ := Traversal.map_eq_ok.mp hread
    rw [entry, hbelow]
    simp [given?, Except.map]
  rw [l.load_put hs hothers, hentry]
  rfl

theorem ofEnvironment_sets (hs : ofEnvironment env = .ok s) (h : Sets env l.name text env') :
    ofEnvironment env' = match Json.ofText text with
      | .error _ => .error (.unreadableSetting l.name)
      | .ok .null => .ok (l.put s l.default)
      | .ok j => load env [(l.name, j)] := by
  have hothers : ∀ m ∈ names, m ≠ l.name → entry env' [] m = entry env [] m := fun m hm hne =>
    entry_of_given? (h.others m fun hlower => hne (lower_injective m hm _ l.name_mem hlower)) rfl
  rw [ofEnvironment, l.load_put hs hothers, entry, fromEnvironment, h.text]
  dsimp only
  rw [if_pos l.isList_name]
  cases Json.ofText text with
  | error e => rfl
  | ok j =>
    cases j with
    | null => rfl
    | _ => exact (l.load_direct hs _).symm

theorem load_direct_eq_ok (hs : ofEnvironment env = .ok s) {j : Json} {s' : Settings} :
    load env [(l.name, j)] = .ok s' ↔ ∃ items, l.check j = .accepted items ∧ l.put s items = s' := by
  rw [l.load_direct hs, Result.ofVerdict_eq_ok, map_eq_accepted]
  exact exists_congr fun items => and_congr_left fun _ => under_eq_accepted

end ListSetting
end BomEngine.Settings
