import BomEngine.Proofs.Json.Openings
import BomEngine.Proofs.Settings.Items
import BomEngine.Proofs.Settings.Lists

/-!
# Comma texts for list settings

Items between commas are accepted for a list setting where they are given directly, and so they are
in the environment once they are written as JSON, as one text or as a list of the items. The text
itself is read as JSON there. So it never gives its items: most often the settings cannot be read,
and where they can, they have other items.
-/

set_option autoImplicit false

namespace BomEngine.Settings

open Json Text

variable {text : String} {cs next : List Char} {j : Json} {fuel : ℕ}

theorem quoting_filter {p : Char → Bool} (hquote : p '"' = true) (hback : p '\\' = true)
    (cs : List Char) : quoting (cs.filter p) = quoting cs := by
  rw [quoting, List.countP_filter]
  apply List.countP_congr
  intro c _
  simp only [Bool.and_eq_true, Bool.or_eq_true, decide_eq_true_eq]
  constructor
  · exact And.left
  · rintro (rfl | rfl)
    · exact ⟨.inl rfl, hquote⟩
    · exact ⟨.inr rfl, hback⟩

theorem quoting_symbols (cs : List Char) : quoting (symbols cs) = quoting cs :=
  quoting_filter (by decide) (by decide) cs

theorem quoting_marks (cs : List Char) : quoting (marks cs) = quoting cs :=
  (quoting_filter (by decide) (by decide) _).trans (quoting_symbols cs)

theorem quoting_quotes (before cs after : List Char) :
    quoting cs + 2 ≤ quoting (before ++ '"' :: (cs ++ '"' :: after)) := by
  have hquote : quoting ['"'] = 1 := by decide
  rw [quoting_append, quoting_cons, quoting_append, quoting_cons _ after, hquote]
  omega

theorem brackets_eq_of_first {first : List Char}
    (h : symbols first = (symbols cs).takeWhile (· ≠ ',')) : brackets first = brackets cs := by
  rw [brackets, brackets, h, List.takeWhile_takeWhile]
  congr 1
  apply congrArg (List.takeWhile · (symbols cs))
  funext c
  by_cases hc : c = '['
  · rw [hc]
    decide
  · simp [hc]

theorem takeWhile_quoted {piece : List Char} (h : ',' ∉ piece) (after : List Char) :
    ('[' :: '"' :: (piece ++ '"' :: after)).takeWhile (· ≠ ',') =
      ['['] ++ '"' :: (piece ++ '"' :: after.takeWhile (· ≠ ',')) := by
  have hfront : ∀ c ∈ '[' :: '"' :: (piece ++ ['"']), decide (c ≠ ',') = true := by
    intro c hc
    rw [decide_eq_true_eq]
    rintro rfl
    simp [h] at hc
  have hcs : '[' :: '"' :: (piece ++ '"' :: after) = '[' :: '"' :: (piece ++ ['"']) ++ after := by
    simp
  rw [hcs, List.takeWhile_append_of_pos hfront]
  simp

/-- In a list of texts the first text up to a comma is not the first item: it is in quotes, or there
is a comma in it. -/
theorem symbols_quoted_ne {u : String} {piece after : List Char} (h : Covers piece u.toList) :
    symbols u.toList ≠
      (symbols ('[' :: '"' :: (piece ++ '"' :: after))).takeWhile (· ≠ ',') := by
  intro hsymbols
  have hcomma : ',' ∉ symbols u.toList := by
    rw [hsymbols]
    intro hmem
    have hne := List.mem_takeWhile_imp hmem
    exact absurd hne (by decide)
  have hpiece : ',' ∉ piece := fun hmem =>
    hcomma (List.mem_filter.mpr ⟨h.comma hmem, isSymbol_comma⟩)
  have hwhole : quoting u.toList = quoting (('[' :: '"' :: (piece ++ '"' :: after)).takeWhile
      (· ≠ ',')) := by
    rw [← quoting_symbols, hsymbols, ← symbols_takeWhile, quoting_symbols]
  rw [takeWhile_quoted hpiece] at hwhole
  have hle := quoting_quotes ['['] piece (after.takeWhile (· ≠ ','))
  have hcovers := h.quoting_le
  omega

theorem symbols_shown_ne (h : value fuel cs = .ok (j, next)) :
    symbols j.shown.toList ≠ (symbols ('[' :: cs)).takeWhile (· ≠ ',') := by
  have hinner : j.shown = String.ofList j.inner →
      symbols j.shown.toList ≠ (symbols ('[' :: cs)).takeWhile (· ≠ ',') := by
    intro hshown hsymbols
    have hnone : brackets [] = 0 := rfl
    have hle := brackets_inner_le h hnone
    rw [List.append_nil, ← String.toList_ofList (l := j.inner), ← hshown,
      brackets_eq_of_first hsymbols, brackets_bracket] at hle
    exact Nat.not_succ_le_self _ hle
  cases value_eq_ok h with
  | string hcovers => exact symbols_quoted_ne hcovers
  | _ => exact hinner rfl

theorem symbols_change (l : ListSetting) (s : String) :
    symbols (l.change s).toList = symbols s.toList := by
  cases l with
  | allowedOrigins => rfl
  | assemblyPrefixes => exact symbols_upper s
  | openOrderStatuses => exact symbols_lower s

theorem symbols_spaces {before : List Char} (h : Spaces before) : symbols before = [] :=
  symbols_eq_nil fun c hc => isSymbol_of_isBlank (isBlank_of_isSpace (h c hc))

theorem items_ne_of_str (l : ListSetting) {u : String} (h : ofText text = .ok (.str u)) :
    (commaItems u).map l.change ≠ (commaItems text).map l.change := by
  intro heq
  have hmarks : ∀ items : List String, (items.map l.change).flatMap (fun i => marks i.toList) =
      items.flatMap fun i => marks i.toList := by
    intro items
    rw [List.flatMap_map]
    apply List.flatMap_congr
    intro i _
    rw [marks, symbols_change, marks]
  have hquoting : quoting u.toList = quoting text.toList := by
    rw [← quoting_marks, ← marks_commaItems, ← hmarks, heq, hmarks, marks_commaItems,
      quoting_marks]
  obtain ⟨before, cs, after, htext, -, -, hopening⟩ := ofText_eq_ok h
  cases hopening with
  | @string piece _ _ hcovers =>
    have hle := quoting_quotes before piece after
    have hcovers := hcovers.quoting_le
    rw [← htext] at hle
    omega

theorem items_ne_of_arr (l : ListSetting) {js : List Json} (h : ofText text = .ok (.arr js))
    (hne : commaItems text ≠ []) :
    (js.map fun j => l.change j.shown) ≠ (commaItems text).map l.change := by
  intro heq
  obtain ⟨before, cs, after, htext, hbefore, -, hopening⟩ := ofText_eq_ok h
  -- The first items are enough: what stands before the first comma is not that of the list.
  cases hopening with
  | empty => exact hne (List.map_eq_nil_iff.mp heq.symm)
  | @list tail _ _ _ j js hfirst =>
    have hsymbols : symbols text.toList = symbols ('[' :: skipSpace tail) := by
      rw [htext, symbols_append, symbols_spaces hbefore, List.nil_append, symbols_cons (by decide),
        symbols_cons (by decide), symbols_skipSpace]
    obtain ⟨first, others, hitems, hshown⟩ := commaItems_first
      (hsymbols.trans (symbols_cons (by decide))) (by decide)
    rw [hitems, List.map_cons, List.map_cons] at heq
    have hchange := congrArg (fun s => symbols s.toList) (List.cons.inj heq).1
    rw [symbols_change, symbols_change, hshown, hsymbols] at hchange
    exact symbols_shown_ne hfirst hchange

theorem items_of_null (h : ofText text = .ok .null) : commaItems text = ["null"] := by
  obtain ⟨before, cs, after, htext, hbefore, hafter, hopening⟩ := ofText_eq_ok h
  have hblank : ∀ {ds : List Char}, Spaces ds → ∀ c ∈ ds, isBlank c = true :=
    fun hds c hc => isBlank_of_isSpace (hds c hc)
  cases hopening with
  | null =>
    have hjoins : Joins text ["null"] :=
      ⟨[before ++ ("null".toList ++ after)], by rw [htext]; exact (List.append_nil _).symm,
        .item (hblank hbefore) (hblank hafter) .nil⟩
    rw [commaItems_joins hjoins (by decide) (by simp)]
    decide

def Begins (text : String) (c : Char) : Prop :=
  ∃ before rest, Spaces before ∧ text.toList = before ++ c :: rest

namespace ListSetting

variable (l : ListSetting) {env env' : Environment} {s s' : Settings} {tokens : List String}

def items (tokens : List String) : List String := tokens.map fun token => l.change (trim token)

/-- Whatever a comma text is read as in the environment, it is not read as its items. -/
theorem get_ne_items (hs : ofEnvironment env = .ok s) (hset : Sets env l.name text env')
    (hne : commaItems text ≠ []) (hs' : ofEnvironment env' = .ok s') :
    l.get s' ≠ (commaItems text).map l.change ∧
      (commaItems text = ["null"] ∨ Begins text '"' ∨ Begins text '[') := by
  rw [l.ofEnvironment_sets hs hset] at hs'
  split at hs'
  · cases hs'
  · next hnull =>
    cases hs'
    rw [get_put, items_of_null hnull]
    refine ⟨?_, .inl rfl⟩
    cases l <;> decide
  · next j _ hj =>
    obtain ⟨items, hitems, rfl⟩ := (l.load_direct_eq_ok hs).mp hs'
    obtain ⟨before, cs, after, htext, hbefore, -, hopening⟩ := ofText_eq_ok hj
    rw [get_put]
    rcases l.check_eq_accepted hitems with ⟨u, rfl, rfl⟩ | ⟨js, rfl, rfl⟩
    · refine ⟨items_ne_of_str l hj, .inr (.inl ?_)⟩
      cases hopening
      exact ⟨before, _, hbefore, htext⟩
    · refine ⟨items_ne_of_arr l hj hne, .inr (.inr ?_)⟩
      cases hopening <;> exact ⟨before, _, hbefore, htext⟩

/-- Settings with a text of items between commas for a list. Given directly the text stands for the
items, and so it does in the environment when JSON writes it or the items. As it stands it is read
as JSON there. It never gives the items, and unless it is null or begins as JSON for a text or a
list does, no settings at all. -/
theorem joined_decided (hs : ofEnvironment env = .ok s) (htext : Joins text tokens)
    (htokens : ∀ token ∈ tokens, IsItem token) (hne : tokens ≠ []) :
    load env [(l.name, .str text)] = .ok (l.put s (l.items tokens)) ∧
    (∀ written env', Spells written (strs (tokens.map trim)) → Sets env l.name written env' →
      ofEnvironment env' = .ok (l.put s (l.items tokens))) ∧
    (∀ written env', Spells written (.str text) → Sets env l.name written env' →
      ofEnvironment env' = .ok (l.put s (l.items tokens))) ∧
    ∀ env', Sets env l.name text env' →
      (ofEnvironment env' = match ofText text with
        | .error _ => .error (.unreadableSetting l.name)
        | .ok .null => .ok (l.put s l.default)
        | .ok j => load env [(l.name, j)]) ∧
      ∀ s', ofEnvironment env' = .ok s' → l.get s' ≠ l.items tokens ∧
        (tokens.map trim = ["null"] ∨ Begins text '"' ∨ Begins text '[') := by
  have htrim : commaItems text = tokens.map trim := commaItems_joins htext htokens hne
  have hitems : (commaItems text).map l.change = l.items tokens := by
    rw [htrim, List.map_map]
    rfl
  have hdirect : load env [(l.name, .str text)] = .ok (l.put s (l.items tokens)) :=
    (l.load_direct_eq_ok hs).mpr ⟨_, l.check_str text, by rw [hitems]⟩
  have hlist : load env [(l.name, strs (tokens.map trim))] = .ok (l.put s (l.items tokens)) :=
    (l.load_direct_eq_ok hs).mpr ⟨_, l.check_strs _, by rw [← htrim, hitems]⟩
  refine ⟨hdirect, ?_, ?_, ?_⟩
  · intro written env' hwritten hset
    rw [l.ofEnvironment_sets hs hset, ofText_spells hwritten]
    exact hlist
  · intro written env' hwritten hset
    rw [l.ofEnvironment_sets hs hset, ofText_spells hwritten]
    exact hdirect
  · intro env' hset
    refine ⟨l.ofEnvironment_sets hs hset, ?_⟩
    intro s' hs'
    have hsome : commaItems text ≠ [] := by
      rw [htrim]
      exact mt List.map_eq_nil_iff.mp hne
    rw [← hitems, ← htrim]
    exact l.get_ne_items hs hset hsome hs'

theorem joined_decided_bench : ∃ s, ofEnvironment [("DEBUG", "true")] = .ok s ∧
    load [("DEBUG", "true")] [("ASSEMBLY_IPN_PREFIXES", .str " kit- ,, Asy-")] =
      .ok { s with assemblyPrefixes := ["KIT-", "ASY-"] } ∧
    ofEnvironment [("DEBUG", "true"), ("assembly_ipn_prefixes", "[\"kit-\", \"Asy-\"]")] =
      .ok { s with assemblyPrefixes := ["KIT-", "ASY-"] } ∧
    ofEnvironment [("DEBUG", "true"), ("assembly_ipn_prefixes", "\" kit- ,, Asy-\"")] =
      .ok { s with assemblyPrefixes := ["KIT-", "ASY-"] } ∧
    ofEnvironment [("DEBUG", "true"), ("assembly_ipn_prefixes", " kit- ,, Asy-")] =
      .error (.unreadableSetting "ASSEMBLY_IPN_PREFIXES") := by
  obtain ⟨s, hs⟩ : ∃ s, ofEnvironment [("DEBUG", "true")] = .ok s := ⟨_, rfl⟩
  have hcomma : commaItems " kit- ,, Asy-" = ["kit-", "Asy-"] := by decide +kernel
  obtain ⟨hdirect, hlist, hquoted, hown⟩ :=
    assemblyPrefixes.joined_decided hs (hcomma ▸ joins_commaItems _) (by decide) (by simp)
  have hset : ∀ text, Sets [("DEBUG", "true")] assemblyPrefixes.name text
      [("DEBUG", "true"), ("assembly_ipn_prefixes", text)] :=
    sets_append (by decide +kernel) _
  have hitems : assemblyPrefixes.items ["kit-", "Asy-"] = ["KIT-", "ASY-"] := by decide +kernel
  have hwritten : (strs (["kit-", "Asy-"].map trim)).text = "[\"kit-\", \"Asy-\"]" := by
    decide +kernel
  have hwhole : (Json.str " kit- ,, Asy-").text = "\" kit- ,, Asy-\"" := by decide +kernel
  rw [hitems] at hdirect hlist hquoted
  refine ⟨s, hs, hdirect, hlist _ _ (hwritten ▸ spells_strs _) (hset _),
    hquoted _ _ (hwhole ▸ spells_str _) (hset _), ?_⟩
  rw [(hown _ (hset _)).1]
  rfl

theorem joined_unread : Joins "KIT-,ASY-" ["KIT-", "ASY-"] ∧
    (∀ token ∈ ["KIT-", "ASY-"], IsItem token) ∧
    ofEnvironment [("ASSEMBLY_IPN_PREFIXES", "KIT-,ASY-")] =
      .error (.unreadableSetting "ASSEMBLY_IPN_PREFIXES") := by
  have hitems : commaItems "KIT-,ASY-" = ["KIT-", "ASY-"] := by decide +kernel
  exact ⟨hitems ▸ joins_commaItems _, by decide, by decide +kernel⟩

end ListSetting
end BomEngine.Settings
