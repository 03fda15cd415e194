import BomEngine.Proofs.Service.Escapes

/-!
# From addresses to targets

The path of an address ends at a question mark or a number sign, and its steps lose those that are
dots. What is left of it has neither. A path that is without them from the start is kept as it is,
but for its escapes.
-/

set_option autoImplicit false

namespace BomEngine.Service

def IsDots (s : List Char) : Prop := s = ['.'] ∨ s = ['.', '.']

instance : DecidablePred IsDots := fun _ => inferInstanceAs (Decidable (_ ∨ _))

def Dotless (cs : List Char) : Prop := ∀ s ∈ steps cs, ¬ IsDots s

instance (cs : List Char) : Decidable (Dotless cs) :=
  inferInstanceAs (Decidable (∀ s ∈ steps cs, ¬ IsDots s))

theorem steps_eq_splitOn (cs : List Char) : steps cs = cs.splitOn '/' := by
  unfold List.splitOn
  induction cs with
  | nil => rfl
  | cons c cs ih =>
    rw [List.splitOnP_cons_eq_if_modifyHead, steps, ih]
    by_cases hc : c = '/'
    · rw [if_pos hc, if_pos (by simpa using hc)]
    · rw [if_neg hc, if_neg (by simpa using hc)]
      cases h : cs.splitOnP (· == '/') with
      | nil => exact absurd h (List.splitOnP_ne_nil _ _)
      | cons s ss => rfl

theorem steps_ne_nil (cs : List Char) : steps cs ≠ [] := by
  rw [steps_eq_splitOn]
  exact List.splitOn_ne_nil '/' cs

theorem steps_cons {c : Char} (hc : c ≠ '/') {cs s : List Char} {ss : List (List Char)}
    (h : steps cs = s :: ss) : steps (c :: cs) = (c :: s) :: ss := by
  rw [steps, if_neg hc, h]

theorem steps_append_stroke (cs ds : List Char) :
    steps (cs ++ '/' :: ds) = steps cs ++ steps ds := by
  rw [steps_eq_splitOn, steps_eq_splitOn, steps_eq_splitOn]
  exact List.splitOnP_append_cons cs ds rfl

theorem dotless_append_stroke (cs ds : List Char) :
    Dotless (cs ++ '/' :: ds) ↔ Dotless cs ∧ Dotless ds := by
  rw [Dotless, steps_append_stroke, List.forall_mem_append]
  rfl

theorem dotless_nil : Dotless [] := by simp [Dotless, steps, IsDots]

theorem dotless_append {rest : List Char} (h : ∀ c ∈ rest.head?, c = '/') (cs : List Char) :
    Dotless (cs ++ rest) ↔ Dotless cs ∧ Dotless rest := by
  cases rest with
  | nil => simp [dotless_nil]
  | cons c rest =>
    obtain rfl := h c rfl
    have hstroke := dotless_append_stroke [] rest
    rw [dotless_append_stroke, ← List.nil_append ('/' :: rest), hstroke]
    exact and_congr_right fun _ => (and_iff_right dotless_nil).symm

theorem steps_append {cs : List Char} (hcs : '/' ∉ cs) {ds s : List Char} {ss : List (List Char)}
    (h : steps ds = s :: ss) : steps (cs ++ ds) = (cs ++ s) :: ss := by
  induction cs with
  | nil => exact h
  | cons c cs ih =>
    obtain ⟨hc, hcs⟩ := not_or.mp (List.mem_cons.not.mp hcs)
    exact steps_cons (Ne.symm hc) (ih hcs)

theorem of_mem_steps {cs s : List Char} (h : s ∈ steps cs) : '/' ∉ s ∧ s ⊆ cs := by
  induction cs generalizing s with
  | nil =>
    obtain rfl : s = [] := List.mem_singleton.mp h
    exact ⟨List.not_mem_nil, List.nil_subset _⟩
  | cons c cs ih =>
    by_cases hc : c = '/'
    · rw [steps, if_pos hc, List.mem_cons] at h
      rcases h with rfl | h
      · exact ⟨List.not_mem_nil, List.nil_subset _⟩
      · exact ⟨(ih h).1, List.subset_cons_of_subset c (ih h).2⟩
    · obtain ⟨first, ss, hs⟩ := List.exists_cons_of_ne_nil (steps_ne_nil cs)
      rw [steps_cons hc hs, List.mem_cons] at h
      rcases h with rfl | h
      · have hfirst := ih (s := first) (by simp [hs])
        exact ⟨List.not_mem_cons_of_ne_of_not_mem (Ne.symm hc) hfirst.1,
          List.cons_subset_cons c hfirst.2⟩
      · have hlater := ih (s := s) (by simp [hs, h])
        exact ⟨hlater.1, List.subset_cons_of_subset c hlater.2⟩

theorem steps_escape (cs : List Char) :
    steps (escape pathSafe cs) = (steps cs).map (escape pathSafe) := by
  induction cs with
  | nil => rfl
  | cons c cs ih =>
    by_cases hc : c = '/'
    · rw [hc, escape_cons_safe (by decide), steps, if_pos rfl, steps, if_pos rfl, ih]
      rfl
    · obtain ⟨s, ss, hs⟩ := List.exists_cons_of_ne_nil (steps_ne_nil cs)
      have hone : '/' ∉ escape pathSafe [c] := by
        rw [mem_escape_sign (by simp)]
        simpa using Ne.symm hc
      rw [hs, List.map_cons] at ih
      rw [steps_cons hc hs, List.map_cons, ← List.singleton_append, escape_append,
        steps_append hone ih, ← escape_append]
      rfl

theorem escape_eq_dots {cs ds : List Char} (hd : ∀ d ∈ ds, d = '.') :
    escape pathSafe cs = ds ↔ cs = ds := by
  induction cs generalizing ds with
  | nil => rfl
  | cons c cs ih =>
    cases ds with
    | nil =>
      refine iff_of_false (fun h => ?_) nofun
      have hlen := length_le_escape pathSafe (c :: cs)
      rw [h] at hlen
      exact absurd hlen (by simp)
    | cons d ds =>
      obtain ⟨rfl, hds⟩ := List.forall_mem_cons.mp hd
      cases hsafe : pathSafe c with
      | true => rw [escape_cons_safe hsafe, List.cons.injEq, List.cons.injEq, ih hds]
      | false =>
        refine iff_of_false (fun h => ?_) ?_
        · obtain ⟨b, bs, hb⟩ := List.exists_cons_of_ne_nil (Text.utf8_ne_nil c)
          rw [escape_cons_written hsafe, hb, List.flatMap_cons, escapedByte_eq] at h
          exact absurd (List.cons.inj h).1 (by decide)
        · rintro ⟨⟩
          exact absurd hsafe (by decide)

theorem isDots_escape (s : List Char) : IsDots (escape pathSafe s) ↔ IsDots s := by
  rw [IsDots, IsDots, escape_eq_dots (by simp), escape_eq_dots (by simp)]

theorem dotless_escape (cs : List Char) : Dotless (escape pathSafe cs) ↔ Dotless cs := by
  rw [Dotless, steps_escape, List.forall_mem_map]
  simp only [isDots_escape]
  rfl

theorem intercalate_steps (cs : List Char) : List.intercalate ['/'] (steps cs) = cs := by
  rw [steps_eq_splitOn]
  exact List.intercalate_splitOn '/'

theorem steps_intercalate {ss : List (List Char)} (hne : ss ≠ []) (h : ∀ s ∈ ss, '/' ∉ s) :
    steps (List.intercalate ['/'] ss) = ss := by
  rw [steps_eq_splitOn]
  exact List.splitOn_intercalate '/' h hne

theorem withoutDots_of_dotless {ss : List (List Char)} (h : ∀ s ∈ ss, ¬ IsDots s)
    (done : List (List Char)) : withoutDots done ss = done.reverse ++ ss := by
  induction ss generalizing done with
  | nil => exact (List.append_nil _).symm
  | cons s ss ih =>
    obtain ⟨hs, hss⟩ := List.forall_mem_cons.mp h
    obtain ⟨hdot, hdots⟩ := not_or.mp hs
    rw [withoutDots, if_neg hdot, if_neg hdots, ih hss, List.reverse_cons, List.append_assoc]
    rfl

theorem mem_withoutDots {done ss : List (List Char)} {s : List Char}
    (h : s ∈ withoutDots done ss) : s ∈ done ∨ s ∈ ss ∧ ¬ IsDots s := by
  induction ss generalizing done with
  | nil => exact .inl (List.mem_reverse.mp h)
  | cons first ss ih =>
    rw [withoutDots] at h
    split_ifs at h with hdot hdots
    · exact (ih h).imp_right fun h => ⟨List.mem_cons_of_mem _ h.1, h.2⟩
    · refine (ih h).imp (fun h => ?_) fun h => ⟨List.mem_cons_of_mem _ h.1, h.2⟩
      unfold back at h
      split at h
      · exact h
      · exact List.mem_of_mem_drop h
    · rcases ih h with h | h
      · rcases List.mem_cons.mp h with rfl | h
        · exact .inr ⟨List.mem_cons_self, not_or.mpr ⟨hdot, hdots⟩⟩
        · exact .inl h
      · exact .inr ⟨List.mem_cons_of_mem _ h.1, h.2⟩

theorem normalized_of_dotless {cs : List Char} (h : Dotless cs) : normalized cs = cs := by
  rw [normalized, withoutDots_of_dotless h]
  exact intercalate_steps cs

/-- What is left of a path has no dots for steps. -/
theorem dotless_normalized (cs : List Char) : Dotless (normalized cs) := by
  have hkept : ∀ s ∈ withoutDots [] (steps cs), s ∈ steps cs ∧ ¬ IsDots s := fun s hs =>
    (mem_withoutDots hs).resolve_left List.not_mem_nil
  rw [normalized]
  by_cases hnil : withoutDots [] (steps cs) = []
  · rw [hnil]
    decide
  · intro s hs
    rw [steps_intercalate hnil fun s hs => (of_mem_steps (hkept s hs).1).1] at hs
    exact (hkept s hs).2

theorem mem_of_mem_intercalate {c : Char} {sep : List Char} {ss : List (List Char)}
    (h : c ∈ sep.intercalate ss) : c ∈ sep ∨ ∃ s ∈ ss, c ∈ s := by
  induction ss with
  | nil => cases h
  | cons s ss ih =>
    by_cases hss : ss = []
    · rw [hss, List.intercalate_singleton] at h
      exact .inr ⟨s, List.mem_cons_self, h⟩
    · rw [List.intercalate_cons_of_ne_nil hss, List.mem_append, List.mem_append] at h
      rcases h with (h | h) | h
      · exact .inr ⟨s, List.mem_cons_self, h⟩
      · exact .inl h
      · exact (ih h).imp_right fun ⟨s, hs, hc⟩ => ⟨s, List.mem_cons_of_mem _ hs, hc⟩

theorem mem_normalized {c : Char} {cs : List Char} (h : c ∈ normalized cs) : c ∈ cs ∨ c = '/' := by
  rcases mem_of_mem_intercalate h with h | ⟨s, hs, hc⟩
  · exact .inr (List.mem_singleton.mp h)
  · exact .inl ((of_mem_steps ((mem_withoutDots hs).resolve_left List.not_mem_nil).1).2 hc)

theorem cut_append {stop : Char → Bool} {front rest : List Char}
    (hfront : ∀ c ∈ front, stop c = false) (hrest : ∀ c ∈ rest.head?, stop c = true) :
    cut stop (front ++ rest) = (front, rest) := by
  have hp : ∀ c ∈ front, (!stop c) = true := fun c hc => by simp [hfront c hc]
  rw [cut, List.takeWhile_append_of_pos hp, List.dropWhile_append_of_pos hp]
  cases rest with
  | nil => simp
  | cons c rest =>
    have hc := hrest c rfl
    simp [hc]

theorem cut_cons {stop : Char → Bool} {c : Char} (hc : stop c = false) (cs : List Char) :
    cut stop (c :: cs) = (c :: (cut stop cs).1, (cut stop cs).2) := by
  rw [cut, List.takeWhile_cons_of_pos (by simp [hc]), List.dropWhile_cons_of_pos (by simp [hc])]
  rfl

/-- A base path as it is made from the text of an address: safe letters, no dots for steps, and a
stroke at the end. -/
structure PlainBase (path : List Char) : Prop where
  safe : ∀ c ∈ path, pathSafe c = true
  marks : '?' ∉ path ∧ '#' ∉ path
  ends : path.getLast? = some '/'
  dotless : Dotless path

theorem dotless_below {base : List Char} (h : PlainBase base) (cs : List Char) :
    Dotless (base ++ cs) ↔ Dotless cs := by
  obtain ⟨front, rfl⟩ := List.getLast?_eq_some_iff.mp h.ends
  have hfront := ((dotless_append_stroke front []).mp h.dotless).1
  rw [List.append_assoc, List.singleton_append, dotless_append_stroke]
  exact and_iff_right hfront

theorem PlainBase.no_mark {base : List Char} (h : PlainBase base) {m : Char}
    (hm : m ∈ ['?', '#']) : m ∉ base := by
  fin_cases hm
  · exact h.marks.1
  · exact h.marks.2

theorem of_mark_mem_normalized {m : Char} (hm : m ∈ ['?', '#']) {cs : List Char}
    (h : m ∈ normalized cs) : m ∈ cs :=
  (mem_normalized h).resolve_right (by fin_cases hm <;> decide)

theorem mark_mem_escape {m : Char} (hm : m ∈ ['?', '#']) {cs : List Char} :
    m ∈ escape pathSafe cs ↔ m ∈ cs := mem_escape_sign (by fin_cases hm <;> decide)

theorem splitScheme_subset (cs : List Char) : (Base.splitScheme cs).2 ⊆ cs := by
  unfold Base.splitScheme cut
  dsimp only
  split
  · next rest h =>
    have hrest : ':' :: '/' :: '/' :: rest ⊆ cs := h ▸ (List.dropWhile_sublist _).subset
    exact fun c hc => hrest (by simp [hc])
  · exact List.Subset.refl cs

theorem plainBase_ofText {text : String} (hq : '?' ∉ text.toList) (hh : '#' ∉ text.toList) :
    PlainBase (Base.ofText text).path := by
  have hroot : PlainBase ['/'] := ⟨List.forall_mem_singleton.mpr (by decide), by decide, rfl,
    (dotless_append_stroke [] []).mpr ⟨dotless_nil, dotless_nil⟩⟩
  have hsub : (text.toList.reverse.dropWhile (· = '/')).reverse ⊆ text.toList := fun c hc => by
    simpa using (List.dropWhile_sublist _).subset (List.mem_reverse.mp hc)
  unfold Base.ofText
  dsimp only
  generalize (text.toList.reverse.dropWhile (· = '/')).reverse = cs at hsub
  split
  · exact hroot
  have hpath : (cut (· = '/') (Base.splitScheme cs).2).2 ⊆ text.toList := fun c hc =>
    hsub (splitScheme_subset cs ((List.dropWhile_sublist _).subset hc))
  generalize (cut (· = '/') (Base.splitScheme cs).2).2 = path at hpath
  split
  · exact hroot
  · have hmark {c : Char} (hc : c ∈ ['?', '#']) (htext : c ∉ text.toList) :
        c ∉ escape pathSafe (normalized path) ++ ['/'] := by
      rw [List.mem_append, mark_mem_escape hc]
      rintro (h | h)
      · exact htext (hpath (of_mark_mem_normalized hc h))
      · rw [List.mem_singleton.mp h] at hc
        exact absurd hc (by decide)
    dsimp only
    rw [if_neg (by simp)]
    refine ⟨?_, ⟨hmark (by simp) hq, hmark (by simp) hh⟩, List.getLast?_concat, ?_⟩
    · rw [List.forall_mem_append]
      exact ⟨fun c hc => pathSafe_escape hc, List.forall_mem_singleton.mpr (by decide)⟩
    · rw [dotless_append_stroke, dotless_escape]
      exact ⟨dotless_normalized path, dotless_nil⟩

theorem splitAddress_path (cs : List Char) {c : Char} (h : c ∈ (splitAddress cs).1) :
    c ≠ '?' ∧ c ≠ '#' := by
  have hpath : (splitAddress cs).1 = cs.takeWhile fun c => !decide (c = '?' ∨ c = '#') := by
    unfold splitAddress cut
    dsimp only
    split <;> simp
  rw [hpath] at h
  simpa using List.mem_takeWhile_imp h

theorem no_mark_below {base : List Char} (hbase : PlainBase base) (cs : List Char) {m : Char}
    (hm : m ∈ ['?', '#']) : m ∉ normalized (base ++ escape pathSafe (splitAddress cs).1) := by
  intro h
  rcases List.mem_append.mp (of_mark_mem_normalized hm h) with h | h
  · exact hbase.no_mark hm h
  · obtain ⟨hq, hh⟩ := splitAddress_path cs ((mark_mem_escape hm).mp h)
    fin_cases hm
    · exact hq rfl
    · exact hh rfl

theorem splitAddress_of_no_marks {cs : List Char} (hq : '?' ∉ cs) (hh : '#' ∉ cs) :
    splitAddress cs = (cs, none) := by
  have hmarks : ∀ c ∈ cs, (c = '?' || c = '#' : Bool) = false := by
    intro c hc
    have h1 : c ≠ '?' := fun h => hq (h ▸ hc)
    have h2 : c ≠ '#' := fun h => hh (h ▸ hc)
    simp [h1, h2]
  have hcut : cut (fun c => c = '?' || c = '#') (cs ++ []) = (cs, []) := cut_append hmarks nofun
  rw [List.append_nil] at hcut
  rw [splitAddress, hcut]

theorem splitAddress_cons {c : Char} (hc : c ∉ ['?', '#']) (cs : List Char) :
    splitAddress (c :: cs) = (c :: (splitAddress cs).1, (splitAddress cs).2) := by
  rw [splitAddress, splitAddress, cut_cons (by simpa using hc)]
  dsimp only
  split <;> rfl

def withQuery (path : List Char) (query : Option (List Char)) : List Char :=
  path ++ match query with
    | some q => '?' :: q
    | none => []

theorem cut_withQuery {path : List Char} (h : '?' ∉ path) (query : Option (List Char)) :
    cut (· = '?') (withQuery path query) = (path, withQuery [] query) := by
  refine cut_append (fun c hc => ?_) ?_
  · exact decide_eq_false fun hq => h (hq ▸ hc)
  · cases query <;> simp

theorem ofRaw_withQuery {path : List Char} (h : '?' ∉ path) (query : Option (List Char)) :
    Target.ofRaw (withQuery path query) =
      ⟨escape pathSafe (normalized path), query.map (escape querySafe)⟩ := by
  rw [Target.ofRaw, cut_withQuery h]
  cases query <;> rfl

theorem below_eq {base : List Char} (hbase : '?' ∉ base) {address : String} {t : Target}
    (ht : Target.below base address = .ok t) {x : Char} {cs : List Char}
    (ha : address.toList = '/' :: x :: cs) (hx : x ∉ ['/', '?', '#']) (hxs : pathSafe x = true) :
    t = ⟨escape pathSafe (normalized (base ++ escape pathSafe (splitAddress (x :: cs)).1)),
      (splitAddress (x :: cs)).2.map fun q => escape querySafe (escape querySafe q)⟩ := by
  have hmarks : '?' ∉ base ++ escape pathSafe (splitAddress (x :: cs)).1 := by
    rw [List.mem_append, mem_escape_sign (by simp)]
    exact not_or.mpr ⟨hbase, fun h => (splitAddress_path _ h).1 rfl⟩
  have hfirst := splitAddress_cons (c := x) (fun h => hx (List.mem_cons_of_mem _ h)) cs
  rw [Target.below, ha] at ht
  dsimp only at ht
  split at ht
  · cases ht
  have hraw : base ++ (Target.chars ⟨escape pathSafe (splitAddress ('/' :: x :: cs)).1,
      (splitAddress ('/' :: x :: cs)).2.map (escape querySafe)⟩).dropWhile (· = '/') =
      withQuery (base ++ escape pathSafe (splitAddress (x :: cs)).1)
        ((splitAddress (x :: cs)).2.map (escape querySafe)) := by
    have hx0 : x ≠ '/' := fun h => hx (by simp [h])
    rw [splitAddress_cons (by decide), hfirst, Target.chars, escape_cons_safe (by decide),
      escape_cons_safe hxs, if_neg (by simp), List.cons_append,
      List.dropWhile_cons_of_pos (by simp), List.cons_append,
      List.dropWhile_cons_of_neg (by simpa using hx0)]
    exact (List.append_assoc base (x :: escape pathSafe (splitAddress cs).1) _).symm
  rw [hraw, cut_withQuery hmarks] at ht
  split at ht
  · cases ht
  · cases ht
    rw [ofRaw_withQuery hmarks, Option.map_map]
    rfl

end BomEngine.Service
