import BomEngine.Proofs.Decimal.Shortest
import BomEngine.Proofs.Json.Texts
import BomEngine.Proofs.Text.Symbols

/-!
# What a JSON text begins with

A text that is read begins as its value tells: a string with a quote, a list with a bracket, and so
on inside of it. The text of a string has more quotes and backslashes than the string, and all of
its commas; that of a list has more brackets in front than the list is shown with.
-/

set_option autoImplicit false

namespace BomEngine.Json
open Text

variable {cs rest done letters : List Char} {c : Char} {n fuel opening : ℕ} {j : Json}

def quoting (cs : List Char) : ℕ := cs.countP fun c => c = '"' || c = '\\'

theorem quoting_append (cs ds : List Char) : quoting (cs ++ ds) = quoting cs + quoting ds :=
  List.countP_append

theorem quoting_cons (c : Char) (cs : List Char) : quoting (c :: cs) = quoting cs + quoting [c] := by
  rw [← List.singleton_append, quoting_append, Nat.add_comm]

theorem quoting_singleton_le (c : Char) : quoting [c] ≤ 1 := List.countP_le_length

theorem unit_eq_ok (h : unit cs = .ok (n, rest)) : ∃ u, cs = u ++ rest ∧ UnitText u n := by
  unfold unit at h
  dsimp only at h
  split at h
  · next a b c d e tail =>
    split at h
    · next w x y z ha hb hc hd =>
      cases h
      exact ⟨[a, b, c, d], rfl, .mk ha hb hc hd⟩
    · cases h
  · cases h

theorem comma_not_mem_unitText {u : List Char} (h : UnitText u n) : ',' ∉ u := by
  have hdigit : hexValue? ',' = none := by decide
  obtain ⟨ha, hb, hc, hd⟩ := h
  simp only [List.mem_cons, List.not_mem_nil, or_false, not_or]
  refine ⟨?_, ?_, ?_, ?_⟩ <;> rintro rfl
  · cases hdigit.symm.trans ha
  · cases hdigit.symm.trans hb
  · cases hdigit.symm.trans hc
  · cases hdigit.symm.trans hd

theorem numbered_eq_ok (h : numbered cs = .ok (c, rest)) : ∃ u, cs = u ++ rest ∧ ',' ∉ u := by
  unfold numbered at h
  split at h
  · cases h
  next n tail hn =>
  obtain ⟨u, rfl, hu⟩ := unit_eq_ok hn
  have hcomma := comma_not_mem_unitText hu
  split at h
  · split at h
    · next after =>
      split at h
      · cases h
      next m last hm =>
      obtain ⟨v, rfl, hv⟩ := unit_eq_ok hm
      split at h
      · obtain ⟨-, rfl⟩ := Prod.mk.inj (Except.ok.inj h)
        refine ⟨u ++ '\\' :: 'u' :: v, by simp, ?_⟩
        simp [hcomma, comma_not_mem_unitText hv]
      · obtain ⟨-, rfl⟩ := Prod.mk.inj (Except.ok.inj h)
        exact ⟨u, rfl, hcomma⟩
    · obtain ⟨-, rfl⟩ := Prod.mk.inj (Except.ok.inj h)
      exact ⟨u, rfl, hcomma⟩
  · obtain ⟨-, rfl⟩ := Prod.mk.inj (Except.ok.inj h)
    exact ⟨u, rfl, hcomma⟩

/-- A text that stands for letters: it has a quote or a backslash for each of theirs, and no comma
that is not one of them. -/
structure Covers (text letters : List Char) : Prop where
  quoting_le : quoting letters ≤ quoting text
  comma : ',' ∈ text → ',' ∈ letters

theorem Covers.append {text letters text' letters' : List Char} (h : Covers text letters)
    (h' : Covers text' letters') : Covers (text ++ text') (letters ++ letters') := by
  constructor
  · rw [quoting_append, quoting_append]
    exact Nat.add_le_add h.quoting_le h'.quoting_le
  · intro hmem
    rcases List.mem_append.mp hmem with hmem | hmem
    · exact List.mem_append_left _ (h.comma hmem)
    · exact List.mem_append_right _ (h'.comma hmem)

theorem covers_plain (c : Char) : Covers [c] [c] := ⟨le_rfl, id⟩

theorem covers_escape {piece : List Char} (h : ',' ∉ piece) (c : Char) :
    Covers ('\\' :: piece) [c] := by
  constructor
  · calc quoting [c] ≤ 1 := quoting_singleton_le c
      _ = quoting ['\\'] := by decide
      _ ≤ quoting ('\\' :: piece) := by
        rw [quoting_cons _ piece]
        exact Nat.le_add_left _ _
  · intro hmem
    rcases List.mem_cons.mp hmem with hmem | hmem
    · cases hmem
    · exact absurd hmem h

def ClosesAfter (cs done letters rest : List Char) : Prop :=
  ∃ text new, cs = text ++ '"' :: rest ∧ letters = done.reverse ++ new ∧ Covers text new

theorem ClosesAfter.letter {piece after : List Char} (h : Covers piece [c])
    (hafter : ClosesAfter after (c :: done) letters rest) :
    ClosesAfter (piece ++ after) done letters rest := by
  obtain ⟨text, new, rfl, rfl, hcovers⟩ := hafter
  exact ⟨piece ++ text, [c] ++ new, (List.append_assoc ..).symm, by simp, h.append hcovers⟩

theorem stringFrom_eq_ok (h : stringFrom opening fuel done cs = .ok (letters, rest)) :
    ClosesAfter cs done letters rest := by
  induction fuel generalizing done cs with
  | zero => cases h
  | succ fuel ih =>
    unfold stringFrom at h
    split at h
    · cases h
    · cases h
      exact ⟨[], [], rfl, (List.append_nil _).symm, ⟨le_rfl, id⟩⟩
    · split at h
      · cases h
      · split at h
        · cases h
        next c last hc =>
        obtain ⟨u, rfl, hu⟩ := numbered_eq_ok hc
        have hcomma : ',' ∉ 'u' :: u := by simp [hu]
        exact (ih h).letter (covers_escape hcomma c)
      · next e after _ =>
        split at h
        · cases h
        next c hc =>
        have hcomma : ',' ∉ [e] := by
          rw [List.mem_singleton]
          rintro rfl
          cases hc
        exact (ih h).letter (covers_escape hcomma c)
    · next c after _ _ =>
      split at h
      · cases h
      · exact (ih h).letter (covers_plain c)

/-- What stands before the closing quote stands for the string. -/
theorem string_eq_ok {s : String} (h : string cs = .ok (s, rest)) :
    ∃ text, cs = text ++ '"' :: rest ∧ Covers text s.toList := by
  unfold string at h
  cases hfrom : stringFrom (cs.length + 1) (cs.length + 1) [] cs with
  | error e =>
    rw [hfrom] at h
    cases h
  | ok r =>
    obtain ⟨text, new, hcs, hletters, hcovers⟩ := stringFrom_eq_ok hfrom
    rw [hfrom] at h
    cases h
    rw [hletters, List.reverse_nil, List.nil_append, String.toList_ofList]
    exact ⟨text, hcs, hcovers⟩

theorem number_eq_ok {start : List Char} {negative : Bool}
    (h : number start negative cs = .ok (j, rest)) : (∃ n, j = .int n) ∨ ∃ x, j = .double x := by
  unfold number at h
  extract_lets whole at h
  clear_value whole
  split at h
  · cases h
  split at h
  split at h
  split at h
  · split at h
    · cases h
    · cases h
      exact .inl ⟨_, rfl⟩
  · obtain ⟨rfl, -⟩ := Prod.mk.inj (Except.ok.inj h)
    exact .inr ⟨_, rfl⟩

theorem afterWord?_eq_some {word : List Char} (h : afterWord? word cs = some rest) :
    cs = word ++ rest := by
  induction word generalizing cs with
  | nil =>
    cases h
    rfl
  | cons w word ih =>
    cases cs with
    | nil => cases h
    | cons c cs =>
      obtain ⟨rfl, hrest⟩ := Option.ite_none_right_eq_some.mp h
      rw [ih hrest]
      rfl

inductive Opening : List Char → Json → List Char → Prop
  | string {text rest : List Char} {s : String} : Covers text s.toList →
      Opening ('"' :: (text ++ '"' :: rest)) (.str s) rest
  | empty {after rest : List Char} : Opening ('[' :: after) (.arr []) rest
  | list {after next rest : List Char} {fuel : ℕ} {j : Json} {js : List Json} :
      value fuel (skipSpace after) = .ok (j, next) → Opening ('[' :: after) (.arr (j :: js)) rest
  | record {after rest : List Char} {fs : List (String × Json)} :
      Opening ('\x7b' :: after) (.obj fs) rest
  | null {rest : List Char} : Opening ("null".toList ++ rest) .null rest
  | bool {cs rest : List Char} {b : Bool} : Opening cs (.bool b) rest
  | int {cs rest : List Char} {n : ℤ} : Opening cs (.int n) rest
  | double {cs rest : List Char} {x : Binary64} : Opening cs (.double x) rest

theorem opening_word {w : String × Json} (h : w ∈ words) (rest : List Char) :
    Opening (w.1.toList ++ rest) w.2 rest := by
  simp only [words, List.mem_cons, List.not_mem_nil, or_false] at h
  rcases h with rfl | rfl | rfl | rfl | rfl | rfl
  · exact .null
  · exact .bool
  · exact .bool
  · exact .double
  · exact .double
  · exact .double

theorem opening_scalar (h : scalar cs = .ok (j, rest)) : Opening cs j rest := by
  unfold scalar at h
  split at h
  · next r hr =>
    cases h
    obtain ⟨w, hw, hrest⟩ := List.exists_of_findSome?_eq_some hr
    obtain ⟨rest, hrest, hr⟩ := Option.map_eq_some_iff.mp hrest
    cases hr
    rw [afterWord?_eq_some hrest]
    exact opening_word hw rest
  · have hnumber : (∃ n, j = .int n) ∨ ∃ x, j = .double x := by
      split at h <;> exact number_eq_ok h
    rcases hnumber with ⟨n, rfl⟩ | ⟨x, rfl⟩
    · exact .int
    · exact .double

theorem items_eq_ok {js : List Json} (h : items fuel cs = .ok (js, rest)) :
    ∃ j tail fuel' next, js = j :: tail ∧ value fuel' cs = .ok (j, next) := by
  cases fuel with
  | zero => cases h
  | succ fuel =>
    unfold items at h
    split at h
    · cases h
    next j next hj =>
    split at h
    · cases h
      exact ⟨j, [], fuel, next, rfl, hj⟩
    · next after _ =>
      cases htail : items fuel (skipSpace after) with
      | error e =>
        rw [htail] at h
        cases h
      | ok r =>
        rw [htail] at h
        cases h
        exact ⟨j, r.1, fuel, next, rfl, hj⟩
    · cases h

theorem value_eq_ok (h : value fuel cs = .ok (j, rest)) : Opening cs j rest := by
  cases fuel with
  | zero => cases h
  | succ fuel =>
    unfold value at h
    split at h
    · next after =>
      cases hs : Json.string after with
      | error e =>
        rw [hs] at h
        cases h
      | ok r =>
        obtain ⟨text, rfl, hcovers⟩ := string_eq_ok hs
        rw [hs] at h
        cases h
        exact .string hcovers
    · next after =>
      split at h
      · cases h
        exact .empty
      · cases hitems : items fuel (skipSpace after) with
        | error e =>
          rw [hitems] at h
          cases h
        | ok r =>
          obtain ⟨first, tail, fuel', next, hr, hfirst⟩ := items_eq_ok hitems
          rw [hitems] at h
          cases h
          rw [hr]
          exact .list hfirst
    · next after =>
      split at h
      · cases h
        exact .record
      · cases hfields : fields fuel [] (skipSpace after) with
        | error e =>
          rw [hfields] at h
          cases h
        | ok r =>
          rw [hfields] at h
          cases h
          exact .record
    · exact opening_scalar h

def brackets (cs : List Char) : ℕ := ((symbols cs).takeWhile (· = '[')).length

theorem brackets_bracket (cs : List Char) : brackets ('[' :: cs) = brackets cs + 1 := rfl

theorem brackets_symbol (h : isSymbol c = true) (hc : c ≠ '[') : brackets (c :: cs) = 0 := by
  rw [brackets, symbols_cons h, List.takeWhile_cons_of_neg (by simpa using hc)]
  rfl

theorem brackets_append {ds : List Char} (h : '[' ∉ cs) (hds : brackets ds = 0) :
    brackets (cs ++ ds) = 0 := by
  induction cs with
  | nil => exact hds
  | cons c cs ih =>
    obtain ⟨hc, hcs⟩ := not_or.mp (List.mem_cons.not.mp h)
    cases hsymbol : isSymbol c with
    | true => exact brackets_symbol hsymbol (Ne.symm hc)
    | false =>
      rw [List.cons_append, brackets, symbols_cons_other hsymbol]
      exact ih hcs

theorem isBlank_of_isSpace (h : isSpace c = true) : isBlank c = true := by
  simp only [isSpace, Bool.or_eq_true, decide_eq_true_eq] at h
  rcases h with ((rfl | rfl) | rfl) | rfl <;> decide

theorem symbols_skipSpace (cs : List Char) : symbols (skipSpace cs) = symbols cs := by
  induction cs with
  | nil => rfl
  | cons c cs ih =>
    cases h : isSpace c with
    | true =>
      rw [skipSpace, List.dropWhile_cons_of_pos h,
        symbols_cons_other (isSymbol_of_isBlank (isBlank_of_isSpace h))]
      exact ih
    | false => rw [skipSpace_other h]

theorem bracket_not_mem_intText (n : ℤ) : '[' ∉ intText n := by
  have hnone : digitValue? '[' = none := by decide +kernel
  have hdigits : '[' ∉ digitsOf n.natAbs := by
    obtain ⟨ds, hds, -⟩ := digits_digitsOf n.natAbs
    exact hds.not_mem hnone
  unfold intText
  split
  · exact List.not_mem_cons_of_ne_of_not_mem (by decide) hdigits
  · exact hdigits

theorem bracket_not_mem_chars (x : Binary64) : '[' ∉ x.chars := by
  cases hx : x.isFinite with
  | false =>
    unfold Binary64.chars
    rw [hx]
    cases x.isNaN <;> cases x.negative <;> simp
  | true =>
    have hsign : Number.SignText (if x.negative then ['-'] else []) x.negative := by
      cases x.negative
      · exact .bare
      · exact .minus
    rw [Binary64.chars_of_finite hx]
    by_cases hz : x.significand = 0
    · rw [if_pos hz]
      cases x.negative <;> decide
    · rw [if_neg hz]
      obtain ⟨d, hnumeral, -⟩ := Binary64.pointText_text hsign x.shortest.1 x.shortest.2
      have hdigit : ∀ c v, digitValue? c = some v → c ≠ '[' := by
        rintro c v hv rfl
        have hnone : digitValue? '[' = none := by decide +kernel
        cases hnone.symm.trans hv
      exact fun h => Number.numeral_forall hdigit (by simp) hnumeral _ h rfl

theorem brackets_quoted (cs ds : List Char) : brackets (quoted cs ++ ds) = 0 := by
  unfold quoted
  have hquote : quoteFor cs = '"' ∨ quoteFor cs = '\'' := by
    unfold quoteFor
    split
    · exact .inl rfl
    · exact .inr rfl
  rcases hquote with h | h
  · rw [h]
    exact brackets_symbol (by decide) (by decide)
  · rw [h]
    exact brackets_symbol (by decide) (by decide)

theorem inner_list (j : Json) (js : List Json) : ∃ tail, (Json.arr (j :: js)).inner =
    '[' :: (j.inner ++ tail) ∧ ∀ ds, brackets (tail ++ ds) = 0 := by
  cases js with
  | nil =>
    refine ⟨[']'], ?_, fun ds => brackets_symbol (by decide) (by decide)⟩
    simp [inner, innerItems, bracketed]
  | cons j' js =>
    refine ⟨',' :: ' ' :: (List.intercalate [',', ' '] (innerItems (j' :: js)) ++ [']']), ?_,
      fun ds => brackets_symbol (by decide) (by decide)⟩
    simp [inner, innerItems, bracketed]

theorem brackets_inner_le {j : Json} {fuel : ℕ} {cs rest ds : List Char}
    (h : value fuel cs = .ok (j, rest)) (hds : brackets ds = 0) :
    brackets (j.inner ++ ds) ≤ brackets cs := by
  have hplain : '[' ∉ j.inner → brackets (j.inner ++ ds) ≤ brackets cs := fun hj =>
    (brackets_append hj hds).trans_le (Nat.zero_le _)
  -- Only a list has a bracket in front, and behind it stands its first item.
  cases value_eq_ok h with
  | @string text _ s _ => exact (brackets_quoted s.toList ds).trans_le (Nat.zero_le _)
  | empty => exact Nat.le_add_left 1 _
  | @list after _ _ fuel j js hfirst =>
    obtain ⟨tail, hinner, htail⟩ := inner_list j js
    rw [hinner, List.cons_append, List.append_assoc, brackets_bracket, brackets_bracket]
    have hle := brackets_inner_le hfirst (htail ds)
    rw [brackets, brackets, symbols_skipSpace] at hle
    exact Nat.succ_le_succ hle
  | record => exact (brackets_symbol (by decide) (by decide)).trans_le (Nat.zero_le _)
  | null => exact hplain (by simp [inner])
  | @bool _ _ b => exact hplain (by cases b <;> simp [inner])
  | @int _ _ n => exact hplain (bracket_not_mem_intText n)
  | @double _ _ x => exact hplain (bracket_not_mem_chars x)
termination_by sizeOf j

theorem ofText_eq_ok {text : String} (h : ofText text = .ok j) : ∃ before cs after,
    text.toList = before ++ cs ∧ Spaces before ∧ Spaces after ∧ Opening cs j after := by
  unfold ofText ofChars at h
  cases hwhole : wholeValue text.toList with
  | error e =>
    rw [hwhole] at h
    cases e <;> cases h
  | ok j' =>
    rw [hwhole] at h
    cases h
    unfold wholeValue at hwhole
    split at hwhole
    · cases hwhole
    next j' after hvalue =>
    split at hwhole
    · next hend =>
      cases hwhole
      refine ⟨text.toList.takeWhile isSpace, skipSpace text.toList, after, ?_, ?_, ?_,
        value_eq_ok hvalue⟩
      · exact (List.takeWhile_append_dropWhile ..).symm
      · exact fun c hc => List.mem_takeWhile_imp hc
      · exact List.dropWhile_eq_nil_iff.mp hend
    · cases hwhole

end BomEngine.Json
