import BomEngine.Json.Printer
import BomEngine.Json.Reader
import Mathlib

/-!
# JSON texts of strings

The JSON texts of a string and of a list of strings, as a grammar: letters stand for themselves or
are escaped, and blanks may stand between the parts. The reader reads the value off every such text,
and what the printer writes is one of them.
-/

set_option autoImplicit false

namespace BomEngine.Json
open Text

inductive UnitText : List Char → ℕ → Prop
  | mk {a b c d : Char} {w x y z : ℕ} : hexValue? a = some w → hexValue? b = some x →
      hexValue? c = some y → hexValue? d = some z →
      UnitText [a, b, c, d] (((w * 16 + x) * 16 + y) * 16 + z)

/-- The ways to write a letter of a string. One of more than 16 bits has two numbers. -/
inductive LetterText : List Char → Char → Prop
  | plain {c : Char} : 32 ≤ c.toNat → c ≠ '"' → c ≠ '\\' → LetterText [c] c
  | named {c d : Char} : simpleEscape? c = some d → LetterText ['\\', c] d
  | numbered {u : List Char} {n : ℕ} : UnitText u n → n < 0xd800 ∨ 0xe000 ≤ n →
      LetterText ('\\' :: 'u' :: u) (Char.ofNat n)
  | paired {u v : List Char} {n m : ℕ} : UnitText u n → 0xd800 ≤ n → n < 0xdc00 →
      UnitText v m → 0xdc00 ≤ m → m < 0xe000 →
      LetterText ('\\' :: 'u' :: (u ++ '\\' :: 'u' :: v))
        (Char.ofNat (0x10000 + (n - 0xd800) * 0x400 + (m - 0xdc00)))

inductive LettersText : List Char → List Char → Prop
  | nil : LettersText [] []
  | cons {cs ds s : List Char} {c : Char} : LetterText cs c → LettersText ds s →
      LettersText (cs ++ ds) (c :: s)

inductive StringText : List Char → String → Prop
  | mk {cs : List Char} {s : String} : LettersText cs s.toList → StringText ('"' :: (cs ++ ['"'])) s

def Spaces (cs : List Char) : Prop := ∀ c ∈ cs, isSpace c = true

inductive ItemsText : List Char → List String → Prop
  | last {cs after : List Char} {s : String} : StringText cs s → Spaces after →
      ItemsText (cs ++ (after ++ [']'])) [s]
  | more {cs after before ds : List Char} {s : String} {ss : List String} : StringText cs s →
      Spaces after → Spaces before → ItemsText ds ss →
      ItemsText (cs ++ (after ++ ',' :: (before ++ ds))) (s :: ss)

inductive ValueText : List Char → Json → Prop
  | string {cs : List Char} {s : String} : StringText cs s → ValueText cs (.str s)
  | empty {inside : List Char} : Spaces inside → ValueText ('[' :: (inside ++ [']'])) (strs [])
  | list {before cs : List Char} {ss : List String} : Spaces before → ItemsText cs ss →
      ValueText ('[' :: (before ++ cs)) (strs ss)

def Spells (text : String) (j : Json) : Prop :=
  ∃ before cs after, text.toList = before ++ (cs ++ after) ∧ Spaces before ∧ ValueText cs j ∧
    Spaces after

variable {cs u v after rest : List Char} {c : Char} {s : String} {ss : List String} {n m : ℕ}

theorem skipSpace_spaces (h : Spaces cs) (rest : List Char) :
    skipSpace (cs ++ rest) = skipSpace rest := List.dropWhile_append_of_pos h

theorem skipSpace_other (h : isSpace c = false) : skipSpace (c :: rest) = c :: rest :=
  List.dropWhile_cons_of_neg (Bool.eq_false_iff.mp h)

theorem unit_text (h : UnitText u n) : unit (u ++ c :: rest) = .ok (n, c :: rest) := by
  obtain ⟨ha, hb, hc, hd⟩ := h
  simp only [unit, List.cons_append, List.nil_append, ha, hb, hc, hd]

theorem numbered_text (h : UnitText u n) (hn : n < 0xd800 ∨ 0xe000 ≤ n) :
    numbered (u ++ c :: rest) = .ok (Char.ofNat n, c :: rest) := by
  rw [numbered, unit_text h]
  dsimp only
  rw [if_neg (by omega), if_neg (by omega)]

theorem numbered_pair (hu : UnitText u n) (hlow : 0xd800 ≤ n) (hhigh : n < 0xdc00)
    (hv : UnitText v m) (hlow' : 0xdc00 ≤ m) (hhigh' : m < 0xe000) :
    numbered (u ++ '\\' :: 'u' :: (v ++ c :: rest)) =
      .ok (Char.ofNat (0x10000 + (n - 0xd800) * 0x400 + (m - 0xdc00)), c :: rest) := by
  have hlong : 6 < ('\\' :: 'u' :: (v ++ c :: rest)).length := by
    obtain ⟨⟩ := hv
    simp
  rw [numbered, unit_text hu]
  dsimp only
  rw [if_pos ⟨hlow, hhigh, hlong⟩]
  simp only [unit_text hv]
  rw [if_pos ⟨hlow', hhigh'⟩]

theorem stringFrom_letter (h : LetterText cs c) (opening fuel : ℕ) (done : List Char) (d : Char) :
    stringFrom opening (fuel + 1) done (cs ++ d :: rest) =
      stringFrom opening fuel (c :: done) (d :: rest) := by
  cases h with
  | plain hc hquote hslash =>
    rw [List.singleton_append, stringFrom, if_neg (by omega)]
    · exact hquote
    · exact hslash
  | @named e _ hc =>
    have hu : e ≠ 'u' := by
      rintro rfl
      cases hc
    rw [List.cons_append, List.singleton_append, stringFrom, hc]
    exact hu
  | numbered hu hn =>
    rw [List.cons_append, List.cons_append, stringFrom, numbered_text hu hn]
  | paired hu hlow hhigh hv hlow' hhigh' =>
    rw [List.cons_append, List.cons_append, List.append_assoc, List.cons_append, List.cons_append,
      stringFrom, numbered_pair hu hlow hhigh hv hlow' hhigh']

theorem stringFrom_letters {letters : List Char} (h : LettersText cs letters) (opening : ℕ)
    {fuel : ℕ} (hfuel : letters.length < fuel) (done : List Char) :
    stringFrom opening fuel done (cs ++ '"' :: rest) = .ok (done.reverse ++ letters, rest) := by
  induction h generalizing fuel done with
  | nil =>
    obtain ⟨fuel, rfl⟩ := Nat.exists_eq_succ_of_ne_zero (Nat.ne_zero_of_lt hfuel)
    rw [List.append_nil]
    rfl
  | @cons _ ds letters c hc hds ih =>
    obtain ⟨fuel, rfl⟩ := Nat.exists_eq_succ_of_ne_zero (Nat.ne_zero_of_lt hfuel)
    obtain ⟨d, tail, htail⟩ := List.exists_cons_of_ne_nil
      (List.append_ne_nil_of_right_ne_nil ds (List.cons_ne_nil '"' rest))
    rw [List.append_assoc, htail, stringFrom_letter hc, ← htail,
      ih (Nat.lt_of_succ_lt_succ hfuel), List.reverse_cons, List.append_assoc]
    rfl

theorem letterText_ne_nil (h : LetterText cs c) : cs ≠ [] := by
  cases h <;> exact List.cons_ne_nil _ _

theorem length_le_lettersText {letters : List Char} (h : LettersText cs letters) :
    letters.length ≤ cs.length := by
  induction h with
  | nil => exact le_rfl
  | cons hc _ ih =>
    have hpos := List.length_pos_of_ne_nil (letterText_ne_nil hc)
    rw [List.length_append, List.length_cons]
    omega

theorem value_string (h : StringText cs s) {fuel : ℕ} (hfuel : fuel ≠ 0) :
    value fuel (cs ++ rest) = .ok (.str s, rest) := by
  obtain ⟨fuel, rfl⟩ := Nat.exists_eq_succ_of_ne_zero hfuel
  cases h with
  | @mk cs _ h =>
    have hlength : s.toList.length < (cs ++ '"' :: rest).length + 1 := by
      have hle := length_le_lettersText h
      rw [List.length_append]
      omega
    rw [List.cons_append, List.append_assoc, List.singleton_append, value, string,
      stringFrom_letters h _ hlength, List.reverse_nil, List.nil_append]
    show Except.ok (Json.str (String.ofList s.toList), rest) = _
    rw [String.ofList_toList]

theorem itemsText_head (h : ItemsText cs ss) : ∃ tail, cs = '"' :: tail := by
  cases h with
  | last hs _ =>
    cases hs
    exact ⟨_, rfl⟩
  | more hs _ _ _ =>
    cases hs
    exact ⟨_, rfl⟩

theorem items_text (h : ItemsText cs ss) {fuel : ℕ} (hfuel : ss.length < fuel) :
    items fuel (cs ++ rest) = .ok (ss.map .str, rest) := by
  induction h generalizing fuel with
  | last hs hafter =>
    obtain ⟨fuel, rfl⟩ := Nat.exists_eq_succ_of_ne_zero (Nat.ne_zero_of_lt hfuel)
    have hvalue : fuel ≠ 0 := (Nat.lt_of_succ_lt_succ hfuel).ne'
    rw [List.append_assoc, List.append_assoc, items, value_string hs hvalue]
    dsimp only
    rw [skipSpace_spaces hafter, List.singleton_append, skipSpace_other (by decide)]
    rfl
  | @more _ after before ds s ss hs hafter hbefore hds ih =>
    obtain ⟨fuel, rfl⟩ := Nat.exists_eq_succ_of_ne_zero (Nat.ne_zero_of_lt hfuel)
    have hitems := ih (Nat.lt_of_succ_lt_succ hfuel)
    have hvalue : fuel ≠ 0 := Nat.ne_zero_of_lt (Nat.lt_of_succ_lt_succ hfuel)
    rw [List.append_assoc, List.append_assoc, items, value_string hs hvalue]
    dsimp only
    obtain ⟨tail, rfl⟩ := itemsText_head hds
    rw [skipSpace_spaces hafter, List.cons_append, skipSpace_other (by decide)]
    show Except.map _ (items fuel (skipSpace ((before ++ '"' :: tail) ++ rest))) = _
    rw [List.append_assoc, skipSpace_spaces hbefore, List.cons_append, skipSpace_other (by decide),
      ← List.cons_append, hitems]
    rfl

theorem length_lt_itemsText (h : ItemsText cs ss) : ss.length < cs.length := by
  induction h with
  | @last cs after s hs _ =>
    cases hs
    simp
  | more hs _ _ _ ih =>
    cases hs
    simp only [List.length_append, List.length_cons]
    omega

variable {j : Json}

theorem value_text (h : ValueText cs j) {fuel : ℕ} (hfuel : cs.length < fuel) :
    value fuel (cs ++ rest) = .ok (j, rest) := by
  obtain ⟨fuel, rfl⟩ := Nat.exists_eq_succ_of_ne_zero (Nat.ne_zero_of_lt hfuel)
  cases h with
  | string hs => exact value_string hs (Nat.succ_ne_zero fuel)
  | empty hinside =>
    rw [List.cons_append, List.append_assoc, value, skipSpace_spaces hinside, List.singleton_append,
      skipSpace_other (by decide)]
    rfl
  | @list before cs ss hbefore hitems =>
    have hlength := length_lt_itemsText hitems
    have hitemsFuel : ss.length < fuel := by
      simp only [List.length_cons, List.length_append] at hfuel
      omega
    obtain ⟨tail, rfl⟩ := itemsText_head hitems
    rw [List.cons_append, List.append_assoc, value, skipSpace_spaces hbefore, List.cons_append,
      skipSpace_other (by decide)]
    show Except.map _ (items fuel (('"' :: tail) ++ rest)) = _
    rw [items_text hitems hitemsFuel]
    rfl

theorem skipSpace_value (h : ValueText cs j) : skipSpace (cs ++ rest) = cs ++ rest := by
  cases h with
  | string hs =>
    cases hs
    exact skipSpace_other (by decide)
  | empty _ => exact skipSpace_other (by decide)
  | list _ _ => exact skipSpace_other (by decide)

/-- The reader reads the value off every text that spells it. -/
theorem ofText_spells {text : String} (h : Spells text j) : ofText text = .ok j := by
  obtain ⟨before, cs, after, htext, hbefore, hvalue, hafter⟩ := h
  have hfuel : cs.length < 2 * (before ++ (cs ++ after)).length + 1 := by
    simp only [List.length_append]
    omega
  have hend : skipSpace after = [] := List.dropWhile_eq_nil_iff.mpr hafter
  rw [ofText, ofChars, wholeValue, htext, skipSpace_spaces hbefore, skipSpace_value hvalue,
    value_text hvalue hfuel]
  dsimp only
  rw [hend]
  rfl

theorem spaces_nil : Spaces [] := nofun

theorem unitText_hexOf (hn : n < 0x10000) : UnitText (hexOf 4 n) n := by
  have hdigit : ∀ d < 16, hexValue? (hexDigit d) = some d := by decide
  have hvalue : ((n / 16 / 16 / 16 % 16 * 16 + n / 16 / 16 % 16) * 16 + n / 16 % 16) * 16 + n % 16 = n := by
    omega
  have htext := UnitText.mk (hdigit (n / 16 / 16 / 16 % 16) (Nat.mod_lt _ (by decide)))
    (hdigit (n / 16 / 16 % 16) (Nat.mod_lt _ (by decide)))
    (hdigit (n / 16 % 16) (Nat.mod_lt _ (by decide))) (hdigit (n % 16) (Nat.mod_lt _ (by decide)))
  rw [hvalue] at htext
  exact htext

theorem letterText_numberEscape (c : Char) : LetterText (numberEscape c.toNat) c := by
  have hc : c.toNat < 0xd800 ∨ 0xdfff < c.toNat ∧ c.toNat < 0x110000 := c.valid
  unfold numberEscape
  split
  · next hshort =>
    have htext := LetterText.numbered (unitText_hexOf hshort) (by omega)
    rwa [Char.ofNat_toNat] at htext
  · next hlong =>
    have hhigh : 0xd800 + (c.toNat - 0x10000) / 0x400 < 0xdc00 := by omega
    have hlow : 0xdc00 + (c.toNat - 0x10000) % 0x400 < 0xe000 := by omega
    have htext := LetterText.paired (unitText_hexOf (hhigh.trans (by decide))) (Nat.le_add_right _ _)
      hhigh (unitText_hexOf (hlow.trans (by decide))) (Nat.le_add_right _ _) hlow
    have hvalue : 0x10000 + (0xd800 + (c.toNat - 0x10000) / 0x400 - 0xd800) * 0x400 +
        (0xdc00 + (c.toNat - 0x10000) % 0x400 - 0xdc00) = c.toNat := by omega
    rw [hvalue, Char.ofNat_toNat] at htext
    exact htext

theorem letterText_escapedChar (c : Char) : LetterText (escapedChar c) c := by
  have hnamed : ∀ {e d : Char}, c = d → simpleEscape? e = some d → LetterText ['\\', e] c :=
    fun hc he => hc ▸ .named he
  unfold escapedChar
  split_ifs with hquote hslash hline hreturn htab hback hfeed hshown
  · exact hnamed hquote rfl
  · exact hnamed hslash rfl
  · exact hnamed hline rfl
  · exact hnamed hreturn rfl
  · exact hnamed htab rfl
  · exact hnamed hback rfl
  · exact hnamed hfeed rfl
  · exact .plain hshown.1 hquote hslash
  · exact letterText_numberEscape c

theorem lettersText_escaped (cs : List Char) : LettersText (cs.flatMap escapedChar) cs := by
  induction cs with
  | nil => exact .nil
  | cons c cs ih => exact .cons (letterText_escapedChar c) ih

theorem stringText_write (s : String) : StringText (writeString s) s := .mk (lettersText_escaped _)

theorem itemsText_write (s : String) (ss : List String) :
    ItemsText (List.intercalate [',', ' '] (writeItems ((s :: ss).map .str)) ++ [']']) (s :: ss) := by
  induction ss generalizing s with
  | nil =>
    have htext := ItemsText.last (stringText_write s) spaces_nil
    simpa [writeItems, write] using htext
  | cons t ss ih =>
    have hblank : Spaces [' '] := by simp [Spaces, isSpace]
    have htext := ItemsText.more (stringText_write s) spaces_nil hblank (ih t)
    simpa [writeItems, write] using htext

theorem valueText_write (ss : List String) : ValueText (write (strs ss)) (strs ss) := by
  cases ss with
  | nil => exact .empty spaces_nil
  | cons s ss => exact @ValueText.list [] _ _ spaces_nil (itemsText_write s ss)

theorem spells_of_valueText (h : ValueText (write j) j) : Spells j.text j := by
  refine ⟨[], write j, [], ?_, spaces_nil, h, spaces_nil⟩
  rw [text, String.toList_ofList, List.nil_append, List.append_nil]

theorem spells_strs (ss : List String) : Spells (strs ss).text (strs ss) :=
  spells_of_valueText (valueText_write ss)

theorem spells_str (s : String) : Spells (Json.str s).text (.str s) :=
  spells_of_valueText (.string (stringText_write s))

end BomEngine.Json
