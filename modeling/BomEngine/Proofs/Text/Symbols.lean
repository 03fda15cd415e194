import BomEngine.Text.Casing
import BomEngine.Proofs.Text.Digits

/-!
# Symbols of a text

The symbols of a text are its digits and punctuation of ASCII, in order. Blanks are none, so that
trimming keeps the symbols, and upper and lower case only change letters, so that they keep them too.
-/

set_option autoImplicit false

namespace BomEngine.Text

/-- A sign of ASCII that is neither a letter nor blank. -/
def isSymbol (c : Char) : Bool := 32 < c.toNat && c.toNat < 128 && !c.isAlpha

def symbols (cs : List Char) : List Char := cs.filter isSymbol

variable {c : Char} {cs : List Char}

theorem symbols_append (cs ds : List Char) : symbols (cs ++ ds) = symbols cs ++ symbols ds :=
  List.filter_append cs ds

theorem symbols_cons (h : isSymbol c = true) : symbols (c :: cs) = c :: symbols cs :=
  List.filter_cons_of_pos h

theorem symbols_cons_other (h : isSymbol c = false) : symbols (c :: cs) = symbols cs :=
  List.filter_cons_of_neg (Bool.eq_false_iff.mp h)

theorem symbols_eq_nil (h : ∀ c ∈ cs, isSymbol c = false) : symbols cs = [] :=
  List.filter_eq_nil_iff.mpr fun c hc => Bool.eq_false_iff.mp (h c hc)

theorem isSymbol_beyond (hc : 128 ≤ c.toNat) : isSymbol c = false := by
  unfold isSymbol
  rw [decide_eq_false (not_lt.mpr hc), Bool.and_false, Bool.false_and]

theorem isSymbol_of_isBlank (h : isBlank c = true) : isSymbol c = false := by
  by_cases hc : c.toNat < 128
  · exact forall_ascii (P := fun c => isBlank c = true → isSymbol c = false) (by decide +kernel) hc h
  · exact isSymbol_beyond (not_lt.mp hc)

theorem symbols_dropWhile (cs : List Char) : symbols (cs.dropWhile isBlank) = symbols cs := by
  induction cs with
  | nil => rfl
  | cons c cs ih =>
    cases h : isBlank c with
    | true => rw [List.dropWhile_cons_of_pos h, ih, symbols_cons_other (isSymbol_of_isBlank h)]
    | false => rw [List.dropWhile_cons_of_neg (Bool.eq_false_iff.mp h)]

theorem symbols_trimBoth (cs : List Char) : symbols (trimBoth isBlank cs) = symbols cs := by
  have hreverse : ∀ ds : List Char, symbols ds.reverse = (symbols ds).reverse :=
    fun ds => List.filter_reverse
  rw [trimBoth, hreverse, symbols_dropWhile, hreverse, List.reverse_reverse, symbols_dropWhile]

structure Lettered (rows : List CaseRow) (words : List (ℕ × List ℕ)) : Prop where
  rows : ∀ r ∈ rows, ∀ k < r.2.1 - r.1 + 1, 128 ≤ r.1 + k →
    isSymbol (Char.ofNat (r.2.2.2 + k)) = false
  words : ∀ w ∈ words, ∀ n ∈ w.2, isSymbol (Char.ofNat n) = false

theorem lettered_upper : Lettered upperRows upperWords := ⟨by decide +kernel, by decide +kernel⟩

theorem lettered_lower : Lettered lowerRows lowerWords := ⟨by decide +kernel, by decide +kernel⟩

theorem Lettered.symbols_caseImage {rows : List CaseRow} {words : List (ℕ × List ℕ)}
    (h : Lettered rows words) (hc : 128 ≤ c.toNat) : symbols (caseImage rows words c) = [] := by
  apply symbols_eq_nil
  unfold caseImage
  split
  · next ns hns =>
    obtain ⟨before, after, rfl, -⟩ := List.lookup_eq_some_iff.mp hns
    exact List.forall_mem_map.mpr (h.words (c.toNat, ns) (by simp))
  · split
    · next n hn =>
      obtain ⟨⟨lo, hi, step, target⟩, hr, himage⟩ := List.exists_of_findSome?_eq_some hn
      obtain ⟨⟨hlo, hhi, -⟩, himage⟩ := Option.ite_none_right_eq_some.mp himage
      have hn : target + (c.toNat - lo) = n := Option.some.inj himage
      have hrow := h.rows _ hr (c.toNat - lo)
      dsimp only at hlo hhi hrow
      rw [List.forall_mem_singleton, ← hn]
      exact hrow (by omega) (by omega)
    · exact List.forall_mem_singleton.mpr (isSymbol_beyond hc)

/-- A change of letters that keeps the symbols of ASCII and has such rows and words keeps the
symbols of all letters. -/
theorem Lettered.symbols_letter {rows : List CaseRow} {words : List (ℕ × List ℕ)}
    (h : Lettered rows words) {f : Char → Char}
    (hf : ∀ n < 128, symbols [f (Char.ofNat n)] = symbols [Char.ofNat n]) (c : Char) :
    symbols (if c.toNat < 128 then [f c] else caseImage rows words c) = symbols [c] := by
  split
  · next hc => exact forall_ascii (P := fun c => symbols [f c] = symbols [c]) hf hc
  · next hc =>
    have hwide := not_lt.mp hc
    rw [h.symbols_caseImage hwide, symbols_cons_other (isSymbol_beyond hwide)]
    rfl

theorem symbols_upperChar (c : Char) : symbols (upperChar c) = symbols [c] :=
  lettered_upper.symbols_letter (by decide +kernel) c

theorem symbols_lowerChar (c : Char) : symbols (lowerChar c) = symbols [c] :=
  lettered_lower.symbols_letter (by decide +kernel) c

theorem symbols_upper (s : String) : symbols (upper s).toList = symbols s.toList := by
  rw [upper, String.toList_ofList]
  induction s.toList with
  | nil => rfl
  | cons c cs ih =>
    rw [List.flatMap_cons, symbols_append, symbols_upperChar, ih, ← symbols_append]
    rfl

theorem symbols_lowerFrom (left cs : List Char) : symbols (lowerFrom left cs) = symbols cs := by
  induction cs generalizing left with
  | nil => rfl
  | cons c cs ih =>
    have himage : symbols (if c = capitalSigma then
        if meetsCased left && !meetsCased cs then [Char.ofNat 0x3c2] else [Char.ofNat 0x3c3]
        else lowerChar c) = symbols [c] := by
      split
      · next hc =>
        rw [hc]
        split <;> rfl
      · exact symbols_lowerChar c
    rw [lowerFrom, symbols_append, himage, ih, ← symbols_append]
    rfl

theorem symbols_lower (s : String) : symbols (lower s).toList = symbols s.toList := by
  rw [lower, String.toList_ofList, symbols_lowerFrom]

end BomEngine.Text
