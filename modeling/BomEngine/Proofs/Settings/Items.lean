import BomEngine.Settings
import BomEngine.Proofs.Text.Symbols

/-!
# Items between commas

A text of items with commas between them, blanks around the items and empty items among them, has
these items, trimmed and in order. All its symbols but the commas are symbols of its items.
-/

set_option autoImplicit false

namespace BomEngine.Settings
open Text

/-- Pieces of a text and the items in them: an item has a piece to itself, but for blanks around it,
and other pieces are blank. -/
inductive Pieces : List (List Char) → List String → Prop
  | nil : Pieces [] []
  | blank {piece : List Char} {pieces : List (List Char)} {items : List String} :
      (∀ c ∈ piece, isBlank c = true) → Pieces pieces items → Pieces (piece :: pieces) items
  | item {before after : List Char} {item : String} {pieces : List (List Char)}
      {items : List String} : (∀ c ∈ before, isBlank c = true) → (∀ c ∈ after, isBlank c = true) →
      Pieces pieces items →
      Pieces ((before ++ (item.toList ++ after)) :: pieces) (item :: items)

/-- A text that joins items with commas. -/
def Joins (text : String) (items : List String) : Prop :=
  ∃ pieces, text.toList = [','].intercalate pieces ∧ Pieces pieces items

/-- What can be an item: it has no comma, and is not blank. -/
def IsItem (item : String) : Prop := ',' ∉ item.toList ∧ trim item ≠ ""

instance : DecidablePred IsItem := fun item =>
  inferInstanceAs (Decidable (',' ∉ item.toList ∧ trim item ≠ ""))

variable {text : String} {items : List String} {pieces : List (List Char)} {cs : List Char}

theorem splitCommas_eq_splitOn (cs : List Char) : splitCommas cs = cs.splitOn ',' := by
  unfold List.splitOn
  induction cs with
  | nil => rfl
  | cons c cs ih =>
    rw [List.splitOnP_cons_eq_if_modifyHead, splitCommas, ih]
    cases h : cs.splitOnP (· == ',') with
    | nil => exact absurd h (List.splitOnP_ne_nil _ _)
    | cons piece pieces =>
      by_cases hc : c = ','
      · rw [if_pos (by simpa using hc)]
        exact if_pos hc
      · rw [if_neg (by simpa using hc)]
        exact if_neg hc

theorem trimBoth_blank (h : ∀ c ∈ cs, isBlank c = true) : trimBoth isBlank cs = [] := by
  rw [trimBoth, List.dropWhile_eq_nil_iff.mpr h]
  rfl

theorem trimBoth_padded {before after : List Char} (hbefore : ∀ c ∈ before, isBlank c = true)
    (hafter : ∀ c ∈ after, isBlank c = true) (cs : List Char) :
    trimBoth isBlank (before ++ (cs ++ after)) = trimBoth isBlank cs := by
  have hreverse : ∀ c ∈ after.reverse, isBlank c = true :=
    fun c hc => hafter c (List.mem_reverse.mp hc)
  rw [trimBoth, trimBoth, List.dropWhile_append_of_pos hbefore, List.dropWhile_append]
  split
  · next h =>
    rw [List.isEmpty_iff.mp h, List.dropWhile_eq_nil_iff.mpr hafter]
  · rw [List.reverse_append, List.dropWhile_append_of_pos hreverse]

theorem comma_not_blank : isBlank ',' = false := by decide

theorem comma_not_mem_blank (h : ∀ c ∈ cs, isBlank c = true) : ',' ∉ cs := fun hmem =>
  Bool.false_ne_true (comma_not_blank.symm.trans (h _ hmem))

theorem comma_not_mem_pieces (h : Pieces pieces items) (hitems : ∀ t ∈ items, IsItem t) :
    ∀ piece ∈ pieces, ',' ∉ piece := by
  induction h with
  | nil => exact nofun
  | blank hblank _ ih => exact List.forall_mem_cons.mpr ⟨comma_not_mem_blank hblank, ih hitems⟩
  | item hbefore hafter _ ih =>
    obtain ⟨hitem, hitems⟩ := List.forall_mem_cons.mp hitems
    refine List.forall_mem_cons.mpr ⟨?_, ih hitems⟩
    simp only [List.mem_append, not_or]
    exact ⟨comma_not_mem_blank hbefore, hitem.1, comma_not_mem_blank hafter⟩

theorem items_pieces (h : Pieces pieces items) (hitems : ∀ t ∈ items, IsItem t) :
    (pieces.map fun p => String.ofList (trimBoth isBlank p)).filter (fun i => !i.isEmpty) =
      items.map trim := by
  induction h with
  | nil => rfl
  | blank hblank _ ih =>
    rw [List.map_cons, trimBoth_blank hblank, List.filter_cons_of_neg (by decide)]
    exact ih hitems
  | @item _ _ item _ _ hbefore hafter _ ih =>
    obtain ⟨hitem, hitems⟩ := List.forall_mem_cons.mp hitems
    have hshown : (!(trim item).isEmpty) = true := by
      rw [Bool.not_eq_true', Bool.eq_false_iff, Ne, String.isEmpty_iff]
      exact hitem.2
    rw [List.map_cons, trimBoth_padded hbefore hafter, ← trim, List.filter_cons, if_pos hshown,
      ih hitems, List.map_cons]

theorem commaItems_joins (h : Joins text items) (hitems : ∀ t ∈ items, IsItem t)
    (hne : items ≠ []) : commaItems text = items.map trim := by
  obtain ⟨pieces, htext, hpieces⟩ := h
  have hsome : pieces ≠ [] := by
    rintro rfl
    cases hpieces
    exact hne rfl
  rw [commaItems, splitCommas_eq_splitOn, htext,
    List.splitOn_intercalate ',' (comma_not_mem_pieces hpieces hitems) hsome]
  exact items_pieces hpieces hitems

theorem trimBoth_split (cs : List Char) : ∃ before after, (∀ c ∈ before, isBlank c = true) ∧
    (∀ c ∈ after, isBlank c = true) ∧ cs = before ++ (trimBoth isBlank cs ++ after) := by
  refine ⟨cs.takeWhile isBlank, ((cs.dropWhile isBlank).reverse.takeWhile isBlank).reverse,
    fun c hc => List.mem_takeWhile_imp hc,
    fun c hc => List.mem_takeWhile_imp (List.mem_reverse.mp hc), ?_⟩
  rw [trimBoth, ← List.reverse_append, List.takeWhile_append_dropWhile, List.reverse_reverse,
    List.takeWhile_append_dropWhile]

theorem pieces_items (pieces : List (List Char)) : Pieces pieces
    ((pieces.map fun p => String.ofList (trimBoth isBlank p)).filter fun i => !i.isEmpty) := by
  induction pieces with
  | nil => exact .nil
  | cons piece pieces ih =>
    obtain ⟨before, after, hbefore, hafter, hpiece⟩ := trimBoth_split piece
    rw [List.map_cons, List.filter_cons]
    split
    · rw [← String.toList_ofList (l := trimBoth isBlank piece)] at hpiece
      have hitem := @Pieces.item _ _ (String.ofList (trimBoth isBlank piece)) _ _ hbefore hafter ih
      rwa [← hpiece] at hitem
    · next hempty =>
      have hnil : trimBoth isBlank piece = [] := by simpa using hempty
      apply Pieces.blank _ ih
      rw [hpiece, hnil, List.nil_append]
      exact List.forall_mem_append.mpr ⟨hbefore, hafter⟩

theorem joins_commaItems (text : String) : Joins text (commaItems text) :=
  ⟨splitCommas text.toList, by rw [splitCommas_eq_splitOn, List.intercalate_splitOn],
    pieces_items _⟩

theorem isSymbol_comma : isSymbol ',' = true := by decide

def marks (cs : List Char) : List Char := (symbols cs).filter (· ≠ ',')

theorem marks_append (cs ds : List Char) : marks (cs ++ ds) = marks cs ++ marks ds := by
  rw [marks, symbols_append, List.filter_append]
  rfl

theorem marks_cons (c : Char) (cs : List Char) : marks (c :: cs) = marks [c] ++ marks cs :=
  marks_append [c] cs

theorem marks_splitCommas (cs : List Char) : (splitCommas cs).flatMap marks = marks cs := by
  induction cs with
  | nil => rfl
  | cons c cs ih =>
    rw [marks_cons, ← ih, splitCommas]
    cases splitCommas cs with
    | nil => rfl
    | cons piece pieces =>
      by_cases hc : c = ','
      · rw [hc]
        rfl
      · dsimp only
        rw [if_neg hc, List.flatMap_cons, List.flatMap_cons, marks_cons, List.append_assoc]

theorem marks_commaItems (text : String) :
    (commaItems text).flatMap (fun item => marks item.toList) = marks text.toList := by
  rw [← marks_splitCommas, commaItems]
  induction splitCommas text.toList with
  | nil => rfl
  | cons piece pieces ih =>
    have htrim : marks (trimBoth isBlank piece) = marks piece := by
      rw [marks, marks, symbols_trimBoth]
    rw [List.flatMap_cons, ← ih, ← htrim, List.map_cons, List.filter_cons]
    split
    · rw [List.flatMap_cons, String.toList_ofList]
    · next hempty =>
      have hnil : trimBoth isBlank piece = [] := by simpa using hempty
      rw [hnil]
      rfl

theorem splitCommas_first (cs : List Char) :
    ∃ pieces, splitCommas cs = cs.takeWhile (· ≠ ',') :: pieces := by
  induction cs with
  | nil => exact ⟨[], rfl⟩
  | cons c cs ih =>
    obtain ⟨pieces, hpieces⟩ := ih
    rw [splitCommas, hpieces]
    by_cases hc : c = ','
    · rw [hc]
      exact ⟨_, rfl⟩
    · refine ⟨pieces, ?_⟩
      dsimp only
      rw [if_neg hc, List.takeWhile_cons_of_pos (by simpa using hc)]

theorem symbols_takeWhile (cs : List Char) :
    symbols (cs.takeWhile (· ≠ ',')) = (symbols cs).takeWhile (· ≠ ',') := by
  induction cs with
  | nil => rfl
  | cons c cs ih =>
    by_cases hc : c = ','
    · rw [hc]
      rfl
    · rw [List.takeWhile_cons_of_pos (by simpa using hc)]
      cases h : isSymbol c with
      | true =>
        rw [symbols_cons h, symbols_cons h, ih, List.takeWhile_cons_of_pos (by simpa using hc)]
      | false => rw [symbols_cons_other h, symbols_cons_other h, ih]

theorem commaItems_first {c : Char} {rest : List Char} (h : symbols text.toList = c :: rest)
    (hc : c ≠ ',') : ∃ first others, commaItems text = first :: others ∧
      symbols first.toList = (symbols text.toList).takeWhile (· ≠ ',') := by
  obtain ⟨pieces, hpieces⟩ := splitCommas_first text.toList
  have hsymbols := (symbols_trimBoth _).trans (symbols_takeWhile text.toList)
  have hshown : trimBoth isBlank (text.toList.takeWhile (· ≠ ',')) ≠ [] := by
    intro hnil
    rw [hnil, h, List.takeWhile_cons_of_pos (by simpa using hc)] at hsymbols
    cases hsymbols
  rw [commaItems, hpieces, List.map_cons, List.filter_cons_of_pos (by simpa using hshown)]
  exact ⟨_, _, rfl, by rw [String.toList_ofList, hsymbols]⟩

end BomEngine.Settings
