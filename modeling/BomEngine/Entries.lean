/-!
# Entries

Lists of names with values, in which every name has one place: a new name comes
last, and a new value for a known name takes the place of the old one.
-/

set_option autoImplicit false

namespace BomEngine

variable {κ α : Type} [DecidableEq κ]

/-- Sets an entry in its place, or at the end if it is new. -/
def putEntry (name : κ) (value : α) : List (κ × α) → List (κ × α)
  | [] => [(name, value)]
  | (k, v) :: rest => if k = name then (k, value) :: rest else (k, v) :: putEntry name value rest

def eraseEntry (name : κ) (entries : List (κ × α)) : List (κ × α) :=
  entries.filter fun e => e.1 ≠ name

def hasEntry (name : κ) (entries : List (κ × α)) : Bool := entries.any fun e => e.1 = name

theorem lookup_putEntry (name : κ) (value : α) (entries : List (κ × α)) :
    (putEntry name value entries).lookup name = some value := by
  induction entries with
  | nil => simp [putEntry]
  | cons e rest ih =>
    obtain ⟨k, v⟩ := e
    by_cases h : k = name
    · simp [putEntry, h]
    · have h' : (name == k) = false := by simpa using Ne.symm h
      simp [putEntry, h, List.lookup_cons, h', ih]

theorem lookup_putEntry_of_ne (name other : κ) (value : α) (entries : List (κ × α))
    (h : other ≠ name) : (putEntry name value entries).lookup other = entries.lookup other := by
  have h' : (other == name) = false := by simpa using h
  induction entries with
  | nil => simp [putEntry, List.lookup_cons, h']
  | cons e rest ih =>
    obtain ⟨k, v⟩ := e
    by_cases hk : k = name
    · subst hk
      simp [putEntry, List.lookup_cons, h']
    · simp [putEntry, hk, List.lookup_cons, ih]

theorem putEntry_of_new {name : κ} {entries : List (κ × α)} (h : name ∉ entries.map Prod.fst)
    (value : α) : putEntry name value entries = entries ++ [(name, value)] := by
  induction entries with
  | nil => rfl
  | cons e rest ih =>
    obtain ⟨k, v⟩ := e
    simp only [List.map_cons, List.mem_cons, not_or] at h
    rw [putEntry, if_neg (Ne.symm h.1), ih h.2]
    rfl

theorem keys_putEntry (name : κ) (value : α) (entries : List (κ × α)) :
    (putEntry name value entries).map Prod.fst =
      if name ∈ entries.map Prod.fst then entries.map Prod.fst
      else entries.map Prod.fst ++ [name] := by
  induction entries with
  | nil => rfl
  | cons e rest ih =>
    obtain ⟨k, v⟩ := e
    by_cases hk : k = name
    · simp [putEntry, hk]
    · have hk' : name ≠ k := Ne.symm hk
      rw [putEntry, if_neg hk, List.map_cons, ih]
      by_cases hm : name ∈ rest.map Prod.fst <;> simp [hk', hm]

theorem mem_putEntry {name : κ} {value : α} {entries : List (κ × α)} {e : κ × α}
    (h : e ∈ putEntry name value entries) : e = (name, value) ∨ e ∈ entries := by
  induction entries with
  | nil => simpa [putEntry] using h
  | cons first rest ih =>
    obtain ⟨k, v⟩ := first
    by_cases hk : k = name
    · rw [putEntry, if_pos hk] at h
      rcases List.mem_cons.mp h with rfl | h
      · exact .inl (by rw [hk])
      · exact .inr (List.mem_cons_of_mem _ h)
    · rw [putEntry, if_neg hk] at h
      rcases List.mem_cons.mp h with rfl | h
      · exact .inr (List.mem_cons_self ..)
      · exact (ih h).imp_right (List.mem_cons_of_mem _)

theorem nodup_putEntry {entries : List (κ × α)} (h : (entries.map Prod.fst).Nodup) (name : κ)
    (value : α) : ((putEntry name value entries).map Prod.fst).Nodup := by
  induction entries with
  | nil => simp [putEntry]
  | cons e rest ih =>
    obtain ⟨k, v⟩ := e
    simp only [List.map_cons, List.nodup_cons] at h
    by_cases hk : k = name
    · rw [putEntry, if_pos hk]
      simpa using h
    · rw [putEntry, if_neg hk, List.map_cons, List.nodup_cons]
      refine ⟨fun hm => ?_, ih h.2⟩
      obtain ⟨e, he, hek⟩ := List.mem_map.mp hm
      rcases mem_putEntry he with rfl | he
      · exact hk hek.symm
      · exact h.1 (List.mem_map.mpr ⟨e, he, hek⟩)

theorem mem_of_lookup {name : κ} {value : α} {entries : List (κ × α)}
    (h : entries.lookup name = some value) : (name, value) ∈ entries := by
  obtain ⟨before, after, rfl, -⟩ := List.lookup_eq_some_iff.mp h
  simp

theorem lookup_of_mem {entries : List (κ × α)} (h : (entries.map Prod.fst).Nodup) {e : κ × α}
    (he : e ∈ entries) : entries.lookup e.1 = some e.2 := by
  induction entries with
  | nil => cases he
  | cons first rest ih =>
    obtain ⟨k, v⟩ := first
    simp only [List.map_cons, List.nodup_cons] at h
    rcases List.mem_cons.mp he with rfl | he
    · simp
    · have hk : (e.1 == k) = false := by
        simp only [beq_eq_false_iff_ne]
        intro hek
        exact h.1 (List.mem_map.mpr ⟨e, he, hek⟩)
      rw [List.lookup_cons, hk]
      exact ih h.2 he

end BomEngine
