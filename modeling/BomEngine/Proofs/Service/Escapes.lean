import BomEngine.Proofs.Text.Utf8

/-!
# Escapes and what they stand for

A letter that is not safe is written as the escapes of its bytes, and the safe letters stay. The
escapes of a text without percent signs can be resolved again, so that no two such texts are
escaped alike. A text with percent signs may be escaped as another one is, since its own escapes
stay as they are.
-/

set_option autoImplicit false

namespace BomEngine.Service

open Text

theorem capital_digit : ∀ d < 16, Json.hexValue? (hexDigit d).toUpper = some d ∧
    pathSafe (hexDigit d).toUpper = true ∧ (hexDigit d).toUpper ∉ ['%', '?', '#', '/', '.'] := by
  decide

theorem escapedByte_eq (b : ℕ) :
    escapedByte b = ['%', (hexDigit (b / 16 % 16)).toUpper, (hexDigit (b % 16)).toUpper] := rfl

section Escape

variable {safe : Char → Bool} {c : Char} {cs : List Char}

theorem escape_append (cs ds : List Char) :
    escape safe (cs ++ ds) = escape safe cs ++ escape safe ds := List.flatMap_append

theorem escape_cons_safe (h : safe c = true) : escape safe (c :: cs) = c :: escape safe cs := by
  rw [escape, List.flatMap_cons, if_pos h]
  rfl

theorem escape_cons_written (h : safe c = false) :
    escape safe (c :: cs) = (utf8 c).flatMap escapedByte ++ escape safe cs := by
  rw [escape, List.flatMap_cons, if_neg (by simp [h])]
  rfl

theorem escape_of_safe (h : ∀ c ∈ cs, safe c = true) : escape safe cs = cs := by
  induction cs with
  | nil => rfl
  | cons c cs ih =>
    obtain ⟨hc, hcs⟩ := List.forall_mem_cons.mp h
    rw [escape_cons_safe hc, ih hcs]

theorem mem_escape (h : c ∈ escape safe cs) : (c ∈ cs ∧ safe c = true) ∨
    c = '%' ∨ ∃ d < 16, c = (hexDigit d).toUpper := by
  obtain ⟨x, hx, hc⟩ := List.mem_flatMap.mp h
  cases hsafe : safe x with
  | true =>
    rw [hsafe] at hc
    obtain rfl : c = x := by simpa using hc
    exact .inl ⟨hx, hsafe⟩
  | false =>
    rw [hsafe] at hc
    obtain ⟨b, -, hb⟩ := List.mem_flatMap.mp hc
    rw [escapedByte_eq] at hb
    simp only [List.mem_cons, List.not_mem_nil, or_false] at hb
    rcases hb with rfl | rfl | rfl
    · exact .inr (.inl rfl)
    · exact .inr (.inr ⟨_, Nat.mod_lt _ (by decide), rfl⟩)
    · exact .inr (.inr ⟨_, Nat.mod_lt _ (by decide), rfl⟩)

end Escape

theorem pathSafe_escape {c : Char} {cs : List Char} (h : c ∈ escape pathSafe cs) :
    pathSafe c = true := by
  rcases mem_escape h with ⟨-, h⟩ | rfl | ⟨d, hd, rfl⟩
  · exact h
  · decide
  · exact (capital_digit d hd).2.1

theorem mem_escape_sign {c : Char} {cs : List Char} (hc : c ∈ ['?', '#', '/', '.']) :
    c ∈ escape pathSafe cs ↔ c ∈ cs := by
  have hsafe : pathSafe c = true ∧ c ≠ '%' := by
    fin_cases hc <;> decide
  constructor
  · intro h
    rcases mem_escape h with ⟨h, -⟩ | h | ⟨d, hd, rfl⟩
    · exact h
    · exact absurd h hsafe.2
    · exact absurd (List.mem_cons_of_mem '%' hc) (capital_digit d hd).2.2
  · intro h
    refine List.mem_flatMap.mpr ⟨c, h, ?_⟩
    rw [if_pos hsafe.1]
    exact List.mem_singleton_self c

theorem escapedBytes_byte {b : ℕ} (hb : b < 256) (cs : List Char) :
    Http.escapedBytes (escapedByte b ++ cs) =
      (b :: (Http.escapedBytes cs).1, (Http.escapedBytes cs).2) := by
  have hhigh := (capital_digit (b / 16 % 16) (Nat.mod_lt _ (by decide))).1
  have hlow := (capital_digit (b % 16) (Nat.mod_lt _ (by decide))).1
  have hvalue : 16 * (b / 16 % 16) + b % 16 = b := by omega
  rw [escapedByte_eq]
  simp only [List.cons_append, List.nil_append, Http.escapedBytes, hhigh, hlow, hvalue]

theorem escapedBytes_plain {c : Char} (hc : c ≠ '%') (cs : List Char) :
    Http.escapedBytes (c :: cs) = ([], c :: cs) := by
  unfold Http.escapedBytes
  split
  · next h => exact absurd (List.cons.inj h).1 hc
  · rfl

theorem escapedBytes_bytes {bytes : List ℕ} (hb : ∀ b ∈ bytes, b < 256) (cs : List Char) :
    Http.escapedBytes (bytes.flatMap escapedByte ++ cs) =
      (bytes ++ (Http.escapedBytes cs).1, (Http.escapedBytes cs).2) := by
  induction bytes with
  | nil => rfl
  | cons b bytes ih =>
    obtain ⟨hb, hbytes⟩ := List.forall_mem_cons.mp hb
    rw [List.flatMap_cons, List.append_assoc, escapedBytes_byte hb, ih hbytes]
    rfl

section Unescape

variable {safe : Char → Bool}

theorem escapedBytes_escape {cs : List Char} (h : '%' ∉ cs) :
    Http.escapedBytes (escape safe cs) =
      ((cs.takeWhile fun c => !safe c).flatMap utf8,
        escape safe (cs.dropWhile fun c => !safe c)) := by
  induction cs with
  | nil => rfl
  | cons c cs ih =>
    obtain ⟨hc, hcs⟩ := not_or.mp (List.mem_cons.not.mp h)
    cases hsafe : safe c with
    | true =>
      rw [escape_cons_safe hsafe, escapedBytes_plain (Ne.symm hc),
        List.takeWhile_cons_of_neg (by simp [hsafe]), List.dropWhile_cons_of_neg (by simp [hsafe]),
        escape_cons_safe hsafe]
      rfl
    | false =>
      rw [escape_cons_written hsafe, escapedBytes_bytes (utf8_lt c), ih hcs,
        List.takeWhile_cons_of_pos (by simp [hsafe]), List.dropWhile_cons_of_pos (by simp [hsafe]),
        List.flatMap_cons]

theorem length_le_utf8 (cs : List Char) : cs.length ≤ (cs.flatMap utf8).length := by
  induction cs with
  | nil => exact le_rfl
  | cons c cs ih =>
    have := List.length_pos_iff.mpr (utf8_ne_nil c)
    rw [List.flatMap_cons, List.length_append, List.length_cons]
    omega

theorem length_le_escape (safe : Char → Bool) (cs : List Char) :
    cs.length ≤ (escape safe cs).length := by
  induction cs with
  | nil => exact le_rfl
  | cons c cs ih =>
    cases hsafe : safe c with
    | true =>
      rw [escape_cons_safe hsafe]
      simpa using ih
    | false =>
      obtain ⟨b, bs, hb⟩ := List.exists_cons_of_ne_nil (utf8_ne_nil c)
      rw [escape_cons_written hsafe, hb, List.flatMap_cons, escapedByte_eq]
      simp only [List.length_cons, List.length_append]
      omega

theorem unescapeFrom_bytes {x : Char} {xs rest : List Char} {bytes : List ℕ}
    (h : Http.escapedBytes (x :: xs) = (bytes, rest)) (hb : bytes ≠ []) (fuel : ℕ) :
    Http.unescapeFrom (fuel + 1) (x :: xs) =
      Http.lettersOf bytes.length bytes ++ Http.unescapeFrom fuel rest := by
  obtain ⟨b, bs, rfl⟩ := List.exists_cons_of_ne_nil hb
  rw [Http.unescapeFrom, h]

theorem unescapeFrom_escape {cs : List Char} (h : '%' ∉ cs) {fuel : ℕ}
    (hfuel : (escape safe cs).length ≤ fuel) : Http.unescapeFrom fuel (escape safe cs) = cs := by
  induction hn : cs.length using Nat.strong_induction_on generalizing cs fuel with
  | _ n ih =>
    subst hn
    cases cs with
    | nil => cases fuel <;> rfl
    | cons c cs =>
      obtain ⟨hc, hcs⟩ := not_or.mp (List.mem_cons.not.mp h)
      cases hsafe : safe c with
      | true =>
        rw [escape_cons_safe hsafe] at hfuel ⊢
        obtain ⟨fuel, rfl⟩ : ∃ k, fuel = k + 1 := ⟨fuel - 1, by simp at hfuel; omega⟩
        rw [Http.unescapeFrom, escapedBytes_plain (Ne.symm hc)]
        exact congrArg (c :: ·) (ih _ (by simp) hcs (by simpa using hfuel) rfl)
      | false =>
        have hrun : Http.escapedBytes (escape safe (c :: cs)) = _ := escapedBytes_escape h
        have hsplit := List.takeWhile_append_dropWhile (p := fun c => !safe c) (l := c :: cs)
        have htake := List.takeWhile_cons_of_pos (p := fun c => !safe c) (l := cs) (a := c)
          (by simp [hsafe])
        generalize (c :: cs).dropWhile (fun c => !safe c) = rest at hrun hsplit
        generalize (c :: cs).takeWhile (fun c => !safe c) = run at hrun hsplit htake
        have hone : 0 < run.length := by simp [htake]
        have hutf8 := length_le_utf8 run
        have hescape := length_le_escape safe run
        rw [← hsplit] at h ⊢
        rw [← hsplit, escape_append, List.length_append] at hfuel
        obtain ⟨fuel, rfl⟩ : ∃ k, fuel = k + 1 := ⟨fuel - 1, by omega⟩
        obtain ⟨x, xs, hxs⟩ : ∃ x xs, escape safe (run ++ rest) = x :: xs := by
          apply List.exists_cons_of_ne_nil
          rw [escape_append]
          exact List.append_ne_nil_of_left_ne_nil (List.ne_nil_of_length_pos (by omega)) _
        have hrest : Http.unescapeFrom fuel (escape safe rest) = rest :=
          ih rest.length (by rw [← hsplit, List.length_append]; omega)
            (fun hr => h (List.mem_append_right run hr)) (by omega) rfl
        rw [← hsplit] at hrun
        rw [hxs] at hrun ⊢
        rw [unescapeFrom_bytes hrun (List.ne_nil_of_length_pos (by omega)),
          lettersOf_utf8 run hutf8, hrest]

/-- A text without percent signs can be had back from its escaped form. -/
theorem unescape_escape (safe : Char → Bool) {cs : List Char} (h : '%' ∉ cs) :
    Http.unescape (escape safe cs) = cs := unescapeFrom_escape h le_rfl

end Unescape

end BomEngine.Service
