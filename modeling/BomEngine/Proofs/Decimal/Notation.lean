import BomEngine.Decimal.Printer
import BomEngine.Decimal.Reader
import BomEngine.Proofs.Text.Digits

/-!
# The notation of decimals

Number texts as a grammar: a sign, digits of any script with at most one point, an exponent.
The reader takes exactly the texts of this grammar, and reads off them the decimal they denote. The
text that a decimal is printed as denotes that decimal, to the last digit.
-/

set_option autoImplicit false

namespace BomEngine

namespace Number
open Text

inductive SignText : List Char → Bool → Prop
  | bare : SignText [] false
  | plus : SignText ['+'] false
  | minus : SignText ['-'] true

inductive FractionText : List Char → List ℕ → Prop
  | none : FractionText [] []
  | point {cs : List Char} {ds : List ℕ} : Digits cs ds → FractionText ('.' :: cs) ds

inductive ExponentText : List Char → ℤ → Prop
  | none : ExponentText [] 0
  | mark {m : Char} {sign cs : List Char} {negative : Bool} {ds : List ℕ} :
      m = 'e' ∨ m = 'E' → SignText sign negative → Digits cs ds → ds ≠ [] →
      ExponentText (m :: (sign ++ cs)) (Decimal.signed negative (valueOf ds))

/-- Digits before the point and after it, at least one of them. -/
inductive NumeralText : List Char → Decimal → Prop
  | mk {sign whole fraction exponent : List Char} {negative : Bool} {ds fs : List ℕ} {e : ℤ} :
      SignText sign negative → Digits whole ds → FractionText fraction fs → ds ≠ [] ∨ fs ≠ [] →
      ExponentText exponent e →
      NumeralText (sign ++ (whole ++ (fraction ++ exponent)))
        ⟨negative, valueOf (ds ++ fs), e - fs.length⟩

/-- The decimal that a text spells: blanks at the ends and underscores do not count. -/
def Spells (s : String) (d : Decimal) : Prop :=
  NumeralText ((trimBoth isBlank s.toList).filter (· != '_')) d

/-- The decimal that a text denotes: the one it spells, if its exponent is one that a decimal can
have. -/
def Denotes (s : String) (d : Decimal) : Prop := Spells s d ∧ representable d = true

def Same (c p : Char) : Prop :=
  digitValue? c = digitValue? p ∧ (digitValue? c = Option.none → c = p)

variable {cs ps : List Char} {d : Decimal}

theorem Same.symm {c p : Char} (h : Same c p) : Same p c :=
  ⟨h.1.symm, fun hp => (h.2 (h.1.trans hp)).symm⟩

theorem same_symm (h : List.Forall₂ Same cs ps) : List.Forall₂ Same ps cs := by
  induction h with
  | nil => exact .nil
  | cons h _ ih => exact .cons h.symm ih

def Mark (c : Char) : Prop :=
  digitValue? c = Option.none ∧ c.toNat < 128 ∧ isBlank c = false ∧ c ≠ '_'

theorem mark_point : Mark '.' := by
  unfold Mark
  decide +kernel

theorem mark_sign {sign : List Char} {negative : Bool} (h : SignText sign negative) :
    ∀ c ∈ sign, Mark c := by
  cases h with
  | bare => exact nofun
  | plus => exact List.forall_mem_singleton.mpr (by unfold Mark; decide +kernel)
  | minus => exact List.forall_mem_singleton.mpr (by unfold Mark; decide +kernel)

theorem mark_exponent {c : Char} (h : c = 'e' ∨ c = 'E') : Mark c := by
  unfold Mark
  rcases h with rfl | rfl <;> decide +kernel

theorem Mark.same {c p : Char} (hc : Mark c) (h : Same c p) : p = c := (h.2 hc.1).symm

theorem marks_same (hcs : ∀ c ∈ cs, Mark c) (h : List.Forall₂ Same cs ps) : ps = cs := by
  induction h with
  | nil => rfl
  | cons h _ ih =>
    rw [(hcs _ List.mem_cons_self).same h, ih fun c hc => hcs c (List.mem_cons_of_mem _ hc)]

theorem digits_same {ds : List ℕ} (hcs : Digits cs ds) (h : List.Forall₂ Same cs ps) :
    Digits ps ds := by
  induction hcs generalizing ps with
  | nil =>
    cases h
    exact .nil
  | cons hc _ ih =>
    cases h with
    | cons hp h => exact .cons (hp.1.symm.trans hc) (ih h)

theorem fraction_same {ds : List ℕ} (hcs : FractionText cs ds) (h : List.Forall₂ Same cs ps) :
    FractionText ps ds := by
  cases hcs with
  | none =>
    cases h
    exact .none
  | point hds =>
    cases h with
    | cons hp h =>
      rw [mark_point.same hp]
      exact .point (digits_same hds h)

theorem same_append {xs ys : List Char} (h : List.Forall₂ Same (xs ++ ys) ps) :
    ∃ xs' ys', ps = xs' ++ ys' ∧ List.Forall₂ Same xs xs' ∧ List.Forall₂ Same ys ys' :=
  ⟨ps.take xs.length, ps.drop xs.length, (List.take_append_drop _ _).symm,
    same_symm (List.forall₂_take_append _ _ _ (same_symm h)),
    same_symm (List.forall₂_drop_append _ _ _ (same_symm h))⟩

theorem exponent_same {e : ℤ} (hcs : ExponentText cs e) (h : List.Forall₂ Same cs ps) :
    ExponentText ps e := by
  cases hcs with
  | none =>
    cases h
    exact .none
  | mark hmark hsign hds hne =>
    cases h with
    | cons hp h =>
      rw [(mark_exponent hmark).same hp]
      obtain ⟨sign', digits', rfl, hsign', hdigits'⟩ := same_append h
      rw [marks_same (mark_sign hsign) hsign']
      exact .mark hmark hsign (digits_same hds hdigits') hne

theorem numeral_same (hcs : NumeralText cs d) (h : List.Forall₂ Same cs ps) : NumeralText ps d := by
  obtain ⟨hsign, hwhole, hfraction, hne, hexponent⟩ := hcs
  obtain ⟨sign', rest', rfl, hsign', h⟩ := same_append h
  obtain ⟨whole', rest', rfl, hwhole', h⟩ := same_append h
  obtain ⟨fraction', exponent', rfl, hfraction', hexponent'⟩ := same_append h
  rw [marks_same (mark_sign hsign) hsign']
  exact .mk hsign (digits_same hwhole hwhole') (fraction_same hfraction hfraction') hne
    (exponent_same hexponent hexponent')

def Letter (c : Char) : Prop := (∃ v, digitValue? c = some v) ∨ Mark c

theorem numeral_forall {P : Char → Prop} (hdigit : ∀ c v, digitValue? c = some v → P c)
    (hmarks : ∀ c ∈ ['+', '-', '.', 'e', 'E'], P c) (h : NumeralText cs d) : ∀ c ∈ cs, P c := by
  have hdigits : ∀ {xs : List Char} {ds : List ℕ}, Digits xs ds → ∀ c ∈ xs, P c := by
    intro xs ds h
    induction h with
    | nil => exact nofun
    | cons hc _ ih => exact List.forall_mem_cons.mpr ⟨hdigit _ _ hc, ih⟩
  have hsigns : ∀ {xs : List Char} {negative : Bool}, SignText xs negative → ∀ c ∈ xs, P c := by
    intro xs negative h
    cases h with
    | bare => exact nofun
    | plus => exact List.forall_mem_singleton.mpr (hmarks _ (by simp))
    | minus => exact List.forall_mem_singleton.mpr (hmarks _ (by simp))
  obtain ⟨hsign, hwhole, hfraction, -, hexponent⟩ := h
  refine List.forall_mem_append.mpr ⟨hsigns hsign, ?_⟩
  refine List.forall_mem_append.mpr ⟨hdigits hwhole, List.forall_mem_append.mpr ⟨?_, ?_⟩⟩
  · cases hfraction with
    | none => exact nofun
    | point hds => exact List.forall_mem_cons.mpr ⟨hmarks _ (by simp), hdigits hds⟩
  · cases hexponent with
    | none => exact nofun
    | mark hmark hsign hds hne =>
      refine List.forall_mem_cons.mpr ⟨hmarks _ (by rcases hmark with rfl | rfl <;> simp), ?_⟩
      exact List.forall_mem_append.mpr ⟨hsigns hsign, hdigits hds⟩

theorem numeral_letters (h : NumeralText cs d) : ∀ c ∈ cs, Letter c := by
  have hmarks : ∀ c ∈ ['+', '-', '.', 'e', 'E'], Mark c := by
    simp only [List.forall_mem_cons]
    exact ⟨mark_sign .plus _ (List.mem_singleton_self _),
      mark_sign .minus _ (List.mem_singleton_self _), mark_point, mark_exponent (.inl rfl),
      mark_exponent (.inr rfl), nofun⟩
  exact numeral_forall (fun c v hv => .inl ⟨v, hv⟩) (fun c hc => .inr (hmarks c hc)) h

theorem Letter.nonblank {c : Char} (h : Letter c) : isBlank c = false ∧ c ≠ '_' := by
  rcases h with ⟨v, hv⟩ | hc
  · exact digit_nonblank hv
  · exact ⟨hc.2.2.1, hc.2.2.2⟩

theorem same_plainSign {c p : Char} (h : plainSign? c = some p) : Same c p ∧ p.toNat < 128 := by
  unfold plainSign? at h
  split at h
  · rename_i hc
    cases h
    exact ⟨⟨rfl, fun _ => rfl⟩, hc⟩
  · obtain ⟨v, hv, rfl⟩ := Option.map_eq_some_iff.mp h
    obtain ⟨-, -, -, hlt⟩ := digitValue?_spec hv
    refine ⟨⟨hv.trans (digitValue?_digitChar hlt).symm, fun hnone => ?_⟩, ?_⟩
    · cases hnone.symm.trans hv
    · rw [digitChar_toNat hlt]
      omega

theorem Letter.plainSign {c : Char} (h : Letter c) : ∃ p, plainSign? c = some p := by
  unfold plainSign?
  rcases h with ⟨v, hv⟩ | hc
  · split
    · exact ⟨c, rfl⟩
    · exact ⟨digitChar v, by rw [hv]; rfl⟩
  · exact ⟨c, if_pos hc.2.1⟩

theorem same_plainSigns (h : cs.mapM plainSign? = some ps) :
    List.Forall₂ Same cs ps ∧ ∀ p ∈ ps, p.toNat < 128 := by
  induction cs generalizing ps with
  | nil =>
    cases h
    exact ⟨.nil, nofun⟩
  | cons c cs ih =>
    rw [List.mapM_cons] at h
    obtain ⟨p, hp, h⟩ := Option.bind_eq_some_iff.mp h
    obtain ⟨qs, hqs, h⟩ := Option.bind_eq_some_iff.mp h
    cases h
    obtain ⟨hsame, hascii⟩ := ih hqs
    obtain ⟨hfirst, hlt⟩ := same_plainSign hp
    exact ⟨.cons hfirst hsame, List.forall_mem_cons.mpr ⟨hlt, hascii⟩⟩

theorem plainSigns_letters (h : ∀ c ∈ cs, Letter c) : ∃ ps, cs.mapM plainSign? = some ps := by
  induction cs with
  | nil => exact ⟨[], rfl⟩
  | cons c cs ih =>
    obtain ⟨p, hp⟩ := (h c List.mem_cons_self).plainSign
    obtain ⟨ps, hps⟩ := ih fun c hc => h c (List.mem_cons_of_mem _ hc)
    exact ⟨p :: ps, by rw [List.mapM_cons, hp, hps]; rfl⟩

def Ascii (cs : List Char) : Prop := ∀ c ∈ cs, c.toNat < 128

theorem Ascii.left {xs ys : List Char} (h : Ascii (xs ++ ys)) : Ascii xs :=
  fun c hc => h c (List.mem_append_left _ hc)

theorem Ascii.right {xs ys : List Char} (h : Ascii (xs ++ ys)) : Ascii ys :=
  fun c hc => h c (List.mem_append_right _ hc)

theorem Ascii.tail {c : Char} (h : Ascii (c :: cs)) : Ascii cs :=
  fun x hx => h x (List.mem_cons_of_mem c hx)

def Headless (cs : List Char) : Prop := ∀ c ∈ cs.head?, plainDigit? c = Option.none

theorem Mark.headless {c : Char} (h : Mark c) (cs : List Char) : Headless (c :: cs) := by
  intro x hx
  obtain rfl : c = x := Option.some.inj hx
  exact (digitValue?_ascii h.2.1).symm.trans h.1

theorem digitRun_digits {ds : List ℕ} {rest : List Char} (h : Digits cs ds) (hcs : Ascii cs)
    (hrest : Headless rest) : digitRun (cs ++ rest) = (ds, rest) := by
  induction h with
  | nil =>
    cases rest with
    | nil => rfl
    | cons c rest =>
      show digitRun (c :: rest) = ([], c :: rest)
      rw [digitRun, hrest c rfl]
  | cons hc _ ih =>
    rename_i c v cs ds _
    have hv : plainDigit? c = some v :=
      (digitValue?_ascii (hcs c List.mem_cons_self)).symm.trans hc
    show digitRun (c :: (cs ++ rest)) = _
    rw [digitRun, hv]
    simp only [ih hcs.tail]

theorem digits_digitRun (h : Ascii cs) :
    ∃ whole, cs = whole ++ (digitRun cs).2 ∧ Digits whole (digitRun cs).1 := by
  induction cs with
  | nil => exact ⟨[], rfl, .nil⟩
  | cons c cs ih =>
    rw [digitRun]
    cases hc : plainDigit? c with
    | none => exact ⟨[], rfl, .nil⟩
    | some v =>
      obtain ⟨whole, hsplit, hdigits⟩ := ih h.tail
      refine ⟨c :: whole, ?_, .cons ((digitValue?_ascii (h c List.mem_cons_self)).trans hc) hdigits⟩
      exact congrArg (c :: ·) hsplit

structure Starts (c : Char) : Prop where
  sign : c ≠ '-' ∧ c ≠ '+'
  word : c.toLower ≠ 'i' ∧ c.toLower ≠ 'n' ∧ c.toLower ≠ 's'

theorem starts_point : Starts '.' := ⟨by decide, by decide⟩

theorem starts_digit {c : Char} {v : ℕ} (hc : c.toNat < 128) (h : digitValue? c = some v) :
    Starts c := by
  have hall : ∀ n < 128, digitValue? (Char.ofNat n) ≠ Option.none →
      ((Char.ofNat n) ≠ '-' ∧ (Char.ofNat n) ≠ '+') ∧ (Char.ofNat n).toLower ≠ 'i' ∧
        (Char.ofNat n).toLower ≠ 'n' ∧ (Char.ofNat n).toLower ≠ 's' := by decide +kernel
  have hn := hall c.toNat hc
  rw [Char.ofNat_toNat] at hn
  obtain ⟨hsign, hword⟩ := hn (by rw [h]; exact nofun)
  exact ⟨hsign, hword⟩

theorem splitSign_text {sign rest : List Char} {negative : Bool} (h : SignText sign negative)
    (hrest : ∀ c ∈ rest.head?, c ≠ '-' ∧ c ≠ '+') :
    splitSign (sign ++ rest) = (negative, rest) := by
  cases h with
  | plus => rfl
  | minus => rfl
  | bare =>
    show splitSign rest = (false, rest)
    unfold splitSign
    split
    · exact absurd rfl (hrest '-' rfl).1
    · exact absurd rfl (hrest '+' rfl).2
    · rfl

theorem sign_splitSign (cs : List Char) :
    ∃ sign, cs = sign ++ (splitSign cs).2 ∧ SignText sign (splitSign cs).1 := by
  unfold splitSign
  split
  · exact ⟨['-'], rfl, .minus⟩
  · exact ⟨['+'], rfl, .plus⟩
  · exact ⟨[], rfl, .bare⟩

theorem exponentOf?_cons (m : Char) (cs : List Char) : exponentOf? (m :: cs) =
    if m = 'e' ∨ m = 'E' then
      (allDigits? (splitSign cs).2).map (Decimal.signed (splitSign cs).1)
    else Option.none := rfl

theorem exponentOf?_text {e : ℤ} (h : ExponentText cs e) (hcs : Ascii cs) :
    exponentOf? cs = some e := by
  cases h with
  | none => rfl
  | mark hmark hsign hds hne =>
    rename_i m sign digits negative ds
    have hascii : Ascii digits := hcs.tail.right
    have hstart : ∀ c ∈ digits.head?, c ≠ '-' ∧ c ≠ '+' := by
      intro c hc
      cases hds with
      | nil => cases hc
      | cons hv _ =>
        obtain rfl := Option.some.inj hc
        exact (starts_digit (hascii _ List.mem_cons_self) hv).sign
    have hrun : digitRun digits = (ds, []) := by
      have happend := digitRun_digits hds hascii (show Headless [] from nofun)
      rwa [List.append_nil] at happend
    have hall : allDigits? digits = some (valueOf ds) := by
      unfold allDigits?
      rw [hrun]
      cases ds with
      | nil => exact absurd rfl hne
      | cons v ds => rfl
    rw [exponentOf?_cons, if_pos hmark, splitSign_text hsign hstart, hall]
    rfl

theorem exponent_of_exponentOf? {e : ℤ} (h : exponentOf? cs = some e) (hcs : Ascii cs) :
    ExponentText cs e := by
  cases cs with
  | nil =>
    cases h
    exact .none
  | cons m rest =>
    rw [exponentOf?_cons] at h
    split at h
    · rename_i hmark
      obtain ⟨n, hn, rfl⟩ := Option.map_eq_some_iff.mp h
      obtain ⟨sign, hsplit, hsign⟩ := sign_splitSign rest
      generalize splitSign rest = signed at hsplit hsign hn
      have hascii : Ascii signed.2 := by
        have htail := hcs.tail
        rw [hsplit] at htail
        exact htail.right
      obtain ⟨digits, hdigits, hds⟩ := digits_digitRun hascii
      unfold allDigits? at hn
      split at hn
      · rename_i v ds hrun
        cases hn
        rw [hrun, List.append_nil] at hdigits
        rw [hrun, ← hdigits] at hds
        rw [hsplit]
        exact .mark hmark hsign hds (List.cons_ne_nil _ _)
      · cases hn
    · cases h

theorem headless_exponent {e : ℤ} (h : ExponentText cs e) : Headless cs := by
  cases h with
  | none => exact nofun
  | mark hmark _ _ _ => exact (mark_exponent hmark).headless _

def partRun : List Char → List ℕ × List Char
  | '.' :: rest => digitRun rest
  | rest => ([], rest)

theorem unsigned?_eq (negative : Bool) (cs : List Char) : unsigned? negative cs =
    let whole := digitRun cs
    let part := partRun whole.2
    if whole.1.isEmpty && part.1.isEmpty then Option.none
    else match exponentOf? part.2 with
      | none => Option.none
      | some e =>
        let d : Decimal := ⟨negative, valueOf (whole.1 ++ part.1), e - part.1.length⟩
        if representable d then some (Number.finite d) else Option.none := rfl

theorem partRun_text {fraction exponent : List Char} {fs : List ℕ} {e : ℤ}
    (hfraction : FractionText fraction fs) (hexponent : ExponentText exponent e)
    (hcs : Ascii fraction) : partRun (fraction ++ exponent) = (fs, exponent) := by
  cases hfraction with
  | point hfs => exact digitRun_digits hfs hcs.tail (headless_exponent hexponent)
  | none =>
    cases hexponent with
    | none => rfl
    | mark hmark _ _ _ => rcases hmark with rfl | rfl <;> rfl

theorem fraction_partRun (hcs : Ascii cs) :
    ∃ fraction, cs = fraction ++ (partRun cs).2 ∧ FractionText fraction (partRun cs).1 := by
  unfold partRun
  split
  · rename_i rest
    obtain ⟨digits, hdigits, hds⟩ := digits_digitRun hcs.tail
    exact ⟨'.' :: digits, congrArg ('.' :: ·) hdigits, .point hds⟩
  · exact ⟨[], rfl, .none⟩

theorem unsigned?_text {whole fraction exponent : List Char} {ds fs : List ℕ} {e : ℤ}
    (negative : Bool) (hwhole : Digits whole ds) (hfraction : FractionText fraction fs)
    (hne : ds ≠ [] ∨ fs ≠ []) (hexponent : ExponentText exponent e)
    (hcs : Ascii (whole ++ (fraction ++ exponent))) :
    unsigned? negative (whole ++ (fraction ++ exponent)) =
      let d : Decimal := ⟨negative, valueOf (ds ++ fs), e - fs.length⟩
      if representable d then some (.finite d) else Option.none := by
  have hhead : Headless (fraction ++ exponent) := by
    cases hfraction with
    | none => exact headless_exponent hexponent
    | point _ => exact mark_point.headless _
  have hempty : (ds.isEmpty && fs.isEmpty) = false := by
    rcases hne with hds | hfs
    · rw [List.isEmpty_eq_false_iff.mpr hds, Bool.false_and]
    · rw [List.isEmpty_eq_false_iff.mpr hfs, Bool.and_false]
  simp only [unsigned?_eq, digitRun_digits hwhole hcs.left hhead,
    partRun_text hfraction hexponent hcs.right.left, hempty,
    exponentOf?_text hexponent hcs.right.right, Bool.false_eq_true, if_false]

theorem numeral_of_unsigned? {negative : Bool} {n : Number} (h : unsigned? negative cs = some n)
    (hcs : Ascii cs) {sign : List Char} (hsign : SignText sign negative) :
    ∃ d, n = .finite d ∧ NumeralText (sign ++ cs) d ∧ representable d = true := by
  obtain ⟨whole, hsplit, hwhole⟩ := digits_digitRun hcs
  have hrest : Ascii (digitRun cs).2 := by
    rw [hsplit] at hcs
    exact hcs.right
  obtain ⟨fraction, htail, hfraction⟩ := fraction_partRun hrest
  rw [unsigned?_eq] at h
  dsimp only at h
  split at h
  · cases h
  rename_i hne
  split at h
  · cases h
  rename_i e he
  split at h
  · rename_i hheld
    cases h
    refine ⟨_, rfl, ?_, hheld⟩
    have hexponent : Ascii (partRun (digitRun cs).2).2 := by
      rw [htail] at hrest
      exact hrest.right
    have hsome : (digitRun cs).1 ≠ [] ∨ (partRun (digitRun cs).2).1 ≠ [] := by
      by_contra hboth
      rw [not_or, not_not, not_not] at hboth
      rw [hboth.1, hboth.2] at hne
      exact hne rfl
    have hnumeral := NumeralText.mk hsign hwhole hfraction hsome
      (exponent_of_exponentOf? he hexponent)
    rwa [← htail, ← hsplit] at hnumeral
  · cases h

theorem special?_of_starts {c : Char} (h : Starts c) (negative : Bool) (cs : List Char) :
    special? negative (c :: cs) = Option.none := by
  unfold special?
  rw [List.map_cons]
  split
  · rename_i heq
    exact absurd (List.cons.inj heq).1 h.word.1
  · rename_i heq
    exact absurd (List.cons.inj heq).1 h.word.2.1
  · rename_i heq
    exact absurd (List.cons.inj heq).1 h.word.2.2
  · rfl

theorem special?_not_finite {negative : Bool} : special? negative cs ≠ some (.finite d) := by
  unfold special?
  split
  · split <;> exact nofun
  · cases payload? _ <;> exact nofun
  · cases payload? _ <;> exact nofun
  · exact nofun

theorem ofText?_spells {s : String} (h : Spells s d) :
    ofText? s = if representable d then some (.finite d) else Option.none := by
  unfold ofText? ofChars? plainSigns?
  obtain ⟨ps, hps⟩ := plainSigns_letters (numeral_letters h)
  obtain ⟨hsame, hascii⟩ := same_plainSigns hps
  rw [hps]
  obtain ⟨hsign, hwhole, hfraction, hne, hexponent⟩ := numeral_same h hsame
  rename_i sign whole fraction exponent negative ds fs e
  have hbody : Ascii (whole ++ (fraction ++ exponent)) := Ascii.right hascii
  have hfirst : ∃ c rest, whole ++ (fraction ++ exponent) = c :: rest ∧ Starts c := by
    cases hwhole with
    | cons hc _ => exact ⟨_, _, rfl, starts_digit (hbody _ List.mem_cons_self) hc⟩
    | nil =>
      cases hfraction with
      | none => exact absurd rfl (hne.resolve_left fun h => h rfl)
      | point _ => exact ⟨'.', _, rfl, starts_point⟩
  obtain ⟨c, rest, hcons, hstarts⟩ := hfirst
  have hspecial : special? negative (whole ++ (fraction ++ exponent)) = Option.none := by
    rw [hcons]
    exact special?_of_starts hstarts negative rest
  have hsplit : splitSign (sign ++ (whole ++ (fraction ++ exponent))) =
      (negative, whole ++ (fraction ++ exponent)) := by
    refine splitSign_text hsign fun x hx => ?_
    rw [hcons] at hx
    obtain rfl : c = x := Option.some.inj hx
    exact hstarts.sign
  simp only [hsplit, hspecial, unsigned?_text negative hwhole hfraction hne hexponent hbody]

/-- What the reader reads off a text is what the text denotes. -/
theorem ofText?_eq_finite {s : String} : ofText? s = some (.finite d) ↔ Denotes s d := by
  refine ⟨fun h => ?_, fun h => (ofText?_spells h.1).trans (if_pos h.2)⟩
  unfold ofText? ofChars? plainSigns? at h
  split at h
  · cases h
  rename_i ps hps
  obtain ⟨hsame, hascii⟩ := same_plainSigns hps
  obtain ⟨sign, hsplit, hsign⟩ := sign_splitSign ps
  dsimp only at h
  split at h
  · rename_i n hspecial
    cases h
    exact absurd hspecial special?_not_finite
  · have hrest : Ascii (splitSign ps).2 := by
      have hps' : Ascii ps := hascii
      rw [hsplit] at hps'
      exact hps'.right
    obtain ⟨d', hd', hnumeral, hheld⟩ := numeral_of_unsigned? h hrest hsign
    cases hd'
    rw [← hsplit] at hnumeral
    exact ⟨numeral_same hnumeral (same_symm hsame), hheld⟩

theorem spells_ofList (h : NumeralText cs d) : Spells (String.ofList cs) d := by
  have hletters := numeral_letters h
  rw [Spells, String.toList_ofList, trimBoth_of_nonblank fun c hc => (hletters c hc).nonblank.1,
    List.filter_eq_self.mpr fun c hc => bne_iff_ne.mpr (hletters c hc).nonblank.2]
  exact h

theorem denotes_unique {s : String} {d' : Decimal} (h : Denotes s d) (h' : Denotes s d') : d = d' :=
  Number.finite.inj
    (Option.some.inj ((ofText?_eq_finite.mpr h).symm.trans (ofText?_eq_finite.mpr h')))

end Number

namespace Decimal
open Text Number

theorem pointed_text {cs : List Char} {ds : List ℕ} (h : Digits cs ds) (hne : ds ≠ []) (place : ℤ)
    (hplace : place ≤ ds.length) :
    ∃ whole fraction ws fs, pointed cs place = whole ++ fraction ∧ Digits whole ws ∧
      FractionText fraction fs ∧ ws ≠ [] ∧ valueOf (ws ++ fs) = valueOf ds ∧
      (fs.length : ℤ) = ds.length - place := by
  unfold pointed
  split
  · rename_i hlow
    refine ⟨['0'], _, [0], List.replicate (-place).toNat 0 ++ ds, rfl, .cons rfl .nil,
      .point ((digits_zeros _).append h), List.cons_ne_nil _ _, ?_, ?_⟩
    · exact valueOf_zeros ((-place).toNat + 1) ds
    · rw [List.length_append, List.length_replicate]
      omega
  rename_i hpos
  split
  · rename_i hlong
    rw [h.length] at hlong
    refine ⟨cs, [], ds, [], ?_, h, .none, hne, by rw [List.append_nil], ?_⟩
    · rw [h.length, show place.toNat - ds.length = 0 by omega]
      rfl
    · rw [List.length_nil]
      omega
  · rename_i hshort
    rw [h.length] at hshort
    refine ⟨cs.take place.toNat, _, ds.take place.toNat, ds.drop place.toNat, rfl,
      List.forall₂_take _ h, .point (List.forall₂_drop _ h), ?_, ?_, ?_⟩
    · rw [Ne, List.take_eq_nil_iff]
      rintro (hzero | hnil)
      · omega
      · exact hne hnil
    · rw [List.take_append_drop]
    · rw [List.length_drop]
      omega

theorem numeral_pointed {sign exponent cs : List Char} {negative : Bool} {ds : List ℕ} {e place : ℤ}
    (hsign : SignText sign negative) (hds : Digits cs ds) (hne : ds ≠ [])
    (hplace : place ≤ ds.length) (hexponent : ExponentText exponent e) :
    NumeralText (sign ++ (pointed cs place ++ exponent))
      ⟨negative, valueOf ds, e - (ds.length - place)⟩ := by
  obtain ⟨whole, fraction, ws, fs, htext, hwhole, hfraction, hws, hsame, hfs⟩ :=
    pointed_text hds hne place hplace
  have hnumeral := NumeralText.mk hsign hwhole hfraction (.inl hws) hexponent
  rwa [← List.append_assoc whole, ← htext, hsame, hfs] at hnumeral

theorem point_mem_pointed {cs : List Char} {place : ℤ} (h : place < cs.length) :
    '.' ∈ pointed cs place := by
  unfold pointed
  split
  · simp
  · rw [if_neg (by omega)]
    simp

theorem pointed_of_le {cs : List Char} {place : ℤ} (hpos : 0 < place) (h : cs.length ≤ place) :
    pointed cs place = cs ++ zeroDigits (place - cs.length).toNat := by
  unfold pointed
  rw [if_neg (by omega), if_pos (by omega)]
  congr 2
  omega

theorem exponent_signed {m : Char} {cs : List Char} {ds : List ℕ} (hm : m = 'e' ∨ m = 'E') (e : ℤ)
    (hds : Digits cs ds) (hne : ds ≠ []) (hvalue : valueOf ds = e.natAbs) :
    ExponentText (m :: (if e < 0 then '-' else '+') :: cs) e := by
  have hsign : SignText [if e < 0 then '-' else '+'] (decide (e < 0)) := by
    by_cases h : e < 0
    · rw [if_pos h, decide_eq_true h]
      exact .minus
    · rw [if_neg h, decide_eq_false h]
      exact .plus
  have htext := ExponentText.mark hm hsign hds hne
  rw [hvalue, signed_natAbs] at htext
  exact htext

theorem exponentText_text (e : ℤ) : ExponentText (exponentText e) e := by
  obtain ⟨ds, hds, hne, hvalue, -⟩ := digits_digitsOf e.natAbs
  exact exponent_signed (.inr rfl) e hds hne hvalue

theorem numeral_chars (d : Decimal) : NumeralText d.chars d := by
  obtain ⟨ds, hds, hne, hvalue, hlength⟩ := digits_digitsOf d.coeff
  have hcount := digitCount_pos d.coeff
  have hmagnitude : ∀ sign, SignText sign d.negative →
      NumeralText (sign ++ d.magnitudeChars) d := by
    intro sign hsign
    unfold magnitudeChars isPlain
    dsimp only
    rw [hds.length]
    split
    · rename_i hplain
      simp only [Bool.and_eq_true, decide_eq_true_eq] at hplain
      have hnumeral := numeral_pointed hsign hds hne
        (show d.exp + ds.length ≤ ds.length by omega) .none
      have hexp : (0 : ℤ) - (ds.length - (d.exp + ds.length)) = d.exp := by omega
      rwa [List.append_nil, hvalue, hexp] at hnumeral
    · have hnumeral := numeral_pointed hsign hds hne (show 1 ≤ (ds.length : ℤ) by omega)
        (exponentText_text d.adjusted)
      have hexp : d.adjusted - (ds.length - 1) = d.exp := by
        rw [hlength]
        unfold adjusted
        omega
      rwa [hvalue, hexp] at hnumeral
  unfold chars
  split
  · rename_i hneg
    exact hmagnitude ['-'] (hneg ▸ .minus)
  · rename_i hneg
    exact hmagnitude [] (Bool.eq_false_of_not_eq_true hneg ▸ .bare)

theorem trim_text (d : Decimal) : trim d.text = d.text := by
  unfold trim text
  rw [String.toList_ofList, trimBoth_of_nonblank]
  exact fun c hc => (numeral_letters (numeral_chars d) c hc).nonblank.1

theorem spells_text (d : Decimal) : Spells d.text d := spells_ofList (numeral_chars d)

theorem ofText?_text {d : Decimal} (h : representable d = true) :
    Number.ofText? d.text = some (.finite d) := (ofText?_spells (spells_text d)).trans (if_pos h)

theorem value_ofInt (n : ℤ) : (ofInt n).value = n := by
  show ((signed (n < 0) n.natAbs : ℤ) : ℚ) * 10 ^ (0 : ℤ) = n
  rw [signed_natAbs, zpow_zero, mul_one]

end Decimal
end BomEngine
