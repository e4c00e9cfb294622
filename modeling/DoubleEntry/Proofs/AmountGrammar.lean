import DoubleEntry.Proofs.ExactSums

/-!
# The grammar of amounts

An amount is written with ASCII digits: up to twenty in front of the point, the first of which is no
nought unless it stands alone, and up to six behind it; the point is left out if there are none.  A
field reads exactly these texts, with blanks around them or not, as the numbers that they write
(`Field.decimal_eq_ok_iff`).  Digits of other scripts have the form of an amount, but not the values
of digits, so they are refused as well.

## Main definitions

* `WrittenAmount`: the digits of an amount. `WrittenAmount.chars`: its text.
* `WrittenAmount.number`: the number that is written. `WrittenAmount.decimal`: the decimal of it.
-/

namespace DoubleEntry

/-- A digit as it is written. -/
def digit (d : Fin 10) : Char := Nat.digitChar d

/-- The number that digits write. -/
def numeral (ds : List (Fin 10)) : Nat := ds.foldl (fun n d => n * 10 + d.val) 0

/-- The digits of an amount, in front of the point and behind it. -/
structure WrittenAmount where
  whole : List (Fin 10)
  part : List (Fin 10)
  /-- A nought stands alone, or other digits begin with one that is no nought. -/
  leads : whole = [0] ∨ ∃ d ds, whole = d :: ds ∧ d ≠ 0
  length_whole : whole.length ≤ 20
  length_part : part.length ≤ 6

/-! ### Digits -/

theorem digitValue?_digit (d : Fin 10) : digitValue? (digit d) = some d.val :=
  digitValue?_digitChar d d.isLt

theorem isDecimalDigit_digit : ∀ d : Fin 10, isDecimalDigit (digit d) = true := by decide

theorem digit_bounds : ∀ d : Fin 10, d ≠ 0 → digit d ≠ '0' ∧ '1' ≤ digit d ∧ digit d ≤ '9' := by
  decide

theorem exists_digit {c : Char} (h : (digitValue? c).isSome = true) : ∃ d, c = digit d := by
  obtain ⟨n, hn⟩ := Option.isSome_iff_exists.1 h
  have hlt : n < 10 := Nat.lt_succ_of_le (Decimal.digitValue?_le hn)
  have hchar : ∀ n < 10, Nat.digitChar n = Char.ofNat (48 + n) := by decide
  unfold digitValue? at hn
  split_ifs at hn with hc
  obtain rfl := Option.some.inj hn
  have h48 : 48 ≤ c.toNat := hc.1
  refine ⟨⟨c.toNat - 48, hlt⟩, ?_⟩
  rw [digit, hchar _ hlt, Nat.add_sub_cancel' h48, Char.ofNat_toNat]

theorem exists_digits {cs : List Char} (h : ∀ c ∈ cs, (digitValue? c).isSome = true) :
    ∃ ds : List (Fin 10), cs = ds.map digit := by
  induction cs with
  | nil => exact ⟨[], rfl⟩
  | cons c cs ih =>
    obtain ⟨hc, hcs⟩ := List.forall_mem_cons.1 h
    obtain ⟨d, rfl⟩ := exists_digit hc
    obtain ⟨ds, rfl⟩ := ih hcs
    exact ⟨d :: ds, rfl⟩

theorem isSome_digitValue?_map (ds : List (Fin 10)) :
    ∀ c ∈ ds.map digit, (digitValue? c).isSome = true :=
  List.forall_mem_map.2 fun d _ => by rw [digitValue?_digit]; rfl

theorem numberOf_map (ds : List (Fin 10)) (n : Nat) :
    Decimal.numberOf n (ds.map digit) = ds.foldl (fun n d => n * 10 + d.val) n := by
  induction ds generalizing n with
  | nil => rfl
  | cons d ds ih =>
    rw [List.map_cons, Decimal.numberOf, List.foldl_cons, List.foldl_cons, digitValue?_digit]
    exact ih _

theorem numeral_append (ds es : List (Fin 10)) :
    numeral (ds ++ es) = numeral ds * 10 ^ es.length + numeral es := by
  induction es using List.reverseRecOn with
  | nil => simp [numeral]
  | append_singleton es e ih =>
    have hlast (ds : List (Fin 10)) : numeral (ds ++ [e]) = numeral ds * 10 + e := by
      simp [numeral]
    rw [← List.append_assoc, hlast, hlast, ih, List.length_append, List.length_singleton,
      Nat.pow_succ]
    ring

theorem numeral_lt (ds : List (Fin 10)) : numeral ds < 10 ^ ds.length := by
  have hlt := Decimal.numberOf_lt (ds.map digit) 0
  rw [numberOf_map, Nat.zero_add, Nat.one_mul, List.length_map] at hlt
  exact hlt

/-! ### Texts of the form -/

section

variable {d : Fin 10} {ds : List (Fin 10)} {tail : List Char}

theorem isFraction_digits :
    Field.isFraction (ds.map digit ++ tail) = true ↔ ds = [] ∧ Field.isFraction tail = true := by
  rcases ds with _ | ⟨d, ds⟩
  · simp
  · have hpoint : ∀ d : Fin 10, digit d ≠ '.' := by decide
    refine iff_of_false (fun h => ?_) fun h => List.cons_ne_nil _ _ h.1
    unfold Field.isFraction at h
    split at h
    · cases ‹_ = []›
    · exact hpoint d (List.cons.inj ‹_›).1
    · cases h

variable (htail : tail = [] ∨ ∃ cs, tail = '.' :: cs)

include htail

theorem span_digits (ds : List (Fin 10)) :
    (ds.map digit ++ tail).takeWhile isDecimalDigit = ds.map digit ∧
    (ds.map digit ++ tail).dropWhile isDecimalDigit = tail := by
  have hdigits : ∀ c ∈ ds.map digit, isDecimalDigit c = true :=
    List.forall_mem_map.2 fun d _ => isDecimalDigit_digit d
  have hmark : isDecimalDigit '.' = false := by decide
  rw [List.takeWhile_append_of_pos hdigits, List.dropWhile_append_of_pos hdigits]
  obtain rfl | ⟨cs, rfl⟩ := htail <;> simp [hmark]

/-- What has the form of an amount: a nought in front stands alone. -/
theorem isAmount_digits : Field.isAmount ((d :: ds).map digit ++ tail) = true ↔
    Field.isFraction tail = true ∧ ds.length ≤ 19 ∧ (d = 0 → ds = []) := by
  obtain ⟨htake, hdrop⟩ := span_digits htail ds
  rw [List.map_cons, List.cons_append]
  by_cases hd : d = 0
  · subst hd
    have hform : Field.isAmount (digit 0 :: (ds.map digit ++ tail)) =
        Field.isFraction (ds.map digit ++ tail) := rfl
    rw [hform, isFraction_digits]
    constructor
    · rintro ⟨rfl, h⟩
      exact ⟨h, Nat.zero_le _, fun _ => rfl⟩
    · exact fun h => ⟨h.2.2 rfl, h.1⟩
  · obtain ⟨hne, h1, h9⟩ := digit_bounds d hd
    rw [Field.isAmount]
    · simp [h1, h9, htake, hdrop, hd, and_comm]
    · exact hne

end

namespace WrittenAmount

variable (a : WrittenAmount)

/-! ### Texts and numbers -/

/-- What stands behind the digits in front of the point. -/
def tail : List Char := if a.part = [] then [] else '.' :: a.part.map digit

/-- The text of an amount. -/
def chars : List Char := a.whole.map digit ++ a.tail

/-- The number that is written. -/
def number : ℚ := numeral a.whole + numeral a.part / 10 ^ a.part.length

theorem numeral_lt_twoPow : numeral (a.whole ++ a.part) < twoPow 96 := by
  have h96 : 10 ^ 26 ≤ twoPow 96 := by decide
  have hw := a.length_whole
  have hp := a.length_part
  have hlength : (a.whole ++ a.part).length ≤ 26 := by
    rw [List.length_append]
    omega
  exact (numeral_lt _).trans_le ((Nat.pow_le_pow_right (by decide) hlength).trans h96)

/-- The decimal of the number that is written, with its places. -/
def decimal : Decimal where
  negative := false
  coeff := numeral (a.whole ++ a.part)
  places := a.part.length
  coeff_lt := a.numeral_lt_twoPow
  places_le := a.length_part.trans (by decide)

theorem value_decimal : a.decimal.value = a.number := by
  have hpos : (0 : ℚ) < 10 ^ a.part.length := pow_pos (by norm_num) _
  have hnumerator : a.decimal.numerator = ((numeral (a.whole ++ a.part) : Nat) : Int) := rfl
  have hplaces : a.decimal.places = a.part.length := rfl
  rw [Decimal.value, hnumerator, hplaces, number, Decimal.tenPow_rat,
    numeral_append]
  push_cast
  rw [add_div, mul_div_cancel_right₀ _ hpos.ne']

theorem whole_ne_nil : a.whole ≠ [] := by
  obtain h | ⟨d, ds, h, -⟩ := a.leads <;> simp [h]

theorem tail_cases : a.tail = [] ∨ ∃ cs, a.tail = '.' :: cs := by
  rw [tail]
  split_ifs
  · exact .inl rfl
  · exact .inr ⟨_, rfl⟩

theorem isFraction_tail : Field.isFraction a.tail = true := by
  rw [tail]
  split_ifs with h
  · rfl
  · have hlength := a.length_part
    have hpos := List.length_pos_iff.2 h
    simp only [Field.isFraction, List.length_map, Bool.and_eq_true, List.all_eq_true,
      decide_eq_true_eq]
    exact ⟨⟨List.forall_mem_map.2 fun d _ => isDecimalDigit_digit d, hpos⟩, hlength⟩

theorem isAmount_chars : Field.isAmount a.chars = true := by
  have hlength := a.length_whole
  obtain h | ⟨d, ds, h, hd⟩ := a.leads
  · rw [chars, h, isAmount_digits a.tail_cases]
    exact ⟨a.isFraction_tail, by decide, fun _ => rfl⟩
  · rw [h, List.length_cons] at hlength
    rw [chars, h, isAmount_digits a.tail_cases]
    exact ⟨a.isFraction_tail, by omega, fun h0 => absurd h0 hd⟩

theorem ofChars?_chars : Decimal.ofChars? a.chars = some a.decimal := by
  have hne : a.whole.map digit ≠ [] := by simpa using a.whole_ne_nil
  have hdigits : ∀ c ∈ a.whole.map digit ++ a.part.map digit, (digitValue? c).isSome = true := by
    rw [← List.map_append]
    exact isSome_digitValue?_map _
  have hnumber : Decimal.numberOf 0 (a.whole.map digit ++ a.part.map digit) =
      numeral (a.whole ++ a.part) := by
    rw [← List.map_append, numberOf_map, numeral]
  have hread : Decimal.readDigits ⟨false, false, 0, 0⟩ a.chars =
      some (numeral (a.whole ++ a.part), a.part.length) := by
    rw [chars, tail]
    split_ifs with h
    · rw [h, List.map_nil, List.append_nil] at hdigits hnumber
      have hfit := a.numeral_lt_twoPow
      rw [h, ← hnumber] at hfit
      rw [List.append_nil, h, ← hnumber]
      exact Decimal.readDigits_whole hne hdigits hfit
    · have hplaces := a.length_part.trans (by decide : 6 ≤ 28)
      have hlength : (a.part.map digit).length = a.part.length := List.length_map digit
      rw [← hnumber, ← hlength]
      exact Decimal.readDigits_point hne hdigits (hnumber ▸ a.numeral_lt_twoPow)
        (hlength ▸ hplaces)
  have hsign : Decimal.splitSign a.chars = (false, a.chars) := by
    have hmark : ∀ d : Fin 10, digit d ≠ '-' ∧ digit d ≠ '+' := by decide
    obtain ⟨d, ds, h⟩ := List.exists_cons_of_ne_nil a.whole_ne_nil
    rw [chars, h]
    exact Decimal.splitSign_of_ne _ (hmark d).1 (hmark d).2
  have hlt := a.decimal.coeff_lt
  have hle := a.decimal.places_le
  rw [Decimal.ofChars?, hsign]
  simp only [hread, bind, Option.bind, Bool.false_and]
  rw [Decimal.ofParts?, dif_pos ⟨hlt, hle⟩]
  rfl

/-- **Texts of the form that can be read** are those of amounts. -/
theorem exists_of_isAmount {cs : List Char} (h : Field.isAmount cs = true)
    (hread : (Decimal.ofChars? cs).isSome = true) : ∃ a : WrittenAmount, cs = a.chars := by
  obtain ⟨whole, part, tail, rfl, hdigits⟩ := Field.exists_isDigits h
  have hread' : (Decimal.readDigits ⟨false, false, 0, 0⟩ (whole ++ tail)).isSome = true := by
    obtain ⟨d, hd⟩ := Option.isSome_iff_exists.1 hread
    rw [Decimal.ofChars?, hdigits.splitSign] at hd
    obtain ⟨r, hr, -⟩ := Option.bind_eq_some_iff.1 hd
    exact Option.isSome_of_eq_some hr
  obtain ⟨hwhole, hpart⟩ := List.forall_mem_append.1 (hdigits.isSome_digitValue? hread')
  obtain ⟨whole, rfl⟩ := exists_digits hwhole
  obtain ⟨part, rfl⟩ := exists_digits hpart
  have hlength := hdigits.length_whole
  have hlength' := hdigits.length_part
  rw [List.length_map] at hlength hlength'
  have htail : tail = [] ∨ ∃ cs, tail = '.' :: cs :=
    hdigits.tail_eq.imp And.left fun h => ⟨_, h⟩
  obtain ⟨d, ds, rfl⟩ := List.exists_cons_of_ne_nil (mt (congrArg (List.map digit)) hdigits.ne_nil)
  obtain ⟨hfraction, -, hzero⟩ := (isAmount_digits htail).1 h
  have hleads : d :: ds = [0] ∨ ∃ e es, d :: ds = e :: es ∧ e ≠ 0 := by
    by_cases hd : d = 0
    · exact .inl (by rw [hzero hd, hd])
    · exact .inr ⟨d, ds, rfl, hd⟩
  refine ⟨⟨d :: ds, part, hleads, hlength, hlength'⟩, congrArg _ ?_⟩
  rw [WrittenAmount.tail]
  obtain ⟨htail, hnil⟩ | htail := hdigits.tail_eq
  · rw [htail, if_pos (List.map_eq_nil_iff.1 hnil)]
  · -- a point alone is no fraction
    have hne : part ≠ [] := by
      rintro rfl
      rw [htail] at hfraction
      exact absurd hfraction (by decide)
    rw [htail, if_neg hne]

theorem length_chars : a.chars.length ≤ 27 := by
  have hw := a.length_whole
  have hp := a.length_part
  rw [chars, tail, List.length_append, List.length_map]
  split_ifs
  · simp only [List.length_nil]
    omega
  · rw [List.length_cons, List.length_map]
    omega

theorem isControl_of_mem {c : Char} (h : c ∈ a.chars) : isControl c = false := by
  have hdigit : ∀ d : Fin 10, isControl (digit d) = false := by decide
  have hmark : isControl '.' = false := by decide
  rw [chars, tail, List.mem_append] at h
  obtain h | h := h
  · obtain ⟨d, -, rfl⟩ := List.mem_map.1 h
    exact hdigit d
  · split_ifs at h
    · cases h
    · obtain rfl | h := List.mem_cons.1 h
      · exact hmark
      · obtain ⟨d, -, rfl⟩ := List.mem_map.1 h
        exact hdigit d

theorem required_eq_ok {raw : String} (h : (trim raw).toList = a.chars) (field : String) :
    Field.required raw field 32 = .ok (trim raw) := by
  have hne : trim raw ≠ "" := by
    rw [ne_eq, ← String.toList_eq_nil_iff, h, chars]
    simp [a.whole_ne_nil]
  refine Field.required_eq_ok_of hne ?_ fun c hc => a.isControl_of_mem (h ▸ hc)
  rw [h]
  exact a.length_chars.trans (by decide)

end WrittenAmount

/-- **A field reads amounts**, as the numbers that are written. -/
theorem Field.decimal_eq_ok_iff {raw field : String} {d : Decimal} : decimal raw field = .ok d ↔
    ∃ a : WrittenAmount, (trim raw).toList = a.chars ∧ d = a.decimal := by
  constructor
  · intro h
    obtain ⟨s, hs, h⟩ := exists_of_bind_eq_ok h
    obtain rfl := required_eq_ok hs
    split_ifs at h with hform
    · split at h
      · rename_i d' hd'
        cases h
        obtain ⟨a, ha⟩ := WrittenAmount.exists_of_isAmount hform (Option.isSome_of_eq_some hd')
        rw [Decimal.ofText?, ha, a.ofChars?_chars] at hd'
        exact ⟨a, ha, (Option.some.inj hd').symm⟩
      · cases h
  · rintro ⟨a, ha, rfl⟩
    have hread : Decimal.ofText? (trim raw) = some a.decimal := by
      rw [Decimal.ofText?, ha, a.ofChars?_chars]
    have hform : isAmount (trim raw).toList = true := ha ▸ a.isAmount_chars
    simp only [decimal, a.required_eq_ok ha, bind, Except.bind, hform, if_true, hread]

end DoubleEntry
