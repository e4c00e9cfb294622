import DoubleEntry.Proofs.Amount
import DoubleEntry.Proofs.Millionths
import DoubleEntry.Proofs.OrderedText
import DoubleEntry.Store.Column
import Mathlib.Data.List.TakeWhile

/-!
# Amounts in tables

An amount of a request has at most 20 digits before the point and six behind it, so six places hold
it, and it is read back from its text with six places.

## Main definitions

* `Decimal.IsStored`: an amount that tables hold without loss.

## Main results

* `Column.decimal_amountText`: an amount is read back from its text, at six places.
* `Field.isStored_of_decimal`: the amounts of requests are of this kind.
-/

namespace DoubleEntry

namespace Decimal

/-- An amount of at most six places that is not below nought and has at most 20 digits before the
point. -/
structure IsStored (d : Decimal) : Prop where
  six : d.IsSix
  nonneg : 0 ≤ d.millionths
  lt : d.millionths < 100000000000000000000000000

/-! ### Reading digits -/

/-- The number that digits write behind a number. -/
def numberOf (n : Nat) (cs : List Char) : Nat :=
  cs.foldl (fun k c => k * 10 + (digitValue? c).getD 0) n

theorem le_numberOf (cs : List Char) (n : Nat) : n ≤ numberOf n cs := by
  induction cs generalizing n with
  | nil => exact Nat.le_refl n
  | cons c cs ih =>
    have := ih (n * 10 + (digitValue? c).getD 0)
    rw [numberOf, List.foldl_cons]
    exact le_trans (by omega) this

theorem readDigits_append {r : Reading} {cs : List Char} (rest : List Char)
    (hdigits : ∀ c ∈ cs, (digitValue? c).isSome = true) (hfit : numberOf r.coeff cs < twoPow 96)
    (hplaces : r.point = true → r.places + cs.length ≤ 28)
    (hpoint : r.point = false → r.places = 0) :
    readDigits r (cs ++ rest) = readDigits ⟨r.point, r.started || !cs.isEmpty,
      numberOf r.coeff cs, if r.point then r.places + cs.length else 0⟩ rest := by
  induction cs generalizing r with
  | nil =>
    rcases r with ⟨_ | _, started, coeff, places⟩
    · obtain rfl : places = 0 := hpoint rfl
      simp [numberOf]
    · simp [numberOf]
  | cons c cs ih =>
    obtain ⟨d, hd⟩ := Option.isSome_iff_exists.1 (hdigits c List.mem_cons_self)
    have hnum : numberOf r.coeff (c :: cs) = numberOf (r.coeff * 10 + d) cs := by
      simp [numberOf, hd]
    have hlt : r.coeff * 10 + d < twoPow 96 := lt_of_le_of_lt (le_numberOf cs _) (hnum ▸ hfit)
    rw [hnum] at hfit ⊢
    have hrest : ∀ c ∈ cs, (digitValue? c).isSome = true :=
      fun c hc => hdigits c (List.mem_cons_of_mem _ hc)
    rw [List.cons_append, readDigits, hd]
    rcases r with ⟨_ | _, started, coeff, places⟩
    · have := ih (r := ⟨false, true, coeff * 10 + d, 0⟩) hrest hfit (by simp) (by simp)
      simpa [hlt] using this
    · have hp := hplaces rfl
      rw [List.length_cons] at hp
      dsimp only at hp
      have := ih (r := ⟨true, true, coeff * 10 + d, places + 1⟩) hrest hfit
        (fun _ => by dsimp only; omega) (by simp)
      have hstop : ¬ 28 ≤ places := by omega
      simpa [hlt, hstop, Nat.add_assoc, Nat.add_comm 1] using this

theorem numberOf_append (n : Nat) (cs cs' : List Char) :
    numberOf n (cs ++ cs') = numberOf (numberOf n cs) cs' := List.foldl_append ..

/-- The digits of a number are those at some width, which fits. -/
theorem exists_digitsAt {width : Nat} (hw : 0 < width) (n : Nat) :
    ∃ w, width ≤ w ∧ n < 10 ^ w ∧ paddedDigits width n = digitsAt 10 w n := by
  by_cases hn : n < 10 ^ width
  · exact ⟨width, le_rfl, hn, paddedDigits_eq hw hn⟩
  · -- a longer number has no noughts in front
    obtain ⟨w, hlen⟩ : ∃ w, w = (Nat.toDigits 10 n).length := ⟨_, rfl⟩
    have hpos : 0 < w := hlen ▸ Nat.length_toDigits_pos
    have hlt : n < 10 ^ w := (Nat.length_toDigits_le_iff (by decide) hpos).1 hlen.ge
    have hle : width ≤ w := by
      by_contra hlt'
      exact hn ((Nat.length_toDigits_le_iff (by decide) hw).1 (by omega))
    refine ⟨w, hle, hlt, ?_⟩
    rw [← paddedDigits_eq hpos hlt]
    simp [paddedDigits, decimalDigits, ← hlen, Nat.sub_eq_zero_of_le hle]

theorem readDigits_point {whole part : List Char} (hw : whole ≠ [])
    (hdigits : ∀ c ∈ whole ++ part, (digitValue? c).isSome = true)
    (hfit : numberOf 0 (whole ++ part) < twoPow 96) (hp : part.length ≤ 28) :
    readDigits ⟨false, false, 0, 0⟩ (whole ++ '.' :: part) =
      some (numberOf 0 (whole ++ part), part.length) := by
  have hwhole : ∀ c ∈ whole, (digitValue? c).isSome = true :=
    fun c hc => hdigits c (List.mem_append_left part hc)
  have hpart : ∀ c ∈ part, (digitValue? c).isSome = true :=
    fun c hc => hdigits c (List.mem_append_right whole hc)
  rw [numberOf_append] at hfit ⊢
  have hmark : digitValue? '.' = none := by decide
  rw [readDigits_append _ hwhole (lt_of_le_of_lt (le_numberOf part _) hfit) (by simp) (by simp),
    readDigits, hmark]
  have hend := readDigits_append (r := ⟨true, true, numberOf 0 whole, 0⟩) [] hpart hfit
    (by simpa using hp) (by simp)
  rw [List.append_nil] at hend
  have hstarted : whole.isEmpty = false := by simpa using hw
  simp only [hstarted, Bool.not_false, Bool.or_true, Bool.false_and, Bool.false_eq_true, if_false,
    and_self, if_true]
  rw [hend]
  simp [readDigits]

theorem readDigits_whole {cs : List Char} (hw : cs ≠ [])
    (hdigits : ∀ c ∈ cs, (digitValue? c).isSome = true) (hfit : numberOf 0 cs < twoPow 96) :
    readDigits ⟨false, false, 0, 0⟩ cs = some (numberOf 0 cs, 0) := by
  have hread := readDigits_append (r := ⟨false, false, 0, 0⟩) [] hdigits hfit (by simp) (by simp)
  rw [List.append_nil] at hread
  rw [hread]
  simp [readDigits, hw]

/-- The text of a decimal without a sign: its digits, with a point before the places. -/
theorem exists_toChars {d : Decimal} (hs : d.negative = false) :
    ∃ whole part, d.toChars = whole ++ (if part.isEmpty then [] else '.' :: part) ∧ whole ≠ [] ∧
      (∀ c ∈ whole ++ part, (digitValue? c).isSome = true) ∧
      numberOf 0 (whole ++ part) = d.coeff ∧ part.length = d.places := by
  obtain ⟨w, hw, hlt, hdigits⟩ := exists_digitsAt (Nat.succ_pos d.places) d.coeff
  have happend := List.take_append_drop (w - d.places) (digitsAt 10 w d.coeff)
  refine ⟨(digitsAt 10 w d.coeff).take (w - d.places), (digitsAt 10 w d.coeff).drop (w - d.places),
    ?_, List.ne_nil_of_length_pos ?_, ?_, ?_, ?_⟩
  · simp only [toChars, hs, hdigits, length_digitsAt]
    simp
  · rw [List.length_take, length_digitsAt]
    omega
  · rw [happend]
    exact fun c => isSome_digitValue?_of_mem
  · rw [happend, numberOf, foldl_digitsAt hlt]
    simp
  · rw [List.length_drop, length_digitsAt]
    omega

theorem not_mem_toText {d : Decimal} (hs : d.negative = false) : '-' ∉ d.toText.toList := by
  obtain ⟨whole, part, hchars, -, hdigits, -, -⟩ := exists_toChars hs
  rw [toText, String.toList_ofList, hchars]
  intro h
  have hmem : '-' ∈ whole ++ part := by
    obtain h | h := List.mem_append.1 h
    · exact List.mem_append_left _ h
    · split_ifs at h
      · cases h
      · simpa using List.mem_append_right whole h
  exact absurd (hdigits _ hmem) (by decide)

theorem readDigits_toChars {d : Decimal} (hs : d.negative = false) :
    readDigits ⟨false, false, 0, 0⟩ d.toChars = some (d.coeff, d.places) := by
  obtain ⟨whole, part, hchars, hne, hdigits, hnumber, hlen⟩ := exists_toChars hs
  rw [hchars, ← hnumber, ← hlen]
  rcases part with _ | ⟨c, part⟩
  · rw [List.append_nil] at hdigits hnumber
    simpa using readDigits_whole hne hdigits (hnumber ▸ d.coeff_lt)
  · exact readDigits_point hne hdigits (hnumber ▸ d.coeff_lt) (hlen ▸ d.places_le)

/-- **A decimal without a sign is read back from its text**, with its places. -/
theorem ofText?_toText {d : Decimal} (hs : d.negative = false) : ofText? d.toText = some d := by
  have hread := readDigits_toChars hs
  have hsign : splitSign d.toChars = (false, d.toChars) := by
    obtain ⟨whole, part, hchars, hne, hdigits, -, -⟩ := exists_toChars hs
    obtain ⟨c, cs, rfl⟩ := List.exists_cons_of_ne_nil hne
    have hdigit := hdigits c List.mem_cons_self
    rw [hchars, List.cons_append]
    refine splitSign_of_ne _ ?_ ?_
    · rintro rfl
      exact absurd hdigit (by decide)
    · rintro rfl
      exact absurd hdigit (by decide)
  rw [ofText?, toText, String.toList_ofList, ofChars?]
  simp only [hsign, hread, bind, Option.bind, ofParts?, d.coeff_lt, d.places_le]
  rw [Bool.false_and, ← hs]
  simp

/-! ### Amounts of requests -/

theorem digitValue?_le {c : Char} {d : Nat} (h : digitValue? c = some d) : d ≤ 9 := by
  unfold digitValue? at h
  split_ifs at h with hc
  have h57 : c.toNat ≤ 57 := hc.2
  have := Option.some.inj h
  omega

theorem numberOf_lt (cs : List Char) (n : Nat) :
    numberOf n cs + 1 ≤ (n + 1) * 10 ^ cs.length := by
  induction cs generalizing n with
  | nil => simp [numberOf]
  | cons c cs ih =>
    have hd : (digitValue? c).getD 0 ≤ 9 := by
      cases h : digitValue? c with
      | none => exact Nat.zero_le 9
      | some d => exact digitValue?_le h
    have hstep : n * 10 + (digitValue? c).getD 0 + 1 ≤ (n + 1) * 10 := by omega
    calc numberOf n (c :: cs) + 1
        ≤ (n * 10 + (digitValue? c).getD 0 + 1) * 10 ^ cs.length := ih _
      _ ≤ (n + 1) * 10 * 10 ^ cs.length := Nat.mul_le_mul_right _ hstep
      _ = (n + 1) * 10 ^ (c :: cs).length := by rw [List.length_cons, Nat.pow_succ]; ring

/-- Digits of other scripts cannot be read. -/
theorem isSome_of_readDigits {r : Reading} {cs rest : List Char}
    (h : (readDigits r (cs ++ rest)).isSome = true) (hcs : ∀ c ∈ cs, isDecimalDigit c = true)
    (hfit : (r.coeff + 1) * 10 ^ cs.length ≤ twoPow 96) (hplaces : r.places + cs.length ≤ 28) :
    ∀ c ∈ cs, (digitValue? c).isSome = true := by
  induction cs generalizing r with
  | nil => exact List.forall_mem_nil _
  | cons c cs ih =>
    have hc := hcs c List.mem_cons_self
    rw [List.length_cons] at hplaces
    have hstop : ¬ 28 ≤ r.places := by omega
    cases hd : digitValue? c with
    | none =>
      -- it is neither a digit nor one of the marks
      have hpoint : c ≠ '.' := by
        rintro rfl
        exact absurd hc (by decide)
      have hscore : c ≠ '_' := by
        rintro rfl
        exact absurd hc (by decide)
      rw [List.cons_append, readDigits, hd] at h
      simp [hstop, hpoint, hscore] at h
    | some d =>
      have hd9 := digitValue?_le hd
      have hpow : 0 < 10 ^ cs.length := Nat.pow_pos (by decide)
      have hmul :
          (r.coeff * 10 + d + 1) * 10 ^ cs.length ≤ (r.coeff + 1) * 10 ^ (cs.length + 1) := by
        rw [Nat.pow_succ, ← Nat.mul_assoc, Nat.mul_right_comm]
        exact Nat.mul_le_mul_right _ (by omega)
      have hle : r.coeff * 10 + d + 1 ≤ (r.coeff * 10 + d + 1) * 10 ^ cs.length :=
        Nat.le_mul_of_pos_right _ hpow
      rw [List.length_cons] at hfit
      have hlt : r.coeff * 10 + d < twoPow 96 := by omega
      rw [List.cons_append, readDigits, hd] at h
      simp only [hlt, if_true, ge_iff_le, hstop, decide_false, Bool.and_false, Bool.false_eq_true,
        if_false] at h
      refine List.forall_mem_cons.2 ⟨by rw [hd]; rfl, ih h ?_ (hmul.trans hfit) ?_⟩
      · exact fun c hc => hcs c (List.mem_cons_of_mem _ hc)
      · dsimp only
        split_ifs <;> omega

/-- The digits in front of the point of an amount, and those behind it if there is one. -/
structure IsDigits (whole part tail : List Char) : Prop where
  ne_nil : whole ≠ []
  tail_eq : tail = [] ∧ part = [] ∨ tail = '.' :: part
  whole_digits : ∀ c ∈ whole, isDecimalDigit c = true
  part_digits : ∀ c ∈ part, isDecimalDigit c = true
  length_whole : whole.length ≤ 20
  length_part : part.length ≤ 6

variable {whole part tail : List Char}

theorem IsDigits.pow_le (h : IsDigits whole part tail) :
    10 ^ whole.length * 10 ^ part.length < twoPow 96 := by
  rw [← Nat.pow_add]
  have h96 : 10 ^ 26 < twoPow 96 := by decide
  have := h.length_whole
  have := h.length_part
  exact lt_of_le_of_lt (Nat.pow_le_pow_right (by decide) (by omega)) h96

theorem IsDigits.readDigits_tail (h : IsDigits whole part tail)
    (hread : (readDigits ⟨false, false, 0, 0⟩ (whole ++ tail)).isSome = true) :
    (∀ c ∈ whole, (digitValue? c).isSome = true) ∧
      readDigits ⟨false, false, 0, 0⟩ (whole ++ tail) =
        readDigits ⟨false, true, numberOf 0 whole, 0⟩ tail := by
  have hpow := h.pow_le
  have hw := h.length_whole
  have hpos : 0 < 10 ^ part.length := Nat.pow_pos (by decide)
  have hle : 10 ^ whole.length ≤ 10 ^ whole.length * 10 ^ part.length :=
    Nat.le_mul_of_pos_right _ hpos
  have hascii := isSome_of_readDigits hread h.whole_digits
    (by rw [Nat.zero_add, Nat.one_mul]; omega) (by dsimp only; omega)
  have hfit := numberOf_lt whole 0
  rw [Nat.zero_add, Nat.one_mul] at hfit
  have hstart := readDigits_append (r := ⟨false, false, 0, 0⟩) tail hascii
    (by dsimp only; omega) (by simp) (by simp)
  have hstarted : whole.isEmpty = false := by simpa using h.ne_nil
  simp only [hstarted, Bool.not_false, Bool.or_true, Bool.false_eq_true, if_false] at hstart
  exact ⟨hascii, hstart⟩

theorem IsDigits.isSome_digitValue? (h : IsDigits whole part tail)
    (hread : (readDigits ⟨false, false, 0, 0⟩ (whole ++ tail)).isSome = true) :
    ∀ c ∈ whole ++ part, (digitValue? c).isSome = true := by
  obtain ⟨hascii, hstart⟩ := h.readDigits_tail hread
  have hpow := h.pow_le
  have hp := h.length_part
  have hfit := numberOf_lt whole 0
  rw [Nat.zero_add, Nat.one_mul] at hfit
  obtain ⟨rfl, rfl⟩ | rfl := h.tail_eq
  · rwa [List.append_nil]
  · -- behind the point the same holds of the rest
    have hmark : digitValue? '.' = none := by decide
    have hread' : (readDigits ⟨true, true, numberOf 0 whole, 0⟩ (part ++ [])).isSome = true := by
      rw [hstart, readDigits, hmark] at hread
      rw [List.append_nil]
      simpa using hread
    have hmul := Nat.mul_le_mul_right (10 ^ part.length) hfit
    have hascii' := isSome_of_readDigits hread' h.part_digits (by dsimp only; omega)
      (by dsimp only; omega)
    exact List.forall_mem_append.2 ⟨hascii, hascii'⟩

/-- **An amount that can be read** is the number of its digits. -/
theorem IsDigits.read (h : IsDigits whole part tail)
    (hread : (readDigits ⟨false, false, 0, 0⟩ (whole ++ tail)).isSome = true) :
    readDigits ⟨false, false, 0, 0⟩ (whole ++ tail) =
      some (numberOf 0 (whole ++ part), part.length) := by
  have hpow := h.pow_le
  have hp := h.length_part
  have hascii := h.isSome_digitValue? hread
  have hlt := numberOf_lt (whole ++ part) 0
  rw [Nat.zero_add, Nat.one_mul, List.length_append, Nat.pow_add] at hlt
  have hfit : numberOf 0 (whole ++ part) < twoPow 96 := by omega
  obtain ⟨rfl, rfl⟩ | rfl := h.tail_eq
  · rw [List.append_nil] at hascii hfit ⊢
    exact readDigits_whole h.ne_nil hascii hfit
  · exact readDigits_point h.ne_nil hascii hfit (by omega)

theorem IsDigits.splitSign (h : IsDigits whole part tail) :
    splitSign (whole ++ tail) = (false, whole ++ tail) := by
  obtain ⟨c, cs, rfl⟩ := List.exists_cons_of_ne_nil h.ne_nil
  have hc := h.whole_digits c List.mem_cons_self
  refine splitSign_of_ne _ ?_ ?_
  · rintro rfl
    exact absurd hc (by decide)
  · rintro rfl
    exact absurd hc (by decide)

theorem IsDigits.mul_tenPow_lt (h : IsDigits whole part tail) {n : Nat}
    (hn : n < 10 ^ (whole.length + part.length)) :
    n * tenPow (amountPlaces - part.length) < 10 ^ 26 := by
  have hw := h.length_whole
  have hp := h.length_part
  have hpow : 10 ^ (whole.length + part.length) * tenPow (amountPlaces - part.length) ≤
      10 ^ 26 := by
    rw [tenPow]
    change _ * 10 ^ _ ≤ _
    rw [← Nat.pow_add]
    exact Nat.pow_le_pow_right (by decide) (by unfold amountPlaces; omega)
  exact (Nat.mul_lt_mul_of_pos_right hn (tenPow_pos _)).trans_le hpow

theorem IsDigits.isStored (h : IsDigits whole part tail) {d : Decimal}
    (hd : ofChars? (whole ++ tail) = some d) : d.IsStored := by
  rw [ofChars?, h.splitSign] at hd
  obtain ⟨⟨coeff, places⟩, hread, hparts⟩ := Option.bind_eq_some_iff.1 hd
  obtain ⟨hneg, hcoeff, hplaces⟩ := ofParts?_eq_some hparts
  have heq := h.read (by rw [hread]; rfl)
  rw [heq] at hread
  cases hread
  have hlt := numberOf_lt (whole ++ part) 0
  rw [Nat.zero_add, Nat.one_mul, List.length_append] at hlt
  have hm : d.millionths = ((d.coeff * tenPow (amountPlaces - d.places) : Nat) : Int) := by
    rw [millionths, numerator, hneg]
    push_cast
    rfl
  have h0 : 0 ≤ d.millionths := by
    rw [hm]
    exact Int.natCast_nonneg _
  refine ⟨⟨by rw [hplaces]; exact h.length_part, ?_⟩, h0, ?_⟩
  · rw [hneg]
    simpa using h0
  · rw [hm, hcoeff, hplaces]
    exact_mod_cast h.mul_tenPow_lt hlt

theorem isStored_zero : zero.IsStored := ⟨isSix_zero, by decide, by decide⟩

variable {d : Decimal}

theorem IsStored.fits (h : d.IsStored) : d.millionths.natAbs < twoPow 96 := by
  have h96 : 100000000000000000000000000 < twoPow 96 := by decide
  have := h.nonneg
  have := h.lt
  omega

theorem IsStored.unsigned (h : d.IsStored) : d.negative = false := h.six.unsigned h.nonneg

theorem IsStored.toAmount (h : d.IsStored) :
    d.toAmount.IsStored ∧ d.toAmount.millionths = d.millionths := by
  obtain ⟨hsix, hm⟩ := toAmount_six h.six h.fits
  exact ⟨⟨hsix, hm ▸ h.nonneg, hm ▸ h.lt⟩, hm⟩

end Decimal

/-- **An amount without a sign is read back from its text**, at six places. -/
theorem Column.decimal_amountText {d : Decimal} (h : d.negative = false) :
    Column.decimal d.amountText = .ok d.toAmount := by
  rw [Column.decimal, Decimal.amountText, Decimal.ofText?_toText (Decimal.unsigned_toAmount h)]
  rfl

namespace Field

theorem exists_isDigits_of_isFraction {whole tail : List Char} (hne : whole ≠ [])
    (hwhole : ∀ c ∈ whole, isDecimalDigit c = true) (hlen : whole.length ≤ 20)
    (h : isFraction tail = true) : ∃ part, Decimal.IsDigits whole part tail := by
  unfold isFraction at h
  split at h
  · exact ⟨[], hne, .inl ⟨rfl, rfl⟩, hwhole, List.forall_mem_nil _, hlen, Nat.zero_le 6⟩
  · rename_i ds
    simp only [Bool.and_eq_true, decide_eq_true_eq] at h
    exact ⟨ds, hne, .inr rfl, hwhole, List.all_eq_true.1 h.1.1, hlen, h.2⟩
  · cases h

theorem exists_isDigits {cs : List Char} (h : isAmount cs = true) :
    ∃ whole part tail, cs = whole ++ tail ∧ Decimal.IsDigits whole part tail := by
  unfold isAmount at h
  split at h
  · rename_i rest
    have hzero : ∀ c ∈ ['0'], isDecimalDigit c = true := by simpa using by decide
    obtain ⟨part, hp⟩ := exists_isDigits_of_isFraction (List.cons_ne_nil _ _) hzero (by decide) h
    exact ⟨['0'], part, rest, rfl, hp⟩
  · rename_i c rest _
    simp only [Bool.and_eq_true, decide_eq_true_eq] at h
    obtain ⟨⟨⟨h1, h9⟩, hlen⟩, hf⟩ := h
    have hc : isDecimalDigit c = true := by
      refine isDecimalDigit_of_isDigit ?_
      simp only [Char.isDigit, Bool.and_eq_true, decide_eq_true_eq]
      exact ⟨UInt32.le_trans (by decide) h1, h9⟩
    have hwhole : ∀ d ∈ c :: rest.takeWhile isDecimalDigit, isDecimalDigit d = true :=
      List.forall_mem_cons.2 ⟨hc, fun d hd => List.mem_takeWhile_imp hd⟩
    obtain ⟨part, hp⟩ := exists_isDigits_of_isFraction (by simp) hwhole
      (by rw [List.length_cons]; omega) hf
    exact ⟨_, part, _, by rw [List.cons_append, List.takeWhile_append_dropWhile], hp⟩
  · cases h

/-- **The amounts of requests** are ones that tables hold. -/
theorem isStored_of_decimal {raw field : String} {d : Decimal} (h : decimal raw field = .ok d) :
    d.IsStored := by
  obtain ⟨s, -, h⟩ := exists_of_bind_eq_ok h
  split_ifs at h with hs
  · obtain ⟨whole, part, tail, hcs, hdigits⟩ := exists_isDigits hs
    split at h
    · rename_i d' hd'
      cases h
      rw [Decimal.ofText?, hcs] at hd'
      exact hdigits.isStored hd'
    · cases h

theorem isStored_of_amount {raw field : String} {d : Decimal} (h : amount raw field = .ok d) :
    d.IsStored := by
  obtain ⟨d', hd, h⟩ := exists_of_bind_eq_ok h
  split_ifs at h
  cases h
  exact isStored_of_decimal hd

end Field

end DoubleEntry
