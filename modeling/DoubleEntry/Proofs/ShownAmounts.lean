import DoubleEntry.Proofs.AmountGrammar
import Mathlib.Algebra.Ring.Int.Parity

/-!
# Amounts as they are shown

An amount without a sign and below `10 ^ 22` leaves room for six places: it is shown with six digits
behind the point, as the nearest number of millionths, where a half goes to the even neighbour
(`Decimal.amountText_rounds`).  So what is shown is in the order of the amounts, amounts of one
value are shown alike whatever their places, and what was shown is shown again as it is.  Lines of a
journal with a sign are refused as negative, a signed nought among them, and the sums of the others
that a request may ask for stay far below the bound.

## Main definitions

* `IsNearestEven`: rounding to integers, a half to the even neighbour.
* `WritesSix`: a text writes a number with six digits behind the point.
* `Decimal.IsAmount`: the amounts that leave room for six places.

## Main results

* `IsNearestEven.mono`: rounding keeps the order.
* `Decimal.places_toAmount`: there is room for six places.
-/

namespace DoubleEntry

/-! ### Rounding -/

/-- The integer next to a number; of two that are as near, the even one. -/
structure IsNearestEven (x : ℚ) (n : ℤ) : Prop where
  half : |x - n| ≤ 1 / 2
  even : |x - n| = 1 / 2 → Even n

namespace IsNearestEven

variable {x y : ℚ} {m n : ℤ}

/-- **Rounding keeps the order.**  Only a half between two neighbours could be rounded to both, and
one of them is odd. -/
theorem mono (hm : IsNearestEven x m) (hn : IsNearestEven y n) (h : x ≤ y) : m ≤ n := by
  by_contra hlt
  have hsucc : (n : ℚ) + 1 ≤ m := by exact_mod_cast not_le.1 hlt
  have hx := (abs_le.1 hm.half).1
  have hy := (abs_le.1 hn.half).2
  have hx_eq : x - m = -(1 / 2) := by linarith
  have hy_eq : y - n = 1 / 2 := by linarith
  have hm_eq : m = n + 1 := by
    have hcast : (m : ℚ) = n + 1 := by linarith
    exact_mod_cast hcast
  have hhalf : |(1 / 2 : ℚ)| = 1 / 2 := abs_of_pos (by norm_num)
  have heven := hm.even (by rw [hx_eq, abs_neg, hhalf])
  have heven' := hn.even (by rw [hy_eq, hhalf])
  rw [hm_eq, Int.even_add_one] at heven
  exact heven heven'

theorem unique (hm : IsNearestEven x m) (hn : IsNearestEven x n) : m = n :=
  le_antisymm (hm.mono hn le_rfl) (hn.mono hm le_rfl)

theorem intCast (n : ℤ) : IsNearestEven n n := by
  refine ⟨by simp, fun h => ?_⟩
  rw [sub_self, abs_zero] at h
  norm_num at h

end IsNearestEven

/-! ### Six places -/

/-- The text writes the number, with six digits behind the point. -/
def WritesSix (s : String) (q : ℚ) : Prop :=
  ∃ whole part : List (Fin 10), whole ≠ [] ∧ part.length = 6 ∧
    s.toList = whole.map digit ++ '.' :: part.map digit ∧
    q = numeral whole + numeral part / 10 ^ 6

namespace Decimal

variable {a b c d : Decimal}

theorem writesSix_toText (hs : d.negative = false) (hp : d.places = amountPlaces) :
    WritesSix d.toText d.value := by
  obtain ⟨whole, part, hchars, hne, hdigits, hnumber, hlength⟩ := exists_toChars hs
  obtain ⟨hwhole, hpart⟩ := List.forall_mem_append.1 hdigits
  obtain ⟨whole, rfl⟩ := exists_digits hwhole
  obtain ⟨part, rfl⟩ := exists_digits hpart
  have hsix : part.length = 6 := (List.length_map digit).symm.trans (hlength.trans hp)
  have hpoint : (part.map digit).isEmpty = false := by
    rw [List.isEmpty_eq_false_iff, ne_eq, List.map_eq_nil_iff]
    rintro rfl
    cases hsix
  have hcoeff : (d.coeff : ℚ) = numeral whole * 10 ^ 6 + numeral part := by
    rw [← hnumber, ← List.map_append, numberOf_map]
    change (numeral (whole ++ part) : ℚ) = _
    rw [numeral_append, hsix]
    push_cast
    rfl
  refine ⟨whole, part, fun h => hne (by rw [h]; rfl), hsix, ?_, ?_⟩
  · rw [toText, String.toList_ofList, hchars, hpoint]
    rfl
  · have hvalue : d.value = d.coeff / 10 ^ 6 := by
      rw [value, numerator, hs, hp, tenPow_rat]
      rfl
    rw [hvalue, hcoeff]
    ring

theorem units_toAmount_eq (d : Decimal) : d.toAmount.units = (d.round amountPlaces).units :=
  sameValue_iff_units.1 (sameValue_widenBy _ _)

theorem exists_isNearestEven (d : Decimal) :
    ∃ n : ℤ, d.toAmount.value = n / 10 ^ 6 ∧ IsNearestEven (d.value * 10 ^ 6) n := by
  obtain ⟨hhalf, n, hn, heven⟩ := (isNearest_round d).congr (units_toAmount_eq d)
  have hunit : (0 : ℚ) < tenPow (28 - amountPlaces) := tenPow_rat_pos _
  have hpow : (tenPow 28 : ℚ) = tenPow (28 - amountPlaces) * 10 ^ 6 := by
    rw [← tenPow_rat 6, ← Nat.cast_mul, ← tenPow_add]
    rfl
  have hshown : d.toAmount.value = n / 10 ^ 6 := by
    rw [value_eq_units, hn, hpow, Int.cast_mul, Int.cast_natCast, mul_comm (n : ℚ),
      mul_div_mul_left _ _ hunit.ne']
  have hscaled : d.value * 10 ^ 6 = d.units / tenPow (28 - amountPlaces) := by
    rw [value_eq_units, hpow, div_mul_eq_mul_div, mul_div_mul_right _ _ (by norm_num)]
  have hdist : 2 * |d.value * 10 ^ 6 - n| * tenPow (28 - amountPlaces) =
      ((2 * |d.units - d.toAmount.units| : ℤ) : ℚ) := by
    rw [hscaled, hn, mul_assoc, ← abs_of_pos hunit, ← abs_mul, abs_of_pos hunit, sub_mul,
      div_mul_cancel₀ _ hunit.ne']
    push_cast
    rfl
  refine ⟨n, hshown, ?_, fun htie => heven ?_⟩
  · have hle : 2 * |d.value * 10 ^ 6 - n| * (tenPow (28 - amountPlaces) : ℚ) ≤
        1 * tenPow (28 - amountPlaces) := by
      rw [hdist, one_mul]
      exact_mod_cast hhalf
    rw [le_div_iff₀' two_pos]
    exact le_of_mul_le_mul_right hle hunit
  · rw [htie, mul_one_div_cancel two_ne_zero, one_mul] at hdist
    exact_mod_cast hdist.symm

/-- Not negative, by the sign as journals ask for it, and with room for six places. -/
structure IsAmount (d : Decimal) : Prop where
  unsigned : d.negative = false
  lt : d.value < 10 ^ 22

theorem abs_toAmount_le (d : Decimal) : |d.value - d.toAmount.value| ≤ 1 := by
  obtain ⟨n, hn, hnear⟩ := d.exists_isNearestEven
  have hscaled : (d.value - d.toAmount.value) * 10 ^ 6 = d.value * 10 ^ 6 - n := by
    rw [hn]
    ring
  have hhalf := hnear.half
  rw [← hscaled, abs_mul, abs_of_pos (by norm_num : (0 : ℚ) < 10 ^ 6)] at hhalf
  linarith

/-- **There is room for six places**, and some to spare. -/
theorem places_toAmount (hs : d.negative = false) (hlt : d.value < 5 * 10 ^ 22) :
    d.toAmount.places = amountPlaces := by
  obtain ⟨hle, hfull⟩ := isWide_toAmount d
  by_contra hfew
  have hplaces : d.toAmount.places ≤ 5 := by
    unfold amountPlaces at hle hfew
    omega
  have hfull := hfull.resolve_left fun h => hfew (le_antisymm hle h)
  have hpos := tenPow_rat_pos d.toAmount.places
  have hpow : (tenPow d.toAmount.places : ℚ) ≤ 10 ^ 5 := by
    exact_mod_cast tenPow_le_tenPow hplaces
  have hcoeff : (7 * 10 ^ 27 : ℚ) ≤ d.toAmount.coeff := by
    have h96 : 7 * 10 ^ 28 ≤ twoPow 96 := by decide
    have : 7 * 10 ^ 27 ≤ d.toAmount.coeff := by omega
    exact_mod_cast this
  have hvalue : d.toAmount.value * tenPow d.toAmount.places = d.toAmount.coeff := by
    rw [value, div_mul_cancel₀ _ hpos.ne', numerator, unsigned_toAmount hs]
    rfl
  have hnear := (abs_le.1 d.abs_toAmount_le).1
  have hshown : d.toAmount.value ≤ 5 * 10 ^ 22 + 1 := by linarith
  have := mul_le_mul hshown hpow hpos.le (by norm_num)
  rw [hvalue] at this
  linarith

theorem IsAmount.writesSix (h : d.IsAmount) : WritesSix d.amountText d.toAmount.value :=
  writesSix_toText (unsigned_toAmount h.unsigned)
    (places_toAmount h.unsigned (h.lt.trans (by norm_num)))

/-- **The number alone tells what is shown**: what is nearest to two numbers is shown of both. -/
theorem amountText_eq_of_isNearestEven {n : ℤ} (ha : a.negative = false) (hb : b.negative = false)
    (ha' : a.value < 5 * 10 ^ 22) (hb' : b.value < 5 * 10 ^ 22)
    (hna : IsNearestEven (a.value * 10 ^ 6) n) (hnb : IsNearestEven (b.value * 10 ^ 6) n) :
    a.amountText = b.amountText := by
  obtain ⟨m, hm, hnear⟩ := a.exists_isNearestEven
  obtain ⟨m', hm', hnear'⟩ := b.exists_isNearestEven
  have hsame : a.toAmount = b.toAmount := by
    refine eq_of_value ?_ ?_ ?_
    · rw [unsigned_toAmount ha, unsigned_toAmount hb]
    · rw [places_toAmount ha ha', places_toAmount hb hb']
    · rw [hm, hm', hnear.unique hna, hnear'.unique hnb]
  rw [amountText, amountText, hsame]

/-- **Amounts are shown with six places**, rounded half to even and in their order.  The first of
two amounts is shown as the number that it is, if it has at most six places, and any decimal of the
number that is shown is shown in the same way. -/
theorem amountText_rounds (ha : a.IsAmount) (hb : b.IsAmount) :
    ∃ p q : ℚ, WritesSix a.amountText p ∧ WritesSix b.amountText q ∧
      (∃ n : ℤ, p = n / 10 ^ 6 ∧ IsNearestEven (a.value * 10 ^ 6) n) ∧
      (a.places ≤ 6 → p = a.value) ∧
      (∀ c : Decimal, c.negative = false → c.value = p → c.amountText = a.amountText) ∧
      (a.value ≤ b.value → p ≤ q) ∧ (a.value = b.value → a.amountText = b.amountText) := by
  obtain ⟨n, hn, hnear⟩ := a.exists_isNearestEven
  obtain ⟨m, hm, hnear'⟩ := b.exists_isNearestEven
  have hbound {d : Decimal} (hd : d.IsAmount) : d.value < 5 * 10 ^ 22 :=
    hd.lt.trans (by norm_num)
  refine ⟨a.toAmount.value, b.toAmount.value, ha.writesSix, hb.writesSix, ⟨n, hn, hnear⟩,
    fun hp => ?_, fun c hc hvalue => ?_, fun hle => ?_, fun heq => ?_⟩
  · rw [value_inj, units_toAmount_eq]
    exact congrArg units (round_of_le hp)
  · -- the number that is shown is one of millionths, and rounded to itself
    have hclose := (abs_le.1 a.abs_toAmount_le).1
    have hlt := ha.lt
    have hscaled : c.value * 10 ^ 6 = n := by
      rw [hvalue, hn]
      ring
    have hself : IsNearestEven (c.value * 10 ^ 6) n := by
      rw [hscaled]
      exact .intCast n
    exact amountText_eq_of_isNearestEven hc ha.unsigned (by rw [hvalue]; linarith) (hbound ha)
      hself hnear
  · have hmillionths : (n : ℚ) ≤ m := by
      exact_mod_cast hnear.mono hnear' (by linarith)
    rw [hn, hm]
    linarith
  · exact amountText_eq_of_isNearestEven ha.unsigned hb.unsigned (hbound ha) (hbound hb) hnear
      (heq ▸ hnear)

/-- Two millionths and a half. -/
def tie : Decimal := ⟨false, 25, 7, by decide, by decide⟩

/-- The same number with all places that a decimal can have. -/
def longTie : Decimal := ⟨false, 25 * tenPow 21, 28, by decide, by decide⟩

theorem amountText_rounds_tie : tie.IsAmount ∧ longTie.IsAmount ∧ tie.value = longTie.value ∧
    tie.amountText = "0.000002" ∧ longTie.amountText = tie.amountText := by
  have hvalue : tie.value = longTie.value := sameValue_iff_value.1 (by decide)
  have htie : tie.IsAmount := ⟨rfl, by norm_num [value, numerator, tie, tenPow_rat]⟩
  have hlong : longTie.IsAmount := ⟨rfl, hvalue ▸ htie.lt⟩
  obtain ⟨p, q, -, -, -, -, -, -, hsame⟩ := amountText_rounds htie hlong
  exact ⟨htie, hlong, hvalue, by decide +kernel, (hsame hvalue).symm⟩

end Decimal

end DoubleEntry
