import DoubleEntry.Decimal.Sum
import DoubleEntry.Decimal.Text
import Mathlib.Tactic.Linarith
import Mathlib.Tactic.Ring
import Mathlib.Tactic.SplitIfs

/-!
# Amounts as millionths

A decimal of at most six places denotes a whole number of millionths, and as long as these fit into
a coefficient, all that is done with such decimals is exact: the amount at six places is that
number, and sums and differences are those of integers.

## Main definitions

* `Decimal.millionths`: the number that a decimal denotes, in millionths.
* `Decimal.IsSix`: at most six places, and a sign only below nought.

## Main results

* `Decimal.toAmount_eq_of_millionths`: the amount at six places depends on the millionths alone.
* `Decimal.exists_add`, `Decimal.exists_sub`: sums and differences.
-/

namespace DoubleEntry

namespace Decimal

/-- The number that a decimal denotes, in millionths. -/
def millionths (d : Decimal) : Int := d.numerator * tenPow (amountPlaces - d.places)

/-- At most six places, and a sign only below nought. -/
structure IsSix (d : Decimal) : Prop where
  places_le_six : d.places ≤ amountPlaces
  sign : d.negative = decide (d.millionths < 0)

variable {a b d : Decimal}

theorem tenPow_int_pos (n : Nat) : (0 : Int) < tenPow n := by exact_mod_cast tenPow_pos n

theorem mul_tenPow_sub (n : Int) {p q r : Nat} (hpq : p ≤ q) (hqr : q ≤ r) :
    n * tenPow (q - p) * tenPow (r - q) = n * tenPow (r - p) := by
  have hpow : tenPow (q - p) * tenPow (r - q) = tenPow (r - p) := by
    rw [← tenPow_add, Nat.add_comm, Nat.sub_add_sub_cancel hqr hpq]
  rw [mul_assoc, ← Nat.cast_mul, hpow]

theorem natAbs_numerator (d : Decimal) : d.numerator.natAbs = d.coeff := by
  unfold numerator
  split_ifs <;> simp

theorem natAbs_millionths (d : Decimal) :
    d.millionths.natAbs = d.coeff * tenPow (amountPlaces - d.places) := by
  rw [millionths, Int.natAbs_mul, natAbs_numerator, Int.natAbs_natCast]

theorem numerator_neg_iff : d.numerator < 0 ↔ d.millionths < 0 := by
  rw [millionths, mul_neg_iff]
  have := tenPow_int_pos (amountPlaces - d.places)
  omega

theorem isZero_iff_millionths : d.isZero = true ↔ d.millionths = 0 := by
  have := tenPow_int_pos (amountPlaces - d.places)
  rw [isZero_iff, millionths, mul_eq_zero]
  omega

theorem IsSix.unsigned (hd : d.IsSix) (h0 : 0 ≤ d.millionths) : d.negative = false := by
  rw [hd.sign]
  simpa using h0

theorem isSix_zero : zero.IsSix := ⟨by decide, by decide⟩

theorem millionths_zero : zero.millionths = 0 := rfl

/-! ### Six places -/

theorem widenBy_parts {n : Nat} (hp : d.places + n ≤ 28) (hc : d.coeff * tenPow n < twoPow 96) :
    (widenBy n d).negative = d.negative ∧ (widenBy n d).coeff = d.coeff * tenPow n ∧
      (widenBy n d).places = d.places + n := by
  induction n generalizing d with
  | zero => simp [widenBy, tenPow_zero]
  | succ n ih =>
    have hmul : d.coeff * tenPow (n + 1) = d.coeff * 10 * tenPow n := by
      rw [tenPow_succ]
      ring
    have hle : d.coeff * 10 ≤ d.coeff * 10 * tenPow n := Nat.le_mul_of_pos_right _ (tenPow_pos n)
    have h : d.coeff * 10 < twoPow 96 ∧ d.places + 1 ≤ 28 := by omega
    obtain ⟨hs, hcoeff, hplaces⟩ := ih (d := { d with
      coeff := d.coeff * 10, places := d.places + 1, coeff_lt := h.1, places_le := h.2 })
      (by dsimp only; omega) (by dsimp only; omega)
    rw [widenBy, dif_pos h]
    exact ⟨hs, by rw [hcoeff, hmul], by rw [hplaces]; dsimp only; omega⟩

/-- **The amount at six places** is the number of millionths. -/
theorem toAmount_parts (hd : d.IsSix) (hfit : d.millionths.natAbs < twoPow 96) :
    d.toAmount.negative = decide (d.millionths < 0) ∧ d.toAmount.coeff = d.millionths.natAbs ∧
      d.toAmount.places = amountPlaces := by
  have hp := hd.places_le_six
  rw [natAbs_millionths] at hfit ⊢
  rw [toAmount, round_of_le hp, widen]
  obtain ⟨hs, hc, hpl⟩ := widenBy_parts (d := d) (n := amountPlaces - d.places)
    (by unfold amountPlaces at *; omega) hfit
  exact ⟨by rw [hs, hd.sign], hc, by omega⟩

/-- The amount at six places depends on the millionths alone. -/
theorem toAmount_eq_of_millionths (ha : a.IsSix) (hb : b.IsSix)
    (hfit : a.millionths.natAbs < twoPow 96) (heq : a.millionths = b.millionths) :
    a.toAmount = b.toAmount := by
  obtain ⟨hs, hc, hp⟩ := toAmount_parts ha hfit
  obtain ⟨hs', hc', hp'⟩ := toAmount_parts hb (heq ▸ hfit)
  have hparts : ∀ {x y : Decimal}, x.negative = y.negative → x.coeff = y.coeff →
      x.places = y.places → x = y := by
    rintro ⟨_, _, _, _, _⟩ ⟨_, _, _, _, _⟩ rfl rfl rfl
    rfl
  exact hparts (by rw [hs, hs', heq]) (by rw [hc, hc', heq]) (by rw [hp, hp'])

theorem amountText_eq_of_millionths (ha : a.IsSix) (hb : b.IsSix)
    (hfit : a.millionths.natAbs < twoPow 96) (heq : a.millionths = b.millionths) :
    a.amountText = b.amountText := by
  rw [amountText, amountText, toAmount_eq_of_millionths ha hb hfit heq]

theorem toAmount_six (hd : d.IsSix) (hfit : d.millionths.natAbs < twoPow 96) :
    d.toAmount.IsSix ∧ d.toAmount.millionths = d.millionths := by
  obtain ⟨hs, hc, hp⟩ := toAmount_parts hd hfit
  have hm : d.toAmount.millionths = d.millionths := by
    rw [millionths, hp, Nat.sub_self, tenPow_zero, numerator, hs, hc]
    by_cases h : d.millionths < 0
    · simp only [h, decide_true, if_true]
      omega
    · simp only [h, decide_false, Bool.false_eq_true, if_false]
      omega
  exact ⟨⟨hp.le, by rw [hm, hs]⟩, hm⟩

/-! ### Sums and differences -/

theorem fit_parts {negative : Bool} {n places : Nat} (hn : n < twoPow 96) (hp : places ≤ 28) :
    fit negative n places = some ⟨negative, n, places, hn, hp⟩ := by
  cases places with
  | zero => simp [fit, fitAt, ofParts?, tenPow_zero, divHalfEven_one, hn]
  | succ p => simp [fit, fitAt, ofParts?, tenPow_zero, divHalfEven_one, hn, hp]

theorem numerator_ofInt {s : Int} {p : Nat} (hs : s.natAbs < twoPow 96) (hp : p ≤ 28) :
    (⟨decide (s < 0), s.natAbs, p, hs, hp⟩ : Decimal).numerator = s := by
  by_cases h : s < 0
  · simp only [numerator, h, decide_true, if_true]
    omega
  · simp only [numerator, h, decide_false, Bool.false_eq_true, if_false]
    omega

theorem isSix_ofInt {s : Int} {p : Nat} (hs : s.natAbs < twoPow 96) (hp : p ≤ 28)
    (hsix : p ≤ amountPlaces) : IsSix ⟨decide (s < 0), s.natAbs, p, hs, hp⟩ := by
  refine ⟨hsix, ?_⟩
  have h := numerator_neg_iff (d := ⟨decide (s < 0), s.natAbs, p, hs, hp⟩)
  rw [numerator_ofInt] at h
  exact decide_eq_decide.2 h

theorem millionths_eq_of_le {p : Nat} (hd : d.places ≤ p) (hp : p ≤ amountPlaces) :
    d.millionths = d.numerator * tenPow (p - d.places) * tenPow (amountPlaces - p) :=
  (mul_tenPow_sub d.numerator hd hp).symm

/-- **Sums are exact** where a sum of nought begins with a number above it. -/
theorem exists_add (ha : a.IsSix) (hb : b.IsSix)
    (hfit : (a.millionths + b.millionths).natAbs < twoPow 96)
    (hsign : a.millionths + b.millionths = 0 → 0 ≤ a.millionths) :
    ∃ c, a.add b = some c ∧ c.IsSix ∧ c.millionths = a.millionths + b.millionths := by
  by_cases ha0 : a.isZero = true
  · exact ⟨b, add_zero_left ha0, hb, by rw [isZero_iff_millionths.1 ha0, zero_add]⟩
  by_cases hb0 : b.isZero = true
  · exact ⟨a, add_zero_right (Bool.eq_false_of_not_eq_true ha0) hb0, ha,
      by rw [isZero_iff_millionths.1 hb0, add_zero]⟩
  obtain ⟨p, hp⟩ : ∃ p, p = max a.places b.places := ⟨_, rfl⟩
  obtain ⟨s, hs⟩ : ∃ s, s = a.numerator * tenPow (p - a.places) +
    b.numerator * tenPow (p - b.places) := ⟨_, rfl⟩
  have hpa := ha.places_le_six
  have hpb := hb.places_le_six
  have hsix : p ≤ amountPlaces := by omega
  have hp28 : p ≤ 28 := hsix.trans (by decide)
  have hsum : a.millionths + b.millionths = s * tenPow (amountPlaces - p) := by
    rw [millionths_eq_of_le (p := p) (by omega) hsix, millionths_eq_of_le (p := p) (by omega) hsix,
      hs]
    ring
  have hadd : a.add b = if s = 0 then vanished a b p else fit (decide (s < 0)) s.natAbs p := by
    simp only [add, ha0, hb0, Bool.false_eq_true, if_false, ← hp, ← hs]
  by_cases hs0 : s = 0
  · -- a sum of nought has the sign of its first term, which is none
    have h0 : a.millionths + b.millionths = 0 := by rw [hsum, hs0, zero_mul]
    have hneg : a.negative = false := ha.unsigned (hsign h0)
    have h96 : 0 < twoPow 96 := by decide
    refine ⟨⟨false, 0, p, h96, hp28⟩, ?_, ?_, ?_⟩
    · simp [hadd, hs0, vanished, hneg, ofParts?, h96, hp28]
    · exact isSix_ofInt (s := 0) h96 hp28 hsix
    · rw [h0]
      simp [millionths, numerator]
  · have hfits : s.natAbs < twoPow 96 := by
      rw [hsum, Int.natAbs_mul, Int.natAbs_natCast] at hfit
      exact lt_of_le_of_lt (Nat.le_mul_of_pos_right _ (tenPow_pos _)) hfit
    refine ⟨⟨decide (s < 0), s.natAbs, p, hfits, hp28⟩, ?_, isSix_ofInt hfits hp28 hsix, ?_⟩
    · rw [hadd, if_neg hs0, fit_parts hfits hp28]
    · rw [hsum, millionths, numerator_ofInt]

theorem millionths_neg (d : Decimal) : d.neg.millionths = -d.millionths := by
  have hn : d.neg.numerator = -d.numerator := by
    unfold numerator neg
    rcases d.negative with _ | _ <;> simp
  rw [millionths, hn, millionths]
  simp [neg]

/-- **Differences are exact** for numbers that are not below nought. -/
theorem exists_sub (ha : a.IsSix) (hb : b.IsSix) (ha0 : 0 ≤ a.millionths) (hb0 : 0 ≤ b.millionths)
    (hfita : a.millionths.natAbs < twoPow 96) (hfitb : b.millionths.natAbs < twoPow 96) :
    ∃ c, a.sub b = some c ∧ c.IsSix ∧ c.millionths = a.millionths - b.millionths := by
  by_cases hbz : b.isZero = true
  · have hb' := isZero_iff_millionths.1 hbz
    by_cases haz : a.isZero = true
    · exact ⟨b, by simp [sub, haz, hbz], hb, by rw [hb', isZero_iff_millionths.1 haz, sub_zero]⟩
    · refine ⟨a, ?_, ha, by rw [hb', sub_zero]⟩
      have hneg : b.neg.isZero = true := hbz
      simp only [Bool.not_eq_true] at haz
      simp [sub, haz, add_zero_right haz hneg]
  · have hne : b.millionths ≠ 0 := fun h => hbz (isZero_iff_millionths.2 h)
    have hsix : b.neg.IsSix := by
      refine ⟨hb.places_le_six, ?_⟩
      rw [millionths_neg, neg, hb.unsigned hb0]
      simp only [Bool.not_false, true_eq_decide_iff]
      omega
    obtain ⟨c, hc, hcs, hcm⟩ := exists_add (a := a) (b := b.neg) ha hsix
      (by rw [millionths_neg]; omega) fun _ => ha0
    simp only [Bool.not_eq_true] at hbz
    exact ⟨c, by simp [sub, hbz, hc], hcs, by rw [hcm, millionths_neg]; ring⟩

theorem abs_six (hd : d.IsSix) : d.abs.IsSix ∧ d.abs.millionths = d.millionths.natAbs := by
  have hm : d.abs.millionths = d.millionths.natAbs := by
    rw [natAbs_millionths]
    simp [millionths, numerator, abs]
  refine ⟨⟨hd.places_le_six, ?_⟩, hm⟩
  rw [hm]
  simp [abs]

end Decimal

end DoubleEntry
