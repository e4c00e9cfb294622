import DoubleEntry.Proofs.Amount
import DoubleEntry.Proofs.Millionths

/-!
# Decimals as units of the last place

A decimal has at most 28 places, so it is a whole number of units of the 28th.  A sum depends on the
units of its terms alone: how many places these are written with changes neither which places of the
sum are given up nor whether it overflows.

## Main definitions

* `Decimal.units`: the number that a decimal denotes, in units of the 28th place.
* `Decimal.InMillionths`: a whole number of millionths, with any number of places.

## Main results

* `Decimal.units_toAmount`: the amount at six places is the same number of units, if that is a whole
  number of millionths.
* `Decimal.add_congr`: sums of the same units are the same units.
-/

namespace DoubleEntry

theorem divHalfEven_mul_right (n d : Nat) {k : Nat} (hk : 0 < k) :
    divHalfEven (n * k) (d * k) = divHalfEven n d := by
  have hlt (x y : Nat) : 2 * (x * k) < y * k ↔ 2 * x < y := by
    rw [← Nat.mul_assoc, Nat.mul_lt_mul_right hk]
  have hgt (x y : Nat) : y * k < 2 * (x * k) ↔ y < 2 * x := by
    rw [← Nat.mul_assoc, Nat.mul_lt_mul_right hk]
  simp only [divHalfEven, Nat.mul_div_mul_right _ _ hk, Nat.mul_mod_mul_right, hlt, hgt]

theorem divHalfEven_mul_left (q : Nat) {d : Nat} (hd : 0 < d) : divHalfEven (q * d) d = q := by
  simp [divHalfEven, Nat.mul_div_cancel _ hd, hd]

namespace Decimal

variable {a b a' b' d : Decimal}

/-- The number that a decimal denotes, in units of the 28th place. -/
def units (d : Decimal) : Int := d.numerator * tenPow (28 - d.places)

theorem units_mul_tenPow (d : Decimal) : d.units * tenPow d.places = d.numerator * tenPow 28 := by
  rw [units, mul_assoc, ← Nat.cast_mul, ← tenPow_add, Nat.sub_add_cancel d.places_le]

theorem sameValue_iff_units : a.sameValue b = true ↔ a.units = b.units := by
  have h28 := tenPow_int_pos 28
  have hboth : (0 : Int) < tenPow a.places * tenPow b.places :=
    mul_pos (tenPow_int_pos _) (tenPow_int_pos _)
  have hcross (c d : Decimal) : c.numerator * tenPow d.places * tenPow 28 =
      c.units * (tenPow c.places * tenPow d.places) := by
    rw [← mul_assoc, units_mul_tenPow]
    ring
  rw [sameValue_iff, ← mul_left_inj' h28.ne', hcross, hcross, mul_comm (tenPow b.places : Int),
    mul_left_inj' hboth.ne']

theorem units_eq_of_places_le (h : d.places ≤ amountPlaces) :
    d.units = d.millionths * tenPow (28 - amountPlaces) :=
  (mul_tenPow_sub d.numerator h (by decide)).symm

theorem sameValue_iff_millionths (ha : a.IsSix) (hb : b.IsSix) :
    a.sameValue b = true ↔ a.millionths = b.millionths := by
  rw [sameValue_iff_units, units_eq_of_places_le ha.places_le_six,
    units_eq_of_places_le hb.places_le_six, mul_left_inj' (tenPow_int_pos _).ne']

theorem isZero_iff_units : d.isZero = true ↔ d.units = 0 := by
  have := tenPow_int_pos (28 - d.places)
  rw [isZero_iff, units, mul_eq_zero]
  omega

/-! ### Six places -/

/-- A whole number of millionths, with any number of places. -/
def InMillionths (d : Decimal) : Prop := tenPow d.places ∣ d.coeff * tenPow amountPlaces

instance (d : Decimal) : Decidable d.InMillionths := inferInstanceAs (Decidable (_ ∣ _))

theorem units_round (h : d.InMillionths) : (d.round amountPlaces).units = d.units := by
  by_cases hp : d.places ≤ amountPlaces
  · rw [round_of_le hp]
  obtain ⟨k, hk⟩ : ∃ k, d.places = k + amountPlaces := ⟨d.places - amountPlaces, by omega⟩
  have hkp := tenPow_pos k
  obtain ⟨q, hq⟩ : tenPow k ∣ d.coeff := by
    rw [InMillionths, hk, tenPow_add] at h
    exact Nat.dvd_of_mul_dvd_mul_right (tenPow_pos amountPlaces) h
  rw [mul_comm] at hq
  have hround : divHalfEven d.coeff (tenPow (d.places - amountPlaces)) = q := by
    rw [hk, Nat.add_sub_cancel, hq, divHalfEven_mul_left q hkp]
  have h28 := d.places_le
  have hpow : tenPow (28 - amountPlaces) = tenPow k * tenPow (28 - d.places) := by
    rw [← tenPow_add]
    congr 1
    omega
  have hnumerator : (d.round amountPlaces).numerator * tenPow k = d.numerator := by
    rw [round, dif_neg hp]
    simp only [numerator, hround]
    rw [hq]
    rcases Nat.eq_zero_or_pos q with rfl | hq0
    · simp
    · have hne : (q != 0) = true := by simpa using hq0.ne'
      rw [hne, Bool.and_true]
      split_ifs <;> push_cast <;> ring
  have hplaces : (d.round amountPlaces).places = amountPlaces := by rw [round, dif_neg hp]
  rw [units, hplaces, hpow, units, ← hnumerator]
  push_cast
  ring

/-- **The amount at six places** denotes the same number, if that is one of millionths. -/
theorem units_toAmount (h : d.InMillionths) : d.toAmount.units = d.units := by
  rw [← units_round h]
  exact sameValue_iff_units.1 (sameValue_widenBy _ _)

/-! ### Sums -/

/-- The units of a number at some places, if it fits with as many of these as it takes. -/
def fitUnits (s : Int) (places : Nat) : Option Int :=
  (fit (decide (s < 0)) s.natAbs places).map units

theorem fitUnits_eq {s : Int} {p : Nat} (hs : s.natAbs < twoPow 96) (hp : p ≤ 28) :
    fitUnits s p = some (s * tenPow (28 - p)) := by
  rw [fitUnits, fit_parts hs hp, Option.map_some, units, numerator_ofInt]

/-- With one place more, and one more given up, the same is left. -/
theorem fitAt_mul_ten (negative : Bool) (n p dropped : Nat) :
    fitAt negative (n * 10) p (dropped + 1) = fitAt negative n p dropped := by
  have hround (k : Nat) : divHalfEven (n * 10) (tenPow (k + 1)) = divHalfEven n (tenPow k) :=
    divHalfEven_mul_right n (tenPow k) (by decide)
  induction p generalizing dropped with
  | zero => rw [fitAt, fitAt, hround]
  | succ p ih => rw [fitAt, fitAt, hround, ih]

theorem fitUnits_mul_ten (s : Int) {p : Nat} (hp : p + 1 ≤ 28) :
    fitUnits (s * 10) (p + 1) = fitUnits s p := by
  by_cases hfit : (s * 10).natAbs < twoPow 96
  · rw [fitUnits_eq hfit hp, fitUnits_eq (by omega) (by omega), mul_assoc, ← Nat.cast_ofNat,
      ← Nat.cast_mul, Nat.mul_comm 10, ← tenPow_succ]
    congr 4
    omega
  · -- the place more is given up at once
    have hneg : decide (s * 10 < 0) = decide (s < 0) := decide_eq_decide.2 (by omega)
    have habs : (s * 10).natAbs = s.natAbs * 10 := Int.natAbs_mul s 10
    have hnone : ofParts? (decide (s < 0)) (s.natAbs * 10) (p + 1) = none :=
      dif_neg fun h => hfit (habs ▸ h.1)
    rw [fitUnits, fitUnits, fit, fitAt, hneg, habs, tenPow_zero, divHalfEven_one, hnone,
      Option.none_or, fitAt_mul_ten, fit]

theorem fitUnits_mul_tenPow (s : Int) (p k : Nat) (hp : p + k ≤ 28) :
    fitUnits (s * tenPow k) (p + k) = fitUnits s p := by
  induction k with
  | zero => rw [tenPow_zero, Nat.cast_one, mul_one, Nat.add_zero]
  | succ k ih =>
    rw [tenPow_succ, Nat.cast_mul, ← mul_assoc, ← Nat.add_assoc]
    exact (fitUnits_mul_ten _ hp).trans (ih (by omega))

theorem fitUnits_of_le {s : Int} {p : Nat} (hp : p ≤ 28) :
    fitUnits (s * tenPow (28 - p)) 28 = fitUnits s p := by
  have h := fitUnits_mul_tenPow s p (28 - p) (by omega)
  rwa [Nat.add_sub_cancel' hp] at h

theorem fitUnits_units (d : Decimal) : fitUnits d.units 28 = some d.units := by
  have hfit : d.numerator.natAbs < twoPow 96 := d.natAbs_numerator ▸ d.coeff_lt
  rw [units, fitUnits_of_le d.places_le, fitUnits_eq hfit d.places_le]

/-- **A sum** is what fits of the sum of the units. -/
theorem map_units_add (a b : Decimal) : (a.add b).map units = fitUnits (a.units + b.units) 28 := by
  by_cases ha0 : a.isZero = true
  · rw [add_zero_left ha0, isZero_iff_units.1 ha0, zero_add, fitUnits_units]
    rfl
  by_cases hb0 : b.isZero = true
  · rw [add_zero_right (Bool.eq_false_of_not_eq_true ha0) hb0, isZero_iff_units.1 hb0, add_zero,
      fitUnits_units]
    rfl
  obtain ⟨p, hp⟩ : ∃ p, p = max a.places b.places := ⟨_, rfl⟩
  obtain ⟨s, hs⟩ : ∃ s, s = a.numerator * tenPow (p - a.places) +
    b.numerator * tenPow (p - b.places) := ⟨_, rfl⟩
  have hpa := a.places_le
  have hpb := b.places_le
  have hp28 : p ≤ 28 := by omega
  have hsum : a.units + b.units = s * tenPow (28 - p) := by
    rw [hs, add_mul, mul_tenPow_sub _ (by omega) hp28, mul_tenPow_sub _ (by omega) hp28, units,
      units]
  have hadd : a.add b = if s = 0 then vanished a b p else fit (decide (s < 0)) s.natAbs p := by
    simp only [add, ha0, hb0, Bool.false_eq_true, if_false, ← hp, ← hs]
  rw [hsum, fitUnits_of_le hp28, hadd]
  by_cases hs0 : s = 0
  · have h96 : 0 < twoPow 96 := by decide
    rw [if_pos hs0, fitUnits_eq (by rw [hs0]; exact h96) hp28, hs0, zero_mul, vanished, ofParts?,
      dif_pos ⟨h96, hp28⟩]
    simp [units, numerator]
  · rw [if_neg hs0]
    rfl

/-- **Sums of the same units** overflow alike, or are the same units. -/
theorem add_congr (ha : a.units = a'.units) (hb : b.units = b'.units) :
    Option.Rel (fun c c' => c.units = c'.units) (a.add b) (a'.add b') := by
  have h : (a.add b).map units = (a'.add b').map units := by
    rw [map_units_add, map_units_add, ha, hb]
  generalize a.add b = x at h
  generalize a'.add b' = y at h
  cases x with
  | none =>
    cases y with
    | none => exact .none
    | some c' => cases h
  | some c =>
    cases y with
    | none => cases h
    | some c' => exact .some (Option.some.inj h)

end Decimal

end DoubleEntry
