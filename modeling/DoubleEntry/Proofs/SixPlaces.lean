import DoubleEntry.Proofs.AmountText
import DoubleEntry.Proofs.Units
import Mathlib.Algebra.Order.Ring.Abs

/-!
# What tables keep of an amount

An amount of any sign and any number of places is written with six of them, and read back as the
nearest decimal of six places; of two that are as near, as the one whose last place is even.  An
amount of six places or fewer is read back as the number that it is.  Where the coefficient leaves
no room for noughts, fewer places are written, and a nought is read back without its sign.

## Main definitions

* `Decimal.kept`: the amount that is read back.
* `Decimal.IsNearest`: rounding to six places, a half to the even neighbour.
* `Decimal.IsWide`: as many of six places as there is room for.

## Main results

* `Column.decimal_amountText_kept`: any amount is read back from its text as the one that is kept.
* `Decimal.isNearest_kept`, `Decimal.sameValue_kept`: how much of it is kept.
* `Decimal.kept_kept`: what is kept once is kept as it is.
-/

namespace DoubleEntry

/-- **The quotient is the nearest one**, and it is even if another one is as near. -/
theorem divHalfEven_nearest (n : Nat) {d : Nat} (hd : 0 < d) :
    2 * |(n : Int) - divHalfEven n d * d| ≤ d ∧
      (2 * |(n : Int) - divHalfEven n d * d| = d → divHalfEven n d % 2 = 0) := by
  obtain ⟨q, hq⟩ : ∃ q, q = n / d := ⟨_, rfl⟩
  obtain ⟨r, hr⟩ : ∃ r, r = n % d := ⟨_, rfl⟩
  have hlt : r < d := hr ▸ Nat.mod_lt n hd
  have hn : (n : Int) = q * d + r := by
    have := Nat.div_add_mod' n d
    rw [hq, hr]
    exact_mod_cast this.symm
  have hdown : (n : Int) - q * d = r := by rw [hn]; ring
  have hup : (n : Int) - (q + 1 : Nat) * d = r - d := by rw [hn]; push_cast; ring
  have hdef : divHalfEven n d =
      if 2 * r < d then q else if d < 2 * r then q + 1 else q + q % 2 := by
    rw [hq, hr, divHalfEven]
  rw [hdef]
  split_ifs with h1 h2
  · rw [hdown, abs_of_nonneg (by omega)]
    exact ⟨by omega, by omega⟩
  · rw [hup, abs_of_nonpos (by omega)]
    exact ⟨by omega, by omega⟩
  · -- both neighbours are as near
    obtain heven | hodd := Nat.mod_two_eq_zero_or_one q
    · rw [heven, Nat.add_zero, hdown, abs_of_nonneg (by omega)]
      exact ⟨by omega, fun _ => heven⟩
    · rw [hodd, hup, abs_of_nonpos (by omega)]
      exact ⟨by omega, fun _ => by omega⟩

namespace Decimal

variable {d : Decimal}

/-! ### Texts with a sign -/

/-- The decimal without the sign of a nought. -/
def signless (d : Decimal) : Decimal := { d with negative := d.negative && d.coeff != 0 }

theorem toChars_of_negative (hs : d.negative = true) : d.toChars = '-' :: d.abs.toChars := by
  simp [toChars, abs, hs]

/-- **A decimal is read back from its text**, but for the sign of a nought. -/
theorem ofText?_toText_signless (d : Decimal) : ofText? d.toText = some d.signless := by
  cases hs : d.negative with
  | false =>
    have hsign : d.signless = d := by
      rw [signless, hs, Bool.false_and, ← hs]
    rw [ofText?_toText hs, hsign]
  | true =>
    have hread : readDigits ⟨false, false, 0, 0⟩ d.abs.toChars = some (d.coeff, d.places) :=
      readDigits_toChars (d := d.abs) rfl
    rw [ofText?, toText, String.toList_ofList, toChars_of_negative hs, ofChars?, splitSign]
    simp only [hread, bind, Option.bind, ofParts?, d.coeff_lt, d.places_le, and_self, dite_true,
      signless, hs]

/-- What tables keep of an amount: six places as far as there is room, and no sign of a nought. -/
def kept (d : Decimal) : Decimal := d.toAmount.signless

theorem kept_of_unsigned (hs : d.negative = false) : d.kept = d.toAmount := by
  rw [kept, signless, unsigned_toAmount hs, Bool.false_and, ← unsigned_toAmount hs]

theorem units_signless (d : Decimal) : d.signless.units = d.units := by
  have hnumerator : d.signless.numerator = d.numerator := by
    unfold numerator signless
    by_cases hc : d.coeff = 0
    · simp [hc]
    · simp [hc]
  rw [units, units, hnumerator]
  rfl

/-! ### Rounding -/

/-- The decimal is the nearest one of six places; of two that are as near, it is the one whose last
place is even. -/
structure IsNearest (d e : Decimal) : Prop where
  half : 2 * |d.units - e.units| ≤ tenPow (28 - amountPlaces)
  even : ∃ m : Int, e.units = m * tenPow (28 - amountPlaces) ∧
    (2 * |d.units - e.units| = tenPow (28 - amountPlaces) → Even m)

theorem isNearest_self (h : d.places ≤ amountPlaces) : IsNearest d d := by
  have hpos := tenPow_int_pos (28 - amountPlaces)
  refine ⟨by simp, d.millionths, units_eq_of_places_le h, fun htie => ?_⟩
  rw [sub_self, abs_zero, mul_zero] at htie
  exact absurd htie hpos.ne

/-- What is nearest is told by the numbers that the decimals denote. -/
theorem IsNearest.congr {e e' : Decimal} (h : IsNearest d e) (he : e'.units = e.units) :
    IsNearest d e' := by
  refine ⟨?_, ?_⟩
  · rw [he]
    exact h.half
  · rw [he]
    exact h.even

theorem abs_units_sub {d e : Decimal} (hsign : d.negative = e.negative ∨ e.coeff = 0) :
    |d.units - e.units| = |(d.coeff * tenPow (28 - d.places) : Int) -
      e.coeff * tenPow (28 - e.places)| := by
  have hnumerator (c : Decimal) : c.units = if c.negative then -(c.coeff * tenPow (28 - c.places) :
      Int) else c.coeff * tenPow (28 - c.places) := by
    rw [units, numerator]
    split_ifs
    · ring
    · rfl
  obtain hsign | h0 := hsign
  · rw [hnumerator d, hnumerator e, ← hsign]
    split_ifs
    · rw [← abs_neg]
      congr 1
      ring
    · rfl
  · have he : e.units = 0 := by rw [hnumerator, h0]; simp
    rw [he, h0, hnumerator d]
    split_ifs <;> simp

/-- **Places are given up** so that the nearest decimal is left. -/
theorem isNearest_round (d : Decimal) : IsNearest d (d.round amountPlaces) := by
  by_cases hp : d.places ≤ amountPlaces
  · rw [round_of_le hp]
    exact isNearest_self hp
  obtain ⟨k, hk⟩ : ∃ k, d.places = k + amountPlaces := ⟨d.places - amountPlaces, by omega⟩
  obtain ⟨q, hq⟩ : ∃ q, q = divHalfEven d.coeff (tenPow k) := ⟨_, rfl⟩
  have h28 := d.places_le
  have hpow : (tenPow (28 - amountPlaces) : Int) = tenPow k * tenPow (28 - d.places) := by
    rw [← Nat.cast_mul, ← tenPow_add]
    congr 2
    omega
  obtain ⟨hneg, hcoeff, hplaces⟩ : (d.round amountPlaces).negative = (d.negative && q != 0) ∧
      (d.round amountPlaces).coeff = q ∧ (d.round amountPlaces).places = amountPlaces := by
    have hsub : d.places - amountPlaces = k := by omega
    rw [round, dif_neg hp, hq, ← hsub]
    exact ⟨rfl, rfl, rfl⟩
  have hsign : d.negative = (d.round amountPlaces).negative ∨ (d.round amountPlaces).coeff = 0 := by
    rw [hneg, hcoeff]
    by_cases h0 : q = 0
    · exact .inr h0
    · simp [h0]
  have hdist : |d.units - (d.round amountPlaces).units| =
      |(d.coeff : Int) - q * tenPow k| * tenPow (28 - d.places) := by
    rw [abs_units_sub hsign, hcoeff, hplaces, hpow, ← mul_assoc, ← sub_mul, abs_mul,
      abs_of_pos (tenPow_int_pos (28 - d.places))]
  obtain ⟨hhalf, heven⟩ := divHalfEven_nearest d.coeff (tenPow_pos k)
  rw [← hq] at hhalf heven
  have hpos := tenPow_int_pos (28 - d.places)
  refine ⟨?_, (d.round amountPlaces).numerator, ?_, fun htie => ?_⟩
  · rw [hdist, hpow, ← mul_assoc]
    exact mul_le_mul_of_nonneg_right hhalf hpos.le
  · rw [units, hplaces]
  · rw [hdist, hpow, ← mul_assoc, mul_left_inj' hpos.ne'] at htie
    have hq2 : Even (q : Int) := by
      rw [Int.even_iff]
      exact_mod_cast heven htie
    rw [numerator, hcoeff]
    split_ifs
    · exact hq2.neg
    · exact hq2

theorem units_kept (d : Decimal) : d.kept.units = (d.round amountPlaces).units := by
  rw [kept, units_signless]
  exact sameValue_iff_units.1 (sameValue_widenBy _ _)

/-- **The amount that is kept is the nearest one** of six places. -/
theorem isNearest_kept (d : Decimal) : IsNearest d d.kept :=
  (isNearest_round d).congr (units_kept d)

/-- **An amount of at most six places** is kept as the number that it is. -/
theorem sameValue_kept (h : d.places ≤ amountPlaces) : d.kept.sameValue d = true := by
  rw [sameValue_iff_units, units_kept, round_of_le h]

/-! ### Room for noughts -/

/-- The decimal has six places, or as many as there is room for. -/
structure IsWide (d : Decimal) : Prop where
  places : d.places ≤ amountPlaces
  full : amountPlaces ≤ d.places ∨ twoPow 96 ≤ d.coeff * 10

theorem isWide_widenBy {n : Nat} (h : d.places + n = amountPlaces) : (widenBy n d).IsWide := by
  induction n generalizing d with
  | zero => exact ⟨h.le, .inl h.ge⟩
  | succ n ih =>
    have h28 : d.places + 1 ≤ 28 := by
      unfold amountPlaces at h
      omega
    rw [widenBy]
    split_ifs with hroom
    · exact ih (by dsimp only; omega)
    · exact ⟨by omega, .inr (by omega)⟩

theorem isWide_toAmount (d : Decimal) : d.toAmount.IsWide := by
  have := places_round_le d amountPlaces
  exact isWide_widenBy (by omega)

/-- There is no room for noughts behind a wide decimal. -/
theorem IsWide.toAmount_eq (h : d.IsWide) : d.toAmount = d := by
  rw [toAmount, round_of_le h.places, widen]
  obtain hfull | hfull := h.full
  · rw [Nat.sub_eq_zero_of_le hfull, widenBy]
  · have hroom : ¬ (d.coeff * 10 < twoPow 96 ∧ d.places + 1 ≤ 28) := by omega
    cases amountPlaces - d.places with
    | zero => rfl
    | succ n => rw [widenBy, dif_neg hroom]

/-- **What is kept once is kept as it is.** -/
theorem kept_kept (d : Decimal) : d.kept.kept = d.kept := by
  have hwide : d.kept.IsWide := ⟨(isWide_toAmount d).places, (isWide_toAmount d).full⟩
  rw [kept, hwide.toAmount_eq, signless, kept, signless, Bool.and_assoc, Bool.and_self]

end Decimal

/-- **Any amount is read back** from its text as the one that tables keep. -/
theorem Column.decimal_amountText_kept (d : Decimal) :
    Column.decimal d.amountText = .ok d.kept := by
  rw [Column.decimal, Decimal.amountText, Decimal.ofText?_toText_signless]
  rfl

end DoubleEntry
