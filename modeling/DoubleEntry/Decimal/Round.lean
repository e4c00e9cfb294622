import DoubleEntry.Decimal.Basic

/-!
# Amounts at six places

An amount is shown and stored with six places: rounded half to even if it has more, widened by
noughts if it has fewer. Widening stops without a word where the coefficient would no longer fit.

## Main definitions

* `Decimal.round`: at most so many places.
* `Decimal.widen`: at least so many places, as far as the coefficient allows.
* `Decimal.toAmount`: both, at six places.
-/

namespace DoubleEntry

namespace Decimal

/-- At most `places` places, the last one rounded half to even. -/
def round (d : Decimal) (places : Nat) : Decimal :=
  if h : d.places ≤ places then d
  else
    have hle : divHalfEven d.coeff (tenPow (d.places - places)) ≤ d.coeff :=
      divHalfEven_le (by
        have h1 : tenPow 1 ≤ tenPow (d.places - places) := tenPow_le_tenPow (by omega)
        have h2 : tenPow 1 = 10 := rfl
        omega)
    let q := divHalfEven d.coeff (tenPow (d.places - places))
    ⟨d.negative && q != 0, q, places, Nat.lt_of_le_of_lt hle d.coeff_lt, by
      have := d.places_le
      omega⟩

/-- Up to `n` more places, as long as the coefficient fits. -/
def widenBy : Nat → Decimal → Decimal
  | 0, d => d
  | n + 1, d =>
    if h : d.coeff * 10 < twoPow 96 ∧ d.places + 1 ≤ 28 then
      widenBy n { d with coeff := d.coeff * 10, places := d.places + 1, coeff_lt := h.1,
                         places_le := h.2 }
    else d

/-- Widened to `places` places, as far as the coefficient allows. -/
def widen (d : Decimal) (places : Nat) : Decimal := widenBy (places - d.places) d

/-- Places of an amount. -/
def amountPlaces : Nat := 6

/-- The amount at six places. -/
def toAmount (d : Decimal) : Decimal := (d.round amountPlaces).widen amountPlaces

theorem round_of_le {d : Decimal} {places : Nat} (h : d.places ≤ places) :
    d.round places = d := by
  simp [round, h]

theorem places_round_le (d : Decimal) (places : Nat) : (d.round places).places ≤ places := by
  unfold round
  split
  · assumption
  · exact Nat.le_refl _

end Decimal

end DoubleEntry
