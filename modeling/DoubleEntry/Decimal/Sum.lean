import DoubleEntry.Decimal.Basic

/-!
# Sums of decimals

A sum is taken exactly at the larger number of places of the two. If its coefficient does not fit,
places are given up, as few as possible, the last kept one rounded half to even; a sum that does
not fit without places either is an overflow (`none`). A nought on either side leaves the other
side as it is, places included.

## Main definitions

* `Decimal.add`, `Decimal.sub`: the two operations.
* `Decimal.sum`: the sum of a list, from the left.
-/

namespace DoubleEntry

namespace Decimal

/-- The number `n / 10 ^ (p + dropped)` at `p` places, or at as many fewer as it takes to fit. -/
def fitAt (negative : Bool) (n : Nat) : (p dropped : Nat) → Option Decimal
  | 0, dropped => ofParts? negative (divHalfEven n (tenPow dropped)) 0
  | p + 1, dropped =>
    (ofParts? negative (divHalfEven n (tenPow dropped)) (p + 1)).or
      (fitAt negative n p (dropped + 1))

/-- The decimal nearest to `n / 10 ^ places`, with as many of these places as fit. -/
def fit (negative : Bool) (n places : Nat) : Option Decimal := fitAt negative n places 0

/-- A sum that vanishes keeps the sign of its first term as long as both terms are short. -/
def vanished (a b : Decimal) (places : Nat) : Option Decimal :=
  ofParts? (a.negative && decide (a.coeff < twoPow 32) && decide (b.coeff < twoPow 32)) 0 places

/-- The sum of two decimals, `none` if it overflows. -/
def add (a b : Decimal) : Option Decimal :=
  if a.isZero then some b
  else if b.isZero then some a
  else
    let places := max a.places b.places
    let s := a.numerator * tenPow (places - a.places) + b.numerator * tenPow (places - b.places)
    if s = 0 then vanished a b places else fit (decide (s < 0)) s.natAbs places

/-- The difference of two decimals, `none` if it overflows. -/
def sub (a b : Decimal) : Option Decimal :=
  if a.isZero && b.isZero then some b else add a b.neg

/-- The sum of a list from the left, `none` as soon as one step overflows. -/
def sum (ds : List Decimal) : Option Decimal := ds.foldlM add zero

theorem add_zero_left {a b : Decimal} (h : a.isZero = true) : add a b = some b := by
  simp [add, h]

theorem add_zero_right {a b : Decimal} (ha : a.isZero = false) (hb : b.isZero = true) :
    add a b = some a := by
  simp [add, ha, hb]

end Decimal

end DoubleEntry
