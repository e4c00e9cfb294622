import DoubleEntry.Power

/-!
# Decimal numbers

A `Decimal` is a coefficient below `2 ^ 96` with a number of decimal places up to 28 and a sign.
It keeps its places: `5` and `5.00` are two decimals that denote one number. `numerator` and
`places` give that number exactly, as `numerator / 10 ^ places`; `Decimal.compare` orders decimals
by it.

## Main definitions

* `Decimal`: the type, with both bounds in it.
* `Decimal.ofParts?`: a decimal of given parts, if they are within the bounds.
* `Decimal.compare`, `Decimal.sameValue`: comparison of the numbers denoted.
* `divHalfEven`: division to the nearest integer, a half going to the even neighbour.
-/

namespace DoubleEntry

/-- A signed decimal number with its places kept. -/
structure Decimal where
  negative : Bool
  coeff : Nat
  places : Nat
  coeff_lt : coeff < twoPow 96
  places_le : places ≤ 28
deriving DecidableEq

namespace Decimal

/-- The decimal of these parts, if the coefficient and the places are within their bounds. -/
def ofParts? (negative : Bool) (coeff places : Nat) : Option Decimal :=
  if h : coeff < twoPow 96 ∧ places ≤ 28 then some ⟨negative, coeff, places, h.1, h.2⟩ else none

/-- Nought without places. -/
def zero : Decimal := ⟨false, 0, 0, by decide, by decide⟩

instance : Inhabited Decimal := ⟨zero⟩

/-- Denotes nought, whatever the places and the sign. -/
def isZero (d : Decimal) : Bool := d.coeff == 0

/-- The signed coefficient: the number denoted is `numerator / 10 ^ places`. -/
def numerator (d : Decimal) : Int := if d.negative then -(d.coeff : Int) else d.coeff

/-- The decimal of an integer, if it is small enough. -/
def ofInt? (n : Int) : Option Decimal := ofParts? (decide (n < 0)) n.natAbs 0

/-- The same coefficient with the other sign. -/
def neg (d : Decimal) : Decimal := { d with negative := !d.negative }

/-- The same coefficient without a sign. -/
def abs (d : Decimal) : Decimal := { d with negative := false }

/-- Order of the numbers denoted. -/
def compare (a b : Decimal) : Ordering :=
  Ord.compare (a.numerator * tenPow b.places) (b.numerator * tenPow a.places)

/-- The two decimals denote one number. -/
def sameValue (a b : Decimal) : Bool :=
  a.numerator * tenPow b.places == b.numerator * tenPow a.places

theorem sameValue_iff {a b : Decimal} :
    a.sameValue b = true ↔ a.numerator * tenPow b.places = b.numerator * tenPow a.places := by
  simp [sameValue]

theorem isZero_iff {d : Decimal} : d.isZero = true ↔ d.numerator = 0 := by
  simp only [isZero, numerator, beq_iff_eq]
  split <;> omega

theorem ofParts?_eq_some {negative : Bool} {coeff places : Nat} {d : Decimal}
    (h : ofParts? negative coeff places = some d) :
    d.negative = negative ∧ d.coeff = coeff ∧ d.places = places := by
  unfold ofParts? at h
  split at h
  · cases h; exact ⟨rfl, rfl, rfl⟩
  · cases h

end Decimal

/-- The integer nearest to `n / d`; a half goes to the even neighbour. -/
def divHalfEven (n d : Nat) : Nat :=
  let q := n / d
  let r := n % d
  if 2 * r < d then q else if d < 2 * r then q + 1 else q + q % 2

theorem divHalfEven_le {n d : Nat} (hd : 2 ≤ d) : divHalfEven n d ≤ n := by
  have hn : d * (n / d) + n % d = n := Nat.div_add_mod n d
  have hq : 2 * (n / d) ≤ d * (n / d) := Nat.mul_le_mul_right _ hd
  simp only [divHalfEven]
  split
  · omega
  · split <;> omega

theorem divHalfEven_one (n : Nat) : divHalfEven n 1 = n := by
  simp [divHalfEven, Nat.mod_one]

end DoubleEntry
