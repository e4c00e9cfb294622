import DoubleEntry.Power

/-!
# Shortest decimal texts of binary floating point numbers

A finite number of binary64 is `m * 2 ^ q`. The reals that round to it form an interval around it,
whose ends belong to it exactly when `m` is even. Among the decimals in that interval the ones with
the fewest digits are taken, and of those the nearest.

## Main definitions

* `Binary64.parts`: sign, `m` and `q` of a finite number.
* `Binary64.shortest`: digits and exponent of ten of the shortest decimal.
* `Binary64.compactText`: positional from `1e-5` up to sixteen integer digits, else with an
  exponent.
* `Binary64.positionalText`: all digits written out.
-/

namespace DoubleEntry

namespace Binary64

/-- Sign, significand and exponent of two of a finite number, `none` for the others. -/
def parts (x : Float) : Option (Bool × Nat × Int) :=
  let bits : Nat := x.toBits.toNat
  let negative := bits / twoPow 63 == 1
  let exponent : Nat := bits / twoPow 52 % twoPow 11
  let fraction : Nat := bits % twoPow 52
  if exponent = 2047 then none
  else if exponent = 0 then some (negative, fraction, -1074)
  else some (negative, twoPow 52 + fraction, (exponent : Int) - 1075)

/-- The interval of reals that round to `m * 2 ^ q`, in quarters of a unit of the last place. -/
structure Interval where
  /-- Four times the significand, and the ends of the interval in the same unit. -/
  value : Nat
  low : Nat
  high : Nat
  closed : Bool

/-- The interval of a significand; below a power of two the spacing is half as wide. -/
def interval (m : Nat) (q : Int) : Interval where
  value := 4 * m
  low := if m = twoPow 52 ∧ q ≠ -1074 then 4 * m - 1 else 4 * m - 2
  high := 4 * m + 2
  closed := m % 2 = 0

/-- A fraction of natural numbers, times a power of ten. -/
def timesPowerOfTen (n d : Nat) (e : Int) : Nat × Nat :=
  if 0 ≤ e then (n * tenPow e.toNat, d) else (n, d * tenPow (-e).toNat)

/-- Position of the leading digit: the exponent of the largest power of ten not above `n / d`. -/
def leading (n d : Nat) : Int :=
  if d ≤ n then ((Nat.toDigits 10 (n / d)).length : Int) - 1
  else -((Nat.toDigits 10 (d / n)).length : Int)

/-- Is `c * 10 ^ e` inside the interval, whose unit is `1 / d` with values times `scale`? -/
def inside (i : Interval) (scale d : Nat) (c : Nat) (e : Int) : Bool :=
  let (n, k) := timesPowerOfTen c 1 e
  let x := n * d
  let low := i.low * scale * k
  let high := i.high * scale * k
  if i.closed then decide (low ≤ x) && decide (x ≤ high) else decide (low < x) && decide (x < high)

/-- The grid point of `10 ^ e` that is in the interval and nearest to the value. -/
def nearest? (i : Interval) (scale d : Nat) (e : Int) : Option Nat :=
  let v := i.value * scale
  let (n, k) := timesPowerOfTen v d (-e)
  let below := n / k
  let twice := 2 * (n % k)
  match inside i scale d below e, inside i scale d (below + 1) e with
  | true, true =>
    some (if twice < k then below else if k < twice then below + 1 else below + below % 2)
  | true, false => some below
  | false, true => some (below + 1)
  | false, false => none

/-- The first grid with a point in the interval, coarsest first. -/
def search (i : Interval) (scale d : Nat) (top : Int) : (count : Nat) → Nat → Nat × Int
  | 0, _ => (0, 0)
  | count + 1, digits =>
    match nearest? i scale d (top - digits) with
    | some c => (c, top - digits)
    | none => search i scale d top count (digits + 1)

/-- Takes trailing noughts off the digits. -/
def stripNoughts : Nat → Nat → Int → Nat × Int
  | 0, c, e => (c, e)
  | fuel + 1, c, e => if c ≠ 0 ∧ c % 10 = 0 then stripNoughts fuel (c / 10) (e + 1) else (c, e)

/-- Digits `c` and exponent `e` of the shortest decimal `c * 10 ^ e` of `m * 2 ^ q`. -/
def shortest (m : Nat) (q : Int) : Nat × Int :=
  if m = 0 then (0, 0)
  else
    let i := interval m q
    let scale := twoPow (q - 2).toNat
    let d := twoPow (2 - q).toNat
    let (c, e) := search i scale d (leading (i.value * scale) d) 18 0
    stripNoughts 18 c e

/-- The digits of `c * 10 ^ e` written out, with a fraction only if there is one. -/
def plain (c : Nat) (e : Int) : String :=
  let ds := Nat.toDigits 10 c
  if 0 ≤ e then String.ofList (ds ++ List.replicate e.toNat '0')
  else
    let places := (-e).toNat
    let ds := List.replicate (places + 1 - ds.length) '0' ++ ds
    String.ofList (ds.take (ds.length - places) ++ '.' :: ds.drop (ds.length - places))

/-- All digits of a number written out; the others have names. -/
def positionalText (x : Float) : String :=
  match parts x with
  | none => if x.isNaN then "NaN" else if x < 0 then "-inf" else "inf"
  | some (negative, m, q) =>
    let (c, e) := shortest m q
    (if negative then "-" else "") ++ (if c = 0 then "0" else plain c e)

/-- The scientific form of `c * 10 ^ e`: one digit before the point. -/
def scientific (c : Nat) (e : Int) : String :=
  let ds := Nat.toDigits 10 c
  let exponent := e + (ds.length - 1 : Nat)
  let mantissa := match ds with
    | [] => ['0']
    | [d] => [d]
    | d :: rest => d :: '.' :: rest
  String.ofList mantissa ++ "e" ++ toString exponent

/-- Positional between `1e-5` and sixteen integer digits, always with a point; else scientific. -/
def compactText (x : Float) : Option String :=
  (parts x).map fun (negative, m, q) =>
    let (c, e) := shortest m q
    let magnitude := e + (Nat.toDigits 10 c).length
    (if negative then "-" else "") ++
      (if c = 0 then "0.0"
       else if 0 ≤ e ∧ magnitude ≤ 16 then plain c e ++ ".0"
       else if -5 < magnitude ∧ magnitude ≤ 16 then plain c e
       else scientific c e)

end Binary64

end DoubleEntry
