import DoubleEntry.Decimal.Sum
import DoubleEntry.Decimal.Round

/-!
# Texts of decimals

A decimal is written with all its places and a minus sign if it has the sign. It is read from an
optional sign, digits with at most one point among them, and underscores after the first digit.
Of more digits than fit, the first one too many rounds (half up) and the rest is not looked at; an
integer part that does not fit is refused. The scientific form adds an exponent of ten.

## Main definitions

* `Decimal.toText`: the written form. `Decimal.amountText`: of the amount at six places.
* `Decimal.ofText?`: the reader. `Decimal.ofScientific?`: the reader of the scientific form.
-/

namespace DoubleEntry

/-- The value of an ASCII digit. -/
def digitValue? (c : Char) : Option Nat :=
  if '0' ≤ c ∧ c ≤ '9' then some (c.toNat - 48) else none

/-- The digits of a number in base ten. -/
def decimalDigits (n : Nat) : List Char := Nat.toDigits 10 n

/-- The digits of a number, with noughts in front up to the width. -/
def paddedDigits (width n : Nat) : List Char :=
  let ds := decimalDigits n
  List.replicate (width - ds.length) '0' ++ ds

/-- The number that a non-empty run of ASCII digits writes, of any length. -/
def natOfDigits? (cs : List Char) : Option Nat :=
  if cs.isEmpty then none
  else cs.foldlM (fun n c => (digitValue? c).map (n * 10 + ·)) 0

namespace Decimal

/-- The written form: sign, integer part, and all places after a point. -/
def toChars (d : Decimal) : List Char :=
  let ds := paddedDigits (d.places + 1) d.coeff
  let whole := ds.take (ds.length - d.places)
  let part := ds.drop (ds.length - d.places)
  (if d.negative then ['-'] else []) ++ whole ++ (if part.isEmpty then [] else '.' :: part)

/-- The written form as a text. -/
def toText (d : Decimal) : String := String.ofList d.toChars

/-- The text of an amount: six places where they fit. -/
def amountText (d : Decimal) : String := d.toAmount.toText

instance : ToString Decimal := ⟨toText⟩

/-- What has been read of a number. -/
structure Reading where
  point : Bool
  started : Bool
  coeff : Nat
  places : Nat

/-- Ends a reading at the first digit too many, which rounds half up. -/
def Reading.roundOff (r : Reading) (c : Char) : Option (Nat × Nat) := do
  let d ← if c = '_' ∨ (c = '.' ∧ r.point) then some 0 else digitValue? c
  if d < 5 then return (r.coeff, r.places)
  if r.coeff + 1 < twoPow 96 then return (r.coeff + 1, r.places)
  if r.places = 0 then none else return ((r.coeff + 5) / 10, r.places - 1)

/-- Reads the digits after the sign: the coefficient and the places. -/
def readDigits (r : Reading) : List Char → Option (Nat × Nat)
  | [] => if r.started then some (r.coeff, r.places) else none
  | c :: cs =>
    match digitValue? c with
    | some d =>
      if r.point && r.places ≥ 28 then r.roundOff c
      else if r.coeff * 10 + d < twoPow 96 then
        readDigits { r with
          started := true, coeff := r.coeff * 10 + d
          places := if r.point then r.places + 1 else 0 } cs
      else if r.point then r.roundOff c else none
    | none =>
      if r.point && r.places ≥ 28 then r.roundOff c
      else if c = '.' ∧ !r.point then readDigits { r with point := true } cs
      else if c = '_' ∧ r.started then readDigits r cs
      else none

/-- The sign in front and what follows it. -/
def splitSign : List Char → Bool × List Char
  | '-' :: cs => (true, cs)
  | '+' :: cs => (false, cs)
  | cs => (false, cs)

/-- Reads a decimal; a nought has no sign. -/
def ofChars? (cs : List Char) : Option Decimal := do
  let (negative, body) := splitSign cs
  let (coeff, places) ← readDigits ⟨false, false, 0, 0⟩ body
  ofParts? (negative && coeff != 0) coeff places

/-- Reads a decimal from a text. -/
def ofText? (s : String) : Option Decimal := ofChars? s.toList

/-- Takes `n` trailing noughts of the places away, at most. -/
def trimPlaces : Nat → Decimal → Decimal
  | 0, d => d
  | n + 1, d =>
    if h : d.coeff % 10 = 0 ∧ 0 < d.places then
      trimPlaces n ⟨d.negative, d.coeff / 10, d.places - 1,
        Nat.lt_of_le_of_lt (Nat.div_le_self _ _) d.coeff_lt, by have := d.places_le; omega⟩
    else d

/-- Moves the point of a decimal by an exponent of ten that the places do not absorb. -/
def scaleUp (d : Decimal) (exponent : Nat) : Option Decimal :=
  if d.isZero then some zero
  else ofParts? d.negative (d.coeff * tenPow (exponent - d.places)) 0

/-- Reads a decimal with an exponent of ten after `e` or `E`. -/
def ofScientific? (s : String) : Option Decimal := do
  let cs := s.toList
  let mark := fun c : Char => c != 'e' && c != 'E'
  let base ← ofChars? (cs.takeWhile mark)
  match cs.dropWhile mark with
  | [] => none
  | _ :: '-' :: exponent =>
    let unsigned := match exponent with | '+' :: ds => ds | ds => ds
    let n ← natOfDigits? unsigned
    if n < twoPow 32 then ofParts? base.negative base.coeff (base.places + n) else none
  | _ :: exponent =>
    let unsigned := match exponent with | '+' :: ds => ds | ds => ds
    let n ← natOfDigits? unsigned
    if n ≤ base.places then ofParts? base.negative base.coeff (base.places - n)
    else if n ≤ 28 then base.scaleUp n else none

end Decimal

end DoubleEntry
