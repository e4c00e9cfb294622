import DoubleEntry.Decimal.Text

/-!
# Spelt-out numbers

A number is spelt with ASCII digits, which may have a plus sign in front and noughts before the
first other digit.

## Main definitions

* `NumberFault`: why a text does not spell a number, with its message.
* `numberBelow`: the number below a bound that a text spells.
-/

namespace DoubleEntry

/-- Why a text does not spell a number. -/
inductive NumberFault where
  | empty
  | invalidDigit
  | tooLarge
deriving DecidableEq

/-- The wording of a fault. -/
def NumberFault.message : NumberFault → String
  | empty => "cannot parse integer from empty string"
  | invalidDigit => "invalid digit found in string"
  | tooLarge => "number too large to fit in target type"

/-- Reads the digits of a number below a bound after those that were read. -/
def digitsBelow (bound : Nat) : (n : Nat) → List Char → Except NumberFault Nat
  | n, [] => .ok n
  | n, c :: cs =>
    match digitValue? c with
    | none => .error .invalidDigit
    | some d =>
      if n * 10 + d < bound then digitsBelow bound (n * 10 + d) cs else .error .tooLarge

/-- The number below a bound that a text spells. -/
def numberBelow (bound : Nat) (s : String) : Except NumberFault Nat :=
  match s.toList with
  | [] => .error .empty
  | ['+'] => .error .invalidDigit
  | '+' :: cs => digitsBelow bound 0 cs
  | cs => digitsBelow bound 0 cs

end DoubleEntry
