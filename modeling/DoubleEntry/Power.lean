/-!
# Powers of two and ten

A word of so many bits holds as many numbers as a power of two; a decimal of so many places is cut
into as many parts as a power of ten.

## Main definitions

* `twoPow`, `tenPow`: the powers.
-/

namespace DoubleEntry

/-- The power of two with an exponent. -/
def twoPow (n : Nat) : Nat := Nat.pow 2 n

/-- The power of ten with an exponent. -/
def tenPow (n : Nat) : Nat := Nat.pow 10 n

theorem tenPow_zero : tenPow 0 = 1 := rfl

theorem tenPow_succ (n : Nat) : tenPow (n + 1) = tenPow n * 10 := rfl

theorem tenPow_pos (n : Nat) : 0 < tenPow n := Nat.pow_pos (by decide)

theorem tenPow_add (m n : Nat) : tenPow (m + n) = tenPow m * tenPow n := Nat.pow_add 10 m n

theorem tenPow_le_tenPow {m n : Nat} (h : m ≤ n) : tenPow m ≤ tenPow n :=
  Nat.pow_le_pow_right (by decide) h

end DoubleEntry
