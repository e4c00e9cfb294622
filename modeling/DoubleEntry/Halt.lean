/-!
# Computations that may halt

A computation of the ledger refuses its input with an error, or it crashes: a sum of decimals or a
moved instant leaves its range, and nothing but the crash is left of the request.

## Main definitions

* `Halt`: why a computation stops without a result.
* `Halt.orCrash`: a result that must be within its range.
* `Halt.within`: the same computation with errors of another kind.
-/

namespace DoubleEntry

/-- Why a computation stops without a result. -/
inductive Halt (ε : Type) where
  | refused (e : ε)
  | crashed
deriving DecidableEq

namespace Halt

variable {ε ε' α : Type}

/-- The result, or a crash if there is none. -/
def orCrash : Option α → Except (Halt ε) α
  | some a => .ok a
  | none => .error .crashed

/-- A refusal with the error changed. -/
def map (f : ε → ε') : Halt ε → Halt ε'
  | refused e => .refused (f e)
  | crashed => .crashed

/-- The computation with its errors changed. -/
def within (f : ε → ε') : Except (Halt ε) α → Except (Halt ε') α
  | .ok a => .ok a
  | .error h => .error (h.map f)

/-- A computation that only refuses. -/
def refusing : Except ε α → Except (Halt ε) α
  | .ok a => .ok a
  | .error e => .error (.refused e)

/-- A refusal. -/
def refuse (e : ε) : Except (Halt ε) α := .error (.refused e)

end Halt

end DoubleEntry
