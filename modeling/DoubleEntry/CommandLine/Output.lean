import DoubleEntry.CommandLine.Invocation

/-!
# Output of the command line

The answer of the ledger is printed as JSON over several lines. Errors, and the key under which a
posting may be made again, are told apart from it. Wrong usage ends with the code 2, any other
failure with 1.

## Main definitions

* `Output`: what a command prints, and how it ends.
* `Invocation.run`: a command carried out.
-/

namespace DoubleEntry.CommandLine

/-- What a command prints as its result and about it, and the code it ends with. -/
structure Output where
  code : Nat
  result : String
  notes : String
deriving DecidableEq

namespace Output

/-- The code of a command line that is used wrongly. -/
def usageCode : Nat := 2

/-- The output of a command that fails. -/
def failed (notes message : String) : Output := ⟨1, "", notes ++ "Error: " ++ message ++ "\n"⟩

/-- What is told before a call is made: the key under which it may be made again. -/
def announcement (q : LedgerCall) : String :=
  match q.key? with
  | some key => "idempotency key: " ++ key ++ "\n"
  | none => ""

/-- The output for the answer to a call. -/
def answered (notes : String) : (q : LedgerCall) → q.Answer → Output
  | .health, true => ⟨0, "✓ API is healthy\n", notes⟩
  | .health, false => ⟨1, "✗ API is not healthy\n", notes⟩
  | q, a => ⟨0, (q.encode a).pretty ++ "\n", notes⟩

/-- The output for what comes of a call. -/
def ofCall (q : LedgerCall) : Except ClientError q.Answer → Output
  | .ok a => answered (announcement q) q a
  | .error e => failed (announcement q) e.message

/-- The output for a payment that no text identifies. -/
def badPaymentId (raw : String) : Output := failed "" ("Invalid payment ID: " ++ raw)

end Output

/-- Carries out a command. -/
def Invocation.run {σ : Type} (net : Network σ) (i : Invocation) (s : σ) : Output × σ :=
  match i.task with
  | .badPaymentId raw => (.badPaymentId raw, s)
  | .call q =>
    let (r, s) := i.client.call net q s
    (.ofCall q r, s)

end DoubleEntry.CommandLine
