import DoubleEntry.Client.Basic
import DoubleEntry.CommandLine.Words
import DoubleEntry.Environment
import DoubleEntry.Text.Number

/-!
# Invocations of the command line

The words of a command line, with the variables of its environment, say which ledger is called and
how. Options of all commands stand before the name of the command, its own after it.

## Main definitions

* `Task`: what a command line asks for.
* `Invocation`: a command line as it is understood. `Invocation.ofWords?`: that of its words.
-/

namespace DoubleEntry.CommandLine

/-- What a command line asks for. -/
inductive Task where
  | call (q : LedgerCall)
  /-- A payment is to be shown, but the text is no identifier. -/
  | badPaymentId (raw : String)
deriving DecidableEq

/-- A command line as it is understood: who is called, and what for. -/
structure Invocation where
  client : LedgerClient
  task : Task
deriving DecidableEq

namespace Given

/-- The value of an option, of a variable of the environment, or the standard one. -/
def valueOr (g : Given) (name : String) (fromEnv : Option String) (standard : String) : String :=
  ((g.value? name).or fromEnv).getD standard

/-- The key of a posting; one that is not given is made of a fresh identifier. -/
def key (g : Given) (fresh : Uuid) : String :=
  (g.value? "idempotency-key").getD ("cli-" ++ fresh.toText)

/-- Who asks for a posting. -/
def actor (g : Given) (env : Environment) : String :=
  g.valueOr "initiated-by" (env "LEDGER_ACTOR") "cli"

/-- The currency of a posting. -/
def currency (g : Given) : String := g.valueOr "currency" none "USD"

/-- The number of 32 bits that a text spells; nought may have a minus sign. -/
def word? (s : String) : Option Nat :=
  match s.toList with
  | '-' :: c :: cs => (digitsBelow 1 0 (c :: cs)).toOption
  | _ => (numberBelow (twoPow 32) s).toOption

/-- The number that an option gives, if it is given; `none` if it is no number. -/
def number? (g : Given) (name : String) : Option (Option Nat) :=
  match g.value? name with
  | none => some none
  | some s => some <$> word? s

/-- The instant that an option must give. -/
def instant? (g : Given) (name : String) : Option Instant :=
  (g.value? name).bind fun s => (Instant.ofText? s).toOption

/-- The part of a listing that is asked for. -/
def query? (g : Given) : Option ActivityQuery := do
  return ⟨← g.instant? "from", ← g.instant? "to", ← g.number? "page", ← g.number? "size"⟩

end Given

/-- The line of a journal that a text with four fields between commas spells. -/
def line? (s : String) : Option ManualLineRequest :=
  match (Uri.splitAll ',' s.toList).map fun cs => String.ofList (trimChars cs) with
  | [code, counterparty, debit, credit] =>
    let field (s : String) : Option String := if s.isEmpty then none else some s
    some ⟨code, field counterparty, field debit, field credit⟩
  | _ => none

namespace Task

/-- The words after `payment post`. -/
def post? (env : Environment) (fresh : Uuid) (ws : List Word) : Option Task := do
  let g ← Given.ofWords? ["from", "to", "amount", "currency", "initiated-by", "idempotency-key",
    "customer-id"] [] [] ws
  let r : PaymentRequest := {
    idempotencyKey := g.key fresh
    source := ← g.value? "from"
    destination := ← g.value? "to"
    currency := g.currency
    amount := ← g.value? "amount"
    initiatedBy := g.actor env
    customerId := g.value? "customer-id" }
  if g.plain.isEmpty then some (.call (.payment r)) else none

/-- The words after `payment get`. -/
def get? (ws : List Word) : Option Task := do
  let g ← Given.ofWords? [] [] [] ws
  match g.plain with
  | [raw] =>
    match Uuid.ofText? raw with
    | some id => some (.call (.findPayment id))
    | none => some (.badPaymentId raw)
  | _ => none

/-- The words after `ledger credit`. -/
def credit? (env : Environment) (fresh : Uuid) (ws : List Word) : Option Task := do
  let g ← Given.ofWords? ["account", "amount", "currency", "initiated-by", "idempotency-key",
    "external-ref", "reason"] [] [] ws
  let r : CreditRequest := {
    idempotencyKey := g.key fresh
    account := ← g.value? "account"
    currency := g.currency
    amount := ← g.value? "amount"
    initiatedBy := g.actor env
    externalRef := g.value? "external-ref"
    reason := g.value? "reason"
    customerId := none }
  if g.plain.isEmpty then some (.call (.credit r)) else none

/-- The words after `ledger manual`. -/
def manual? (env : Environment) (ws : List Word) : Option Task := do
  let g ← Given.ofWords? ["currency", "initiated-by", "external-ref"] ["line"] [] ws
  let lines ← (g.values "line").mapM line?
  if g.plain.isEmpty && !lines.isEmpty then
    some (.call (.manual ⟨g.currency, g.actor env, g.value? "external-ref", lines⟩))
  else none

/-- The words after `ledger journal`. -/
def journal? (ws : List Word) : Option Task := do
  let g ← Given.ofWords? ["from", "to", "page", "size"] [] [] ws
  let q ← g.query?
  match g.plain with
  | [account] => some (.call (.activity account q))
  | _ => none

/-- The words after `ledger statement`. -/
def statement? (ws : List Word) : Option Task := do
  let g ← Given.ofWords? ["from", "to", "page", "size"] [] ["with-counterparty"] ws
  let q ← g.query?
  let named := g.flags.contains "with-counterparty"
  match g.plain with
  | [account] => some (.call (.statement account ⟨q.start, q.stop, q.page, q.size, named⟩))
  | _ => none

/-- The task that a command and its words name. -/
def ofWords? (env : Environment) (fresh : Uuid) : List Word → Option Task
  | [.plain "health"] | [.plain "health", .mark] => some (.call .health)
  | .plain "payment" :: .plain "post" :: ws => post? env fresh ws
  | .plain "payment" :: .plain "get" :: ws => get? ws
  | .plain "ledger" :: .plain "credit" :: ws => credit? env fresh ws
  | .plain "ledger" :: .plain "manual" :: ws => manual? env ws
  | .plain "ledger" :: .plain "journal" :: ws => journal? ws
  | .plain "ledger" :: .plain "statement" :: ws => statement? ws
  | _ => none

end Task

/-- The word is an option with a value. -/
def Word.isOption : Word → Bool
  | .option _ _ => true
  | _ => false

/-- What a command line asks for, where `fresh` makes the key of a posting that is given none;
`none` if it is used wrongly. -/
def Invocation.ofWords? (env : Environment) (fresh : Uuid) (args : List String) :
    Option Invocation := do
  let ws ← Word.read args
  let g ← Given.ofWords? ["api-url", "correlation-id"] [] [] (ws.takeWhile Word.isOption)
  let task ← Task.ofWords? env fresh (ws.dropWhile Word.isOption)
  return {
    client := {
      address := g.valueOr "api-url" (env "LEDGER_API_URL") "http://localhost:8082"
      correlation := (g.value? "correlation-id").or (env "LEDGER_CORRELATION_ID") }
    task := task }

end DoubleEntry.CommandLine
