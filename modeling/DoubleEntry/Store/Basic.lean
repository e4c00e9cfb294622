import DoubleEntry.Store.Tables

/-!
# Stores

A store is opened by its address. It keeps its data in memory or in tables. A unit of work that
writes is carried out on a copy, which takes the place of the data if the unit succeeds. A unit that
only reads sees the data as they are; in tables, what it changes all the same stays changed. Reads
may go to tables of their own.

## Main definitions

* `Database`: data in memory, in tables, or in a database whose tables were never made.
* `Store`: the data, where reads go, and whether the next write is made to fail.
* `Store.open?`, `Store.write`, `Store.read`: opening and the two kinds of units of work.
* `StoreRequest`, `Store.serve`: the units of work of the ledger.
-/

namespace DoubleEntry

/-- The data of a store. -/
inductive Database where
  | memory (m : Memory)
  | tables (t : Tables)
  | bare

namespace Database

/-- The name of the kind of data. -/
def kind : Database → String
  | memory _ => "memory"
  | tables _ | bare => "sqlite"

/-- The failure of a statement on a table that was never made. -/
def noTable {α : Type} (table : String) : Outcome α :=
  Halt.refuse (.database ("error returned from database: (code: 1) no such table: " ++ table))

/-- Carries out a call where no tables were made. -/
def bareCall : (c : Call) → Outcome c.Answer
  | .insert (.payment _) => noTable "payments"
  | .insert (.step _) => noTable "payment_steps"
  | .insert (.journal j) =>
    match ensureBalanced j.lines with
    | .ok () => noTable "journal_entries"
    | .error h => .error (h.map .domain)
  | .insert (.event _) => noTable "outbox_events"
  | .insert (.record _) => noTable "idempotency_records"
  | .payment _ => noTable "payments"
  | .paymentOfKey _ => noTable "payments"
  | .steps _ => noTable "payment_steps"
  | .journal _ => noTable "journal_entries"
  | .activity _ => noTable "journal_entries"
  | .event _ => noTable "outbox_events"
  | .claim _ _ now ttl =>
    match now.shift (-ttl) with
    | some _ => noTable "outbox_events"
    | none => .error .crashed
  | .markPublished ids _ => if ids.isEmpty then .ok (0 : Nat) else noTable "outbox_events"
  | .releaseClaims ids _ => if ids.isEmpty then .ok (0 : Nat) else noTable "outbox_events"
  | .record _ => noTable "idempotency_records"

/-- Carries out a call. -/
def call (c : Call) : Database → Outcome c.Answer × Database
  | memory m => ((Memory.call c m).1, memory (Memory.call c m).2)
  | tables t => ((Tables.call c t).1, tables (Tables.call c t).2)
  | bare => (bareCall c, bare)

instance : Backend Database := ⟨call⟩

end Database

/-- An opened store. -/
structure Store where
  data : Database
  /-- Reads see the data; otherwise they go to a database whose tables were never made. -/
  readsData : Bool
  /-- The next write to memory fails when it is to take effect. -/
  failsNext : Bool

namespace Store

variable {α : Type}

/-- A store in memory with nothing in it. -/
def inMemory : Store := ⟨.memory .empty, true, false⟩

/-- Opens the store of an address, with an address of its own for reads. -/
def open? (address : String) (readAddress : Option String) : Except String Store :=
  if address.startsWith "memory" then .ok inMemory
  else if address.startsWith "postgres://" || address.startsWith "postgresql://" then
    .error "postgres support is not compiled in (enable feature `postgres`)"
  else if address.startsWith "sqlite:" then
    .ok ⟨.tables .empty, readAddress.all (· == address), false⟩
  else .error ("unsupported database url scheme: " ++ address)

/-- Makes the next write to memory fail. -/
def failNext (s : Store) : Store :=
  match s.data with
  | .memory _ => { s with failsNext := true }
  | _ => s

/-- The end of a unit that writes: its data take the place of the old ones if it succeeded. -/
def conclude (s : Store) : Outcome α × Database → Outcome α × Store
  | (.error h, _) => (.error h, s)
  | (.ok a, d) =>
    if s.failsNext then
      (Halt.refuse (.transaction "commit failed"), { s with failsNext := false })
    else (.ok a, { s with data := d })

/-- Carries out a unit of work that writes. -/
def write (w : Work α) (s : Store) : Outcome α × Store := s.conclude (w.run s.data)

/-- The data that reads see. -/
def view (s : Store) : Database := if s.readsData then s.data else .bare

/-- The end of a unit that reads: what it changed in memory is dropped. -/
def afterRead (s : Store) (d : Database) : Store :=
  match s.data, s.readsData with
  | .tables _, true => { s with data := d }
  | _, _ => s

/-- Carries out a unit of work that reads. -/
def read (w : Work α) (s : Store) : Outcome α × Store :=
  ((w.run s.view).1, s.afterRead (w.run s.view).2)

end Store

/-- A unit of work of the ledger. -/
inductive StoreRequest where
  /-- The record of a key. -/
  | record (key : String)
  /-- A payment with its steps. -/
  | payment (id : PaymentId)
  /-- A page of the journals of an account. -/
  | activity (listing : Listing)
  /-- Inserts rows. -/
  | post (rows : List Row)
  /-- Claims free events for a worker. -/
  | claim (limit : Nat) (owner : String) (now : Instant) (ttl : Int)
  /-- Marks some events as published and gives up the claims on others. -/
  | settle (published : List EventId) (now : Instant) (rest : List EventId) (owner : String)

namespace StoreRequest

/-- What a unit of work results in. -/
def Value : StoreRequest → Type
  | record _ => Option IdempotencyRecord
  | payment _ => Option (Payment × List PaymentStep)
  | activity _ => List JournalEntry
  | post _ => Unit
  | claim _ _ _ _ => List OutboxEvent
  | settle _ _ _ _ => Unit

/-- The calls of a unit of work. -/
def work : (r : StoreRequest) → Work r.Value
  | record key => .single (.record key)
  | payment id => .call (.payment id) fun found =>
    match found with
    | none => .done none
    | some p => .call (.steps id) fun steps => .done (some (p, steps))
  | activity listing => .single (.activity listing)
  | post rows => .insertAll rows
  | claim limit owner now ttl => .single (.claim limit owner now ttl)
  | settle published now rest owner =>
    let release : Work Unit :=
      if rest.isEmpty then .done () else .call (.releaseClaims rest owner) fun _ => .done ()
    if published.isEmpty then release else .call (.markPublished published now) fun _ => release

/-- The unit of work writes. -/
def writes : StoreRequest → Bool
  | record _ | payment _ | activity _ => false
  | post _ | claim _ _ _ _ | settle _ _ _ _ => true

end StoreRequest

/-- Carries out a unit of work of the ledger. -/
def Store.serve (r : StoreRequest) (s : Store) : Outcome r.Value × Store :=
  if r.writes then s.write r.work else s.read r.work

end DoubleEntry
