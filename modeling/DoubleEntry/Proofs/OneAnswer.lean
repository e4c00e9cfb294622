import DoubleEntry.Proofs.KeptAnswer
import DoubleEntry.Proofs.Ledger

/-!
# One answer for each key

Requests with one key may race: several of them can look for an earlier answer before any has given
one.  Whatever they do then, at most one record is kept under the key, and it stays; every answer
that is given to the key is the one that the record keeps.

## Main definitions

* `Job.Witnessed`: a program has found or committed a record that keeps an answer.

## Main results

* `Ledger.one_answer_per_key`: the promise of idempotency, for all runs.
-/

namespace DoubleEntry

open IdempotencyRecord (postPayment creditAccount)

/-- The exchanges found or committed a record of the key that keeps the answer. -/
def Job.Witnessed {α : Type} (key operation : String) (dec : Decoder α) (a : α)
    (es : List Exchange) : Prop :=
  ∃ rec : IdempotencyRecord, rec.replay operation dec = .ok a ∧
    (⟨.store (.record key), some (.ok (some rec))⟩ ∈ es ∨
      rec.key = key ∧ ∃ rows ∈ Log.commits es, .record rec ∈ rows)

theorem Job.witnessed_of_replayed {α : Type} {key operation : String} {dec : Decoder α} {a : α}
    {es : List Exchange} {q : Program (Except ServiceError α)}
    (h : Replayed key operation dec es q) (hq : q = .done (.ok a)) :
    Witnessed key operation dec a es := by
  obtain ⟨rec, hr, hm⟩ := h a hq
  exact ⟨rec, hr, .inl hm⟩

theorem PaymentCommand.record_mem_rows (c : PaymentCommand) (id : PaymentId) (entry : JournalEntry)
    (event : EventId) (now : Instant) :
    .record (.of c.key postPayment (answer id).toJson now) ∈ c.rows id entry event now := by
  simp [rows]

theorem CreditCommand.record_mem_rows (c : CreditCommand) (entry : JournalEntry) (event : EventId)
    (now : Instant) :
    .record (.of c.key creditAccount (JournalPosted.of entry.id).toJson now) ∈
      c.rows entry event now := by
  simp [rows]

theorem Job.Progress.witnessed_post {r : PaymentRequest} {es : List Exchange} {a : PaymentPosted}
    (h : Progress es (.post r) (.done (.posted (.ok a)))) :
    Witnessed (trim r.idempotencyKey) postPayment PaymentPosted.decoder a es := by
  generalize hq : Program.done (Reply.posted (.ok a)) = q at h
  cases h with
  | plain _ posts _ => exact absurd hq.symm (posts a)
  | @payment _ c q command progress =>
    obtain ⟨b, rfl, hb⟩ := Program.map_eq_done hq.symm
    cases hb
    rw [← PaymentCommand.key_of_ofRequest command]
    rcases progress with ⟨-, -, -, ha⟩ | ⟨-, -, -, ⟨-, -, hn⟩ | ⟨event, -, -, hc, ha⟩ | ⟨-, -, ha⟩⟩
    · exact witnessed_of_replayed ha rfl
    · exact absurd rfl (hn _)
    · obtain ⟨⟩ := ha _ rfl
      exact ⟨_, IdempotencyRecord.replay_payment c.key _ _,
        .inr ⟨rfl, _, hc ▸ List.mem_cons_self, c.record_mem_rows _ _ event _⟩⟩
    · exact witnessed_of_replayed ha rfl

theorem Job.Progress.witnessed_credit {r : CreditRequest} {es : List Exchange} {a : JournalPosted}
    (h : Progress es (.credit r) (.done (.booked (.ok a)))) :
    Witnessed (trim r.idempotencyKey) creditAccount JournalPosted.decoder a es := by
  generalize hq : Program.done (Reply.booked (.ok a)) = q at h
  cases h with
  | plain _ _ books => exact absurd hq.symm (books a)
  | @topUp _ c q command _ progress =>
    obtain ⟨b, rfl, hb⟩ := Program.map_eq_done hq.symm
    cases hb
    rw [← CreditCommand.key_of_ofRequest command]
    rcases progress with ⟨-, ha⟩ | ⟨event, -, hc, ha⟩
    · exact witnessed_of_replayed ha rfl
    · obtain ⟨⟩ := ha _ rfl
      exact ⟨_, IdempotencyRecord.replay_credit c.key _ _,
        .inr ⟨rfl, _, hc ▸ List.mem_cons_self, c.record_mem_rows _ event _⟩⟩

/-- The first thing that a job with a key asks for is the record of the key; if it finds one, that
is all that it does. -/
theorem Job.first_read {j : Job} {key : String} {e : Exchange} {es : List Exchange}
    {q : Program Reply} (hk : j.key? = some key) (h : j.program.Trace (e :: es) q) :
    ∃ a, e = ⟨.store (.record key), a⟩ ∧ ∀ rec, a = some (.ok (some rec)) → es = [] := by
  have first : ∀ {α : Type} {operation : String} {dec : Decoder α}
      {k : Program (Except ServiceError α)} {q : Program (Except ServiceError α)},
      (Payments.unlessAnswered key operation dec k).Trace (e :: es) q →
      ∃ a, e = ⟨.store (.record key), a⟩ ∧ ∀ rec, a = some (.ok (some rec)) → es = [] := by
    intro α operation dec k q ht
    obtain he | ⟨a, es', he, ha⟩ := Payments.unlessAnswered_begins ht
    · cases he
    · obtain ⟨rfl, rfl⟩ := List.cons.inj he
      exact ⟨a, rfl, ha⟩
  cases j with
  | post r =>
    cases hk
    obtain ⟨q, ht, rfl⟩ := Program.exists_trace_of_trace_map h
    unfold Payments.post at ht
    split at ht
    · rename_i c hc
      rw [← PaymentCommand.key_of_ofRequest hc] at first ⊢
      exact first ht
    · cases ht
  | credit r =>
    cases hk
    obtain ⟨q, ht, rfl⟩ := Program.exists_trace_of_trace_map h
    unfold Postings.credit at ht
    split at ht
    · rename_i c hc
      rw [← CreditCommand.key_of_ofRequest hc] at first ⊢
      exact first ht
    · cases ht
  | _ => cases hk

namespace Ledger

variable {ι : Type} [DecidableEq ι] {m : Memory} {f : Bool} {jobs : ι → Job} {ms : List (Move ι)}

theorem exists_record_of_witnessed {α : Type} {key operation : String} {dec : Decoder α} {a : α}
    {i : ι} (h : Job.Witnessed key operation dec a (((start m f jobs).after ms).log i)) :
    ∃ rec ∈ ((start m f jobs).after ms).memory.records,
      rec.key = key ∧ rec.replay operation dec = .ok a := by
  obtain ⟨rec, hr, hm | ⟨hk, rows, hm, hrow⟩⟩ := h
  · obtain ⟨hmem, hkey⟩ := Pool.mem_records_of_found m f _ ms hm
    exact ⟨rec, hmem, hkey, hr⟩
  · exact ⟨rec, Pool.mem_records_of_commit m f _ ms hm hrow, hk, hr⟩

theorem exists_record_of_posted {i : ι} {r : PaymentRequest} {a : PaymentPosted}
    (hj : jobs i = .post r)
    (hd : ((start m f jobs).after ms).rest i = .done (.posted (.ok a))) :
    ∃ rec ∈ ((start m f jobs).after ms).memory.records, rec.key = trim r.idempotencyKey ∧
      rec.replay postPayment PaymentPosted.decoder = .ok a := by
  have hp := progress m f jobs ms i
  rw [hj, hd] at hp
  exact exists_record_of_witnessed hp.witnessed_post

theorem exists_record_of_credited {i : ι} {r : CreditRequest} {a : JournalPosted}
    (hj : jobs i = .credit r)
    (hd : ((start m f jobs).after ms).rest i = .done (.booked (.ok a))) :
    ∃ rec ∈ ((start m f jobs).after ms).memory.records, rec.key = trim r.idempotencyKey ∧
      rec.replay creditAccount JournalPosted.decoder = .ok a := by
  have hp := progress m f jobs ms i
  rw [hj, hd] at hp
  exact exists_record_of_witnessed hp.witnessed_credit

theorem records_of_key (hm : m.Sound) {rec : IdempotencyRecord}
    (h : rec ∈ ((start m f jobs).after ms).memory.records) (ms' : List (Move ι)) :
    (((start m f jobs).after ms).after ms').memory.records.filter (fun r => r.key = rec.key) =
      [rec] := by
  have hx := Pool.isInMemory_after m f (fun i => (jobs i).program) ms
  have hs := Pool.sound_after f (fun i => (jobs i).program) ms hm
  obtain ⟨-, hs', -⟩ := Pool.after_memory hx ms'
  exact Memory.filter_eq_singleton (hs' hs).recordKeys (Pool.mem_records_after hx h ms')

theorem record_unique (hm : m.Sound) {rec rec' : IdempotencyRecord}
    (h : rec ∈ ((start m f jobs).after ms).memory.records)
    (h' : rec' ∈ ((start m f jobs).after ms).memory.records) (hk : rec.key = rec'.key) :
    rec = rec' :=
  List.inj_on_of_nodup_map (Pool.sound_after f (fun i => (jobs i).program) ms hm).recordKeys h h' hk

theorem answer_unique (hm : m.Sound) {α : Type} {key key' operation : String} {dec : Decoder α}
    {a a' : α} (h : ∃ rec ∈ ((start m f jobs).after ms).memory.records,
      rec.key = key ∧ rec.replay operation dec = .ok a)
    (h' : ∃ rec ∈ ((start m f jobs).after ms).memory.records,
      rec.key = key' ∧ rec.replay operation dec = .ok a') (hk : key = key') : a = a' := by
  obtain ⟨rec, hrec, hkey, hr⟩ := h
  obtain ⟨rec', hrec', hkey', hr'⟩ := h'
  obtain rfl := record_unique hm hrec hrec' (by rw [hkey, hkey', hk])
  rw [hr] at hr'
  exact Except.ok.inj hr'

/-- What idempotency promises of the jobs over a store. -/
structure OneAnswer (jobs : ι → Job) (x : Ledger ι) : Prop where
  /-- A record that is stored stays the only one of its key. -/
  kept : ∀ rec ∈ x.memory.records, ∀ ms : List (Move ι),
    (x.after ms).memory.records.filter (fun r => r.key = rec.key) = [rec]
  /-- A payment is answered with what the record of its key keeps. -/
  posted : ∀ i r a, jobs i = .post r → x.rest i = .done (.posted (.ok a)) →
    ∃ rec ∈ x.memory.records, rec.key = trim r.idempotencyKey ∧
      rec.replay postPayment PaymentPosted.decoder = .ok a
  /-- A top-up is answered with what the record of its key keeps. -/
  credited : ∀ i r a, jobs i = .credit r → x.rest i = .done (.booked (.ok a)) →
    ∃ rec ∈ x.memory.records, rec.key = trim r.idempotencyKey ∧
      rec.replay creditAccount JournalPosted.decoder = .ok a
  /-- Payments with one key are answered alike. -/
  same_posted : ∀ i j r r' a a', jobs i = .post r → jobs j = .post r' →
    trim r.idempotencyKey = trim r'.idempotencyKey → x.rest i = .done (.posted (.ok a)) →
    x.rest j = .done (.posted (.ok a')) → a = a'
  /-- Top-ups with one key are answered alike. -/
  same_credited : ∀ i j r r' a a', jobs i = .credit r → jobs j = .credit r' →
    trim r.idempotencyKey = trim r'.idempotencyKey → x.rest i = .done (.booked (.ok a)) →
    x.rest j = .done (.booked (.ok a')) → a = a'
  /-- No key is answered both to a payment and to a top-up. -/
  not_both : ∀ i j r r' a a', jobs i = .post r → jobs j = .credit r' →
    trim r.idempotencyKey = trim r'.idempotencyKey → x.rest i = .done (.posted (.ok a)) →
    x.rest j ≠ .done (.booked (.ok a'))
  /-- A request with a key looks for the record of the key first; if it finds one, it asks for
  nothing else, not even of the audit. -/
  first_read : ∀ i key e es, (jobs i).key? = some key → x.log i = e :: es →
    ∃ a, e = ⟨.store (.record key), a⟩ ∧ ∀ rec, a = some (.ok (some rec)) → es = []

/-- **One answer for each key.**  Whatever jobs run over a store, in whatever order, and whatever
fails: one record is kept for each key, and it is what all answers to the key are. -/
theorem one_answer_per_key (hm : m.Sound) (f : Bool) (jobs : ι → Job) (ms : List (Move ι)) :
    OneAnswer jobs ((start m f jobs).after ms) where
  kept rec h ms' := records_of_key hm h ms'
  posted i r a hj hd := exists_record_of_posted hj hd
  credited i r a hj hd := exists_record_of_credited hj hd
  same_posted i j r r' a a' hi hj hk ha ha' :=
    answer_unique hm (exists_record_of_posted hi ha) (exists_record_of_posted hj ha') hk
  same_credited i j r r' a a' hi hj hk ha ha' :=
    answer_unique hm (exists_record_of_credited hi ha) (exists_record_of_credited hj ha') hk
  not_both i j r r' a a' hi hj hk ha ha' := by
    obtain ⟨rec, hrec, hkey, hr⟩ := exists_record_of_posted hi ha
    obtain ⟨rec', hrec', hkey', hr'⟩ := exists_record_of_credited hj ha'
    obtain rfl := record_unique hm hrec hrec' (by rw [hkey, hkey', hk])
    -- one record, and it would answer two operations
    have h := IdempotencyRecord.operation_eq_of_replay hr
    have h' := IdempotencyRecord.operation_eq_of_replay hr'
    rw [h] at h'
    exact absurd h' (by decide)
  first_read i key e es hk hl := by
    have ht := Pool.trace_log (.ofMemory m f) (fun i => (jobs i).program) ms i
    rw [show (Pool.start (.ofMemory m f) fun i => (jobs i).program).after ms =
      (start m f jobs).after ms from rfl, hl] at ht
    exact Job.first_read hk ht

/-- The race gives one answer to both payments. -/
theorem one_answer_in_race : Memory.empty.Sound ∧
    race.rest true = .done (.posted (.ok (PaymentCommand.answer (.ofNat 1)))) ∧
    race.rest false = .done (.posted (.ok (PaymentCommand.answer (.ofNat 1)))) ∧
    OneAnswer (fun _ => .post raceRequest) race :=
  ⟨Memory.sound_empty, rest_race true, rest_race false,
    one_answer_per_key Memory.sound_empty false _ _⟩

end Ledger

end DoubleEntry
