import DoubleEntry.Proofs.AgreeingRequests
import DoubleEntry.Proofs.StoredPostings

/-!
# Postings over a store in memory and over its tables

A posting writes its rows only after it found no record of its key, and it writes them under
identifiers that it drew and at a time that it read.  So they are new to the store, and the posting
agrees.

## Main results

* `Session.agrees_postPayment`, `Session.agrees_credit`, `Session.agrees_postManual`: the postings
  agree.
-/

namespace DoubleEntry

namespace Memory

variable {m : Memory} {id journal : Uuid} {event : EventId} {now : Instant}
  {entry : JournalEntry}

theorem suitsAll_payment {c : PaymentCommand}
    (hpayment : ∀ p ∈ m.payments, p.idempotencyKey ≠ c.key)
    (hrecord : ∀ r ∈ m.records, r.key ≠ c.key) (hbalanced : ensureBalanced entry.lines = .ok ()) :
    m.SuitsAll (c.rows id entry event now) := by
  have hthere : ∀ rows : List Payment, ∃ p ∈ rows ++ [c.payment id entry.id now], p.id = id :=
    fun rows => ⟨_, List.mem_append_right _ (List.mem_singleton_self _), rfl⟩
  exact ⟨hpayment, hbalanced, hthere _, hthere _, trivial, hrecord, trivial⟩

theorem suitsAll_credit {c : CreditCommand} (hrecord : ∀ r ∈ m.records, r.key ≠ c.key)
    (hbalanced : ensureBalanced entry.lines = .ok ()) : m.SuitsAll (c.rows entry event now) :=
  ⟨hbalanced, trivial, hrecord, trivial⟩

end Memory

namespace Session

variable {α : Type} {o : Outside} {clock times : List Instant} {m : Memory} {ids : List Uuid}
  {sc : Scene}

theorem Fit.isWhole (h : Fit clock m ids times sc) (hclock : ∀ t ∈ clock, t.IsWhole) {t : Instant}
    (ht : t ∈ times) : t.IsWhole :=
  hclock t (h.given (List.mem_append_left _ ht))

/-! ### Keys and leave -/

/-- A program that looks at the record of its key goes on only if there is none. -/
theorem agrees_unlessAnswered {key operation : String} {dec : Decoder α}
    {k : Program (Except ServiceError α)} (h : Fit clock m ids times sc)
    (hk : (∀ r ∈ m.records, r.key ≠ key) → Agrees o clock k m sc) :
    Agrees o clock (Payments.unlessAnswered key operation dec k) m sc := by
  refine agrees_record h ?_
  cases hfound : m.records.find? fun r => r.key = key with
  | none => exact hk fun r hr => by simpa using List.find?_eq_none.1 hfound r hr
  | some r =>
    rcases hr : Payments.replayed operation dec (.ok (some r)) with e | _ | a
    · exact agrees_done h _
    · exact absurd hr (Payments.replayed_some_ne_none r)
    · exact agrees_done h _

theorem agrees_whenValid {source destination : AccountId} {currency : Currency} {amount : Decimal}
    {k : Program (Except ServiceError α)} (h : Fit clock m ids times sc)
    (hk : ∀ sc', Fit clock m ids times sc' → Agrees o clock k m sc') :
    Agrees o clock (Payments.whenValid source destination currency amount k) m sc := by
  refine agrees_accounts h fun answer sc' h' => ?_
  rcases answer with e | v
  · exact agrees_done h' _
  · change Agrees o clock (if v.ok then k else .fail _) m sc'
    split_ifs
    · exact hk sc' h'
    · exact agrees_done h' _

/-! ### Payments -/

theorem agrees_compensate (c : PaymentCommand) (id : PaymentId) (e : StoreError)
    (h : Fit clock m ids times sc) : Agrees o clock (Payments.compensate c id e) m sc := by
  refine agrees_accounts h fun _ _ h => agrees_now h fun _ _ h => agrees_audit h fun _ _ h => ?_
  cases e with
  | conflict text => exact agrees_unlessAnswered h fun _ => agrees_done h _
  | _ => exact agrees_done h _

theorem agrees_persist {c : PaymentCommand} {id : PaymentId} {now : Instant}
    (hamount : c.amount.IsStored) (hclock : ∀ t ∈ clock, t.IsWhole)
    (hkey : ∀ r ∈ m.records, r.key ≠ c.key) (h : Fit clock m [id] [now] sc) :
    Agrees o clock (Payments.persist c id now) m sc := by
  have hnow := h.isWhole hclock (List.mem_singleton_self now)
  -- a payment that is there has left a record of its key
  have hpayment : ∀ p ∈ m.payments, p.idempotencyKey ≠ c.key := by
    intro p hp
    obtain ⟨r, hr, hrp⟩ := h.keys p hp
    exact hrp ▸ hkey r hr
  refine agrees_freshId h fun journal _ h => agrees_freshId h fun debitLine _ h =>
    agrees_freshId h fun creditLine _ h => agrees_ofHalt h
      (fun e => agrees_compensate c id _ h) fun entry hentry => agrees_freshId h fun event _ h => ?_
  have hstored : ∀ row ∈ c.rows id entry event now, row.IsStored :=
    c.isStored_rows hamount hnow (JournalEntry.isStored_of_posted hamount hnow hentry)
  obtain ⟨rfl, hbalanced⟩ := JournalEntry.posted_eq_ok hentry
  exact agrees_post h hstored (Memory.suitsAll_payment hpayment hkey hbalanced)
    (List.forall_mem_singleton.2 ⟨_, List.mem_singleton_self _, rfl⟩) fun m' h =>
      agrees_audit h fun _ _ h => agrees_done h _

theorem agrees_reserve {c : PaymentCommand} (hamount : c.amount.IsStored)
    (hclock : ∀ t ∈ clock, t.IsWhole) (hkey : ∀ r ∈ m.records, r.key ≠ c.key)
    (h : Fit clock m [] [] sc) : Agrees o clock (Payments.reserve c) m sc := by
  refine agrees_freshId h fun id _ h => agrees_accounts h fun answer sc' h => ?_
  rcases answer with e | held
  · exact agrees_done h _
  · change Agrees o clock (if held.ok then _ else .fail _) m sc'
    split_ifs
    · exact agrees_now h fun now _ h => agrees_persist hamount hclock hkey h
    · exact agrees_done h _

theorem agrees_postPayment (r : PaymentRequest) (hclock : ∀ t ∈ clock, t.IsWhole)
    (h : Fit clock m [] [] sc) : Agrees o clock (Payments.post r) m sc := by
  unfold Payments.post
  split
  · rename_i c hc
    exact agrees_unlessAnswered h fun hkey => agrees_whenValid h fun _ h =>
      agrees_reserve (PaymentCommand.isStored_amount hc) hclock hkey h
  · exact agrees_done h _

/-! ### Top-ups -/

theorem agrees_persistCredit {c : CreditCommand} (hamount : c.amount.IsStored)
    (hclock : ∀ t ∈ clock, t.IsWhole) (hkey : ∀ r ∈ m.records, r.key ≠ c.key)
    (h : Fit clock m [] [] sc) : Agrees o clock (Postings.persistCredit c) m sc := by
  refine agrees_now h fun now _ h => agrees_freshId h fun journal _ h =>
    agrees_freshId h fun debitLine _ h => agrees_freshId h fun creditLine _ h =>
      agrees_ofHalt h (fun e => agrees_done h _) fun entry hentry =>
        agrees_freshId h fun event _ h => ?_
  have hnow := h.isWhole hclock (List.mem_singleton_self now)
  have hstored : ∀ row ∈ c.rows entry event now, row.IsStored :=
    c.isStored_rows hnow (JournalEntry.isStored_of_posted hamount hnow hentry)
  obtain ⟨rfl, hbalanced⟩ := JournalEntry.posted_eq_ok hentry
  exact agrees_post h hstored (Memory.suitsAll_credit hkey hbalanced) (List.forall_mem_nil _)
    fun m' h => agrees_audit h fun _ _ h => agrees_done h _

theorem agrees_credit (r : CreditRequest) (hclock : ∀ t ∈ clock, t.IsWhole)
    (h : Fit clock m [] [] sc) : Agrees o clock (Postings.credit r) m sc := by
  unfold Postings.credit
  split
  · rename_i c hc
    exact agrees_unlessAnswered h fun hkey => agrees_whenValid h fun _ h =>
      agrees_persistCredit (CreditCommand.isStored_amount hc) hclock hkey h
  · exact agrees_done h _

/-! ### Journals of given lines -/

theorem agrees_freshIds {n : Nat} {k : List Uuid → Program α} (h : Fit clock m ids times sc)
    (hk : ∀ us sc', us.length = n → Fit clock m (ids ++ us) times sc' →
      Agrees o clock (k us) m sc') : Agrees o clock (Postings.freshIds n k) m sc := by
  induction n generalizing ids sc k with
  | zero => exact hk [] sc rfl (by rwa [List.append_nil])
  | succ n ih =>
    refine agrees_freshId h fun u _ h => ih h fun us sc' hus h => ?_
    exact hk (u :: us) sc' (congrArg (· + 1) hus) (by rwa [List.append_assoc] at h)

theorem agrees_persistManual {c : ManualCommand} {now : Instant} {journal : JournalId}
    {us : List Uuid} (hlines : ∀ l ∈ c.lines, l.IsStored)
    (hfew : c.lines.length ≤ ManualCommand.maxLines) (hclock : ∀ t ∈ clock, t.IsWhole)
    (hlen : us.length = c.lines.length) (h : Fit clock m (journal :: us) [now] sc) :
    Agrees o clock (Postings.persistManual c now journal us) m sc := by
  have hnow := h.isWhole hclock (List.mem_singleton_self now)
  refine agrees_ofHalt h (fun e => agrees_done h _) fun entry hentry =>
    agrees_ofHalt h (fun _ => agrees_crash h) fun total _ =>
      agrees_freshId h fun event _ h => ?_
  have hstored : ∀ row ∈ c.rows entry total event now, row.IsStored := c.isStored_rows hnow
    (ManualCommand.isStored_of_posted hlines hfew hnow hentry)
  obtain ⟨rfl, hbalanced⟩ := JournalEntry.posted_eq_ok hentry
  have hids : (c.entryLines journal us).map (·.id) = us := by
    rw [ManualCommand.entryLines, List.map_map]
    exact List.map_fst_zip hlen.le
  refine agrees_post ?_ hstored ⟨hbalanced, trivial, trivial⟩ (List.forall_mem_nil _) fun m' h =>
    agrees_audit h fun _ _ h => agrees_done h _
  have hrows : ∀ j e, [Row.journal j, .event e].flatMap Row.ids = j.ids ++ [e.id] := fun _ _ => rfl
  rw [ManualCommand.rows, hrows, JournalEntry.ids, hids]
  exact h

theorem agrees_postManual (r : ManualRequest) (hclock : ∀ t ∈ clock, t.IsWhole)
    (h : Fit clock m [] [] sc) : Agrees o clock (Postings.postManual r) m sc := by
  unfold Postings.postManual
  split
  · rename_i c hc
    obtain ⟨hlines, hfew⟩ := ManualCommand.isStored_lines hc
    exact agrees_now h fun now _ h => agrees_freshId h fun journal _ h => agrees_freshIds h
      fun us _ hlen h => agrees_persistManual hlines hfew hclock hlen h
  · exact agrees_done h _

end Session

end DoubleEntry
