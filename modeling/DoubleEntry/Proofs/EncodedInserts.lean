import DoubleEntry.Proofs.Encoding

/-!
# Inserting rows into the tables of a store

Rows whose identifiers and keys are new, and which name nothing that is not there, are inserted into
the tables of a store in memory as they are into the store itself.

## Main definitions

* `Row.ids`, `Memory.ids`: all identifiers that must be unique.
* `Memory.SuitsAll`: the keys of some rows are new, their journals balance, and the steps among them
  are of payments that are there.

## Main results

* `Memory.run_insertAll_of_suits`, `Tables.run_insertAll_of_suits`: the rows are inserted into both.
-/

namespace DoubleEntry

/-- The identifiers of a journal and its lines. -/
def JournalEntry.ids (j : JournalEntry) : List Uuid := j.id :: j.lines.map (·.id)

/-- The identifiers of a row that must be unique. -/
def Row.ids : Row → List Uuid
  | .payment p => [p.id]
  | .journal j => j.ids
  | .event e => [e.id]
  | .step _ | .record _ => []

/-- A row of a table can hold the row. -/
def Row.IsStored : Row → Prop
  | .payment p => p.IsStored
  | .step s => s.IsStored
  | .journal j => j.IsStored
  | .event e => e.IsStored
  | .record r => r.IsStored

namespace Memory

theorem forall_mem_concat {α : Type} {P : α → Prop} {as : List α} {a : α} (h : ∀ b ∈ as, P b)
    (ha : P a) : ∀ b ∈ as ++ [a], P b :=
  List.forall_mem_append.2 ⟨h, List.forall_mem_singleton.2 ha⟩

theorem IsStored.add {m : Memory} (h : m.IsStored) {row : Row} (hrow : row.IsStored) :
    (m.add row).IsStored := by
  obtain ⟨hp, hs, hj, ho, hr⟩ := h
  cases row with
  | payment p => exact ⟨forall_mem_concat hp hrow, hs, hj, ho, hr⟩
  | step s => exact ⟨hp, forall_mem_concat hs hrow, hj, ho, hr⟩
  | journal j => exact ⟨hp, hs, forall_mem_concat hj hrow, ho, hr⟩
  | event e => exact ⟨hp, hs, hj, forall_mem_concat ho hrow, hr⟩
  | record r => exact ⟨hp, hs, hj, ho, forall_mem_concat hr hrow⟩

theorem IsStored.addAll {m : Memory} (h : m.IsStored) {rows : List Row}
    (hrows : ∀ r ∈ rows, r.IsStored) : (m.addAll rows).IsStored := by
  induction rows generalizing m with
  | nil => exact h
  | cons r rows ih =>
    exact ih (h.add (hrows r List.mem_cons_self)) fun s hs => hrows s (List.mem_cons_of_mem r hs)

/-- The identifiers that must be unique. -/
def ids (m : Memory) : List Uuid :=
  m.payments.map (·.id) ++ m.journals.flatMap JournalEntry.ids ++ m.outbox.map (·.id)

/-- Apart from its identifiers, nothing keeps the row from being inserted. -/
def Suits (m : Memory) : Row → Prop
  | .payment p => ∀ q ∈ m.payments, q.idempotencyKey ≠ p.idempotencyKey
  | .step s => ∃ p ∈ m.payments, p.id = s.paymentId
  | .journal j => ensureBalanced j.lines = .ok ()
  | .event _ => True
  | .record r => ∀ q ∈ m.records, q.key ≠ r.key

/-- Apart from their identifiers, nothing keeps the rows from being inserted one after another. -/
def SuitsAll (m : Memory) : List Row → Prop
  | [] => True
  | r :: rs => m.Suits r ∧ (m.add r).SuitsAll rs

theorem eventIds_sublist (m : Memory) : (m.outbox.map (·.id)).Sublist m.ids :=
  List.sublist_append_right _ _

theorem journalIds_sublist (m : Memory) : (m.journals.map (·.id)).Sublist m.ids := by
  have hone : ∀ js : List JournalEntry, (js.map (·.id)).Sublist (js.flatMap JournalEntry.ids) := by
    intro js
    induction js with
    | nil => exact .slnil
    | cons j js ih => exact (ih.trans (List.sublist_append_right _ _)).cons_cons j.id
  exact (hone m.journals).trans
    ((List.sublist_append_right _ _).trans (List.sublist_append_left _ _))

theorem ids_add (m : Memory) (row : Row) : (m.add row).ids.Perm (row.ids ++ m.ids) := by
  cases row with
  | payment p =>
    simp only [ids, add, List.map_append, List.map_singleton, List.append_assoc]
    exact (List.perm_append_comm_assoc _ _ _)
  | step s => exact .refl _
  | journal j =>
    simp only [ids, add, List.flatMap_append, List.flatMap_singleton, List.append_assoc, Row.ids]
    exact ((List.perm_append_comm_assoc _ _ _).append_left _).trans
      (List.perm_append_comm_assoc _ _ _)
  | event e =>
    simp only [ids, add, List.map_append, List.map_singleton, ← List.append_assoc]
    exact List.perm_append_comm
  | record r => exact .refl _

theorem ids_addAll (m : Memory) (rows : List Row) :
    (m.addAll rows).ids.Perm (rows.flatMap Row.ids ++ m.ids) := by
  induction rows generalizing m with
  | nil => exact .refl _
  | cons r rows ih =>
    refine (ih (m.add r)).trans (((m.ids_add r).append_left _).trans ?_)
    rw [List.flatMap_cons, List.append_assoc]
    exact List.perm_append_comm_assoc _ _ _

theorem nodup_cons {m : Memory} {r : Row} {rows : List Row}
    (h : ((r :: rows).flatMap Row.ids ++ m.ids).Nodup) :
    (r.ids ++ m.ids).Nodup ∧ (rows.flatMap Row.ids ++ (m.add r).ids).Nodup := by
  rw [List.flatMap_cons, List.append_assoc] at h
  have hperm := (List.perm_append_comm_assoc r.ids (rows.flatMap Row.ids) m.ids).trans
    ((m.ids_add r).symm.append_left _)
  have hrest := hperm.nodup_iff.1 h
  exact ⟨(m.ids_add r).nodup_iff.1 (List.Nodup.of_append_right hrest), hrest⟩

/-! ### One row -/

section

variable {m : Memory} {row : Row}

theorem ne_of_nodup {fresh there : List Uuid} (h : (fresh ++ there).Nodup) {u v : Uuid}
    (hu : u ∈ fresh) (hv : v ∈ there) : v ≠ u :=
  fun hvu => (List.disjoint_of_nodup_append h) hu (hvu ▸ hv)

theorem any_eq_false {α : Type} {as : List α} {p : α → Prop} [DecidablePred p]
    (h : ∀ a ∈ as, ¬ p a) : (as.any fun a => decide (p a)) = false :=
  List.any_eq_false.2 fun a ha => by simpa using h a ha

theorem mem_ids_of_payment {p : Payment} (h : p ∈ m.payments) : p.id ∈ m.ids :=
  List.mem_append_left _ (List.mem_append_left _ (List.mem_map_of_mem h))

theorem mem_ids_of_journal {j : JournalEntry} {u : Uuid} (h : j ∈ m.journals) (hu : u ∈ j.ids) :
    u ∈ m.ids :=
  List.mem_append_left _ (List.mem_append_right _ (List.mem_flatMap.2 ⟨j, h, hu⟩))

theorem mem_ids_of_event {e : OutboxEvent} (h : e ∈ m.outbox) : e.id ∈ m.ids :=
  List.mem_append_right _ (List.mem_map_of_mem h)

theorem insert_of_suits (hids : (row.ids ++ m.ids).Nodup) (h : m.Suits row) :
    m.insert row = .ok (m.add row) := by
  cases row with
  | payment p =>
    have hid := any_eq_false (p := fun q : Payment => q.id = p.id) fun q hq =>
      ne_of_nodup hids (List.mem_singleton_self _) (mem_ids_of_payment hq)
    rw [insert, insertPayment, hid, any_eq_false h]
    rfl
  | step s =>
    obtain ⟨p, hp, hs⟩ := h
    have hany : (m.payments.any fun p => p.id = s.paymentId) = true :=
      List.any_eq_true.2 ⟨p, hp, decide_eq_true hs⟩
    rw [insert, insertStep, hany]
    rfl
  | journal j =>
    have hid := any_eq_false (p := fun k : JournalEntry => k.id = j.id) fun k hk =>
      ne_of_nodup hids List.mem_cons_self (mem_ids_of_journal hk List.mem_cons_self)
    have hbalanced : ensureBalanced j.lines = .ok () := h
    rw [insert, insertJournal, hbalanced, hid]
    rfl
  | event e =>
    have hid := any_eq_false (p := fun f : OutboxEvent => f.id = e.id) fun f hf =>
      ne_of_nodup hids (List.mem_singleton_self _) (mem_ids_of_event hf)
    rw [insert, insertEvent, hid]
    rfl
  | record r =>
    rw [insert, insertRecord, any_eq_false h]
    rfl

end

theorem run_insertAll_of_suits {m : Memory} {rows : List Row}
    (hids : (rows.flatMap Row.ids ++ m.ids).Nodup) (h : m.SuitsAll rows) :
    (Work.insertAll rows).run m = (.ok (), m.addAll rows) := by
  induction rows generalizing m with
  | nil => rfl
  | cons r rows ih =>
    obtain ⟨hfirst, hrest⟩ := nodup_cons hids
    rw [run_insertAll_cons, insert_of_suits hfirst h.1]
    exact ih hrest h.2

end Memory

namespace Tables

variable {m : Memory}

/-! ### Lines -/

/-- **Lines are inserted** one after another if their identifiers are new. -/
theorem insertLines_eq_ok (journal : JournalId) {n : Nat} {ls : List EntryLine} {t : Tables}
    (hids : (ls.map (·.id)).Nodup) (h : ∀ r ∈ t.lines, ∀ l ∈ ls, r.id ≠ l.id.toText) :
    insertLines journal n ls t =
      (.ok (), { t with lines := t.lines ++ lineRows journal n ls }) := by
  induction ls generalizing n t with
  | nil => simp [insertLines, lineRows]
  | cons l ls ih =>
    rw [List.map_cons, List.nodup_cons] at hids
    have hany : (t.lines.any fun r => r.id = (LineRow.of journal n l).id) = false :=
      Memory.any_eq_false fun r hr => h r hr l List.mem_cons_self
    have hinsert : t.insertLine (.of journal n l) =
        .ok { t with lines := t.lines ++ [.of journal n l] } := by
      rw [insertLine, hany]
      rfl
    rw [insertLines, hinsert]
    dsimp only
    rw [ih hids.2]
    · simp [lineRows]
    · intro r hr k hk
      obtain hr | hr := List.mem_append.1 hr
      · exact h r hr k (List.mem_cons_of_mem l hk)
      · rw [List.mem_singleton.1 hr]
        intro heq
        rw [LineRow.of, Uuid.toText_inj] at heq
        exact hids.1 (heq ▸ List.mem_map_of_mem hk)

theorem id_of_mem_lineRows {journal : JournalId} {n : Nat} {ls : List EntryLine} {r : LineRow}
    (h : r ∈ lineRows journal n ls) : ∃ l ∈ ls, r.id = l.id.toText := by
  induction ls generalizing n with
  | nil => cases h
  | cons l ls ih =>
    obtain rfl | h := List.mem_cons.1 h
    · exact ⟨l, List.mem_cons_self, rfl⟩
    · obtain ⟨k, hk, hr⟩ := ih h
      exact ⟨k, List.mem_cons_of_mem l hk, hr⟩

/-! ### Rows -/

theorem forall_row_ne {α ρ : Type} {as : List α} {row : α → ρ} {id : ρ → String} {key : α → Uuid}
    (hrow : ∀ a, id (row a) = (key a).toText) {u : Uuid} (h : ∀ a ∈ as, key a ≠ u) :
    ∀ r ∈ as.map row, id r ≠ u.toText := by
  refine List.forall_mem_map.2 fun a ha heq => h a ha ?_
  rwa [hrow, Uuid.toText_inj] at heq

theorem insertHead_of {j : JournalEntry} (h : ∀ k ∈ m.journals, k.id ≠ j.id) :
    m.tables.insertHead (.of j) =
      .ok { m.tables with journals := m.tables.journals ++ [.of j] } := by
  have hid : (m.tables.journals.any fun q => q.id = (JournalRow.of j).id) = false :=
    Memory.any_eq_false (forall_row_ne JournalRow.id_of h)
  rw [insertHead, hid]
  rfl

theorem insert_journal {j : JournalEntry} (hids : (j.ids ++ m.ids).Nodup)
    (hbalanced : ensureBalanced j.lines = .ok ()) :
    m.tables.insert (.journal j) = (.ok (), (m.add (.journal j)).tables) := by
  have hhead := insertHead_of fun k hk =>
    Memory.ne_of_nodup hids List.mem_cons_self
      (Memory.mem_ids_of_journal hk List.mem_cons_self)
  have hlines : (j.lines.map (·.id)).Nodup :=
    (List.nodup_cons.1 (List.Nodup.of_append_left hids)).2
  have hnew : ∀ r ∈ m.tables.lines, ∀ l ∈ j.lines, r.id ≠ l.id.toText := by
    intro r hr l hl
    obtain ⟨k, hk, hr⟩ := List.mem_flatMap.1 hr
    obtain ⟨l', hl', hid⟩ := id_of_mem_lineRows hr
    rw [hid, Ne, Uuid.toText_inj]
    exact Memory.ne_of_nodup hids (List.mem_cons_of_mem _ (List.mem_map_of_mem hl))
      (Memory.mem_ids_of_journal hk (List.mem_cons_of_mem _ (List.mem_map_of_mem hl')))
  have hinsert := insertLines_eq_ok (n := 0)
    (t := { m.tables with journals := m.tables.journals ++ [.of j] }) j.id hlines hnew
  rw [insert, insertJournal, hbalanced]
  simp only [Halt.within, hhead, hinsert]
  simp [Memory.tables, Memory.add, JournalEntry.lineRows]

theorem insert_of_suits {row : Row} (hids : (row.ids ++ m.ids).Nodup) (h : m.Suits row) :
    m.tables.insert row = (.ok (), (m.add row).tables) := by
  cases row with
  | payment p =>
    have hid : (m.tables.payments.any fun q => q.id = (PaymentRow.of p).id) = false :=
      Memory.any_eq_false <| forall_row_ne PaymentRow.id_of fun q hq =>
        Memory.ne_of_nodup hids (List.mem_singleton_self p.id) (Memory.mem_ids_of_payment hq)
    have hkey : (m.tables.payments.any fun q =>
        q.idempotencyKey = (PaymentRow.of p).idempotencyKey) = false :=
      Memory.any_eq_false (List.forall_mem_map.2 h)
    rw [insert, insertPayment, hkey, hid]
    simp [after, Memory.tables, Memory.add]
  | step s =>
    obtain ⟨p, hp, hs⟩ := h
    have hany : (m.tables.payments.any fun p => p.id = (StepRow.of s).paymentId) = true :=
      List.any_eq_true.2 ⟨.of p, List.mem_map_of_mem hp, by simp [PaymentRow.of, StepRow.of, hs]⟩
    rw [insert, insertStep, hany]
    simp [after, Memory.tables, Memory.add]
  | journal j => exact insert_journal hids h
  | event e =>
    have hid : (m.tables.outbox.any fun q => q.id = (EventRow.of e).id) = false :=
      Memory.any_eq_false <| forall_row_ne EventRow.id_of fun q hq =>
        Memory.ne_of_nodup hids (List.mem_singleton_self e.id) (Memory.mem_ids_of_event hq)
    rw [insert, insertEvent, hid]
    simp [after, Memory.tables, Memory.add]
  | record r =>
    have hkey : (m.tables.records.any fun q => q.key = (RecordRow.of r).key) = false :=
      Memory.any_eq_false (List.forall_mem_map.2 h)
    rw [insert, insertRecord, hkey]
    simp [after, Memory.tables, Memory.add]

theorem run_insertAll_of_suits {rows : List Row} (hids : (rows.flatMap Row.ids ++ m.ids).Nodup)
    (h : m.SuitsAll rows) :
    (Work.insertAll rows).run m.tables = (.ok (), (m.addAll rows).tables) := by
  induction rows generalizing m with
  | nil => rfl
  | cons r rows ih =>
    obtain ⟨hfirst, hrest⟩ := Memory.nodup_cons hids
    have hcall : Backend.call (Call.insert r) m.tables = (.ok (), (m.add r).tables) :=
      insert_of_suits hfirst h.1
    rw [Work.insertAll, Work.run_call hcall]
    exact ih hrest h.2

end Tables

end DoubleEntry
