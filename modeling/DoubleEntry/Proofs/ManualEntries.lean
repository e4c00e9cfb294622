import DoubleEntry.Proofs.AllOrNothing
import DoubleEntry.Proofs.LastingFacts
import DoubleEntry.Proofs.ManualRequests
import DoubleEntry.Proofs.ReachedStores

/-!
# Journals that are posted as they were asked for

A request for a journal of given lines is posted exactly if it asks for a balanced journal and the
store does not refuse the write.  Its running sums stay within their range, so nothing crashes, and
nothing is rounded: what is stored says what was asked for, and its event tells the exact sum of the
debits (`Partners.posts_asked`).

## Main definitions

* `JournalEntry.content`: what a journal says.
* `JournalContent.IsTold`: an event tells a journal.
* `JournalContent.Ends`: how a request ends that asks for a balanced journal.

## Main results

* `JournalContent.isBalanced_iff`: the rule of double entry is one about what a journal says.
* `Store.Reached.serve_post_cases`: a store that can be reached refuses rows, or adds them.
-/

namespace DoubleEntry

/-- What a line of a journal says. -/
def EntryLine.content (l : EntryLine) : LineContent :=
  ⟨l.glAccount, l.counterparty, l.debit.value, l.credit.value⟩

/-- What a journal says. -/
def JournalEntry.content (j : JournalEntry) : JournalContent :=
  ⟨j.currency, j.createdBy, j.externalRef, j.lines.map EntryLine.content⟩

/-- The event tells a journal that says this: its total is written with six places. -/
structure JournalContent.IsTold (q : JournalContent) (j : JournalEntry) (e : OutboxEvent) :
    Prop where
  aggregateId : e.aggregateId = j.id
  eventType : e.eventType = OutboxEvent.manualPosted
  total : ∃ d : Decimal, e.payload.field? "total" = some (.str d.toText) ∧ d.places = 6 ∧
    d.value = q.debits
  lineCount : e.payload.field? "line_count" = some (.nat q.lines.length)

/-- The journal is stored with its event.  Whoever asks for it is answered what it says, if reads go
to the data and its time can be read again. -/
structure Store.HasPosted (s : Store) (j : JournalEntry) (e : OutboxEvent) : Prop where
  journal : s.data.Stores (.journal j)
  event : s.data.Stores (.event e)
  answers : s.readsData = true → s.data.Admits j.bookedAt →
    ∃ j', s.Answers j' ∧ j'.id = j.id ∧ j'.content = j.content

/-- How a request ends that asks for a balanced journal: a journal that says so is written with an
event that tells it, or the store refuses both. -/
inductive JournalContent.Ends (q : JournalContent) (s : Store) :
    Except ServiceError JournalPosted → Store → Prop
  | refused {j : JournalEntry} {e : OutboxEvent} {err : StoreError} {s' : Store}
    (content : j.content = q) (told : q.IsTold j e)
    (write : s.serve (.post [.journal j, .event e]) = (.error (.refused err), s')) :
    Ends q s (.error err.toService) s'
  | posted {j : JournalEntry} {e : OutboxEvent} {s' : Store}
    (content : j.content = q) (status : j.status = .posted) (told : q.IsTold j e)
    (write : s.serve (.post [.journal j, .event e]) = (.ok (), s')) (has : s'.HasPosted j e) :
    Ends q s (.ok (.of j.id)) s'

/-! ### What a journal says -/

section

variable {c : ManualCommand} {ids : List Uuid} {journal : JournalId} {lines : List EntryLine}

theorem ManualCommand.content_entryLines (journal : JournalId)
    (hids : ids.length = c.lines.length) :
    (c.entryLines journal ids).map EntryLine.content = c.lines.map ManualLine.content := by
  have hcomp : EntryLine.content ∘ (fun x : Uuid × ManualLine => (⟨x.1, journal, x.2.glAccount,
      x.2.counterparty, x.2.debit, x.2.credit⟩ : EntryLine)) = ManualLine.content ∘ Prod.snd := rfl
  rw [entryLines, List.map_map, hcomp, ← List.map_map, List.map_snd_zip hids.ge]

theorem EntryLine.IsStored.isOneSided_iff {l : EntryLine} (h : l.IsStored journal) :
    l.IsOneSided ↔ Xor (0 < l.content.debit) (0 < l.content.credit) := by
  have hdebit := Decimal.value_nonneg h.debit.unsigned
  have hcredit := Decimal.value_nonneg h.credit.unsigned
  have hzero {x : ℚ} (hx : 0 ≤ x) : x = 0 ↔ ¬ 0 < x := by
    rw [not_lt, le_antisymm_iff, and_iff_left hx]
  have hsides : l.IsOneSided ↔
      0 < l.debit.value ∧ l.credit.value = 0 ∨ l.debit.value = 0 ∧ 0 < l.credit.value :=
    ⟨fun h => h.sides, fun hs => ⟨⟨h.debit.unsigned, h.credit.unsigned⟩, hs⟩⟩
  rw [hsides, hzero hdebit, hzero hcredit, and_comm (a := ¬ 0 < l.debit.value)]
  rfl

/-- **The rule of double entry** is one about what the lines say. -/
theorem JournalContent.isBalanced_iff {q : JournalContent}
    (hstored : ∀ l ∈ lines, l.IsStored journal) (hfew : lines.length ≤ ManualCommand.maxLines)
    (hq : lines.map EntryLine.content = q.lines) :
    ensureBalanced lines = .ok () ↔ q.IsBalanced := by
  have hexact (side : EntryLine → Decimal) (hside : ∀ l ∈ lines, (side l).IsStored) :
      Decimal.RunsExactly (lines.map side) :=
    Decimal.runsExactly_of_isStored (List.forall_mem_map.2 hside) (by rwa [List.length_map])
  rw [EntryLine.ensureBalanced_iff (hexact _ fun l hl => (hstored l hl).debit)
    (hexact _ fun l hl => (hstored l hl).credit)]
  have hlength : q.lines.length = lines.length := by rw [← hq, List.length_map]
  have hsides : (∀ l ∈ lines, l.IsOneSided) ↔
      ∀ l ∈ q.lines, Xor (0 < l.debit) (0 < l.credit) := by
    rw [← hq, List.forall_mem_map]
    exact forall₂_congr fun l hl => (hstored l hl).isOneSided_iff
  have hdebits : EntryLine.debits lines = q.debits := by
    rw [debits, ← hq, List.map_map, EntryLine.debits, Decimal.total, List.map_map]
    rfl
  have hcredits : EntryLine.credits lines = q.credits := by
    rw [credits, ← hq, List.map_map, EntryLine.credits, Decimal.total, List.map_map]
    rfl
  rw [hsides, hdebits, hcredits, ← hlength]
  exact ⟨fun h => ⟨h.1, h.2.1, h.2.2⟩, fun h => ⟨h.two_le, h.sides, h.sums⟩⟩

end

/-! ### The event -/

/-- **The total of a journal** is exact, and is written with six places. -/
theorem JournalEntry.exists_total {j : JournalEntry} (hstored : ∀ l ∈ j.lines, l.IsStored j.id)
    (hfew : j.lines.length ≤ ManualCommand.maxLines) :
    ∃ total, j.totalDebit = some total ∧ total.toAmount.places = 6 ∧
      total.toAmount.value = j.content.debits := by
  have hdebits : ∀ d ∈ j.lines.map EntryLine.debit, d.IsStored :=
    List.forall_mem_map.2 fun l hl => (hstored l hl).debit
  have hlength : (j.lines.map EntryLine.debit).length ≤ ManualCommand.maxLines := by
    rwa [List.length_map]
  obtain ⟨total, hsum, htotal⟩ := Decimal.exists_sum hdebits hlength
  have hfits : total.millionths.natAbs < twoPow 96 := htotal.millionths_eq ▸ htotal.fits hlength
  obtain ⟨hsix, hmillionths⟩ := Decimal.toAmount_six htotal.six hfits
  have hexact := Decimal.total_eq_millionths fun d hd => (hdebits d hd).six
  refine ⟨total, hsum, (Decimal.toAmount_parts htotal.six hfits).2.2, ?_⟩
  rw [Decimal.value_eq hsix, hmillionths, htotal.millionths_eq, ← hexact, JournalContent.debits,
    JournalEntry.content, Decimal.total, List.map_map, List.map_map]
  rfl

theorem ManualCommand.isTold {c : ManualCommand} {j : JournalEntry} {total : Decimal}
    (hplaces : total.toAmount.places = 6) (hvalue : total.toAmount.value = j.content.debits)
    (event : EventId) (now : Instant) : j.content.IsTold j
      (.pending event "ledger" j.id OutboxEvent.manualPosted (c.payload j total now) now) where
  aggregateId := rfl
  eventType := rfl
  total := ⟨total.toAmount, (Json.field?_record _ _).trans rfl, hplaces, hvalue⟩
  lineCount := by
    rw [JournalEntry.content, List.length_map]
    exact (Json.field?_record _ _).trans rfl

/-! ### The write -/

namespace Tables

theorem insertLines_ne_crashed (journal : JournalId) (n : Nat) (ls : List EntryLine) (t : Tables) :
    (insertLines journal n ls t).1 ≠ .error .crashed := by
  induction ls generalizing n t with
  | nil => rintro ⟨⟩
  | cons l ls ih =>
    rw [insertLines]
    cases hline : t.insertLine (.of journal n l) with
    | ok t' => exact ih (n + 1) t'
    | error e =>
      simp only [insertLine, notUnique, Halt.refuse] at hline
      split_ifs at hline
      cases hline
      rintro ⟨⟩

/-- **A row is refused, or added**, the sums of its journal being those of a balanced one. -/
theorem insert_cases {row : Row} (h : ∀ j, row = .journal j → ensureBalanced j.lines = .ok ())
    (t : Tables) :
    (∃ e t', t.insert row = (.error (.refused e), t')) ∨ t.insert row = (.ok (), t.add row) := by
  cases row with
  | journal j =>
    have hbalanced := h j rfl
    obtain ⟨rows, hrows, -, hall⟩ :=
      insertLines_cases j.id 0 j.lines { t with journals := t.journals ++ [.of j] }
    have hcrash :=
      insertLines_ne_crashed j.id 0 j.lines { t with journals := t.journals ++ [.of j] }
    simp only [insert, insertJournal, hbalanced, Halt.within, insertHead, notUnique, Halt.refuse]
    split_ifs
    · exact .inl ⟨_, _, rfl⟩
    · dsimp only
      generalize insertLines j.id 0 j.lines { t with journals := t.journals ++ [.of j] } = res
        at hrows hall hcrash
      obtain ⟨(e | _) | u, t'⟩ := res
      · exact .inl ⟨e, t', rfl⟩
      · exact absurd rfl hcrash
      · obtain rfl := hall rfl
        exact .inr (congrArg _ hrows)
  | _ =>
    simp only [insert, insertPayment, insertStep, insertEvent, insertRecord, notUnique, noParent,
      Halt.refuse, after, add]
    split_ifs <;> first | exact .inl ⟨_, _, rfl⟩ | exact .inr rfl

theorem run_insertAll_cases {rows : List Row}
    (h : ∀ j, .journal j ∈ rows → ensureBalanced j.lines = .ok ()) (t : Tables) :
    (∃ e t', (Work.insertAll rows).run t = (.error (.refused e), t')) ∨
      (Work.insertAll rows).run t = (.ok (), rows.foldl add t) := by
  induction rows generalizing t with
  | nil => exact .inr rfl
  | cons row rows ih =>
    obtain ⟨e, t', he⟩ | hok := t.insert_cases fun j hj => h j (hj ▸ List.mem_cons_self)
    · have hcall : Backend.call (Call.insert row) t = (.error (.refused e), t') := he
      exact .inl ⟨e, t', by rw [Work.insertAll, Work.run, hcall]⟩
    · have hcall : Backend.call (Call.insert row) t = (.ok (), t.add row) := hok
      rw [Work.insertAll, Work.run_call hcall]
      exact ih (fun j hj => h j (List.mem_cons_of_mem row hj)) (t.add row)

end Tables

namespace Database

/-- The data with some rows added. -/
def addAll (d : Database) (rows : List Row) : Database :=
  match d with
  | memory m => memory (m.addAll rows)
  | tables t => tables (rows.foldl Tables.add t)
  | bare => bare

theorem run_insertAll_cases {rows : List Row}
    (h : ∀ j, .journal j ∈ rows → ensureBalanced j.lines = .ok ()) {d : Database} (hd : d ≠ bare) :
    (∃ e d', (Work.insertAll rows).run d = (.error (.refused e), d')) ∨
      (Work.insertAll rows).run d = (.ok (), d.addAll rows) := by
  cases d with
  | memory m =>
    rw [Store.run_memory]
    obtain ⟨e, he⟩ | hok := Memory.run_insertAll_cases (m := m) h
    · exact .inl ⟨e, _, congrArg (·, _) he⟩
    · rw [hok]
      exact .inr rfl
  | tables t =>
    rw [Store.run_tables]
    obtain ⟨e, t', he⟩ | hok := Tables.run_insertAll_cases h t
    · rw [he]
      exact .inl ⟨e, _, rfl⟩
    · rw [hok]
      exact .inr rfl
  | bare => exact absurd rfl hd

end Database

namespace Layout

variable {k k' : Layout} {js js' : List JournalEntry} {d : Database} {j : JournalEntry}
  {e : OutboxEvent}

theorem ids_eq_of_hasJournals (h : d.HasJournals k js) (h' : d.HasJournals k' js') :
    js.map (·.id) = js'.map (·.id) := by
  cases h with
  | memory m =>
    cases h'
    rfl
  | tables journals _ =>
    cases h' with
    | tables journals' _ =>
      have htexts : (js.map JournalRow.of).map JournalRow.id =
          (js'.map JournalRow.of).map JournalRow.id := by rw [← journals, ← journals']
      have hid : JournalRow.id ∘ JournalRow.of = Uuid.toText ∘ JournalEntry.id := rfl
      rw [List.map_map, List.map_map, hid, ← List.map_map, ← List.map_map] at htexts
      exact List.map_injective_iff.2 Uuid.toText_injective htexts

theorem hasJournals_addAll (h : d.HasJournals k js) (j : JournalEntry) (e : OutboxEvent) :
    (d.addAll [.journal j, .event e]).HasJournals k (js ++ [j]) := by
  cases h with
  | memory m => exact .memory (m.addAll [.journal j, .event e])
  | tables journals lines =>
    refine .tables ?_ ?_
    · simp [Tables.add, journals]
    · simp [Tables.add, lines]

theorem Journals.stores (h : k.Journals js d) (hj : j ∈ js) : d.Stores (.journal j) := by
  obtain ⟨hdata, hids, -⟩ := h
  cases hdata with
  | memory m => exact hj
  | @tables js t journals lines =>
    have hlines := Tables.filter_lines (m := .ofJournals js) hids hj
    refine ⟨journals ▸ List.mem_map_of_mem hj, ?_⟩
    rw [lines]
    exact hlines

theorem content_kept (hj : ∀ l ∈ j.lines, l.IsStored j.id) (k : Layout) :
    (k.kept j).content = j.content := by
  have hvalue {d : Decimal} (hd : d.IsStored) : d.toAmount.value = d.value := by
    rw [Decimal.value_eq hd.toAmount.1.six, hd.toAmount.2, Decimal.value_eq hd.six]
  have hline : ∀ l ∈ j.lines, (l.kept j.id).content = l.content := fun l hl => by
    rw [EntryLine.content, EntryLine.content, ← hvalue (hj l hl).debit, ← hvalue (hj l hl).credit]
    rfl
  cases k with
  | values => rfl
  | rows =>
    have hlines : (j.lines.map (EntryLine.kept j.id)).map EntryLine.content =
        j.lines.map EntryLine.content := by
      rw [List.map_map]
      exact List.map_congr_left hline
    exact congrArg (JournalContent.mk j.currency j.createdBy j.externalRef) hlines

end Layout

namespace Store

variable {s s' : Store} {j : JournalEntry} {e : OutboxEvent}

theorem Reached.data_ne_bare (hs : s.Reached) : s.data ≠ .bare := by
  obtain ⟨k, js, hdata, -, -⟩ := hs.exists_journals
  rintro hbare
  rw [hbare] at hdata
  cases hdata

/-- **A store that can be reached** refuses rows, or adds them, the sums of their journals being
those of balanced ones. -/
theorem Reached.serve_post_cases (hs : s.Reached) {rows : List Row}
    (h : ∀ j, .journal j ∈ rows → ensureBalanced j.lines = .ok ()) :
    (∃ e s', s.serve (.post rows) = (.error (.refused e), s')) ∨
      s.serve (.post rows) = (.ok (), { s with data := s.data.addAll rows }) := by
  have hserve : s.serve (.post rows) = s.conclude ((Work.insertAll rows).run s.data) := rfl
  rw [hserve]
  obtain ⟨e, d', he⟩ | hok := Database.run_insertAll_cases h hs.data_ne_bare
  · rw [he]
    exact .inl ⟨e, s, rfl⟩
  · rw [hok, conclude]
    split_ifs
    · exact .inl ⟨_, _, rfl⟩
    · exact .inr rfl

/-- **A journal that was written with its event** is there, and is answered. -/
theorem Reached.hasPosted (hs : s.Reached) (hj : ∀ l ∈ j.lines, l.IsStored j.id)
    (write : s.serve (.post [.journal j, .event e]) = (.ok (), s'))
    (hdata : s'.data = s.data.addAll [.journal j, .event e]) : s'.HasPosted j e := by
  obtain ⟨k, js, hk⟩ := hs.exists_journals
  have hs' : s'.Reached := by
    have hwrite : (s.write (.insertAll [.journal j, .event e])).2 = s' := congrArg Prod.snd write
    exact hwrite ▸ hs.write _
  have hkept : s'.data.HasJournals k (js ++ [j]) :=
    hdata ▸ Layout.hasJournals_addAll hk.data j e
  -- the identifiers are distinct in every store that can be reached
  have hids : ((js ++ [j]).map (·.id)).Nodup := by
    obtain ⟨k', js', hk'⟩ := hs'.exists_journals
    exact Layout.ids_eq_of_hasJournals hkept hk'.data ▸ hk'.ids
  have hunsigned : ∀ l ∈ j.lines, l.IsUnsigned := fun l hl =>
    ⟨(hj l hl).debit.unsigned, (hj l hl).credit.unsigned⟩
  have hjournals : k.Journals (js ++ [j]) s'.data := ⟨hkept, hids,
    List.forall_mem_append.2 ⟨hk.unsigned, List.forall_mem_singleton.2 hunsigned⟩⟩
  have hmem : j ∈ js ++ [j] := List.mem_append_right js (List.mem_singleton_self j)
  have hcan (hadmits : s'.data.Admits j.bookedAt) : k.CanRead j := by
    rintro rfl
    generalize s'.data = d at hkept hadmits
    cases hkept with
    | tables => exact hadmits
  refine ⟨hjournals.stores hmem, ?_, fun hr hadmits => ⟨k.kept j,
    (answers_iff hjournals hr).2 ⟨j, hmem, hcan hadmits, rfl⟩, k.id_kept j,
    Layout.content_kept hj k⟩⟩
  rw [hdata]
  cases hd : s.data with
  | memory m =>
    have hrow : Row.event e ∈ [Row.journal j, .event e] :=
      List.mem_cons_of_mem _ (List.mem_singleton_self _)
    exact Memory.stores_addAll m hrow
  | tables t =>
    refine List.mem_map_of_mem (f := EventRow.bare) (a := EventRow.of e) ?_
    exact List.mem_append_right _ (List.mem_singleton_self _)
  | bare => exact absurd hd hs.data_ne_bare

end Store

/-! ### The run -/

namespace Postings

variable {σ : Type} (o : Partners σ)

theorem run_freshIds {α : Type} (n : Nat) (k : List Uuid → Program α) (s : Store) (x : σ) :
    ∃ ids x', ids.length = n ∧
      (freshIds n k).run o.world (s, x) = (k ids).run o.world (s, x') := by
  induction n generalizing k x with
  | zero => exact ⟨[], x, rfl, rfl⟩
  | succ n ih =>
    obtain ⟨ids, x', hlength, hrun⟩ := ih (fun ids => k ((o.freshId x).1 :: ids)) (o.freshId x).2
    exact ⟨(o.freshId x).1 :: ids, x', congrArg (· + 1) hlength, hrun⟩

section

variable {c : ManualCommand} {journal : JournalId} {ids : List Uuid} {now : Instant}

theorem run_persistManual_of_posted {j : JournalEntry} {total : Decimal}
    (hposted : JournalEntry.posted journal c.externalRef now c.initiatedBy c.currency
      (c.entryLines journal ids) = .ok j) (hsum : j.totalDebit = some total) (s : Store) (x : σ) :
    ∃ event : EventId,
      (∀ err s', s.serve (.post (c.rows j total event now)) = (.error (.refused err), s') →
        ∃ x', (persistManual c now journal ids).run o.world (s, x) =
          (some (.error err.toService), (s', x'))) ∧
      ∀ s', s.serve (.post (c.rows j total event now)) = (.ok (), s') →
        ∃ x', (persistManual c now journal ids).run o.world (s, x) =
          (some (.ok (.of journal)), (s', x')) := by
  rw [persistManual, hposted, Program.ofHalt, hsum]
  refine ⟨(o.freshId x).1, fun err s' hserve => ⟨(o.freshId x).2, ?_⟩, fun s' hserve => ?_⟩
  · have hanswer : o.world (.store (.post (c.rows j total (o.freshId x).1 now)))
        (s, (o.freshId x).2) = (some (.error err), (s', (o.freshId x).2)) := by
      rw [Partners.world, hserve]
      rfl
    exact (Program.run_ask rfl).trans ((Program.run_ask hanswer).trans rfl)
  · have hanswer : o.world (.store (.post (c.rows j total (o.freshId x).1 now)))
        (s, (o.freshId x).2) = (some (.ok ()), (s', (o.freshId x).2)) := by
      rw [Partners.world, hserve]
      rfl
    exact ⟨_, (Program.run_ask rfl).trans ((Program.run_ask hanswer).trans (Program.run_ask rfl))⟩

/-- **How a journal of given lines ends**: it is written if it is balanced. -/
theorem run_persistManual {s : Store} (hs : s.Reached) (hlines : ∀ l ∈ c.lines, l.IsStored)
    (hfew : c.lines.length ≤ ManualCommand.maxLines) (hids : ids.length = c.lines.length)
    (now : Instant) (journal : JournalId) (x : σ) :
    ∃ a s' x', (persistManual c now journal ids).run o.world (s, x) = (some a, (s', x')) ∧
      (¬ c.content.IsBalanced → s' = s ∧ ∃ e, a = .error e) ∧
      (c.content.IsBalanced → c.content.Ends s a s') := by
  have hstored : ∀ l ∈ c.entryLines journal ids, l.IsStored journal :=
    ManualCommand.isStored_entryLines hlines
  have hlength : (c.entryLines journal ids).length ≤ ManualCommand.maxLines :=
    ManualCommand.length_entryLines_le.trans hfew
  have hcontent := ManualCommand.content_entryLines journal hids
  have hiff : ensureBalanced (c.entryLines journal ids) = .ok () ↔ c.content.IsBalanced :=
    JournalContent.isBalanced_iff hstored hlength hcontent
  obtain ⟨e, he⟩ | ⟨hok, -⟩ := EntryLine.ensureBalanced_cases hstored hlength
  · have hposted : JournalEntry.posted journal c.externalRef now c.initiatedBy c.currency
        (c.entryLines journal ids) = .error (.refused e) := by
      rw [JournalEntry.posted, he]
      rfl
    rw [persistManual, hposted]
    refine ⟨.error e.toService, s, x, rfl, fun _ => ⟨rfl, _, rfl⟩, fun hbalanced => ?_⟩
    rw [← hiff, he] at hbalanced
    cases hbalanced
  · obtain ⟨j, hj⟩ : ∃ j : JournalEntry, j = ⟨journal, c.externalRef, now, c.initiatedBy, .posted,
      c.currency, c.entryLines journal ids⟩ := ⟨_, rfl⟩
    have hposted : JournalEntry.posted journal c.externalRef now c.initiatedBy c.currency
        (c.entryLines journal ids) = .ok j := by
      rw [JournalEntry.posted, hok, hj]
      rfl
    have hid : j.id = journal := by rw [hj]
    have hstatus : j.status = .posted := by rw [hj]
    have hjstored : ∀ l ∈ j.lines, l.IsStored j.id := by rwa [hj]
    have hsays : j.content = c.content := by
      rw [hj, JournalEntry.content, ManualCommand.content, hcontent]
    obtain ⟨total, hsum, hplaces, hvalue⟩ := JournalEntry.exists_total hjstored (by rwa [hj])
    obtain ⟨event, hrefused, hwritten⟩ := run_persistManual_of_posted o hposted hsum s x
    have htold : c.content.IsTold j (.pending event "ledger" j.id OutboxEvent.manualPosted
        (c.payload j total now) now) := hsays ▸ ManualCommand.isTold hplaces hvalue event now
    have hbalanced : ∀ i, .journal i ∈ c.rows j total event now →
        ensureBalanced i.lines = .ok () := by
      intro i hi
      obtain rfl : i = j := by simpa [ManualCommand.rows] using hi
      rwa [hj]
    obtain ⟨err, s', herr⟩ | hserve := hs.serve_post_cases hbalanced
    · obtain ⟨x', hrun⟩ := hrefused err s' herr
      exact ⟨_, s', x', hrun, fun h => absurd (hiff.1 hok) h, fun _ => .refused hsays htold herr⟩
    · obtain ⟨x', hrun⟩ := hwritten _ hserve
      have hhas := hs.hasPosted hjstored hserve rfl
      have hends := JournalContent.Ends.posted hsays hstatus htold hserve hhas
      rw [hid] at hends
      exact ⟨_, _, x', hrun, fun h => absurd (hiff.1 hok) h, fun _ => hends⟩

end

end Postings

namespace Partners

variable {σ : Type}

/-- **What is asked for is posted.**  Over any store that can be reached and among any partners, a
request ends.  If it does not ask for a balanced journal, it fails and the store is as before;
otherwise a journal that says what was asked for is written with an event that tells it, and the
request fails only if the store refuses this write. -/
theorem posts_asked (o : Partners σ) {s : Store} (hs : s.Reached) (r : ManualRequest) (x : σ) :
    ∃ a s' x', (Postings.postManual r).run o.world (s, x) = (some a, (s', x')) ∧
      ((¬ ∃ q, r.Asks q ∧ q.IsBalanced) → s' = s ∧ ∃ e, a = .error e) ∧
      ∀ q, r.Asks q → q.IsBalanced → q.Ends s a s' := by
  rw [Postings.postManual]
  cases hc : ManualCommand.ofRequest r with
  | error e =>
    refine ⟨.error e.toService, s, x, rfl, fun _ => ⟨rfl, _, rfl⟩, fun q hq => ?_⟩
    obtain ⟨c, hc', -⟩ := ManualRequest.asks_iff.1 hq
    rw [hc] at hc'
    cases hc'
  | ok c =>
    obtain ⟨hlines, hfew⟩ := ManualCommand.isStored_lines hc
    have hasks : r.Asks c.content := ManualRequest.asks_iff.2 ⟨c, hc, rfl⟩
    obtain ⟨ids, x₁, hids, hdraw⟩ := Postings.run_freshIds o c.lines.length
      (Postings.persistManual c (o.now x).1 (o.freshId (o.now x).2).1) s (o.freshId (o.now x).2).2
    obtain ⟨a, s', x', hrun, hfails, hends⟩ := Postings.run_persistManual o hs hlines hfew hids
      (o.now x).1 (o.freshId (o.now x).2).1 x₁
    refine ⟨a, s', x', ?_, fun h => hfails fun hbalanced => h ⟨_, hasks, hbalanced⟩,
      fun q hq hbalanced => ?_⟩
    · exact (Program.run_ask rfl).trans ((Program.run_ask rfl).trans (hdraw.trans hrun))
    · obtain ⟨c', hc', rfl⟩ := ManualRequest.asks_iff.1 hq
      rw [hc] at hc'
      cases hc'
      exact hends hbalanced

/-- An amount of some tenths. -/
def tenths (d : Fin 10) : WrittenAmount := ⟨[0], [d], .inl rfl, by simp, by simp⟩

/-- Two debits of the fund and a credit of a customer, written in different ways. -/
def fundRequest : ManualRequest where
  currency := "gbp"
  initiatedBy := "ops:bob"
  externalRef := none
  lines := [⟨" GL_SYSTEM_FUND", none, some "0.1", none⟩,
    ⟨"GL_SYSTEM_FUND", some " ", some " 0.2", some ""⟩,
    ⟨"GL_CUSTOMER_CASH", some (Uuid.toText (.ofNat 7)), none, some "0.3"⟩]

/-- What it asks for. -/
def fundContent : JournalContent where
  currency := ⟨"GBP", rfl, rfl⟩
  createdBy := "ops:bob"
  externalRef := ""
  lines := [⟨.systemFund, none, 1 / 10, 0⟩, ⟨.systemFund, none, 2 / 10, 0⟩,
    ⟨.customerCash, some (.ofNat 7), 0, 3 / 10⟩]

theorem fundRequest_asks : fundRequest.Asks fundContent := by
  have hnumber (d : Fin 10) : (tenths d).number = d.val / 10 := by
    simp [tenths, WrittenAmount.number, numeral]
  have hamount (s : String) (d : Fin 10) (h : (trim s).toList = (tenths d).chars) :
      Field.WritesAmount (some s) (d.val / 10) :=
    hnumber d ▸ .amount (Option.mem_some_self s) (tenths d) h
  have hnone : Field.IsBlank none := fun s hs => by cases hs
  have hblank (s : String) (h : trim s = "") : Field.IsBlank (some s) := fun t ht => by
    cases ht
    exact h
  refine ⟨by decide +kernel, by decide +kernel, by decide +kernel, by decide, ?_⟩
  refine .cons ⟨?_, .blank hnone, ?_, .blank hnone⟩ (.cons ⟨?_, .blank (hblank _ ?_), ?_,
    .blank (hblank _ ?_)⟩ (.cons ⟨?_, ?_, .blank hnone, ?_⟩ .nil))
  · decide +kernel
  · simpa using hamount "0.1" 1 (by decide +kernel)
  · decide +kernel
  · decide +kernel
  · simpa using hamount " 0.2" 2 (by decide +kernel)
  · decide +kernel
  · decide +kernel
  · exact .uuid (Option.mem_some_self _) (by decide +kernel)
  · simpa using hamount "0.3" 3 (by decide +kernel)

theorem fundContent_isBalanced : fundContent.IsBalanced := by
  refine ⟨by decide, ?_, ?_⟩
  · simp [fundContent, Xor]
  · norm_num [JournalContent.debits, JournalContent.credits, fundContent]

/-- A tenth and two of them are three tenths, which are posted in tables. -/
theorem posts_asked_fund : (Store.ofTables .empty).Reached ∧ fundRequest.Asks fundContent ∧
    fundContent.IsBalanced ∧ ∃ a s' x', (Postings.postManual fundRequest).run granting.world
        (.ofTables .empty, 1) = (some (.ok a), (s', x')) ∧
      fundContent.Ends (.ofTables .empty) (.ok a) s' := by
  have hreached : (Store.ofTables .empty).Reached := .opened Ledger.open?_tables
  obtain ⟨a, s', x', hrun, -, hends⟩ := posts_asked granting hreached fundRequest 1
  have hok : ((Postings.postManual fundRequest).run granting.world
    (.ofTables .empty, 1)).1.any Except.isOk = true := by decide +kernel
  rw [hrun] at hok
  cases a with
  | error e => cases hok
  | ok a =>
    exact ⟨hreached, fundRequest_asks, fundContent_isBalanced, a, s', x', hrun,
      hends _ fundRequest_asks fundContent_isBalanced⟩

end Partners

end DoubleEntry
