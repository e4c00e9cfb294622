import DoubleEntry.Proofs.WholeListings

/-!
# Stores that can be reached

A store is opened, and then any units of work are carried out over it, whatever calls they make and
whether they succeed or not.  Whatever was done, the store keeps journals with identifiers of their
own, whose lines have no signs (`Store.Reached.exists_journals`): in memory the journals themselves,
in tables their rows.  A unit of work that reads may leave a journal in tables with some of its
lines only; then these are the lines that it has.

## Main definitions

* `Store.Reached`: the stores that can be reached.
* `Layout.Journals`: the data keep these journals, and no others.
* `Store.Answers`: the store answers a journal when it is asked for its identifier.

## Main results

* `Layout.Journals.exists_call`: what a call makes of the journals.
* `Store.answers_iff`: the journals that are answered are those that are kept, as they are read.
-/

namespace DoubleEntry

/-- The stores that can be reached: any units of work are carried out over a store that was
opened. -/
inductive Store.Reached : Store → Prop
  | opened {address : String} {readAddress : Option String} {s : Store}
    (h : open? address readAddress = .ok s) : Reached s
  | write {s : Store} (h : Reached s) {α : Type} (w : Work α) : Reached (s.write w).2
  | read {s : Store} (h : Reached s) {α : Type} (w : Work α) : Reached (s.read w).2
  | failNext {s : Store} (h : Reached s) : Reached s.failNext

/-- The store answers a journal when it is asked for its identifier. -/
def Store.Answers (s : Store) (j : JournalEntry) : Prop :=
  (s.read (.single (.journal j.id))).1 = .ok (some j)

/-- The journals as data of their own. -/
def Memory.ofJournals (js : List JournalEntry) : Memory := { Memory.empty with journals := js }

theorem Work.makes_true {α : Type} (w : Work α) : w.Makes fun _ => True := by
  induction w with
  | done a => exact .done a
  | call c k ih => exact .call trivial ih

theorem find?_id {js : List JournalEntry} (hids : (js.map (·.id)).Nodup) {j : JournalEntry}
    (hj : j ∈ js) : js.find? (fun k => k.id = j.id) = some j := by
  rw [← List.head?_filter, Memory.filter_eq_singleton hids hj]
  rfl

/-- A text of an instant that can be read is of a year with four digits. -/
theorem Column.inFourDigits_of_instant {i i' : Instant} (h : Column.instant i.microText = .ok i') :
    i.InFourDigits := by
  by_contra hi
  obtain ⟨c, cs, hcs, hc⟩ := Instant.exists_sign hi
  have hsign : (digitValue? c).isSome = false := by
    obtain rfl | rfl := hc <;> rfl
  have hdigits : ((c :: cs).take 4).takeWhile (fun c => (digitValue? c).isSome) = [] := by
    simp [hsign]
  obtain ⟨u, hu⟩ : ∃ u, Instant.scanNumber 4 4 (c :: cs) = .error u := by
    simp only [Instant.scanNumber, hdigits, List.length_nil, Nat.zero_lt_succ, if_true]
    split_ifs <;> exact ⟨_, rfl⟩
  have hread : Instant.ofStrictText? i.microText = .error u := by
    rw [Instant.ofStrictText?, hcs, hu]
    rfl
  rw [Column.instant, hread] at h
  cases h

/-! ### What calls do to journals -/

theorem Memory.journals_call (c : Call) (m : Memory) : (m.call c).2.journals = m.journals ∨
    ∃ j : JournalEntry, (∀ l ∈ j.lines, l.IsUnsigned) ∧ (∀ i ∈ m.journals, i.id ≠ j.id) ∧
      (m.call c).2.journals = m.journals ++ [j] := by
  cases c with
  | insert row =>
    cases h : m.insert row with
    | error e => exact .inl (by rw [call, h]; rfl)
    | ok m' =>
      have hcall : (m.call (.insert row)).2 = m.add row := by
        rw [call, h, ← (insert_eq_ok h).1]
        rfl
      rw [hcall]
      cases row with
      | journal j =>
        simp only [insert, insertJournal, conflict, Halt.refuse] at h
        obtain ⟨u, hbalanced, h⟩ := exists_of_bind_eq_ok h
        split_ifs at h with hany
        have hbalanced' : ensureBalanced j.lines = .ok () := by
          cases hb : ensureBalanced j.lines with
          | error e => rw [hb] at hbalanced; cases hbalanced
          | ok u => rfl
        exact .inr ⟨j, isUnsigned_of_balanced hbalanced', by simpa using hany, rfl⟩
      | _ => exact .inl rfl
  | claim limit owner now ttl =>
    simp only [call, claim]
    cases m.batch limit now ttl <;> exact .inl rfl
  | _ => exact .inl rfl

namespace Tables

theorem insertLines_snd (journal : JournalId) (n : Nat) (ls : List EntryLine) (t : Tables) :
    ∃ count, (insertLines journal n ls t).2 =
      { t with lines := t.lines ++ lineRows journal n (ls.take count) } := by
  induction ls generalizing n t with
  | nil => exact ⟨0, by simp [insertLines, lineRows]⟩
  | cons l ls ih =>
    rw [insertLines]
    obtain ⟨e, he⟩ | hok := t.insertLine_cases (.of journal n l)
    · rw [he]
      exact ⟨0, by simp [lineRows]⟩
    · obtain ⟨count, hcount⟩ := ih (n + 1) { t with lines := t.lines ++ [.of journal n l] }
      rw [hok]
      exact ⟨count + 1, by simp [hcount, lineRows]⟩

theorem journals_call (c : Call) (t : Tables) :
    (t.call c).2.journals = t.journals ∧ (t.call c).2.lines = t.lines ∨
      ∃ j : JournalEntry, (∀ l ∈ j.lines, l.IsUnsigned) ∧ (∀ r ∈ t.journals, r.id ≠ j.id.toText) ∧
        (t.call c).2.journals = t.journals ++ [.of j] ∧
        (t.call c).2.lines = t.lines ++ j.lineRows := by
  by_cases hc : ∃ j, c = .insert (.journal j)
  · obtain ⟨j, rfl⟩ := hc
    obtain ⟨e, he⟩ | ⟨hbalanced, hfresh, -⟩ := t.insertJournal_cases j
    · exact .inl (by rw [call, insert, he]; exact ⟨rfl, rfl⟩)
    · obtain ⟨count, hlines⟩ :=
        insertLines_snd j.id 0 j.lines { t with journals := t.journals ++ [.of j] }
      have hnew : t.journals.any (fun q => q.id = (JournalRow.of j).id) = false :=
        List.any_eq_false.2 fun r hr => by simp [JournalRow.id_of, hfresh r hr]
      have hinsert : (t.insertJournal j).2 = { t with
          journals := t.journals ++ [.of j]
          lines := t.lines ++ lineRows j.id 0 (j.lines.take count) } := by
        simp only [insertJournal, hbalanced, Halt.within, insertHead, hnew]
        exact hlines
      refine .inr ⟨{ j with lines := j.lines.take count }, ?_, hfresh, ?_, ?_⟩
      · exact fun l hl => isUnsigned_of_balanced hbalanced l (List.mem_of_mem_take hl)
      · rw [call, insert, hinsert]
        rfl
      · rw [call, insert, hinsert]
        rfl
  · exact .inl (frame_call (fun j hj => hc ⟨j, hj⟩) t)

theorem readJournal_congr {t : Tables} (t' : Tables) (h : t.lines = t'.lines) :
    t.readJournal = t'.readJournal := by
  funext r
  simp only [readJournal, linesOf, h]

end Tables

/-! ### Journals that are kept -/

/-- The data keep these journals in a layout, and no others. -/
inductive Database.HasJournals : Layout → List JournalEntry → Database → Prop
  | memory (m : Memory) : HasJournals .values m.journals (.memory m)
  | tables {js : List JournalEntry} {t : Tables} (journals : t.journals = js.map .of)
    (lines : t.lines = js.flatMap JournalEntry.lineRows) : HasJournals .rows js (.tables t)

/-- The data keep these journals in a layout, and no others.  Each has an identifier of its own, and
lines without signs. -/
structure Layout.Journals (k : Layout) (js : List JournalEntry) (d : Database) : Prop where
  data : d.HasJournals k js
  ids : (js.map (·.id)).Nodup
  unsigned : ∀ j ∈ js, ∀ l ∈ j.lines, l.IsUnsigned

namespace Layout

variable {k : Layout} {js : List JournalEntry} {d : Database} {j e : JournalEntry}

/-- A journal as the layout keeps it. -/
def kept : Layout → JournalEntry → JournalEntry
  | values, j => j
  | rows, j => j.kept

theorem id_kept (k : Layout) (j : JournalEntry) : (k.kept j).id = j.id := by
  cases k <;> rfl

/-- The journal can be read in the layout: tables need a year of four digits. -/
def CanRead (k : Layout) (j : JournalEntry) : Prop := k = .rows → j.bookedAt.InFourDigits

namespace Journals

theorem concat (h : k.Journals js d) {d' : Database} (hd : d'.HasJournals k (js ++ [j]))
    (hids : ∀ i ∈ js, i.id ≠ j.id) (hj : ∀ l ∈ j.lines, l.IsUnsigned) :
    k.Journals (js ++ [j]) d' :=
  ⟨hd, Memory.nodup_concat h.ids (by simpa using hids),
    List.forall_mem_append.2 ⟨h.unsigned, List.forall_mem_singleton.2 hj⟩⟩

/-- **What a call makes of the journals**: it leaves them as they are, or adds one. -/
theorem exists_call (h : k.Journals js d) (c : Call) :
    ∃ js', k.Journals js' (Backend.call c d).2 := by
  obtain ⟨hdata, hids, hunsigned⟩ := h
  cases hdata with
  | memory m =>
    obtain hsame | ⟨j, hj, hfresh, hadd⟩ := m.journals_call c
    · exact ⟨m.journals, hsame ▸ .memory (m.call c).2, hids, hunsigned⟩
    · have hm : Journals .values m.journals (.memory m) := ⟨.memory m, hids, hunsigned⟩
      exact ⟨_, hm.concat (hadd ▸ .memory (m.call c).2) hfresh hj⟩
  | @tables js t journals lines =>
    obtain ⟨hsame, hsame'⟩ | ⟨j, hj, hfresh, hadd, hadd'⟩ := t.journals_call c
    · exact ⟨js, .tables (hsame.trans journals) (hsame'.trans lines), hids, hunsigned⟩
    · have ht : Journals .rows js (.tables t) := ⟨.tables journals lines, hids, hunsigned⟩
      refine ⟨_, ht.concat (j := j) (.tables ?_ ?_) (fun i hi hid => ?_) hj⟩
      · exact hadd.trans (by rw [journals, List.map_append]; rfl)
      · exact hadd'.trans (by rw [lines, List.flatMap_append]; simp)
      · exact hfresh (.of i) (journals ▸ List.mem_map_of_mem hi) (congrArg Uuid.toText hid)

theorem exists_run (h : k.Journals js d) {α : Type} (w : Work α) :
    ∃ js', k.Journals js' (w.run d).2 :=
  w.makes_true.run_snd (R := fun d => ∃ js, k.Journals js d)
    (fun c _ _ ⟨_, h⟩ => h.exists_call c) ⟨js, h⟩

end Journals

/-! ### Journals that are read -/

/-- **A journal is read as it is kept**, unless its year cannot be read. -/
theorem entry_eq_ok_iff (hu : ∀ l ∈ j.lines, l.IsUnsigned) :
    k.entry j = .ok e ↔ k.CanRead j ∧ e = k.kept j := by
  cases k with
  | values =>
    exact ⟨fun h => ⟨fun hrows => Layout.noConfusion hrows, (Except.ok.inj h).symm⟩,
      fun h => congrArg _ h.2.symm⟩
  | rows =>
    have hlines : j.lineRows.mapM LineRow.read = .ok (j.lines.map (.kept j.id)) :=
      Tables.mapM_lineRows fun l hl _ => LineRow.read_kept (hu l hl)
    have hentry : entry .rows j = JournalRow.read (.of j) (j.lines.map (.kept j.id)) := by
      simp only [entry, hlines, bind, Except.bind]
    rw [hentry]
    constructor
    · intro h
      obtain ⟨id, -, hrest⟩ := exists_of_bind_eq_ok h
      obtain ⟨bookedAt, hbooked, -⟩ := exists_of_bind_eq_ok hrest
      have hyear := Column.inFourDigits_of_instant hbooked
      rw [JournalRow.read_kept hyear] at h
      exact ⟨fun _ => hyear, (Except.ok.inj h).symm⟩
    · rintro ⟨hyear, rfl⟩
      exact JournalRow.read_kept (hyear rfl)

theorem Journals.call_journal (h : k.Journals js d) (id : JournalId) :
    (Backend.call (.journal id) d).1 =
      Halt.refusing (Column.optional k.entry (js.find? fun j => j.id = id)) := by
  obtain ⟨hdata, hids, -⟩ := h
  cases hdata with
  | memory m =>
    have hcall : (Backend.call (.journal id) (Database.memory m)).1 =
        .ok (m.journals.find? fun j => j.id = id) := rfl
    rw [hcall]
    cases m.journals.find? fun j => j.id = id <;> rfl
  | @tables js t journals lines =>
    have hcall : (Backend.call (.journal id) (Database.tables t)).1 = Halt.refusing
        (Column.optional t.readJournal (t.journals.find? fun r => r.id = id.toText)) := rfl
    have hid : ((fun r : JournalRow => decide (r.id = id.toText)) ∘ JournalRow.of) =
        fun j : JournalEntry => decide (j.id = id) := by
      funext j
      simp [JournalRow.of]
    rw [hcall, journals, List.find?_map, hid]
    cases hfind : js.find? fun j => j.id = id with
    | none => rfl
    | some j =>
      have hread := readJournal_eq (m := .ofJournals js) hids
        (List.mem_of_find?_eq_some hfind)
      rw [Option.map_some, Column.optional, Column.optional, ← hread,
        Tables.readJournal_congr (Memory.ofJournals js).tables lines]

end Layout

namespace Store

variable {s : Store} {k : Layout} {js : List JournalEntry} {j : JournalEntry}

/-- **The journals that are answered** are those that are kept, as they are read. -/
theorem answers_iff (h : k.Journals js s.data) (hr : s.readsData = true) :
    s.Answers j ↔ ∃ j' ∈ js, k.CanRead j' ∧ j = k.kept j' := by
  have hread : (s.read (.single (.journal j.id))).1 =
      Halt.refusing (Column.optional k.entry (js.find? fun i => i.id = j.id)) := by
    rw [read, view, if_pos hr, Work.run_single]
    exact h.call_journal j.id
  rw [Answers, hread]
  constructor
  · intro hfound
    cases hfind : js.find? fun i => i.id = j.id with
    | none => rw [hfind] at hfound; cases hfound
    | some j' =>
      have hmem := List.mem_of_find?_eq_some hfind
      cases hentry : k.entry j' with
      | error e =>
        simp only [hfind, Column.optional, hentry] at hfound
        cases hfound
      | ok e =>
        simp only [hfind, Column.optional, hentry] at hfound
        cases hfound
        exact ⟨j', hmem, (Layout.entry_eq_ok_iff (h.unsigned j' hmem)).1 hentry⟩
  · rintro ⟨j', hmem, hcan, rfl⟩
    have hentry := (Layout.entry_eq_ok_iff (h.unsigned j' hmem)).2 ⟨hcan, rfl⟩
    rw [k.id_kept, find?_id h.ids hmem, Column.optional, hentry]
    rfl

/-- **A store that can be reached** keeps journals. -/
theorem Reached.exists_journals (h : s.Reached) :
    ∃ (k : Layout) (js : List JournalEntry), k.Journals js s.data := by
  induction h with
  | opened h =>
    unfold open? at h
    split_ifs at h
    · cases h
      exact ⟨.values, [], .memory .empty, List.nodup_nil, List.forall_mem_nil _⟩
    · cases h
      exact ⟨.rows, [], .tables rfl rfl, List.nodup_nil, List.forall_mem_nil _⟩
  | @write s _ α w ih =>
    obtain ⟨k, js, hk⟩ := ih
    obtain ⟨js', hk'⟩ := hk.exists_run w
    rw [Store.write]
    rcases hw : w.run s.data with ⟨e | a, d⟩ <;> rw [hw] at hk'
    · exact ⟨k, js, hk⟩
    · rw [conclude]
      split_ifs
      · exact ⟨k, js, hk⟩
      · exact ⟨k, js', hk'⟩
  | @read s _ α w ih =>
    obtain ⟨k, js, hk⟩ := ih
    rw [Store.read, afterRead]
    split
    · rename_i t hdata hreads
      obtain ⟨js', hk'⟩ := hk.exists_run w
      exact ⟨k, js', by rwa [view, if_pos hreads]⟩
    · exact ⟨k, js, hk⟩
  | @failNext s _ ih =>
    obtain ⟨k, js, hk⟩ := ih
    rw [Store.failNext]
    split <;> exact ⟨k, js, hk⟩

end Store

end DoubleEntry
