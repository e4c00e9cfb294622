import DoubleEntry.Proofs.Agreement
import DoubleEntry.Proofs.BareTables

/-!
# Stores of both layouts

A store keeps its data as values in memory or as rows in tables.  Told apart from the claims on
events, both keep the same data through every request that is made of the ledger
(`Store.Keeps.serve_cases`), and what is looked up depends on these data only
(`Store.Keeps.serve_lookup`).

## Main definitions

* `Layout`, `Layout.database`: the two layouts, and data in a layout.
* `Database.cleared`: the data with every event as it was inserted.
* `Store.Keeps`: the store keeps some data in a layout.
* `Call.IsLookup`: the calls of the services that read.
-/

namespace DoubleEntry

/-- How a store keeps its data. -/
inductive Layout where
  | values
  | rows

/-- Data in a layout. -/
def Layout.database : Layout → Memory → Database
  | values, m => .memory m
  | rows, m => .tables m.tables

/-- The data with every event as it was inserted. -/
def Database.cleared : Database → Database
  | memory m => memory m.bare
  | tables t => tables t.bare
  | bare => bare

/-- The call looks up what was inserted, but for events. -/
def Call.IsLookup : Call → Prop
  | payment _ | paymentOfKey _ | steps _ | journal _ | activity _ | record _ => True
  | _ => False

namespace Layout

variable {k : Layout} {m : Memory} {d d' : Database}

theorem cleared_database (k : Layout) (m : Memory) :
    (k.database m).cleared = k.database m.bare := by
  cases k with
  | values => rfl
  | rows => exact congrArg Database.tables (Tables.bare_tables m)

theorem cases_of_cleared (hd : d.cleared = k.database m.bare) :
    (k = .values ∧ ∃ n, d = .memory n ∧ n.bare = m.bare) ∨
      k = .rows ∧ ∃ t, d = .tables t ∧ t.bare = m.bare.tables := by
  cases k with
  | values =>
    cases d with
    | memory n => exact .inl ⟨rfl, n, rfl, Database.memory.inj hd⟩
    | tables t => cases hd
    | bare => cases hd
  | rows =>
    cases d with
    | memory n => cases hd
    | tables t => exact .inr ⟨rfl, t, rfl, Database.tables.inj hd⟩
    | bare => cases hd

/-- **What a unit of work does to the data**, in either layout. -/
theorem run_of_cleared (hd : d.cleared = k.database m.bare) {q : StoreRequest} {a : q.Value}
    (h : q.work.run d = (.ok a, d')) :
    d'.cleared = k.database (m.addAll q.rows).bare ∧ (m.Sound → (m.addAll q.rows).Sound) := by
  obtain ⟨rfl, n, rfl, hn⟩ | ⟨rfl, t, rfl, ht⟩ := cases_of_cleared hd
  · rw [Store.run_memory] at h
    obtain ⟨ha, rfl⟩ := Prod.mk.inj h
    obtain ⟨hbare, hsound⟩ := Memory.bare_of_run (a := a) (Prod.ext ha rfl)
    have hbare' := hbare.trans (Memory.bare_addAll hn q.rows)
    refine ⟨congrArg Database.memory hbare', fun hm => ?_⟩
    exact (hsound (hm.of_bare hn)).of_bare hbare'.symm
  · rw [Store.run_tables] at h
    obtain ⟨ha, rfl⟩ := Prod.mk.inj h
    obtain ⟨hbare, hsound⟩ := Tables.bare_of_run (a := a) ht (Prod.ext ha rfl)
    exact ⟨congrArg Database.tables hbare, hsound⟩

end Layout

namespace Work

variable {α : Type} {w : Work α}

theorem makes_lookups {q : StoreRequest} (hq : q.writes = false) : q.work.Makes Call.IsLookup := by
  cases q with
  | record key => exact .single trivial
  | activity l => exact .single trivial
  | payment id =>
    refine .call trivial fun found => ?_
    cases found with
    | none => exact .done _
    | some p => exact .call trivial fun _ => .done _
  | post rows => cases hq
  | claim limit owner now ttl => cases hq
  | settle published now rest owner => cases hq

/-- **Looking up** changes nothing, and does not see the claims on events. -/
theorem Makes.run_lookups (hw : w.Makes Call.IsLookup) (d : Database) :
    ∃ a, w.run d = (a, d) ∧ w.run d.cleared = (a, d.cleared) := by
  induction hw with
  | done a => exact ⟨.ok a, rfl, rfl⟩
  | @call c k hc _ ih =>
    have hcall : ∃ a, Backend.call c d = (a, d) ∧
        Backend.call c d.cleared = (a, d.cleared) := by
      cases c with
      | insert _ | event _ | claim _ _ _ _ | markPublished _ _ | releaseClaims _ _ => cases hc
      | _ => cases d <;> exact ⟨_, rfl, rfl⟩
    obtain ⟨a, hd, hcleared⟩ := hcall
    rw [run, run, hd, hcleared]
    cases a with
    | error e => exact ⟨.error e, rfl, rfl⟩
    | ok a => exact ih a

end Work

namespace Store

/-! ### What requests do -/

variable {q : StoreRequest}

theorem serve_snd (hq : q.writes = false) (s : Store) : (s.serve q).2 = s := by
  obtain ⟨a, hdata, -⟩ := (Work.makes_lookups hq).run_lookups s.view
  rw [serve, if_neg (by simp [hq]), read, hdata, afterRead]
  split
  · rename_i hdata hreads
    rw [view, if_pos hreads]
  · rfl

theorem readsData_serve (q : StoreRequest) (s : Store) :
    (s.serve q).2.readsData = s.readsData := by
  cases hq : q.writes with
  | false => rw [serve_snd hq]
  | true =>
    rw [serve, if_pos hq, write]
    rcases q.work.run s.data with ⟨e | a, d⟩
    · rfl
    · rw [conclude]
      split_ifs <;> rfl

theorem readsData_failNext (s : Store) : s.failNext.readsData = s.readsData := by
  unfold failNext
  split <;> rfl

/-- The store keeps these data in a layout, told apart from the claims on events. -/
structure Keeps (k : Layout) (m : Memory) (s : Store) : Prop where
  data : s.data.cleared = k.database m.bare

namespace Keeps

variable {k : Layout} {m : Memory} {s : Store}

theorem exists_of_open? {address : String} {readAddress : Option String}
    (h : open? address readAddress = .ok s) : ∃ k, s.Keeps k .empty := by
  unfold open? at h
  split_ifs at h
  · cases h
    exact ⟨.values, ⟨rfl⟩⟩
  · cases h
    exact ⟨.rows, ⟨rfl⟩⟩

theorem failNext (h : s.Keeps k m) : s.failNext.Keeps k m := by
  unfold Store.failNext
  split
  · exact ⟨h.data⟩
  · exact h

/-- **What is looked up** depends on the data that are kept, if reads see them. -/
theorem serve_lookup (h : s.Keeps k m) (hr : s.readsData = true) (hq : q.writes = false) :
    s.serve q = ((q.work.run (k.database m)).1, s) := by
  obtain ⟨a, hdata, hcleared⟩ := (Work.makes_lookups hq).run_lookups s.data
  obtain ⟨b, hdatabase, hcleared'⟩ := (Work.makes_lookups hq).run_lookups (k.database m)
  rw [Layout.cleared_database, ← h.data, hcleared] at hcleared'
  obtain rfl : a = b := congrArg Prod.fst hcleared'
  refine Prod.ext ?_ (serve_snd hq s)
  rw [serve, if_neg (by simp [hq]), read, view, if_pos hr, hdata, hdatabase]

/-- **What a request does to a store**: it fails and leaves the data as they are, or it adds its
rows. -/
theorem serve_cases (h : s.Keeps k m) (q : StoreRequest) :
    (∃ e, (s.serve q).1 = .error e) ∧ (s.serve q).2.Keeps k m ∨
      (∃ a, (s.serve q).1 = .ok a) ∧ (s.serve q).2.Keeps k (m.addAll q.rows) ∧
        (m.Sound → (m.addAll q.rows).Sound) := by
  cases hq : q.writes with
  | false =>
    rw [serve_snd hq]
    cases (s.serve q).1 with
    | error e => exact .inl ⟨⟨e, rfl⟩, h⟩
    | ok a =>
      have hrows : q.rows = [] := by cases q <;> first | rfl | cases hq
      rw [hrows]
      exact .inr ⟨⟨a, rfl⟩, h, id⟩
  | true =>
    rw [serve, if_pos hq, write]
    rcases hrun : q.work.run s.data with ⟨e | a, d⟩
    · exact .inl ⟨⟨e, rfl⟩, h⟩
    · obtain ⟨hdata, hsound⟩ := Layout.run_of_cleared h.data hrun
      rw [conclude]
      split_ifs
      -- the write was made to fail
      · exact .inl ⟨⟨_, rfl⟩, ⟨h.data⟩⟩
      · exact .inr ⟨⟨a, rfl⟩, ⟨hdata⟩, hsound⟩

end Keeps

end Store

end DoubleEntry
