import DoubleEntry.Proofs.Layouts

/-!
# Stores that only grow

From one time to another, a store of either layout only gets more rows; the rows that it has stay as
they are, but for the claims on events and their publication (`Store.Keeps.growsTo`).

## Main definitions

* `Memory.GrowsTo`, `Tables.GrowsTo`, `Database.GrowsTo`: rows were only added.
* `Memory.Stores`, `Tables.Stores`, `Database.Stores`: a row is stored.
* `Database.Admits`: an instant can be read again.
-/

namespace DoubleEntry

theorem PaymentRow.createdAt_of (p : Payment) : (of p).createdAt = p.createdAt.microText := rfl

/-- Rows were only added, told apart from the claims on events. -/
structure Memory.GrowsTo (m m' : Memory) : Prop where
  payments : m.payments <+: m'.payments
  steps : m.steps <+: m'.steps
  journals : m.journals <+: m'.journals
  outbox : m.outbox.map OutboxEvent.bare <+: m'.outbox.map OutboxEvent.bare
  records : m.records <+: m'.records

/-- Rows were only added, told apart from the claims on events. -/
structure Tables.GrowsTo (t t' : Tables) : Prop where
  payments : t.payments <+: t'.payments
  steps : t.steps <+: t'.steps
  journals : t.journals <+: t'.journals
  lines : t.lines <+: t'.lines
  outbox : t.outbox.map EventRow.bare <+: t'.outbox.map EventRow.bare
  records : t.records <+: t'.records

/-- The value is stored, an event up to the claims on it. -/
def Memory.Stores (m : Memory) : Row → Prop
  | .payment p => p ∈ m.payments
  | .step s => s ∈ m.steps
  | .journal j => j ∈ m.journals
  | .event e => e.bare ∈ m.outbox.map OutboxEvent.bare
  | .record r => r ∈ m.records

/-- The row of a value is stored, an event up to the claims on it, and a journal with its lines and
no others. -/
def Tables.Stores (t : Tables) : Row → Prop
  | .payment p => .of p ∈ t.payments
  | .step s => .of s ∈ t.steps
  | .journal j => .of j ∈ t.journals ∧
      t.lines.filter (fun l => l.journalId = j.id.toText) = j.lineRows
  | .event e => .of e.bare ∈ t.outbox.map EventRow.bare
  | .record r => .of r ∈ t.records

/-- Lists that are made of one list, the second with more behind, grow. -/
theorem prefix_of_eq {α : Type} {a b c d : List α} (h : a = b) (h' : c = b ++ d) : a <+: c :=
  ⟨d, by rw [h, h']⟩

namespace Memory

variable {m n n' : Memory} {rows : List Row} {row : Row}

theorem bare_inj (h : n.bare = n'.bare) : n.payments = n'.payments ∧ n.steps = n'.steps ∧
    n.journals = n'.journals ∧ n.outbox.map OutboxEvent.bare = n'.outbox.map OutboxEvent.bare ∧
      n.records = n'.records := by
  simpa only [bare, Memory.mk.injEq] using h

theorem growsTo_of_bare (h : n.bare = m.bare) (h' : n'.bare = (m.addAll rows).bare) :
    n.GrowsTo n' := by
  rw [addAll_eq] at h'
  obtain ⟨hp, hs, hj, ho, hr⟩ := bare_inj h
  obtain ⟨hp', hs', hj', ho', hr'⟩ := bare_inj h'
  exact ⟨prefix_of_eq hp hp', prefix_of_eq hs hs', prefix_of_eq hj hj',
    prefix_of_eq ho (ho'.trans List.map_append), prefix_of_eq hr hr'⟩

theorem stores_addAll (m : Memory) (h : row ∈ rows) : (m.addAll rows).Stores row := by
  rw [addAll_eq]
  cases row with
  | payment p => exact List.mem_append_right _ (List.mem_filterMap.2 ⟨_, h, rfl⟩)
  | step s => exact List.mem_append_right _ (List.mem_filterMap.2 ⟨_, h, rfl⟩)
  | journal j => exact List.mem_append_right _ (List.mem_filterMap.2 ⟨_, h, rfl⟩)
  | event e =>
    exact List.mem_map_of_mem (List.mem_append_right _ (List.mem_filterMap.2 ⟨_, h, rfl⟩))
  | record r => exact List.mem_append_right _ (List.mem_filterMap.2 ⟨_, h, rfl⟩)

theorem Stores.of_bare (hm : m.Stores row) (h : n.bare = m.bare) : n.Stores row := by
  obtain ⟨hp, hs, hj, ho, hr⟩ := bare_inj h
  cases row with
  | payment p => rwa [Stores, hp]
  | step s => rwa [Stores, hs]
  | journal j => rwa [Stores, hj]
  | event e => rwa [Stores, ho]
  | record r => rwa [Stores, hr]

end Memory

namespace Tables

variable {m : Memory} {t t' : Tables} {rows : List Row} {row : Row}

theorem eq_of_bare (h : t.bare = m.bare.tables) : t.payments = m.payments.map .of ∧
    t.steps = m.steps.map .of ∧ t.journals = m.journals.map .of ∧ t.lines = m.tables.lines ∧
      t.outbox.map EventRow.bare = (m.outbox.map OutboxEvent.bare).map .of ∧
        t.records = m.records.map .of := by
  simpa only [bare, Memory.tables, Memory.bare, Tables.mk.injEq] using h

theorem growsTo_of_bare (h : t.bare = m.bare.tables) (h' : t'.bare = (m.addAll rows).bare.tables) :
    t.GrowsTo t' := by
  rw [Memory.addAll_eq] at h'
  obtain ⟨hp, hs, hj, hl, ho, hr⟩ := eq_of_bare h
  obtain ⟨hp', hs', hj', hl', ho', hr'⟩ := eq_of_bare h'
  rw [List.map_append] at hp' hs' hj' hr'
  rw [List.map_append, List.map_append] at ho'
  exact ⟨prefix_of_eq hp hp', prefix_of_eq hs hs', prefix_of_eq hj hj',
    prefix_of_eq hl (hl'.trans List.flatMap_append), prefix_of_eq ho ho', prefix_of_eq hr hr'⟩

theorem stores_of_bare (hm : m.Stores row) (hids : (m.journals.map (·.id)).Nodup)
    (h : t.bare = m.bare.tables) : t.Stores row := by
  obtain ⟨hp, hs, hj, hl, ho, hr⟩ := eq_of_bare h
  cases row with
  | payment p =>
    rw [Stores, hp]
    exact List.mem_map_of_mem hm
  | step s =>
    rw [Stores, hs]
    exact List.mem_map_of_mem hm
  | journal j =>
    rw [Stores, hj, hl]
    exact ⟨List.mem_map_of_mem hm, filter_lines hids hm⟩
  | event e =>
    rw [Stores, ho]
    exact List.mem_map_of_mem hm
  | record r =>
    rw [Stores, hr]
    exact List.mem_map_of_mem hm

end Tables

namespace Database

/-- Rows were only added, told apart from the claims on events. -/
def GrowsTo : Database → Database → Prop
  | memory m, memory m' => m.GrowsTo m'
  | tables t, tables t' => t.GrowsTo t'
  | _, _ => False

/-- The row is stored. -/
def Stores : Database → Row → Prop
  | memory m => m.Stores
  | tables t => t.Stores
  | bare => fun _ => False

/-- The instant can be read again: in tables, its year has four digits. -/
def Admits : Database → Instant → Prop
  | memory _, _ => True
  | tables _, i | bare, i => i.InFourDigits

theorem admits_of_inFourDigits {i : Instant} (h : i.InFourDigits) (d : Database) : d.Admits i := by
  cases d with
  | memory m => trivial
  | tables t => exact h
  | bare => exact h

instance (d : Database) (p : Payment) : Decidable (d.Stores (.payment p)) :=
  match d with
  | memory m => inferInstanceAs (Decidable (p ∈ m.payments))
  | tables t => inferInstanceAs (Decidable (PaymentRow.of p ∈ t.payments))
  | bare => inferInstanceAs (Decidable False)

end Database

namespace Store.Keeps

variable {k : Layout} {m : Memory} {s s' : Store} {rows : List Row} {row : Row}

theorem growsTo (h : s.Keeps k m) (h' : s'.Keeps k (m.addAll rows)) : s.data.GrowsTo s'.data := by
  obtain ⟨rfl, n, hd, hn⟩ | ⟨rfl, t, hd, ht⟩ := Layout.cases_of_cleared h.data
  · obtain ⟨-, n', hd', hn'⟩ | ⟨hk, -⟩ := Layout.cases_of_cleared h'.data
    · rw [hd, hd']
      exact Memory.growsTo_of_bare hn hn'
    · cases hk
  · obtain ⟨hk, -⟩ | ⟨-, t', hd', ht'⟩ := Layout.cases_of_cleared h'.data
    · cases hk
    · rw [hd, hd']
      exact Tables.growsTo_of_bare ht ht'

theorem stores (h : s.Keeps k m) (hm : m.Sound) (hrow : m.Stores row) : s.data.Stores row := by
  obtain ⟨-, n, hd, hn⟩ | ⟨-, t, hd, ht⟩ := Layout.cases_of_cleared h.data
  · rw [hd]
    exact hrow.of_bare hn
  · rw [hd]
    exact Tables.stores_of_bare hrow hm.journalIds ht

theorem exists_of_stores (h : s.Keeps k m) {p : Payment} (hp : s.data.Stores (.payment p)) :
    ∃ q ∈ m.payments, q.id = p.id ∧ (s.data.Admits p.createdAt → k = .rows →
      p.createdAt.InFourDigits ∧ q.createdAt.microText = p.createdAt.microText) := by
  obtain ⟨rfl, n, hd, hn⟩ | ⟨rfl, t, hd, ht⟩ := Layout.cases_of_cleared h.data
  · rw [hd] at hp
    obtain ⟨hn, -⟩ := Memory.bare_inj hn
    exact ⟨p, hn ▸ hp, rfl, fun _ => nofun⟩
  · rw [hd] at hp ⊢
    obtain ⟨ht, -⟩ := Tables.eq_of_bare ht
    have hp : PaymentRow.of p ∈ m.payments.map .of := ht ▸ hp
    obtain ⟨q, hq, hrow⟩ := List.mem_map.1 hp
    have hid := congrArg PaymentRow.id hrow
    rw [PaymentRow.id_of, PaymentRow.id_of, Uuid.toText_inj] at hid
    have htext := congrArg PaymentRow.createdAt hrow
    rw [PaymentRow.createdAt_of, PaymentRow.createdAt_of] at htext
    exact ⟨q, hq, hid, fun hadmits _ => ⟨hadmits, htext⟩⟩

end Store.Keeps

end DoubleEntry
